import CodeAtlas.Unicode.Property
import CodeAtlas.Unicode.Script

/-!
# Boundaries in texts

What each character does where a text is cut into clusters, words and sentences, in edition 16 of
the character database. Almost all of it follows from categories, listed traits and scripts.
`Cut.members` are the characters that do the same at cuts of one kind.
-/

namespace CodeAtlas.Unicode

/-- The characters that have a category other than that of unassigned code points. -/
def assigned : CharSet := ofCategories Category.all

/-- The characters that a display without support for them leaves out. -/
def ignorable : CharSet :=
  (CharSet.unions [Trait.otherDefaultIgnorableCodePoint.members, Category.format.members,
    Trait.variationSelector.members]).diff
    (.unions [Trait.whiteSpace.members, .ofText "FFF9-FFFB 13430-13440",
      Trait.prependedConcatenationMark.members])

/-- The characters that join the one in front of them. -/
def extending : CharSet :=
  (ofCategories [.nonspacingMark, .enclosingMark]).union Trait.otherGraphemeExtend.members

namespace Boundary

/-- The characters of a script with the given name. -/
def ofScript (name : String) : CharSet :=
  .unions ((scripts.filter fun s => s.name == name).map Script.members)

/-- The character that joins its neighbours. -/
def joiner : CharSet := .ofText "200D"

/-- The joiner and its opposite. -/
def joinControls : CharSet := Trait.joinControl.members

/-- Marks and modifiers that join the character in front of them, inside a word or a sentence. -/
def joining : CharSet :=
  .unions [extending, Trait.emojiModifier.members, Category.spacingMark.members]

/-- The syllables of two letters: every 28th syllable. -/
def openSyllables : CharSet :=
  .ofSorted ((List.range 399).map fun i => (0xAC00 + 28 * i, 0xAC00 + 28 * i))

/-- All syllables. -/
def syllables : CharSet := .ofText "AC00-D7A3"

/-! ## Clusters -/

/-- Characters that join the one behind them. -/
def prepended : CharSet :=
  Trait.prependedConcatenationMark.members.union
    (.ofText "D4E 111C2-111C3 113D1 1193F 11941 11A3A 11A84-11A89 11D46 11F02")

/-- Characters that stand apart from all others. -/
def apart : CharSet :=
  (CharSet.unions [ofCategories [.lineSeparator, .paragraphSeparator, .control, .format],
    ignorable.diff assigned]).diff (.unions [.ofText "A D", joinControls, extending,
      Trait.prependedConcatenationMark.members])

/-- Marks with a width that join the character in front of them. -/
def spacing : CharSet :=
  (Category.spacingMark.members.union (.ofText "E33 EB3")).diff
    (extending.union (.ofText "102B-102C 1038 1062-1064 1067-106D 1083 1087-108C 108F 109A-109C
      1A61 1A63-1A64 AA7B AA7D 11720-11721"))

/-- What a character is to clusters, by its names. -/
def clusterSets : List (List String × CharSet) := [
  (["cr"], .ofText "D"), (["lf"], .ofText "A"), (["cn", "control"], apart),
  (["ex", "extend"], extending.union Trait.emojiModifier.members |>.diff joiner),
  (["zwj"], joiner), (["ri", "regionalindicator"], Trait.regionalIndicator.members),
  (["pp", "prepend"], prepended), (["sm", "spacingmark"], spacing),
  (["l"], .ofText "1100-115F A960-A97C"), (["v"], .ofText "1160-11A7 D7B0-D7C6 16D63 16D67-16D6A"),
  (["t"], .ofText "11A8-11FF D7CB-D7FB"), (["lv"], openSyllables),
  (["lvt"], syllables.diff openSyllables)]

/-! ## Words -/

/-- Characters of scripts that are written without spaces between words. -/
def unspaced : CharSet :=
  (CharSet.unions ((["Thai", "Lao", "Myanmar", "Khmer", "Tai_Le", "New_Tai_Lue", "Tai_Tham",
    "Tai_Viet", "Ahom"]).map ofScript)).inter (ofCategories [.otherLetter, .modifierLetter])

/-- The Katakana script and the signs that are written in its words. -/
def kana : CharSet := (ofScript "Katakana").union (.ofText "3031-3035 309B-309C 30A0 30FC FF70")

/-- The letters of the Hebrew script. -/
def hebrew : CharSet := (ofScript "Hebrew").inter Category.otherLetter.members

/-- Letters of which words consist. -/
def wordLetters : CharSet :=
  (alphabetic.union (.ofText "2C2-2C5 2D2-2D7 2DE-2DF 2E5-2EB 2ED 2EF-2FF 55A-55C 55E 58A 5F3 70F
    A708-A716 A720-A721 A789-A78A AB5B")).diff
    (.unions [Trait.ideographic.members, kana, unspaced, ofScript "Hiragana", joining, hebrew])

/-- Characters that count as digits. -/
def numeric : CharSet :=
  .unions [Category.decimalNumber.members, .ofText "66B",
    Trait.prependedConcatenationMark.members.diff (.ofText "70F")]

/-- Format characters that stand inside of a word. -/
def wordFormat : CharSet :=
  Category.format.members.diff (.unions [.ofText "200B E0020-E007F", joinControls,
    Trait.prependedConcatenationMark.members])

/-- What a character is to words, by its names. -/
def wordSets : List (List String × CharSet) := [
  (["cr"], .ofText "D"), (["lf"], .ofText "A"), (["nl", "newline"], .ofText "B-C 85 2028-2029"),
  (["extend"], joining.diff joiner), (["zwj"], joiner),
  (["ri", "regionalindicator"], Trait.regionalIndicator.members), (["fo", "format"], wordFormat),
  (["ka", "katakana"], kana), (["hl", "hebrewletter"], hebrew), (["le", "aletter"], wordLetters),
  (["sq", "singlequote"], .ofText "27"), (["dq", "doublequote"], .ofText "22"),
  (["mb", "midnumlet"], .ofText "2E 2018-2019 2024 FE52 FF07 FF0E"),
  (["ml", "midletter"], .ofText "3A B7 387 55F 5F4 2027 FE13 FE55 FF1A"),
  (["mn", "midnum"],
    .ofText "2C 3B 37E 589 60C-60D 66C 7F8 2044 FE10 FE14 FE50 FE54 FF0C FF1B"),
  (["nu", "numeric"], numeric),
  (["ex", "extendnumlet"], Category.connectorPunctuation.members.union (.ofText "202F")),
  (["wsegspace"], .ofText "20 1680 2000-2006 2008-200A 205F 3000")]

/-! ## Sentences -/

/-- Marks that join the character in front of them, inside a sentence. -/
def sentenceJoining : CharSet :=
  .unions [extending, joiner, Category.spacingMark.members]

/-- Small letters that show that a sentence goes on; some scripts have them without capitals. -/
def smallLetters : CharSet := lowercase.diff (extending.union (.ofText "10D0-10FA 10FD-10FF"))

/-- Capitals, with which a sentence may start. -/
def capitals : CharSet :=
  Category.titlecaseLetter.members.union (uppercase.diff (.ofText "1C90-1CBA 1CBD-1CBF"))

/-- Stops that end an abbreviation as well as a sentence. -/
def stops : CharSet := .ofText "2E 2024 FE52 FF0E"

/-- Characters that end a sentence. -/
def terminals : CharSet := Trait.sentenceTerminal.members.diff stops

/-- Brackets and quotes. -/
def closing : CharSet :=
  (CharSet.unions [ofCategories [.openPunctuation, .closePunctuation, .initialPunctuation,
    .finalPunctuation], .ofText "22 27 275B-2760 2E00-2E01 2E06-2E08 2E0B 1F676-1F678"]).diff
    (stops.union terminals)

/-- What a character is to sentences, by its names. -/
def sentenceSets : List (List String × CharSet) := [
  (["cr"], .ofText "D"), (["lf"], .ofText "A"), (["ex", "extend"], sentenceJoining),
  (["se", "sep"], .ofText "85 2028-2029"),
  (["fo", "format"], Category.format.members.diff (.unions [.ofText "E0020-E007F", joinControls,
    numeric])),
  (["sp"], blanks.diff (.ofText "A D 85 2028-2029")),
  (["lo", "lower"], smallLetters), (["up", "upper"], capitals),
  (["le", "oletter"], (alphabetic.union (.ofText "5F3")).diff
    (.unions [smallLetters, capitals, sentenceJoining])),
  (["nu", "numeric"], numeric.union (.ofText "66C")), (["at", "aterm"], stops),
  (["sc", "scontinue"], .ofText "2C-2D 3A-3B 37E 55D 60C-60D 7F8 1802 1808 2013-2014 3001
    FE10-FE11 FE13-FE14 FE31-FE32 FE50-FE51 FE54-FE55 FE58 FE63 FF0C-FF0D FF1A-FF1B FF64"),
  (["st", "sterm"], terminals), (["cl", "close"], closing)]

end Boundary

/-- A kind of cut. -/
inductive Cut where
  | cluster
  | word
  | sentence
  deriving DecidableEq, Repr

/-- The characters that do what a name says at cuts of a kind; the name is in lowercase and without
underscores. -/
def Cut.members? (c : Cut) (name : String) : Option CharSet :=
  let sets := match c with
    | .cluster => Boundary.clusterSets
    | .word => Boundary.wordSets
    | .sentence => Boundary.sentenceSets
  sets.findSome? fun (names, set) => if names.contains name then some set else none

end CodeAtlas.Unicode
