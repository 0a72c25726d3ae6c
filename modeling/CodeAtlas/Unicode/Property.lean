import CodeAtlas.Unicode.Category
import CodeAtlas.Unicode.Trait
import CodeAtlas.Unicode.CaseRun

/-!
# Character properties

Properties that are put together from categories and listed traits, by the rules of the character
database. Patterns keep to edition 16 of it, and these sets carry no mark; texts are read by
edition 17, and the sets for that are `current…`.
-/

namespace CodeAtlas.Unicode

/-! ## Edition 16 -/

/-- The letters. -/
def letters : CharSet :=
  ofCategories [.uppercaseLetter, .lowercaseLetter, .titlecaseLetter, .modifierLetter, .otherLetter]

/-- The characters that modify the one in front of them. -/
def marks : CharSet := ofCategories [.nonspacingMark, .spacingMark, .enclosingMark]

/-- The decimal digits of all scripts. -/
def digits : CharSet := Category.decimalNumber.members

/-- The white space characters. -/
def blanks : CharSet := Trait.whiteSpace.members

/-- Lowercase letters and what stands for them. -/
def lowercase : CharSet := Category.lowercaseLetter.members.union Trait.otherLowercase.members

/-- Uppercase letters and what stands for them. -/
def uppercase : CharSet := Category.uppercaseLetter.members.union Trait.otherUppercase.members

/-- Letters, letter numbers and the marks that count as letters. -/
def alphabetic : CharSet :=
  .unions [letters, Category.letterNumber.members, Trait.otherAlphabetic.members,
    lowercase, uppercase]

/-- Word characters: letters, marks, decimal digits, connector punctuation and join controls. -/
def wordChars : CharSet :=
  .unions [alphabetic, marks, digits, Category.connectorPunctuation.members,
    Trait.joinControl.members]

/-- Punctuation that may stand inside a word. -/
def wordPunctuation : CharSet :=
  .ofText "27 2E 3A B7 387 55F 5F4 2018-2019 2024 2027 FE13 FE52 FE55 FF07 FF0E FF1A"

/-! ## Edition 17 -/

/-- Letters, letter numbers and the marks that count as letters. -/
def currentAlphabetic : CharSet :=
  (ofCurrentCategories [.uppercaseLetter, .lowercaseLetter, .titlecaseLetter, .modifierLetter,
    .otherLetter, .letterNumber]).union Trait.otherAlphabetic.current

/-- Letters and numbers. -/
def currentAlphanumeric : CharSet :=
  currentAlphabetic.union (ofCurrentCategories [.decimalNumber, .otherNumber])

/-- Letters that are lowercase, uppercase or titlecase. -/
def currentCased : CharSet :=
  .unions [ofCurrentCategories [.lowercaseLetter, .uppercaseLetter, .titlecaseLetter],
    Trait.otherLowercase.current, Trait.otherUppercase.current]

/-- Characters that are skipped when the context of a letter is looked at. -/
def currentCaseIgnorable : CharSet :=
  (ofCurrentCategories [.nonspacingMark, .enclosingMark, .format, .modifierLetter,
    .modifierSymbol]).union wordPunctuation

/-- Characters that join the one in front of them. -/
def currentExtending : CharSet :=
  (ofCurrentCategories [.nonspacingMark, .enclosingMark]).union Trait.otherGraphemeExtend.current

/-- Characters that cannot be shown: controls, formats, separators and those without a meaning. -/
def currentHidden : CharSet :=
  (ofCurrentCategories [.uppercaseLetter, .lowercaseLetter, .titlecaseLetter, .modifierLetter,
    .otherLetter, .nonspacingMark, .spacingMark, .enclosingMark, .decimalNumber, .letterNumber,
    .otherNumber, .connectorPunctuation, .dashPunctuation, .openPunctuation, .closePunctuation,
    .initialPunctuation, .finalPunctuation, .otherPunctuation, .mathSymbol, .currencySymbol,
    .modifierSymbol, .otherSymbol]).complement

/-- Characters that are not shown although they are letters or marks: fillers. -/
def currentFillers : CharSet := Trait.otherDefaultIgnorableCodePoint.current

/-- Whether `c` is white space. -/
def isBlank (c : Char) : Bool := blanks.contains c

/-- Whether `c` is a letter, or a mark that counts as one. -/
def isAlphabetic (c : Char) : Bool := currentAlphabetic.contains c

/-- Whether `c` is a letter or a number in any script. -/
def isAlphanumeric (c : Char) : Bool :=
  if c.toNat < 128 then c.isAlphanum else currentAlphanumeric.contains c

/-- Whether `c` may stand in a word: a letter, mark, digit, connector or join control. -/
def isWordChar (c : Char) : Bool := wordChars.contains c

/-! ## Lowercase -/

/-- The lowercase form of `c`. Only U+0130 has one of two characters. -/
def lowerChars (c : Char) : List Char :=
  let n := c.toNat
  if n < 128 then [c.toLower]
  else if n == 0x130 then ['i', Char.ofNat 0x307]
  else match lowercaseRuns.findSome? (·.map? n) with
    | some m => [Char.ofNat m]
    | none => [c]

/-- Whether a cased letter is the first of `chars` that is not skipped. -/
def startsCased (chars : List Char) : Bool :=
  match chars.dropWhile currentCaseIgnorable.contains with
  | [] => false
  | c :: _ => currentCased.contains c

/-- Lowercases `chars`, `before` being the text in front of them, last character first. A capital
sigma at the end of a word takes its final form. -/
def lowerFrom (before : List Char) : List Char → List Char
  | [] => []
  | c :: rest =>
      let low :=
        if c.toNat == 0x3A3 then
          if startsCased before && !startsCased rest then [Char.ofNat 0x3C2] else [Char.ofNat 0x3C3]
        else lowerChars c
      low ++ lowerFrom (c :: before) rest

/-- The text in lowercase. -/
def lower (chars : List Char) : List Char := lowerFrom [] chars

end CodeAtlas.Unicode
