import CodeAtlas.Pattern.Phrase
import CodeAtlas.Unicode.ScriptUse
import CodeAtlas.Unicode.Age
import CodeAtlas.Unicode.Boundary

/-!
# Named properties

The sets that `\p` names: general categories and groups of them, scripts, properties that a
character has or has not, ages, and what a character does where texts are cut. Names are compared
loosely: case, spaces, hyphens, underscores and an `is` in front do not count.
-/

namespace CodeAtlas.Pattern

open Unicode (CharSet Category Trait Script Cut ofCategories assigned ignorable extending)

/-- The form in which names are compared. -/
def looseName (name : List Char) : String :=
  let (isFirst, rest) := match name with
    | a :: b :: rest => if a.toLower == 'i' && b.toLower == 's' then (true, rest) else (false, name)
    | _ => (false, name)
  let kept := (rest.filter fun c => c.toNat < 128 && c != ' ' && c != '_' && c != '-').map
    Char.toLower
  -- a property of its own, not the category of one letter
  if isFirst && kept == ['c'] then "isc" else String.ofList kept

/-- The set that one of several names, separated by spaces, stands for. -/
def byName? {α : Type} (table : List (String × α)) (name : String) : Option α :=
  table.findSome? fun (names, value) =>
    if (names.splitOn " ").contains name then some value else none

/-- The names of categories and of groups of categories. Surrogates are no characters. -/
def categoryNames : List (String × List Category) := [
  ("lu uppercaseletter", [.uppercaseLetter]), ("ll lowercaseletter", [.lowercaseLetter]),
  ("lt titlecaseletter", [.titlecaseLetter]), ("lm modifierletter", [.modifierLetter]),
  ("lo otherletter", [.otherLetter]), ("mn nonspacingmark", [.nonspacingMark]),
  ("mc spacingmark", [.spacingMark]), ("me enclosingmark", [.enclosingMark]),
  ("nd decimalnumber digit", [.decimalNumber]), ("nl letternumber", [.letterNumber]),
  ("no othernumber", [.otherNumber]), ("pc connectorpunctuation", [.connectorPunctuation]),
  ("pd dashpunctuation", [.dashPunctuation]), ("ps openpunctuation", [.openPunctuation]),
  ("pe closepunctuation", [.closePunctuation]), ("pi initialpunctuation", [.initialPunctuation]),
  ("pf finalpunctuation", [.finalPunctuation]), ("po otherpunctuation", [.otherPunctuation]),
  ("sm mathsymbol", [.mathSymbol]), ("sc currencysymbol", [.currencySymbol]),
  ("sk modifiersymbol", [.modifierSymbol]), ("so othersymbol", [.otherSymbol]),
  ("zs spaceseparator", [.spaceSeparator]), ("zl lineseparator", [.lineSeparator]),
  ("zp paragraphseparator", [.paragraphSeparator]), ("cc control cntrl", [.control]),
  ("cf format", [.format]), ("co privateuse", [.privateUse]),
  ("l letter", [.uppercaseLetter, .lowercaseLetter, .titlecaseLetter, .modifierLetter,
    .otherLetter]),
  ("lc casedletter", [.uppercaseLetter, .lowercaseLetter, .titlecaseLetter]),
  ("m mark combiningmark", [.nonspacingMark, .spacingMark, .enclosingMark]),
  ("n number", [.decimalNumber, .letterNumber, .otherNumber]),
  ("p punctuation punct", [.connectorPunctuation, .dashPunctuation, .openPunctuation,
    .closePunctuation, .initialPunctuation, .finalPunctuation, .otherPunctuation]),
  ("s symbol", [.mathSymbol, .currencySymbol, .modifierSymbol, .otherSymbol]),
  ("z separator", [.spaceSeparator, .lineSeparator, .paragraphSeparator])]

/-- The set that a category, or a group of categories, stands for. -/
def category? (name : String) : Option CharSet :=
  match name with
  | "any" => some .all
  | "assigned" => some assigned
  | "ascii" => some (.ofText "0-7F")
  | "cn" | "unassigned" => some assigned.complement
  | "c" | "other" =>
      some (.unions [assigned.complement,
        ofCategories [.control, .format, .surrogate, .privateUse]])
  | _ => (byName? categoryNames name).map ofCategories

/-- The names of listed properties. -/
def traitNames : List (String × Trait) := [
  ("asciihexdigit ahex", .asciiHexDigit), ("bidicontrol bidic", .bidiControl),
  ("changeswhencasefolded cwcf", .changesWhenCasefolded),
  ("changeswhenlowercased cwl", .changesWhenLowercased),
  ("changeswhentitlecased cwt", .changesWhenTitlecased),
  ("changeswhenuppercased cwu", .changesWhenUppercased), ("dash", .dash),
  ("deprecated dep", .deprecated), ("diacritic dia", .diacritic), ("emoji", .emoji),
  ("emojicomponent ecomp", .emojiComponent), ("emojimodifier emod", .emojiModifier),
  ("emojimodifierbase ebase", .emojiModifierBase), ("emojipresentation epres", .emojiPresentation),
  ("extendedpictographic extpict", .extendedPictographic), ("extender ext", .extender),
  ("graphemelink grlink", .graphemeLink), ("hexdigit hex", .hexDigit), ("hyphen", .hyphen),
  ("idsbinaryoperator idsb", .idsBinaryOperator), ("idstrinaryoperator idst", .idsTrinaryOperator),
  ("idsunaryoperator idsu", .idsUnaryOperator), ("idcompatmathstart", .idCompatMathStart),
  ("idcompatmathcontinue", .idCompatMathContinue), ("ideographic ideo", .ideographic),
  ("joincontrol joinc", .joinControl), ("logicalorderexception loe", .logicalOrderException),
  ("modifiercombiningmark mcm", .modifierCombiningMark),
  ("noncharactercodepoint nchar", .noncharacterCodePoint),
    ("otheralphabetic oalpha", .otherAlphabetic),
  ("otherdefaultignorablecodepoint odi", .otherDefaultIgnorableCodePoint),
  ("othergraphemeextend ogrext", .otherGraphemeExtend), ("otheridcontinue oidc", .otherIdContinue),
  ("otheridstart oids", .otherIdStart), ("otherlowercase olower", .otherLowercase),
  ("othermath omath", .otherMath), ("otheruppercase oupper", .otherUppercase),
  ("patternsyntax patsyn", .patternSyntax), ("patternwhitespace patws", .patternWhiteSpace),
  ("prependedconcatenationmark pcm", .prependedConcatenationMark),
  ("quotationmark qmark", .quotationMark), ("radical", .radical),
    ("regionalindicator ri", .regionalIndicator),
  ("sentenceterminal sterm", .sentenceTerminal), ("softdotted sd", .softDotted),
  ("terminalpunctuation term", .terminalPunctuation), ("unifiedideograph uideo", .unifiedIdeograph),
  ("variationselector vs", .variationSelector), ("whitespace wspace space", .whiteSpace)]

/-- The characters with which an identifier starts. -/
def identifierStarts : CharSet :=
  (CharSet.unions [Unicode.letters, Category.letterNumber.members, Trait.otherIdStart.members]).diff
    (Trait.patternSyntax.members.union Trait.patternWhiteSpace.members)

/-- The characters with which an identifier goes on. -/
def identifierParts : CharSet :=
  .unions [identifierStarts, ofCategories [.nonspacingMark, .spacingMark, .decimalNumber,
    .connectorPunctuation], Trait.otherIdContinue.members]

/-- A property that follows from others by the rules of the character database. -/
def derived? (name : String) : Option CharSet :=
  match name with
  | "alphabetic" | "alpha" => some Unicode.alphabetic
  | "caseignorable" | "ci" =>
      some ((ofCategories [.nonspacingMark, .enclosingMark, .format, .modifierLetter,
        .modifierSymbol]).union Unicode.wordPunctuation)
  | "cased" =>
      some (.unions [Unicode.lowercase, Unicode.uppercase, Category.titlecaseLetter.members])
  | "changeswhencasemapped" | "cwcm" =>
      some (.unions [Trait.changesWhenLowercased.members, Trait.changesWhenUppercased.members,
        Trait.changesWhenTitlecased.members])
  | "defaultignorablecodepoint" | "di" => some ignorable
  | "graphemebase" | "grbase" =>
      some ((assigned.diff
        (ofCategories [.control, .format, .surrogate, .privateUse, .lineSeparator,
          .paragraphSeparator])).diff extending)
  | "graphemeextend" | "grext" => some extending
  | "idstart" | "ids" => some identifierStarts
  | "idcontinue" | "idc" => some identifierParts
  | "xidstart" | "xids" =>
      some (identifierStarts.diff
        (.ofText "37A E33 EB3 309B-309C FC5E-FC63 FDFA-FDFB FE70-FE7E/2 FF9E-FF9F"))
  | "xidcontinue" | "xidc" =>
      some (identifierParts.diff (.ofText "37A 309B-309C FC5E-FC63 FDFA-FDFB FE70-FE7E/2"))
  | "lowercase" | "lower" => some Unicode.lowercase
  | "uppercase" | "upper" => some Unicode.uppercase
  | "math" => some (Category.mathSymbol.members.union Trait.otherMath.members)
  | _ => none

/-- The property that a character has or has not. -/
def trait? (name : String) : Option CharSet :=
  (derived? name).or ((byName? traitNames name).map Trait.members)

/-- The script of a name or a code; two scripts have a second code. -/
def script? (name : String) : Option Script :=
  let name := match name with
    | "qaac" => "copt"
    | "qaai" => "zinh"
    | name => name
  Unicode.scripts.find? fun s =>
    looseName s.code.toList == name || looseName s.name.toList == name

/-- The characters as old as an edition, written `V6_1` or `6.1`. -/
def age? (value : String) : Option CharSet :=
  let digits := value.toList.filter (· != '.')
  let digits := if value.contains '.' then 'v' :: digits else digits
  (Unicode.ageTable.find? fun p => 'v' :: p.1.toList.filter (· != '.') == digits).bind fun p =>
    Unicode.assignedUpTo? p.1

/-- The set that a name stands for. The first three names belong to categories, although properties
are abbreviated in the same way. -/
def PropertyName.members? : PropertyName → Option CharSet
  | .plain name =>
      let name := looseName name
      let trait? := if ["cf", "sc", "lc"].contains name then none else trait? name
      trait?.or ((category? name).or ((script? name).map Script.members))
  | .valued name value =>
      let value := looseName value
      match looseName name with
      | "gc" | "generalcategory" => category? value
      | "sc" | "script" => (script? value).map Script.members
      | "scx" | "scriptextensions" => (script? value).map Script.used
      | "age" => age? value
      | "gcb" | "graphemeclusterbreak" => Cut.cluster.members? value
      | "wb" | "wordbreak" => Cut.word.members? value
      | "sb" | "sentencebreak" => Cut.sentence.members? value
      | _ => none

end CodeAtlas.Pattern
