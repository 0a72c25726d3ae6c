import CodeAtlas.Facts.Basic
import CodeAtlas.Pattern.Basic
import CodeAtlas.Repository
import CodeAtlas.Text.LineIndex

/-!
# Scanning by rules

A fact is found at a line of a file; its link leads there. Side effects and settings are found by
tables of patterns. Each match of a rule gives one fact, unless a fact with the same key was found
before: the category, operation and target of a side effect, the name of a setting. The lines above
a match can hold decorators.
-/

namespace CodeAtlas

/-! ## Facts at a place -/

namespace Repository

/-- A model at a line of a file. -/
def model (r : Repository) (f : SourceFile) (line : Nat) (name : String) (kind : ModelKind) :
    Model where
  name
  kind
  file := f.rel
  line
  sourceLink := r.sourceLink f.rel line

/-- An endpoint at a line of a file. -/
def endpoint (r : Repository) (f : SourceFile) (line : Nat) (method path : String) : Endpoint where
  method
  path
  file := f.rel
  line
  sourceLink := r.sourceLink f.rel line

/-- A side effect at a line of a file. -/
def sideEffect (r : Repository) (f : SourceFile) (line : Nat) (category : EffectCategory)
    (operation : String) (target : Option String) : SideEffect where
  category
  operation
  target
  file := f.rel
  line
  sourceLink := r.sourceLink f.rel line

/-- A setting at a line of a file. -/
def setting (r : Repository) (f : SourceFile) (line : Nat) (key source : String) : Setting where
  key
  source
  file := f.rel
  line
  sourceLink := r.sourceLink f.rel line

end Repository

/-! ## Rules -/

/-- The most files that are looked at for one category. -/
def maxFiles : Nat := 500

/-- The most methods of a model. -/
def maxMethods : Nat := 20

/-- The most fields of a model. -/
def maxFields : Nat := 50

/-- A rule for side effects. Groups `op` and `target` of its pattern go before the operation and the
target of the rule. -/
structure EffectRule where
  pattern : Pattern
  category : EffectCategory
  operation : String
  target : Option String

/-- A rule for settings: group `key` of its pattern names one, group `default` has its default. -/
structure SettingRule where
  pattern : Pattern
  source : String

/-- The rules of a table whose patterns can be read; an empty target is none. -/
def effectRules (table : List (String × EffectCategory × String × String)) : List EffectRule :=
  table.filterMap fun (text, category, operation, target) =>
    (Pattern.ofString? text).map fun pattern =>
      { pattern, category, operation, target := if target.isEmpty then none else some target }

/-- The rules of a table whose patterns can be read. -/
def settingRules (table : List (String × String)) : List SettingRule :=
  table.filterMap fun (text, source) => (Pattern.ofString? text).map fun pattern =>
    { pattern, source }

/-- The keys of the facts found so far. -/
structure Seen where
  effects : List (EffectCategory × String × Option String) := []
  settings : List String := []
  deriving DecidableEq, Repr

namespace Seen

/-- Adds the key of a side effect: whether it is new, and the keys with it. -/
def addEffect (s : Seen) (category : EffectCategory) (operation : String) (target : Option String) :
    Bool × Seen :=
  let key := (category, operation, target)
  if s.effects.contains key then (false, s) else (true, { s with effects := key :: s.effects })

/-- Adds the name of a setting: whether it is new, and the keys with it. -/
def addSetting (s : Seen) (key : String) : Bool × Seen :=
  if s.settings.contains key then (false, s) else (true, { s with settings := key :: s.settings })

end Seen

/-- The side effect that a match of a rule gives. -/
def EffectRule.fact (rule : EffectRule) (r : Repository) (rel : String) (line : Nat) (m : Match) :
    SideEffect where
  category := rule.category
  operation := ((m.capture? "op").map snakeCased).getD rule.operation
  target := (m.capture? "target").or rule.target
  file := rel
  line
  sourceLink := r.sourceLink rel line

/-- The setting with a key that a match of a rule gives. -/
def SettingRule.fact (rule : SettingRule) (r : Repository) (rel : String) (line : Nat) (m : Match)
    (key : String) : Setting :=
  let default := (m.capture? "default").map unquoted
  { key, source := rule.source, file := rel, line, default, required := default.isNone
    sourceLink := r.sourceLink rel line }

/-- The setting that a match of a rule gives, if it names one. -/
def SettingRule.fact? (rule : SettingRule) (r : Repository) (rel : String) (line : Nat)
    (m : Match) :
    Option Setting :=
  (m.capture? "key").map (rule.fact r rel line m)

/-- Adds a side effect to those found, if its key is new. -/
def addEffect (state : Array SideEffect × Seen) (e : SideEffect) : Array SideEffect × Seen :=
  match state.2.addEffect e.category e.operation e.target with
  | (true, seen) => (state.1.push e, seen)
  | (false, seen) => (state.1, seen)

/-- Adds a setting to those found, if its key is new. -/
def addSetting (state : Array Setting × Seen) (s : Setting) : Array Setting × Seen :=
  match state.2.addSetting s.key with
  | (true, seen) => (state.1.push s, seen)
  | (false, seen) => (state.1, seen)

/-- The side effects with new keys, and the keys with theirs. -/
def newEffects (facts : List SideEffect) (seen : Seen) : List SideEffect × Seen :=
  let (found, seen) := facts.foldl addEffect (#[], seen)
  (found.toList, seen)

/-- The settings with new keys, and the keys with theirs. -/
def newSettings (facts : List Setting) (seen : Seen) : List Setting × Seen :=
  let (found, seen) := facts.foldl addSetting (#[], seen)
  (found.toList, seen)

/-- Where the first character of a match stands that is no white space. -/
def Match.textStart (m : Match) : Nat :=
  m.start + Text.byteLength ((m.text 0).toList.takeWhile Unicode.isBlank)

/-- The matches of a pattern in a file, each with the line where it starts. -/
def SourceFile.find (f : SourceFile) (p : Pattern) : List (Nat × Match) :=
  let index := Text.LineIndex.ofText f.content
  (p.findAll f.content).map fun m => (index.lineOf m.start, m)

/-- Adds the side effects that the rules find in a file to those found, rule by rule, and their keys
to the keys. -/
def collectEffects (r : Repository) (rules : List EffectRule) (file : SourceFile)
    (state : Array SideEffect × Seen) : Array SideEffect × Seen :=
  let facts := rules.flatMap fun rule => (file.find rule.pattern).map fun (line, m) =>
    rule.fact r file.rel line m
  facts.foldl addEffect state

/-- Adds the settings that the rules find in a file to those found, rule by rule, and their keys to
the keys. -/
def collectSettings (r : Repository) (rules : List SettingRule) (file : SourceFile)
    (state : Array Setting × Seen) : Array Setting × Seen :=
  let facts := rules.flatMap fun rule => (file.find rule.pattern).filterMap fun (line, m) =>
    rule.fact? r file.rel line m
  facts.foldl addSetting state

/-- The side effects that the rules find in a file, rule by rule, and the keys with theirs. -/
def scanEffects (r : Repository) (rules : List EffectRule) (file : SourceFile) (seen : Seen) :
    List SideEffect × Seen :=
  let (found, seen) := collectEffects r rules file (#[], seen)
  (found.toList, seen)

/-- The settings that the rules find in a file, rule by rule, and the keys with theirs. -/
def scanSettings (r : Repository) (rules : List SettingRule) (file : SourceFile) (seen : Seen) :
    List Setting × Seen :=
  let (found, seen) := collectSettings r rules file (#[], seen)
  (found.toList, seen)

/-- The side effects that the rules find in files, each file on its own. -/
def scanAllEffects (r : Repository) (rules : List EffectRule) (files : List SourceFile) :
    List SideEffect :=
  files.flatMap fun f => (scanEffects r rules f {}).1

/-- The settings that the rules find in files, each file on its own. -/
def scanAllSettings (r : Repository) (rules : List SettingRule) (files : List SourceFile) :
    List Setting :=
  files.flatMap fun f => (scanSettings r rules f {}).1

/-- The files with certain extensions that are looked at. -/
def Repository.examined (r : Repository) (extensions : List String) : List SourceFile :=
  (r.sourceFiles extensions).take maxFiles

/-- The files that are no tests. -/
def untested (files : List SourceFile) : List SourceFile := files.filter fun f => !isTestFile f.rel

/-! ## Decorators

Some languages let lines that start with an at sign stand above a declaration.
-/

namespace Source

/-- A line that starts with a decorator. -/
def decoratorLine : Pattern := .ofString r"^\s*@(?P<name>[\w.]+)"

/-- The names in the lines right above a line, as far up as the lines match a pattern. -/
def namesAbove (pattern : Pattern) (lines : List (List Char)) (line : Nat) : List String :=
  let found := (lines.take (line - 1)).reverse.map pattern.find?
  (((found.takeWhile Option.isSome).filterMap id).map (·.textOf "name")).reverse

/-- The names of the decorators in the lines right above a line. -/
def decoratorsAbove (lines : List (List Char)) (line : Nat) : List String :=
  namesAbove decoratorLine lines line

end Source

end CodeAtlas
