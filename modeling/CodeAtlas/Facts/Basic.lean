import CodeAtlas.Facts.Kind

/-!
# Facts about source code

What an analysis of source code finds, whatever the language: data models with their fields,
endpoints, side effects, settings and dependencies. Each fact names the file and the line where it
was found.
-/

namespace CodeAtlas

/-- A field of a data model. -/
structure Field where
  name : String
  type : String
  description : Option String := none
  required : Bool := true
  default : Option String := none
  tag : Option String := none
  deriving DecidableEq, Repr

/-- A data model. -/
structure Model where
  name : String
  kind : ModelKind
  file : String
  line : Nat
  fields : List Field := []
  methods : List String := []
  description : Option String := none
  parent : Option String := none
  interfaces : List String := []
  decorators : List String := []
  sourceLink : Option String := none
  deriving DecidableEq, Repr

/-- An endpoint of an interface. -/
structure Endpoint where
  method : String
  path : String
  file : String
  line : Nat
  handler : Option String := none
  description : Option String := none
  parameters : List String := []
  responseType : Option String := none
  decorators : List String := []
  sourceLink : Option String := none
  deriving DecidableEq, Repr

/-- A side effect. -/
structure SideEffect where
  category : EffectCategory
  operation : String
  target : Option String
  file : String
  line : Nat
  description : Option String := none
  sourceLink : Option String := none
  deriving DecidableEq, Repr

/-- A setting that the code reads. -/
structure Setting where
  key : String
  source : String
  file : String
  line : Nat
  default : Option String := none
  description : Option String := none
  required : Bool := false
  sourceLink : Option String := none
  deriving DecidableEq, Repr

/-- A package that the code depends on. -/
structure Dependency where
  name : String
  version : Option String := none
  importPath : Option String := none
  file : String
  line : Nat
  deriving DecidableEq, Repr

end CodeAtlas
