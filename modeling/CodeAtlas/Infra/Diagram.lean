import CodeAtlas.Json.Decode

/-!
# Infrastructure diagrams

A diagram holds resources by address, each with the addresses that it depends on and those that
depend on it. A diagram is extended by the resources it does not have yet; then the second list of
every resource is made anew from the first lists of all.
-/

namespace CodeAtlas.Infra

/-- A declared resource. -/
structure Resource where
  address : String
  resourceType : String
  name : String
  /-- Whether it is declared as a resource, as data or as a module. -/
  kind : String
  file : String
  line : Nat
  /-- The addresses that the declaration mentions. -/
  dependencies : List String := []
  /-- The addresses whose declarations mention this one. -/
  dependents : List String := []
  /-- The settings with a plain value, sorted by name. -/
  attributes : List (String × String) := []
  deriving DecidableEq, Repr

/-- The resources of a configuration. -/
structure Diagram where
  resources : List Resource := []
  deriving DecidableEq, Repr

namespace Resource

/-- The document of a resource. -/
def toJson (r : Resource) : Json :=
  .obj [("address", r.address), ("resource_type", r.resourceType), ("name", r.name),
    ("kind", r.kind), ("file", r.file), ("line", .nat r.line),
      ("dependencies", .strings r.dependencies),
    ("dependents", .strings r.dependents),
    ("attributes", .obj (r.attributes.map fun (k, v) => (k, .str v)))]

/-- The resource that a document describes. -/
def ofJson? (j : Json) : Option Resource := do
  let r ← j.record? ["address", "resource_type", "name", "kind", "file", "line", "dependencies",
    "dependents", "attributes"] 0
  return {
    address := ← Json.field? Json.str? r "address"
    resourceType := ← Json.field? Json.str? r "resource_type"
    name := ← Json.field? Json.str? r "name"
    kind := ← Json.field? Json.str? r "kind"
    file := ← Json.field? Json.str? r "file"
    line := ← Json.field? Json.word? r "line"
    dependencies := ← Json.field? Json.strings? r "dependencies"
    dependents := ← Json.field? Json.strings? r "dependents"
    attributes := ← Json.field? (Json.members? Json.str?) r "attributes" }

end Resource

namespace Diagram

/-- The first resource with an address. -/
def get? (d : Diagram) (address : String) : Option Resource :=
  d.resources.find? fun r => r.address == address

/-- The resources of a type. -/
def ofType (d : Diagram) (type : String) : List Resource :=
  d.resources.filter fun r => r.resourceType == type

/-- The resources that depend on nothing. -/
def roots (d : Diagram) : List Resource := d.resources.filter fun r => r.dependencies.isEmpty

/-- Whether there is no resource. -/
def isEmpty (d : Diagram) : Bool := d.resources.isEmpty

/-- The addresses of the resources that depend on `address`, once for every mention. -/
def dependentsOf (resources : List Resource) (address : String) : List String :=
  resources.flatMap fun r => (r.dependencies.filter (· == address)).map fun _ => r.address

/-- Gives every resource its dependents among `all`. Of several resources with one address only the
first has any; `seen` are the addresses in front. -/
def linkFrom (all : List Resource) (seen : List String) : List Resource → List Resource
  | [] => []
  | r :: rest =>
      { r with dependents := if seen.contains r.address then [] else dependentsOf all r.address } ::
        linkFrom all (r.address :: seen) rest

/-- The diagram with every list of dependents made anew. -/
def link (d : Diagram) : Diagram := ⟨linkFrom d.resources [] d.resources⟩

/-- Adds a resource unless there is one with its address. -/
def add (d : Diagram) (r : Resource) : Diagram :=
  if (d.get? r.address).isSome then d else ⟨d.resources ++ [r]⟩

/-- The diagram with the resources of another that it lacks, linked. -/
def extend (d other : Diagram) : Diagram := (other.resources.foldl add d).link

/-- The name of the node of a resource. -/
def nodeName (address : String) : String :=
  address.map fun c => if c.isAlphanum then c else '_'

/-- The text of the diagram as a flow chart. An arrow points to what a resource depends on. -/
def toMermaid (d : Diagram) : String :=
  let nodes := d.resources.map fun r =>
    "    " ++ nodeName r.address ++ "[\"" ++ r.address ++ "\"]\n"
  let arrows := d.resources.flatMap fun r => r.dependencies.map fun dep =>
    "    " ++ nodeName r.address ++ " --> " ++ nodeName dep ++ "\n"
  "flowchart LR\n" ++ String.join (nodes ++ arrows)

/-- The document of a diagram. -/
def toJson (d : Diagram) : Json := .obj [("resources", .arr (d.resources.map Resource.toJson))]

/-- The diagram that a document describes. -/
def ofJson? (j : Json) : Option Diagram := do
  let r ← j.record? ["resources"] 0
  return ⟨← Json.field? (Json.list? Resource.ofJson?) r "resources"⟩

end Diagram

end CodeAtlas.Infra
