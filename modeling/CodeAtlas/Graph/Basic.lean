import CodeAtlas.Graph.Codec
import CodeAtlas.Json.Draft

/-!
# Knowledge graphs

A graph holds entities, each id once, and relations, each triple of source, target and type once,
in the order in which they came. A relation is held only if the graph has both of its ends.
-/

namespace CodeAtlas

namespace Graph

/-- A relation between two entities. -/
structure Relation where
  source : String
  target : String
  type : RelationType
  metadata : Metadata := []
  deriving Repr, BEq

namespace Relation

/-- Whether a relation has this source, target and type. -/
def hasKey (r : Relation) (source target : String) (type : RelationType) : Bool :=
  r.source == source && r.target == target && r.type == type

/-- The document of a relation. -/
def toJson (r : Relation) : Json :=
  .obj [("source_id", r.source), ("target_id", r.target), ("relation_type", r.type.label),
    ("metadata", .obj r.metadata)]

/-- The names of the fields of a relation. -/
def fieldNames : List String := ["source_id", "target_id", "relation_type", "metadata"]

/-- The relation that a document describes. -/
def ofJson? (j : Json) : Option Relation := do
  let r ← j.record? fieldNames 1
  return {
    source := ← Json.field? Json.str? r "source_id"
    target := ← Json.field? Json.str? r "target_id"
    type := ← Json.field? (fun j => j.label? >>= RelationType.ofLabel?) r "relation_type"
    metadata := ← Json.defaultField? metadataOfJson? [] r "metadata" }

end Relation

/-- A relation as a graph holds it: its ends are the places of entities. -/
structure Edge where
  source : Nat
  target : Nat
  type : RelationType
  metadata : Metadata := []
  deriving Repr, BEq

/-- Whether an edge has these ends and this type. -/
def Edge.hasKey (x : Edge) (source target : Nat) (type : RelationType) : Bool :=
  x.source == source && x.target == target && x.type == type

/-- Ids by type, those of a type sorted. -/
abbrev Listing := List (EntityType × List String)

namespace Listing

/-- The listing without ids. -/
def empty : Listing := EntityType.all.map (·, [])

/-- The ids of a type. -/
def idsOf (l : Listing) (type : EntityType) : List String := (l.lookup type).getD []

/-- The listing with the ids of one type changed. -/
def onType (type : EntityType) (change : List String → List String) (l : Listing) : Listing :=
  l.map fun (t, ids) => (t, if t = type then change ids else ids)

/-- Puts an id in its place among sorted ids, unless it is there. -/
def insertId (id : String) : List String → List String
  | [] => [id]
  | x :: ids =>
      if id < x then id :: x :: ids
      else if id = x then x :: ids
      else x :: insertId id ids

/-- The listing with an id under a type. -/
def add (type : EntityType) (id : String) : Listing → Listing := onType type (insertId id)

/-- The listing without an id under a type. -/
def remove (type : EntityType) (id : String) : Listing → Listing :=
  onType type fun ids => ids.filter (· != id)

end Listing

end Graph

/-- A knowledge graph: entities and relations in the order in which they came. The place of every
entity is found by its id, and the ids of the entities of a type are listed. -/
structure Graph where
  nodes : Array Graph.Entity := #[]
  edges : List Graph.Edge := []
  /-- The places of entities by id, sorted. -/
  index : List (String × Nat) := []
  byType : Graph.Listing := .empty
  deriving Repr, BEq

namespace Graph

/-- The graph without entities. -/
def empty : Graph := {}

/-- The entities in the order in which they came. -/
def entities (g : Graph) : List Entity := g.nodes.toList

/-- The place of the entity with an id. -/
def place? (g : Graph) (id : String) : Option Nat := g.index.lookup id

/-- The entity with an id. -/
def get? (g : Graph) (id : String) : Option Entity := g.place? id >>= fun i => g.nodes[i]?

/-- Whether there is an entity with an id. -/
def contains (g : Graph) (id : String) : Bool := (g.place? id).isSome

/-- The ids of the entities of a type, in order. -/
def idsOf (g : Graph) (type : EntityType) : List String := g.byType.idsOf type

/-- The relation that an edge is, if there are entities in the places of its ends. -/
def relationOf? (g : Graph) (x : Edge) : Option Relation := do
  let source ← g.nodes[x.source]?
  let target ← g.nodes[x.target]?
  return { source := source.id, target := target.id, type := x.type, metadata := x.metadata }

/-- The relations in the order in which they came. -/
def relations (g : Graph) : List Relation := g.edges.filterMap g.relationOf?

/-- The graph with an entity in a place, which was that of an entity with its id. -/
def replaceAt (g : Graph) (i : Nat) (e : Entity) : Graph :=
  let byType := match g.nodes[i]? with
    | some old => if old.type = e.type then g.byType else g.byType.remove old.type e.id
    | none => g.byType
  { g with nodes := g.nodes.setIfInBounds i e, byType := byType.add e.type e.id }

/-- The graph with an entity behind all others, whose id is new. -/
def append (g : Graph) (e : Entity) : Graph :=
  { g with
    nodes := g.nodes.push e
    index := Json.insertMember e.id g.nodes.size g.index
    byType := g.byType.add e.type e.id }

/-- The graph with an entity, in the place of the one with its id or behind all others. It keeps its
times. -/
def put (g : Graph) (e : Entity) : Graph :=
  match g.place? e.id with
  | some i => g.replaceAt i e
  | none => g.append e

/-- The graph with an entity. If there was one with its id, it was made when that one was made and
is changed at `now`. -/
def addEntity (g : Graph) (now : Instant) (e : Entity) : Graph :=
  match g.get? e.id with
  | some old =>
      g.put { e with base := { e.base with createdAt := old.base.createdAt, updatedAt := now } }
  | none => g.put e

/-- Gives the edge with the key of another its notes, or puts that one behind all others. -/
def putEdge (x : Edge) : List Edge → List Edge
  | [] => [x]
  | y :: rest =>
      if y.hasKey x.source x.target x.type then { y with metadata := x.metadata } :: rest
      else y :: putEdge x rest

/-- The graph with a relation, and whether both of its ends are there; if not, nothing changes. -/
def addRelation (g : Graph) (r : Relation) : Bool × Graph :=
  match g.place? r.source, g.place? r.target with
  | some source, some target =>
      (true, { g with edges := putEdge ⟨source, target, r.type, r.metadata⟩ g.edges })
  | _, _ => (false, g)

/-- The graph with a relation if both of its ends are there. -/
def relate (g : Graph) (r : Relation) : Graph := (g.addRelation r).2

/-- Whether there is a relation with this source, target and type. -/
def hasRelation (g : Graph) (source target : String) (type : RelationType) : Bool :=
  match g.place? source, g.place? target with
  | some s, some t => g.edges.any fun x => x.hasKey s t type
  | _, _ => false

/-- The graph with the entities and then the relations of two lists. -/
def ofLists (entities : List Entity) (relations : List Relation) : Graph :=
  relations.foldl relate (entities.foldl put empty)

/-- Puts an entity into the graph if it is new or was changed later than the one there. -/
def mergeEntity (g : Graph) (e : Entity) : Graph :=
  match g.get? e.id with
  | some old => if old.updatedAt.before e.updatedAt then g.put e else g
  | none => g.put e

/-- Puts a relation into the graph unless there is one with its key. -/
def mergeRelation (g : Graph) (r : Relation) : Graph :=
  if g.hasRelation r.source r.target r.type then g else g.relate r

/-- The graph with what another one has. -/
def merge (g other : Graph) : Graph :=
  other.relations.foldl mergeRelation (other.entities.foldl mergeEntity g)

/-- The part of the graph with the given ids: their entities, and the relations between them. -/
def subgraph (g : Graph) (ids : List String) : Graph :=
  let kept := (ids.filterMap g.get?).foldl put empty
  g.relations.foldl relate kept

/-- The document of a graph. -/
def toJson (g : Graph) : Json :=
  .obj [("entities", .arr (g.entities.map Entity.toJson)),
    ("relations", .arr (g.relations.map Relation.toJson))]

/-- What counts in the document of a graph. -/
def shape : Json.Shape :=
  .record [("entities", .list .whole), ("relations", .list (.recordOf Relation.fieldNames))]

/-- The graph that a document describes. -/
def ofJson? (j : Json) : Option Graph := do
  let r ← j.record? ["entities", "relations"] 2
  let entities ← Json.defaultField? (Json.list? Entity.ofJson?) [] r "entities"
  let relations ← Json.defaultField? (Json.list? Relation.ofJson?) [] r "relations"
  return ofLists entities relations

end Graph

end CodeAtlas
