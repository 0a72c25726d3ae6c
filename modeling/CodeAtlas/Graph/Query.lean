import CodeAtlas.Graph.Basic

/-!
# Queries

The entities of a type, the relations that satisfy filters, the entities related to one, and the
paths between two. Entities are listed by id, relations by source, target and type.
-/

namespace CodeAtlas.Graph

/-- Which ends of relations are looked at. -/
inductive Direction where
  | outgoing
  | incoming
  | both
  deriving DecidableEq, Repr

/-- The strings sorted, each once. -/
def sortedSet (l : List String) : List String :=
  (Json.sortMembers (l.map (·, ()))).map (·.1)

/-- The entities sorted by id. -/
def sortById (l : List Entity) : List Entity := l.mergeSort fun a b => !(b.id < a.id)

/-- The entities of a type. -/
def ofType (g : Graph) (type : EntityType) : List Entity := (g.idsOf type).filterMap g.get?

/-! ## Relations -/

/-- The edges that leave a place, the newest first. -/
def leaving (g : Graph) (i : Nat) : List Edge := (g.edges.filter fun x => x.source == i).reverse

/-- The edges that enter a place, the newest first. -/
def entering (g : Graph) (i : Nat) : List Edge := (g.edges.filter fun x => x.target == i).reverse

/-- Whether the first relation comes in front of the second or has its key. -/
def Relation.notAfter (a b : Relation) : Bool :=
  if a.source != b.source then a.source < b.source
  else if a.target != b.target then a.target < b.target
  else a.type.rank ≤ b.type.rank

/-- Whether an edge satisfies the filters that are given. -/
def Edge.fits (source? target? : Option Nat) (type? : Option RelationType) (x : Edge) : Bool :=
  source?.all (· == x.source) && target?.all (· == x.target) && type?.all (· == x.type)

/-- The edges among which those with the given ends are. -/
def edgesAt (g : Graph) (source? target? : Option Nat) : List Edge :=
  match source?, target? with
  | some i, _ => g.leaving i
  | none, some i => g.entering i
  | none, none => g.edges

/-- The relations that satisfy the filters. An id that is not there is that of no end. -/
def relationsWhere (g : Graph) (source? target? : Option String) (type? : Option RelationType) :
    List Relation :=
  match source?.map g.place?, target?.map g.place? with
  | some none, _ | _, some none => []
  | source??, target?? =>
      let (source?, target?) := (source??.join, target??.join)
      let found := (g.edgesAt source? target?).filter (Edge.fits source? target? type?)
      (found.filterMap g.relationOf?).mergeSort Relation.notAfter

/-- The other ends of the edges of a place, in a direction and of a type. -/
def neighbours (g : Graph) (i : Nat) (type? : Option RelationType) (d : Direction) : List Nat :=
  let typed (l : List Edge) := l.filter fun x => type?.all (· == x.type)
  let targets := (typed (g.leaving i)).map (·.target)
  let sources := (typed (g.entering i)).map (·.source)
  match d with
  | .outgoing => targets
  | .incoming => sources
  | .both => targets ++ sources

/-- The entities related to one, in a direction and by a type. -/
def related (g : Graph) (id : String) (type? : Option RelationType) (d : Direction) : List Entity :=
  match g.place? id with
  | some i => sortById ((g.neighbours i type? d).eraseDups.filterMap fun k => g.nodes[k]?)
  | none => []

/-- The entities with those added behind them whose ids are not there, sorted. -/
def joinById (l more : List Entity) : List Entity :=
  sortById (more.foldl (fun l e => if l.any (·.id == e.id) then l else l ++ [e]) l)

/-- The services. -/
def services (g : Graph) : List Entity := g.ofType .service

/-- The domains. -/
def domains (g : Graph) : List Entity := g.ofType .domain

/-- The interfaces that a service exposes or that belong to it. -/
def serviceApis (g : Graph) (id : String) : List Entity :=
  let exposed := (g.related id (some .exposes) .outgoing).filter fun e => e.type == .api
  joinById exposed ((g.ofType .api).filter fun e => (e.api? >>= (·.serviceId)) == some id)

/-- The services that a domain contains or that belong to it. -/
def domainServices (g : Graph) (id : String) : List Entity :=
  let contained := g.related id (some .contains) .outgoing
  (joinById contained (g.related id (some .belongsTo) .incoming)).filter fun e => e.type == .service

/-- What a service depends on. -/
def dependenciesOf (g : Graph) (id : String) : List Entity :=
  g.related id (some .dependsOn) .outgoing

/-- What depends on a service. -/
def dependentsOf (g : Graph) (id : String) : List Entity := g.related id (some .dependsOn) .incoming

/-! ## Paths -/

/-- The ways from the end of a path to `target` over at most `n` edges, without a place that the
path, in reverse, has already. -/
def pathsFrom (g : Graph) (target : Nat) : (n : Nat) → (back : List Nat) → List (List Nat)
  | 0, _ => []
  | n + 1, back =>
      (g.neighbours (back.headD 0) none .outgoing).flatMap fun i =>
        if i == target then [(i :: back).reverse]
        else if back.contains i then []
        else pathsFrom g target n (i :: back)

/-- Whether the first path is shorter, or as long and not behind the second in order. -/
def pathNotAfter (a b : List String) : Bool :=
  if a.length != b.length then a.length < b.length else !(b < a)

/-- The paths from one entity to another without repeated entities, over at most `most` relations:
short ones first, those of one length in order. -/
def paths (g : Graph) (source target : String) (most : Nat) : List (List String) :=
  match g.place? source, g.place? target with
  | some i, some k =>
      if i == k then []
      else
        let found := (g.pathsFrom k (min most g.nodes.size) [i]).eraseDups
        (found.map fun path => path.filterMap fun i => g.nodes[i]?.map (·.id)).mergeSort
          pathNotAfter
  | _, _ => []

/-! ## Statistics -/

/-- The numbers of entities and relations, by type, and of connected parts. -/
structure Statistics where
  entityCounts : List (String × Nat)
  totalEntities : Nat
  totalRelations : Nat
  relationCounts : List (String × Nat)
  connectedComponents : Nat
  deriving DecidableEq, Repr

/-- The types that occur, by label, with how often they do. -/
def countByLabel {α : Type} [BEq α] (all : List α) (label : α → String) (l : List α) :
    List (String × Nat) :=
  let counts := all.filterMap fun t => let n := l.count t; if n = 0 then none else some (label t, n)
  Json.sortMembers counts

/-- Joins the parts that the two ends of a relation are in; every part is a list of ids. -/
def joinParts (parts : List (List String)) (r : Relation) : List (List String) :=
  let (met, others) := parts.partition fun p => p.contains r.source || p.contains r.target
  met.flatten :: others

/-- The parts of the graph that no relation leads out of. -/
def components (g : Graph) : List (List String) :=
  g.relations.foldl joinParts (g.entities.map fun e => [e.id])

/-- The statistics of a graph. -/
def statistics (g : Graph) : Statistics where
  entityCounts := Json.sortMembers (EntityType.all.filterMap fun t =>
    let n := (g.idsOf t).length
    if n = 0 then none else some (t.label, n))
  totalEntities := g.nodes.size
  totalRelations := g.edges.length
  relationCounts := countByLabel RelationType.all RelationType.label (g.edges.map (·.type))
  connectedComponents := g.components.length

/-- The document of statistics. -/
def Statistics.toJson (s : Statistics) : Json :=
  let counts (l : List (String × Nat)) : Json := .obj (l.map fun (k, n) => (k, .nat n))
  .obj [("entity_counts", counts s.entityCounts), ("total_entities", .nat s.totalEntities),
    ("total_relations", .nat s.totalRelations), ("relation_counts", counts s.relationCounts),
    ("connected_components", .nat s.connectedComponents)]

end CodeAtlas.Graph
