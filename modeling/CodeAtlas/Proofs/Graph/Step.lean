import CodeAtlas.Graph.Lift
import CodeAtlas.Proofs.Json.Sorting

/-!
# What lifting does to an entity

An analysis is lifted in steps: an entity is renewed, an integration is extended by a service, a
service is marked with a note, or two entities are related. Here is what the steps do to the entity
under one id. What they make of it, they make of it again, but for the time of the last change.
-/

namespace CodeAtlas.Graph

namespace Entity

/-- The entity with other times. -/
def stamped (e : Entity) (created updated : Instant) : Entity :=
  { e with base := { e.base with createdAt := created, updatedAt := updated } }

/-- The entity, changed last at another time. -/
def changedAt (t : Instant) (e : Entity) : Entity := e.stamped e.base.createdAt t

@[simp] theorem id_stamped (e : Entity) (c u : Instant) : (e.stamped c u).id = e.id := rfl

@[simp] theorem id_changedAt (t : Instant) (e : Entity) : (e.changedAt t).id = e.id := rfl

@[simp] theorem changedAt_changedAt (t u : Instant) (e : Entity) :
    (e.changedAt u).changedAt t = e.changedAt t := rfl

@[simp] theorem changedAt_stamped (t c u : Instant) (e : Entity) :
    (e.stamped c u).changedAt t = e.stamped c t := rfl

/-- The entity under the entity's id that a service uses at a target for some operations. -/
def joined (service target : String) (operations : List String) (base : EntityBase)
    (d : Integration) : Entity :=
  let services := if d.services.contains service then d.services else d.services ++ [service]
  Entity.note ⟨base, .integration { d with provider := some target, services }⟩ "operations"
    (.strings operations)

end Entity

/-- A step of lifting. -/
inductive Step where
  /-- An entity, whose times do not matter. -/
  | renew (e : Entity)
  /-- An integration with an id, used by a service. -/
  | extend (id service category target : String) (operations : List String)
  /-- A note of the service with an id. -/
  | mark (id key : String) (value : Json)
  | relate (r : Relation)

namespace Step

/-- The id whose entity a step changes. -/
def id? : Step → Option String
  | renew e => some e.id
  | extend id .. => some id
  | mark id .. => some id
  | relate _ => none

/-- The entity that a step makes where there is none. -/
def fresh? (now : Instant) : Step → Option Entity
  | renew e => some (e.stamped now now)
  | extend id service category target operations =>
      some (Entity.joined service target operations
        { id, name := target, createdAt := now, updatedAt := now } { integrationType := category })
  | mark .. => none
  | relate _ => none

/-- What a step makes of an entity, apart from its times. -/
def draft (old : Entity) : Step → Entity
  | renew e => e
  | extend id service category target operations =>
      match old with
      | ⟨base, .integration d⟩ => Entity.joined service target operations base d
      | ⟨base, _⟩ => Entity.joined service target operations
          { id, name := target, createdAt := base.createdAt, updatedAt := base.updatedAt }
          { integrationType := category }
  | mark _ key value => old.note key value
  | relate _ => old

/-- Whether a step changes an entity. -/
def changes (old : Entity) : Step → Bool
  | renew _ => true
  | extend .. => true
  | mark .. => old.type == .service
  | relate _ => false

/-- What a step makes of an entity. -/
def onto (now : Instant) (old : Entity) (s : Step) : Entity :=
  if s.changes old then (s.draft old).stamped old.base.createdAt now else old

/-- What a step makes of what is under its id. -/
def apply (now : Instant) : Option Entity → Step → Option Entity
  | some old, s => some (s.onto now old)
  | none, s => s.fresh? now

/-! ## Times -/

variable {now now' t : Instant}

/-- A step keeps the time at which an entity was made. -/
theorem createdAt_onto (e : Entity) (s : Step) :
    (s.onto now e).base.createdAt = e.base.createdAt := by
  rw [onto]
  split
  · rfl
  · rfl

/-- Steps keep the time at which an entity was made. -/
theorem createdAt_foldl_onto (e : Entity) (steps : List Step) :
    (steps.foldl (onto now) e).base.createdAt = e.base.createdAt := by
  induction steps generalizing e with
  | nil => rfl
  | cons s rest ih => rw [List.foldl_cons, ih, createdAt_onto]

/-- Times do not matter to a step. -/
theorem onto_stamped {c : Instant} {e e' : Entity} (h : e.stamped c t = e'.stamped c t) (s : Step) :
    (s.onto now e).stamped c t = (s.onto now' e').stamped c t := by
  obtain ⟨⟨id, name, description, metadata, refs, created, updated⟩, detail⟩ := e
  obtain ⟨⟨id', name', description', metadata', refs', created', updated'⟩, detail'⟩ := e'
  obtain ⟨hbase, rfl⟩ := Entity.mk.injEq .. ▸ h
  obtain ⟨rfl, rfl, rfl, rfl, rfl, -⟩ := EntityBase.mk.injEq .. ▸ hbase
  cases s with
  | renew d => rfl
  | extend id service category target operations => cases detail <;> rfl
  | mark id key value => cases detail <;> rfl
  | relate r => rfl

/-- The time of the last change does not matter to a step. -/
theorem onto_congr {e e' : Entity} (h : e.changedAt t = e'.changedAt t) (s : Step) :
    (s.onto now e).changedAt t = (s.onto now' e').changedAt t := by
  have hcreated : e.base.createdAt = e'.base.createdAt := by
    have hsame := congrArg (fun x : Entity => x.base.createdAt) h
    exact hsame
  rw [Entity.changedAt, Entity.changedAt, createdAt_onto, createdAt_onto, ← hcreated]
  refine onto_stamped ?_ s
  rw [Entity.changedAt, Entity.changedAt, ← hcreated] at h
  exact h

/-- Entities that are the same but for their change stay so under steps at different times. -/
theorem foldl_onto_congr {e e' : Entity} (h : e.changedAt t = e'.changedAt t)
    (steps : List Step) :
    (steps.foldl (onto now) e).changedAt t = (steps.foldl (onto now') e').changedAt t := by
  induction steps generalizing e e' with
  | nil => exact h
  | cons s rest ih => exact ih (onto_congr h s)

/-- Steps on an entity that is there give an entity. -/
theorem foldl_apply_some (now : Instant) (e : Entity) (steps : List Step) :
    steps.foldl (apply now) (some e) = some (steps.foldl (onto now) e) := by
  induction steps generalizing e with
  | nil => rfl
  | cons s rest ih => exact ih (s.onto now e)

/-- Steps that make no entity at one time make none at another. -/
theorem foldl_apply_none {steps : List Step} (h : steps.foldl (apply now) none = none) :
    steps.foldl (apply now') none = none := by
  induction steps with
  | nil => rfl
  | cons s rest ih =>
      rw [List.foldl_cons] at h ⊢
      cases s with
      | renew e => exact nomatch (foldl_apply_some now (e.stamped now now) rest).symm.trans h
      | extend id service category target operations =>
          exact nomatch (foldl_apply_some now _ rest).symm.trans h
      | mark id key value => exact ih h
      | relate r => exact ih h

/-- A renewed entity keeps the time at which it was made. -/
theorem exists_apply_renew (now : Instant) (old : Option Entity) (e : Entity) :
    ∃ c, apply now old (.renew e) = some (e.stamped c now) := by
  cases old with
  | none => exact ⟨now, rfl⟩
  | some x => exact ⟨x.base.createdAt, rfl⟩

/-! ## Extending -/

/-- Whether an entity is an integration that a service uses. -/
def UsedBy (service : String) (e : Entity) : Prop :=
  ∃ base d, e = ⟨base, .integration d⟩ ∧ d.services.contains service = true

/-- The entity of an integration for a target, with its operations. -/
def retargeted (now : Instant) (target : String) (operations : List String) (e : Entity) : Entity :=
  let detail := match e.detail with
    | .integration d => .integration { d with provider := some target }
    | other => other
  (Entity.note { e with detail } "operations" (.strings operations)).changedAt now

/-- Only the last target counts. -/
theorem retargeted_retargeted (target target' : String) (operations operations' : List String)
    (e : Entity) :
    retargeted now' target' operations' (retargeted now target operations e)
      = retargeted now' target' operations' e := by
  obtain ⟨base, detail⟩ := e
  cases detail
  all_goals
    simp only [retargeted, Entity.note, Entity.changedAt, Entity.stamped,
      Json.insertMember_insertMember]

/-- A service that uses an integration still does when the target and the operations are others. -/
theorem UsedBy.retargeted {service : String} {e : Entity} (h : UsedBy service e) (now : Instant)
    (target : String) (operations : List String) :
    UsedBy service (retargeted now target operations e) := by
  obtain ⟨base, d, rfl, hd⟩ := h
  exact ⟨_, _, rfl, hd⟩

/-- An integration that the service uses already only gets another target. -/
theorem onto_extend_of_usedBy {service : String} {e : Entity} (h : UsedBy service e)
    (id category target : String) (operations : List String) :
    onto now e (.extend id service category target operations)
      = retargeted now target operations e := by
  obtain ⟨base, d, rfl, hd⟩ := h
  simp only [onto, changes, draft, Entity.joined, hd, if_true]
  rfl

/-- Joining an integration is being made a user of it, and setting target and operations. -/
theorem joined_eq (now : Instant) (service target : String) (operations : List String)
    (base : EntityBase) (d : Integration) (c : Instant) :
    ∃ e, UsedBy service e ∧ (Entity.joined service target operations base d).stamped c now
      = retargeted now target operations e := by
  let services := if d.services.contains service then d.services else d.services ++ [service]
  refine ⟨⟨{ base with createdAt := c }, .integration { d with services }⟩, ⟨_, _, rfl, ?_⟩, rfl⟩
  show services.contains service = true
  by_cases hd : d.services.contains service = true
  · rw [show services = d.services from if_pos hd, hd]
  · rw [show services = d.services ++ [service] from if_neg hd]
    simp

/-- An extended integration is one that the service uses, with another target. -/
theorem exists_apply_extend (now : Instant) (old : Option Entity)
    (id service category target : String) (operations : List String) :
    ∃ e, UsedBy service e ∧ apply now old (.extend id service category target operations)
      = some (retargeted now target operations e) := by
  cases old with
  | none =>
      obtain ⟨e, he, heq⟩ := joined_eq now service target operations
        { id, name := target, createdAt := now, updatedAt := now }
          { integrationType := category } now
      exact ⟨e, he, congrArg some heq⟩
  | some old =>
      obtain ⟨base, detail⟩ := old
      cases detail with
      | integration d =>
          obtain ⟨e, he, heq⟩ := joined_eq now service target operations base d base.createdAt
          exact ⟨e, he, congrArg some heq⟩
      | _ =>
          obtain ⟨e, he, heq⟩ := joined_eq now service target operations
            { id, name := target, createdAt := base.createdAt, updatedAt := base.updatedAt }
            { integrationType := category } base.createdAt
          exact ⟨e, he, congrArg some heq⟩

/-- Whether a step extends an integration by a service. -/
def Extends (service : String) (s : Step) : Prop :=
  ∃ id category target operations, s = .extend id service category target operations

/-- Extending an integration that the service uses is forgotten with the next target. -/
theorem foldl_onto_extends (now t : Instant) {service : String} {e : Entity} (he : UsedBy service e)
    {steps : List Step} (hsteps : ∀ s ∈ steps, Extends service s) (target : String)
    (operations : List String) :
    UsedBy service (steps.foldl (onto now) e)
      ∧ retargeted t target operations (steps.foldl (onto now) e)
        = retargeted t target operations e := by
  induction steps generalizing e with
  | nil => exact ⟨he, rfl⟩
  | cons s rest ih =>
      obtain ⟨⟨id, category, target', operations', rfl⟩, hrest⟩ := List.forall_mem_cons.1 hsteps
      rw [List.foldl_cons, onto_extend_of_usedBy he]
      obtain ⟨hused, heq⟩ := ih (he.retargeted now target' operations') hrest
      exact ⟨hused, heq.trans (retargeted_retargeted ..)⟩

/-! ## Twice -/

/-- What some steps at one id make of what is there: they renew it, or one service extends it. -/
inductive Settling (service : String) (steps : List Step) : Prop
  | renew {d : Entity} (h : .renew d ∈ steps)
  | extend (h : ∀ s ∈ steps, Extends service s)

/-- What is under an id after some steps stays there when they are taken again. -/
theorem Settling.foldl_onto {service : String} {steps : List Step} (h : Settling service steps)
    {old : Option Entity} {e : Entity} (he : steps.foldl (apply now) old = some e) :
    (steps.foldl (onto now') e).changedAt t = e.changedAt t := by
  cases h with
  | @renew d hd =>
      obtain ⟨front, rest, rfl⟩ := List.append_of_mem hd
      -- behind the renewal there is an entity, and its first time is the one that counts
      obtain ⟨c, hc⟩ := exists_apply_renew now (front.foldl (apply now) old) d
      rw [List.foldl_append, List.foldl_cons, hc, foldl_apply_some] at he
      obtain rfl := Option.some.inj he
      rw [List.foldl_append, List.foldl_cons]
      refine foldl_onto_congr ?_ rest
      show d.stamped (front.foldl (onto now') _).base.createdAt t = d.stamped c t
      rw [createdAt_foldl_onto, createdAt_foldl_onto]
      rfl
  | extend hall =>
      rcases List.eq_nil_or_concat steps with rfl | ⟨front, s, rfl⟩
      · rfl
      · rw [List.concat_eq_append] at hall he ⊢
        obtain ⟨hfront, hs⟩ := List.forall_mem_append.1 hall
        obtain ⟨id, category, target, operations, rfl⟩ := hs _ (List.mem_singleton_self _)
        obtain ⟨x, hx, hlast⟩ := exists_apply_extend now (front.foldl (apply now) old) id
          service category target operations
        rw [List.foldl_append, List.foldl_cons, List.foldl_nil, hlast] at he
        cases he
        obtain ⟨hused, heq⟩ := foldl_onto_extends now' now'
          (hx.retargeted now target operations) hfront target operations
        rw [List.foldl_append, List.foldl_cons, List.foldl_nil, onto_extend_of_usedBy hused, heq,
          retargeted_retargeted]
        rfl

end Step
end CodeAtlas.Graph
