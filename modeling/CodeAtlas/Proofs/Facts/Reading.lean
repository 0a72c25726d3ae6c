import CodeAtlas.Facts.Analysis
import CodeAtlas.Proofs.Json.Fields

/-!
# Reading analyses

An analysis is read back from its document, and from that document sorted. What is read of an
analysis is tidy: every line is a number of 64 bits, and the attributes of every resource ascend by
name. So what is read from any document is read again from the document that it makes, and makes the
same one.
-/

namespace CodeAtlas

open Json

/-! ## Tidy analyses -/

/-- A resource whose parts are as they are read. -/
structure Infra.Resource.Tidy (r : Infra.Resource) : Prop where
  line : r.line < Nat.pow 2 64
  attributes : Ascending r.attributes

/-- An analysis whose parts are as they are read. -/
structure Analysis.Tidy (a : Analysis) : Prop where
  models : ∀ m ∈ a.models, m.line < Nat.pow 2 64
  endpoints : ∀ e ∈ a.endpoints, e.line < Nat.pow 2 64
  sideEffects : ∀ e ∈ a.sideEffects, e.line < Nat.pow 2 64
  settings : ∀ s ∈ a.settings, s.line < Nat.pow 2 64
  dependencies : ∀ d ∈ a.dependencies, d.line < Nat.pow 2 64
  resources : ∀ d, a.infrastructure = some d → ∀ r ∈ d.resources, r.Tidy

/-! ## Facts -/

/-- A kind of model is read back. -/
theorem ModelKind.reads_label (k : ModelKind) : Reads ModelKind.ofJson? (.str k.label) k := by
  cases k <;> exact ⟨rfl, rfl⟩

/-- A category of side effects is read back. -/
theorem EffectCategory.reads_label (c : EffectCategory) :
    Reads EffectCategory.ofJson? (.str c.label) c := by
  cases c <;> exact ⟨rfl, rfl⟩

/-- A field is read back. -/
theorem Field.reads_toJson (f : Field) : Reads Field.ofJson? f.toJson f := by
  have hkeys : ["name", "type", "description", "required", "default", "tag"].Nodup := by decide
  refine reads_record hkeys fun r h => ?_
  have hrequired : field? bool? r "required" = some f.required :=
    (h ("required", .bool f.required) (by simp)).field? (reads_bool f.required)
  rw [strField?_of_shows h "name" f.name (by simp), strField?_of_shows h "type" f.type (by simp),
    optionalStr?_of_shows h "description" f.description (by simp), hrequired,
    optionalStr?_of_shows h "default" f.default (by simp),
    optionalStr?_of_shows h "tag" f.tag (by simp)]
  rfl

/-- A model whose line is a word is read back. -/
theorem Model.reads_toJson {m : Model} (hline : m.line < Nat.pow 2 64) :
    Reads Model.ofJson? m.toJson m := by
  have hkeys : ["name", "model_type", "file", "line", "fields", "methods", "description", "parent",
      "interfaces", "decorators", "source_link"].Nodup := by decide
  refine reads_record hkeys fun r h => ?_
  have hkind : field? ModelKind.ofJson? r "model_type" = some m.kind :=
    (h ("model_type", .str m.kind.label) (by simp)).field? m.kind.reads_label
  have hfields : field? (list? Field.ofJson?) r "fields" = some m.fields :=
    (h ("fields", .arr (m.fields.map Field.toJson)) (by simp)).field?
      (reads_list fun f _ => f.reads_toJson)
  rw [strField?_of_shows h "name" m.name (by simp), hkind,
    strField?_of_shows h "file" m.file (by simp), word?_of_shows h "line" hline (by simp), hfields,
    strings?_of_shows h "methods" m.methods (by simp),
    optionalStr?_of_shows h "description" m.description (by simp),
    optionalStr?_of_shows h "parent" m.parent (by simp),
    strings?_of_shows h "interfaces" m.interfaces (by simp),
    strings?_of_shows h "decorators" m.decorators (by simp),
    optionalStr?_of_shows h "source_link" m.sourceLink (by simp)]
  rfl

/-- The line of a model that is read is a word. -/
theorem Model.line_lt_of_ofJson? {j : Json} {x : Model} (h : Model.ofJson? j = some x) :
    x.line < Nat.pow 2 64 := by
  iterate 4 obtain ⟨_, -, h⟩ := Option.bind_eq_some_iff.1 h
  obtain ⟨_, hline, h⟩ := Option.bind_eq_some_iff.1 h
  iterate 7 obtain ⟨_, -, h⟩ := Option.bind_eq_some_iff.1 h
  cases h
  exact lt_of_wordField? hline

/-- An endpoint whose line is a word is read back. -/
theorem Endpoint.reads_toJson {e : Endpoint} (hline : e.line < Nat.pow 2 64) :
    Reads Endpoint.ofJson? e.toJson e := by
  have hkeys : ["method", "path", "file", "line", "handler", "description", "parameters",
      "response_type", "decorators", "source_link"].Nodup := by decide
  refine reads_record hkeys fun r h => ?_
  rw [strField?_of_shows h "method" e.method (by simp),
    strField?_of_shows h "path" e.path (by simp), strField?_of_shows h "file" e.file (by simp),
      word?_of_shows h "line" hline (by simp),
    optionalStr?_of_shows h "handler" e.handler (by simp),
    optionalStr?_of_shows h "description" e.description (by simp),
    strings?_of_shows h "parameters" e.parameters (by simp),
    optionalStr?_of_shows h "response_type" e.responseType (by simp),
    strings?_of_shows h "decorators" e.decorators (by simp),
    optionalStr?_of_shows h "source_link" e.sourceLink (by simp)]
  rfl

/-- The line of an endpoint that is read is a word. -/
theorem Endpoint.line_lt_of_ofJson? {j : Json} {x : Endpoint} (h : Endpoint.ofJson? j = some x) :
    x.line < Nat.pow 2 64 := by
  iterate 4 obtain ⟨_, -, h⟩ := Option.bind_eq_some_iff.1 h
  obtain ⟨_, hline, h⟩ := Option.bind_eq_some_iff.1 h
  iterate 6 obtain ⟨_, -, h⟩ := Option.bind_eq_some_iff.1 h
  cases h
  exact lt_of_wordField? hline

/-- A side effect whose line is a word is read back. -/
theorem SideEffect.reads_toJson {e : SideEffect} (hline : e.line < Nat.pow 2 64) :
    Reads SideEffect.ofJson? e.toJson e := by
  have hkeys : ["category", "operation", "target", "file", "line", "description",
      "source_link"].Nodup := by decide
  refine reads_record hkeys fun r h => ?_
  have hcategory : field? EffectCategory.ofJson? r "category" = some e.category :=
    (h ("category", .str e.category.label) (by simp)).field? e.category.reads_label
  rw [hcategory, strField?_of_shows h "operation" e.operation (by simp),
    optionalStr?_of_shows h "target" e.target (by simp),
      strField?_of_shows h "file" e.file (by simp),
    word?_of_shows h "line" hline (by simp),
    optionalStr?_of_shows h "description" e.description (by simp),
    optionalStr?_of_shows h "source_link" e.sourceLink (by simp)]
  rfl

/-- The line of a side effect that is read is a word. -/
theorem SideEffect.line_lt_of_ofJson? {j : Json} {x : SideEffect}
    (h : SideEffect.ofJson? j = some x) :
    x.line < Nat.pow 2 64 := by
  iterate 5 obtain ⟨_, -, h⟩ := Option.bind_eq_some_iff.1 h
  obtain ⟨_, hline, h⟩ := Option.bind_eq_some_iff.1 h
  iterate 2 obtain ⟨_, -, h⟩ := Option.bind_eq_some_iff.1 h
  cases h
  exact lt_of_wordField? hline

/-- A setting whose line is a word is read back. -/
theorem Setting.reads_toJson {s : Setting} (hline : s.line < Nat.pow 2 64) :
    Reads Setting.ofJson? s.toJson s := by
  have hkeys : ["key", "source", "file", "line", "default", "description", "required",
      "source_link"].Nodup := by decide
  refine reads_record hkeys fun r h => ?_
  have hrequired : field? bool? r "required" = some s.required :=
    (h ("required", .bool s.required) (by simp)).field? (reads_bool s.required)
  rw [strField?_of_shows h "key" s.key (by simp), strField?_of_shows h "source" s.source (by simp),
    strField?_of_shows h "file" s.file (by simp), word?_of_shows h "line" hline (by simp),
    optionalStr?_of_shows h "default" s.default (by simp),
    optionalStr?_of_shows h "description" s.description (by simp), hrequired,
    optionalStr?_of_shows h "source_link" s.sourceLink (by simp)]
  rfl

/-- The line of a setting that is read is a word. -/
theorem Setting.line_lt_of_ofJson? {j : Json} {x : Setting} (h : Setting.ofJson? j = some x) :
    x.line < Nat.pow 2 64 := by
  iterate 4 obtain ⟨_, -, h⟩ := Option.bind_eq_some_iff.1 h
  obtain ⟨_, hline, h⟩ := Option.bind_eq_some_iff.1 h
  iterate 4 obtain ⟨_, -, h⟩ := Option.bind_eq_some_iff.1 h
  cases h
  exact lt_of_wordField? hline

/-- A dependency whose line is a word is read back. -/
theorem Dependency.reads_toJson {d : Dependency} (hline : d.line < Nat.pow 2 64) :
    Reads Dependency.ofJson? d.toJson d := by
  have hkeys : ["name", "version", "import_path", "file", "line"].Nodup := by decide
  refine reads_record hkeys fun r h => ?_
  rw [strField?_of_shows h "name" d.name (by simp),
    optionalStr?_of_shows h "version" d.version (by simp),
    optionalStr?_of_shows h "import_path" d.importPath (by simp),
    strField?_of_shows h "file" d.file (by simp), word?_of_shows h "line" hline (by simp)]
  rfl

/-- The line of a dependency that is read is a word. -/
theorem Dependency.line_lt_of_ofJson? {j : Json} {x : Dependency}
    (h : Dependency.ofJson? j = some x) :
    x.line < Nat.pow 2 64 := by
  iterate 5 obtain ⟨_, -, h⟩ := Option.bind_eq_some_iff.1 h
  obtain ⟨_, hline, h⟩ := Option.bind_eq_some_iff.1 h
  cases h
  exact lt_of_wordField? hline

/-! ## Diagrams -/

namespace Infra

/-- A tidy resource is read back. -/
theorem Resource.reads_toJson {x : Resource} (hx : x.Tidy) : Reads Resource.ofJson? x.toJson x := by
  have hkeys : ["address", "resource_type", "name", "kind", "file", "line", "dependencies",
      "dependents", "attributes"].Nodup := by decide
  refine reads_record hkeys fun r h => ?_
  have hattributes : field? (members? str?) r "attributes" = some x.attributes :=
    (h ("attributes", .obj (x.attributes.map fun m => (m.1, .str m.2))) (by simp)).field?
      (reads_members hx.attributes fun m _ => reads_str m.2)
  rw [strField?_of_shows h "address" x.address (by simp),
    strField?_of_shows h "resource_type" x.resourceType (by simp),
    strField?_of_shows h "name" x.name (by simp), strField?_of_shows h "kind" x.kind (by simp),
    strField?_of_shows h "file" x.file (by simp), word?_of_shows h "line" hx.line (by simp),
    strings?_of_shows h "dependencies" x.dependencies (by simp),
    strings?_of_shows h "dependents" x.dependents (by simp), hattributes]
  rfl

/-- A diagram of tidy resources is read back. -/
theorem Diagram.reads_toJson {d : Diagram} (hd : ∀ x ∈ d.resources, x.Tidy) :
    Reads Diagram.ofJson? d.toJson d := by
  have hkeys : ["resources"].Nodup := List.nodup_singleton _
  refine reads_record hkeys fun r h => ?_
  have hresources : field? (list? Resource.ofJson?) r "resources" = some d.resources :=
    (h ("resources", .arr (d.resources.map Resource.toJson)) (by simp)).field?
      (reads_list fun x hx => Resource.reads_toJson (hd x hx))
  rw [hresources]
  rfl

/-- A resource that is read is tidy. -/
theorem Resource.tidy_of_ofJson? {j : Json} {x : Resource} (h : Resource.ofJson? j = some x) :
    x.Tidy := by
  iterate 6 obtain ⟨_, -, h⟩ := Option.bind_eq_some_iff.1 h
  obtain ⟨_, hline, h⟩ := Option.bind_eq_some_iff.1 h
  iterate 2 obtain ⟨_, -, h⟩ := Option.bind_eq_some_iff.1 h
  obtain ⟨_, hattributes, h⟩ := Option.bind_eq_some_iff.1 h
  cases h
  obtain ⟨j, hj⟩ := exists_of_field? hattributes
  exact ⟨lt_of_wordField? hline, (exists_of_members? hj).1⟩

/-- The resources of a diagram that is read are tidy. -/
theorem Diagram.tidy_of_ofJson? {j : Json} {d : Diagram} (h : Diagram.ofJson? j = some d) :
    ∀ x ∈ d.resources, x.Tidy := by
  simp only [Diagram.ofJson?, Option.bind_eq_bind, Option.bind_eq_some_iff, Option.pure_def,
    Option.some.injEq] at h
  obtain ⟨_, -, resources, hresources, rfl⟩ := h
  obtain ⟨j, hj⟩ := exists_of_field? hresources
  intro x hx
  obtain ⟨j', hj'⟩ := exists_of_list? hj x hx
  exact Resource.tidy_of_ofJson? hj'

end Infra

/-! ## Analyses -/

/-- If whatever is read of a kind has a property, so has every item of a list in a field. -/
theorem forall_of_listField? {α : Type} {read? : Json → Option α} {p : α → Prop}
    {r : List (String × Json)} {name : String} {l : List α}
    (h : field? (list? read?) r name = some l) (hp : ∀ j a, read? j = some a → p a) :
    ∀ a ∈ l, p a := by
  obtain ⟨j, hj⟩ := exists_of_field? h
  intro a ha
  obtain ⟨j', hj'⟩ := exists_of_list? hj a ha
  exact hp j' a hj'

namespace Analysis

/-- An analysis that was read is tidy. -/
theorem tidy_of_ofJson? {j : Json} {a : Analysis} (h : ofJson? j = some a) : a.Tidy := by
  simp only [ofJson?, Option.bind_eq_bind, Option.bind_eq_some_iff, Option.pure_def,
    Option.some.injEq] at h
  obtain ⟨_, -, _, -, _, hmodels, _, hendpoints, _, hsideEffects, _, hsettings, _, hdependencies, _,
    -, _, hdiagram, rfl⟩ := h
  constructor
  case models => exact forall_of_listField? hmodels fun _ _ => Model.line_lt_of_ofJson?
  case endpoints => exact forall_of_listField? hendpoints fun _ _ => Endpoint.line_lt_of_ofJson?
  case sideEffects => exact forall_of_listField? hsideEffects fun _ _ =>
    SideEffect.line_lt_of_ofJson?
  case settings => exact forall_of_listField? hsettings fun _ _ => Setting.line_lt_of_ofJson?
  case dependencies =>
    exact forall_of_listField? hdependencies fun _ _ => Dependency.line_lt_of_ofJson?
  case resources =>
    intro d hd
    cases hd
    obtain ⟨j, -, hj⟩ := exists_of_optionalField? hdiagram
    exact Infra.Diagram.tidy_of_ofJson? hj

/-- A tidy analysis is read back from its document, with a diagram or without. -/
theorem reads_toJson {a : Analysis} (h : a.Tidy) : Reads ofJson? a.toJson a := by
  refine reads_exactRecord ?nodup fun r hr hothers => ?_
  case nodup => cases a.infrastructure <;> simp
  have hmodels : field? (list? Model.ofJson?) r "models" = some a.models :=
    (hr ("models", .arr (a.models.map Model.toJson)) (by simp)).field?
      (reads_list fun m hm => Model.reads_toJson (h.models m hm))
  have hendpoints : field? (list? Endpoint.ofJson?) r "endpoints" = some a.endpoints :=
    (hr ("endpoints", .arr (a.endpoints.map Endpoint.toJson)) (by simp)).field?
      (reads_list fun e he => Endpoint.reads_toJson (h.endpoints e he))
  have hsideEffects : field? (list? SideEffect.ofJson?) r "side_effects" = some a.sideEffects :=
    (hr ("side_effects", .arr (a.sideEffects.map SideEffect.toJson)) (by simp)).field?
      (reads_list fun e he => SideEffect.reads_toJson (h.sideEffects e he))
  have hsettings : field? (list? Setting.ofJson?) r "config" = some a.settings :=
    (hr ("config", .arr (a.settings.map Setting.toJson)) (by simp)).field?
      (reads_list fun s hs => Setting.reads_toJson (h.settings s hs))
  have hdependencies :
      field? (list? Dependency.ofJson?) r "dependencies" = some a.dependencies :=
    (hr ("dependencies", .arr (a.dependencies.map Dependency.toJson)) (by simp)).field?
      (reads_list fun d hd => Dependency.reads_toJson (h.dependencies d hd))
  have hdiagram :
      optionalField? Infra.Diagram.ofJson? r "infrastructure" = some a.infrastructure := by
    cases hd : a.infrastructure with
    | none =>
        rw [optionalField?, hothers "infrastructure" (by simp [hd])]
        rfl
    | some d =>
        have hne : d.toJson ≠ .null := by simp [Infra.Diagram.toJson]
        have hread := reads_some hne (Infra.Diagram.reads_toJson (h.resources d hd))
        exact (hr ("infrastructure", d.toJson) (by simp [hd])).optionalField? hread
  rw [strField?_of_shows hr "language" a.language (by simp), hmodels, hendpoints, hsideEffects,
    hsettings, hdependencies, strings?_of_shows hr "errors" a.errors (by simp), hdiagram]
  rfl

/-- A tidy analysis is read back in every part from its document, as it stands or sorted. From any
document that an analysis is read of, the analysis is tidy, so its own document is accepted again,
as it stands or sorted, and what is read then makes the same document. -/
theorem document_laws :
    (∀ a : Analysis, a.Tidy → ofJson? a.toJson = some a ∧ ofJson? a.toJson.sorted = some a)
      ∧ ∀ (j : Json) (a : Analysis), ofJson? j = some a →
        a.Tidy ∧ (∃ b, ofJson? a.toJson = some b ∧ b.toJson = a.toJson)
          ∧ ∃ b, ofJson? a.toJson.sorted = some b ∧ b.toJson.sorted = a.toJson.sorted := by
  constructor
  · intro a ha
    exact ⟨(reads_toJson ha).plain, (reads_toJson ha).sorted⟩
  · intro j a hread
    have ha := tidy_of_ofJson? hread
    exact ⟨ha, ⟨a, (reads_toJson ha).plain, rfl⟩, ⟨a, (reads_toJson ha).sorted, rfl⟩⟩

/-- An analysis with a model and a diagram is read back; another is read of a document whose members
come in another order, with one that nothing reads and one that is null. -/
theorem document_laws_diagram :
    let field : Field := { name := "Id", type := "int", tag := some "json" }
    let model : Model :=
      { name := "User", kind := .struct, file := "user.go", line := 3, fields := [field] }
    let bucket : Infra.Resource :=
      { address := "aws_s3_bucket.logs", resourceType := "aws_s3_bucket", name := "logs",
        kind := "resource", file := "main.tf", line := 1, dependencies := ["aws_kms_key.main"],
        attributes := [("acl", "private"), ("bucket", "logs")] }
    let a : Analysis :=
      { language := "go+terraform", models := [model], infrastructure := some ⟨[bucket]⟩ }
    let j : Json := .obj [("errors", .arr []), ("unknown", .bool true), ("language", .str "go"),
      ("models", .arr []), ("endpoints", .arr []), ("infrastructure", .null),
      ("side_effects", .arr []), ("dependencies", .arr []), ("config", .arr [])]
    ofJson? a.toJson.sorted = some a ∧ ∃ b, ofJson? j = some b ∧ b.Tidy := by
  intro field model bucket a j
  have hnames : Ascending bucket.attributes := List.pairwise_pair.2 (by decide +kernel)
  have hbucket : bucket.Tidy := ⟨by decide, hnames⟩
  have ha : a.Tidy := {
    models := by simp [a, model]
    endpoints := by simp [a]
    sideEffects := by simp [a]
    settings := by simp [a]
    dependencies := by simp [a]
    resources := by simpa [a] using hbucket }
  have hread : ofJson? j = some { language := "go" } := rfl
  exact ⟨(document_laws.1 a ha).2, _, hread, (document_laws.2 j _ hread).1⟩

end Analysis

end CodeAtlas
