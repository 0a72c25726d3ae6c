import CodeAtlas.Analyzer
import Mathlib.Data.List.Forall2

/-!
# Extractions apart

The extractions of an analyzer run one after the other, and each either gives what it found or puts
an entry behind the errors so far. So a category is as its own extraction left it, whatever became
of the others, and the errors are the entries of those that failed, in the order of the categories.
If two runs agree but for one category, all else in their analyses is the same.
-/

namespace CodeAtlas

/-! ## Categories -/

namespace FactCategory

/-- All categories, in order. -/
def all : List FactCategory :=
  [models, endpoints, sideEffects, settings, dependencies, infrastructure]

/-- The categories with the words that their entries begin with, in order. -/
def headings : List (FactCategory × String) :=
  [(models, "models"), (endpoints, "endpoints"), (sideEffects, "side_effects"),
    (settings, "config"), (dependencies, "dependencies"), (infrastructure, "infrastructure")]

/-- The headings of errors are the labels of the categories. -/
theorem headings_eq : headings = all.map fun c => (c, c.label) := rfl

/-- What is extracted in a category. -/
def Facts : FactCategory → Type
  | models => List Model
  | endpoints => List Endpoint
  | sideEffects => List SideEffect
  | settings => List Setting
  | dependencies => List Dependency
  | infrastructure => Option Infra.Diagram

/-- No facts of a category. -/
def nothing : (c : FactCategory) → c.Facts
  | models => ([] : List Model)
  | endpoints => ([] : List Endpoint)
  | sideEffects => ([] : List SideEffect)
  | settings => ([] : List Setting)
  | dependencies => ([] : List Dependency)
  | infrastructure => (none : Option Infra.Diagram)

theorem nodup_all : all.Nodup := by decide

/-- Every category is in the list of them. -/
theorem mem_all (c : FactCategory) : c ∈ all := by cases c <;> decide

/-- A category stands at one place among all of them. -/
theorem exists_split (c : FactCategory) :
    ∃ front back, all = front ++ c :: back ∧ c ∉ front ∧ c ∉ back := by
  obtain ⟨front, back, hall⟩ := List.append_of_mem (mem_all c)
  have hnodup := nodup_all
  rw [hall, List.nodup_append, List.nodup_cons] at hnodup
  exact ⟨front, back, hall, fun h => hnodup.2.2 c h c (List.mem_cons_self ..) rfl, hnodup.2.1.1⟩

end FactCategory

/-- What became of the extraction of a category. -/
def Extractions.outcome (x : Extractions) : (c : FactCategory) → Except Failure c.Facts
  | .models => x.models
  | .endpoints => x.endpoints
  | .sideEffects => x.sideEffects
  | .settings => x.settings
  | .dependencies => x.dependencies
  | .infrastructure => x.infrastructure

/-- The facts of a category in an analysis. -/
def Analysis.facts (a : Analysis) : (c : FactCategory) → c.Facts
  | .models => a.models
  | .endpoints => a.endpoints
  | .sideEffects => a.sideEffects
  | .settings => a.settings
  | .dependencies => a.dependencies
  | .infrastructure => a.infrastructure

/-! ## Entries -/

/-- What a failure says: the texts of its chain of errors with a colon and a space between them, the
outermost first, or the text of a defect, or that there was a defect. -/
inductive Failure.Says : Failure → List Char → Prop
  | chain (texts : List String) :
      Says (.error texts) (List.intercalate ": ".toList (texts.map String.toList))
  | defect (text : String) : Says (.defect text) text.toList
  | silent : Says .silentDefect "panic during extraction".toList

/-- The message of a failure says it. -/
theorem Failure.says_message (f : Failure) : f.Says f.message.toList := by
  cases f with
  | error texts =>
      have htext : (Failure.error texts).message.toList
          = List.intercalate ": ".toList (texts.map String.toList) := String.toList_intercalate
      rw [htext]
      exact .chain texts
  | defect text => exact .defect text
  | silentDefect => exact .silent

/-- Whether the extraction of a category failed. -/
def Extractions.fails (x : Extractions) (c : FactCategory) : Bool := !(x.outcome c).isOk

/-- The entry for what became of an extraction, if it failed. -/
def entryFor {α : Type} (c : FactCategory) : Except Failure α → Option String
  | .ok _ => none
  | .error f => some (errorEntry c.label f.message)

/-- The entry for a category, if its extraction failed. -/
def Extractions.recorded? (x : Extractions) (c : FactCategory) : Option String :=
  entryFor c (x.outcome c)

/-- An entry begins with its category and ends behind 200 characters. -/
theorem toList_errorEntry (category message : String) : (errorEntry category message).toList
    = (category.toList ++ ": ".toList ++ message.toList).take 200 := by
  rw [errorEntry, String.toList_ofList, String.toList_append, String.toList_append]
  rfl

/-- The entry is that of the category whose extraction failed: the word for it, a colon and what the
failure says, as much of it as fits. -/
def Extractions.Reports (x : Extractions) (heading : FactCategory × String)
    (entry : String) : Prop :=
  ∃ f text, x.outcome heading.1 = .error f ∧ f.Says text
    ∧ entry.toList = (heading.2.toList ++ ": ".toList ++ text).take 200

/-- The entries for some categories are those of the extractions that failed, in order. -/
theorem Extractions.forall₂_entries (x : Extractions) (categories : List FactCategory) :
    List.Forall₂ (fun c entry => x.Reports (c, c.label) entry) (categories.filter x.fails)
      (categories.flatMap fun c => (x.recorded? c).toList) := by
  induction categories with
  | nil => exact .nil
  | cons c categories ih =>
      cases hc : x.outcome c with
      | ok v =>
          have hfound : ¬x.fails c = true := by
            simp [Extractions.fails, hc, Except.isOk, Except.toBool]
          have hentry : x.recorded? c = none := by rw [Extractions.recorded?, hc, entryFor]
          rw [List.filter_cons_of_neg hfound, List.flatMap_cons, hentry]
          exact ih
      | error f =>
          have hfail : x.fails c = true := by rw [Extractions.fails, hc]; rfl
          have hentry : x.recorded? c = some (errorEntry c.label f.message) := by
            rw [Extractions.recorded?, hc, entryFor]
          rw [List.filter_cons_of_pos hfail, List.flatMap_cons, hentry]
          exact .cons ⟨f, _, hc, f.says_message, toList_errorEntry c.label f.message⟩ ih

/-! ## One after the other -/

/-- One extraction gives what it found or adds its entry. -/
theorem run_isolate {α : Type} (c : FactCategory) (x : Except Failure α) (errors : List String) :
    (isolate c x).run errors = (x.toOption, errors ++ (entryFor c x).toList) := by
  cases x with
  | ok a => exact congrArg (some a, ·) (List.append_nil errors).symm
  | error f => rfl

/-- All extractions one after the other. -/
theorem Extractions.run_collect (x : Extractions) (language : String) :
    (x.collect language).run [] =
    ({ language
       models := x.models.toOption.getD []
       endpoints := x.endpoints.toOption.getD []
       sideEffects := x.sideEffects.toOption.getD []
       settings := x.settings.toOption.getD []
       dependencies := x.dependencies.toOption.getD []
       infrastructure := x.infrastructure.toOption.join },
     FactCategory.all.flatMap fun c => (x.recorded? c).toList) := by
  simp only [Extractions.collect, StateT.run_bind, run_isolate]
  refine Prod.ext rfl ?_
  show [] ++ (x.recorded? .models).toList ++ (x.recorded? .endpoints).toList
    ++ (x.recorded? .sideEffects).toList ++
    (x.recorded? .settings).toList ++ (x.recorded? .dependencies).toList
      ++ (x.recorded? .infrastructure).toList = _
  simp [FactCategory.all]

/-- The errors of an analysis are those recorded for the categories, in their order. -/
theorem Extractions.errors_analysis (x : Extractions) (language : String) :
    (x.analysis language).errors = FactCategory.all.flatMap fun c => (x.recorded? c).toList := by
  rw [Extractions.analysis, x.run_collect]

/-- What an extraction found, or `none` of it. -/
def foundOr {α : Type} (nothing : α) : Except Failure α → α
  | .ok v => v
  | .error _ => nothing

/-- What has failed counts as an empty list. -/
theorem toOption_getD {α : Type} (x : Except Failure (List α)) :
    x.toOption.getD [] = foundOr [] x := by
  cases x <;> rfl

/-- What has failed counts as absent. -/
theorem toOption_join {α : Type} (x : Except Failure (Option α)) :
    x.toOption.join = foundOr none x := by
  cases x <;> rfl

/-- A category of the analysis is what its own extraction found, or nothing. -/
theorem Extractions.facts_analysis (x : Extractions) (language : String) (c : FactCategory) :
    (x.analysis language).facts c = foundOr c.nothing (x.outcome c) := by
  rw [Extractions.analysis, x.run_collect]
  cases c with
  | models => exact toOption_getD x.models
  | endpoints => exact toOption_getD x.endpoints
  | sideEffects => exact toOption_getD x.sideEffects
  | settings => exact toOption_getD x.settings
  | dependencies => exact toOption_getD x.dependencies
  | infrastructure => exact toOption_join x.infrastructure

/-! ## Isolation -/

/-- An extraction that fails leaves its category empty and one entry, at the place of the category
among the errors, which holds what the failure says. It touches no other category: those are as
their extractions left them, and if two runs agree on all but one category, so do their facts of the
others and their entries in front and behind. -/
theorem extractions_isolated (a : Analyzer) (r : Repository) :
    (∀ c v, (a.extract r).outcome c = .ok v → (a.analyze r).facts c = v) ∧
    (∀ c f, (a.extract r).outcome c = .error f → (a.analyze r).facts c = c.nothing) ∧
    List.Forall₂ (a.extract r).Reports
      (FactCategory.headings.filter fun h => (a.extract r).fails h.1) (a.analyze r).errors ∧
    ∀ (b : Analyzer) (s : Repository) (c : FactCategory),
      (∀ d, d ≠ c → (b.extract s).outcome d = (a.extract r).outcome d) →
      (∀ d, d ≠ c → (b.analyze s).facts d = (a.analyze r).facts d) ∧
      ∃ front back, (a.analyze r).errors = front ++ ((a.extract r).recorded? c).toList ++ back ∧
        (b.analyze s).errors = front ++ ((b.extract s).recorded? c).toList ++ back := by
  refine ⟨?_, ?_, ?_, ?_⟩
  · intro c v hv
    rw [Analyzer.analyze, Extractions.facts_analysis, hv, foundOr]
  · intro c f hf
    rw [Analyzer.analyze, Extractions.facts_analysis, hf, foundOr]
  · rw [Analyzer.analyze, Extractions.errors_analysis, FactCategory.headings_eq, List.filter_map]
    exact List.forall₂_map_left_iff.2 ((a.extract r).forall₂_entries FactCategory.all)
  · intro b s c hsame
    refine ⟨fun d hd => ?_, ?_⟩
    · rw [Analyzer.analyze, Analyzer.analyze, Extractions.facts_analysis,
        Extractions.facts_analysis, hsame d hd]
    · obtain ⟨front, back, hall, hfront, hback⟩ := c.exists_split
      -- the other categories give the same entries in both runs, in front and behind
      have hentries : ∀ categories : List FactCategory, c ∉ categories →
          (categories.flatMap fun d => ((b.extract s).recorded? d).toList) =
            categories.flatMap fun d => ((a.extract r).recorded? d).toList := by
        intro categories hc
        refine List.flatMap_congr fun d hd => ?_
        have hd' : d ≠ c := fun h => hc (h ▸ hd)
        rw [Extractions.recorded?, Extractions.recorded?, hsame d hd']
      refine ⟨front.flatMap fun d => ((a.extract r).recorded? d).toList,
        back.flatMap fun d => ((a.extract r).recorded? d).toList, ?_, ?_⟩
      · rw [Analyzer.analyze, Extractions.errors_analysis, hall]
        simp
      · rw [Analyzer.analyze, Extractions.errors_analysis, hall, ← hentries front hfront,
          ← hentries back hback]
        simp

end CodeAtlas
