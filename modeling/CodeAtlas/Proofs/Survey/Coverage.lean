import CodeAtlas.Proofs.Keyed
import CodeAtlas.Survey
import Mathlib.Data.List.Induction

/-!
# Which analyzers run

Two different analyzers that run on a repository never take files with the same extension. Without a
request every file of a known language is taken by exactly one of them. A language that is asked for
once more, behind another one, is analyzed once more; if there is none, repeated requests change
nothing.
-/

namespace CodeAtlas

/-! ## Repeated items -/

section
variable {α : Type} [DecidableEq α] {a b : α} {l : List α}

/-- Whether an item stands in one group: behind its first occurrences there is none. -/
def InOneGroup (a : α) (l : List α) : Prop := a ∉ (l.dropWhile (· != a)).dropWhile (· == a)

instance (a : α) (l : List α) : Decidable (InOneGroup a l) := inferInstanceAs (Decidable (a ∉ _))

/-- An item in front counts once, and behind it without those that repeat it. -/
theorem count_dropRepeats_self (a : α) (l : List α) :
    (dropRepeats (a :: l)).count a = (dropRepeats (l.dropWhile (· == a))).count a + 1 := by
  induction l with
  | nil => simp [dropRepeats]
  | cons b rest ih =>
      rw [dropRepeats, List.dropWhile_cons]
      by_cases h : a = b
      · subst h
        rw [if_pos (beq_self_eq_true a), if_pos (beq_self_eq_true a), ih]
      · have hba : ¬ (b == a) = true := fun h' => h (eq_of_beq h').symm
        rw [if_neg fun h' => h (eq_of_beq h'), if_neg hba, List.count_cons_self]

/-- Another item in front makes no difference to the count. -/
theorem count_dropRepeats_of_ne (h : b ≠ a) (l : List α) :
    (dropRepeats (b :: l)).count a = (dropRepeats l).count a := by
  cases l with
  | nil => simp [dropRepeats, h]
  | cons c rest =>
      rw [dropRepeats]
      split
      · rfl
      · exact List.count_cons_of_ne h

/-- Leaving repetitions out takes no item away. -/
theorem mem_dropRepeats : a ∈ dropRepeats l ↔ a ∈ l := by
  induction l with
  | nil => exact Iff.rfl
  | cons b rest ih =>
      by_cases h : b = a
      · subst h
        have hpos : 0 < (dropRepeats (b :: rest)).count b := by
          rw [count_dropRepeats_self]
          exact Nat.succ_pos _
        exact iff_of_true (List.count_pos_iff.1 hpos) List.mem_cons_self
      · rw [← List.count_pos_iff, count_dropRepeats_of_ne h, List.count_pos_iff, ih, List.mem_cons]
        exact (or_iff_right fun h' => h h'.symm).symm

/-- Behind leaving out repeats an item is there once at most if it stood in one group. -/
theorem count_dropRepeats_le_one : (dropRepeats l).count a ≤ 1 ↔ InOneGroup a l := by
  induction l with
  | nil => exact iff_of_true (Nat.zero_le 1) List.not_mem_nil
  | cons b rest ih =>
      by_cases h : b = a
      · subst h
        have hgroup : InOneGroup b (b :: rest) ↔ b ∉ rest.dropWhile (· == b) := by
          rw [InOneGroup, List.dropWhile_cons, if_neg (by simp), List.dropWhile_cons,
            if_pos (beq_self_eq_true b)]
        rw [count_dropRepeats_self, hgroup, ← mem_dropRepeats, ← List.count_eq_zero]
        omega
      · have hgroup : InOneGroup a (b :: rest) ↔ InOneGroup a rest := by
          rw [InOneGroup, List.dropWhile_cons, if_pos (bne_iff_ne.2 h)]
          rfl
        rw [count_dropRepeats_of_ne h, hgroup, ih]

/-- No item that is kept is left twice exactly if each of them stood in one group. -/
theorem nodup_filter_dropRepeats {keep : α → Bool} :
    ((dropRepeats l).filter keep).Nodup ↔ ∀ a, keep a = true → InOneGroup a l := by
  rw [List.nodup_iff_count_le_one]
  refine forall_congr' fun a => ?_
  rw [← count_dropRepeats_le_one]
  cases h : keep a with
  | true =>
      rw [List.count_filter h]
      exact ⟨fun hcount _ => hcount, fun hcount => hcount rfl⟩
  | false =>
      have hmem : a ∉ (dropRepeats l).filter keep := by
        rw [List.mem_filter, h]
        exact fun hmem => Bool.false_ne_true hmem.2
      rw [List.count_eq_zero.2 hmem]
      exact iff_of_true (Nat.zero_le 1) nofun

/-- An item at the end is left out if it repeats the one in front. -/
theorem dropRepeats_append_singleton (l : List α) (b : α) : dropRepeats (l ++ [b])
    = if l.getLast? = some b then dropRepeats l else dropRepeats l ++ [b] := by
  induction l with
  | nil => rfl
  | cons a rest ih =>
      cases rest with
      | nil =>
          by_cases h : a = b
          · subst h
            simp [dropRepeats]
          · simp [dropRepeats, h]
      | cons c rest =>
          rw [List.cons_append, List.cons_append, dropRepeats, dropRepeats, ← List.cons_append, ih,
            List.getLast?_cons_cons]
          split
          · rfl
          · split
            · rfl
            · rfl

/-- If no item that is kept is left twice, repeats next to each other were all there were of
them. -/
theorem filter_dropRepeats_eq {keep : α → Bool} (h : ((dropRepeats l).filter keep).Nodup) :
    (dropRepeats l).filter keep = l.eraseDups.filter keep := by
  induction l using List.reverseRecOn with
  | nil => rfl
  | append_singleton l b ih =>
      rw [dropRepeats_append_singleton] at h ⊢
      rw [Keyed.eraseDups_append_singleton]
      by_cases hlast : l.getLast? = some b
      · have hmem : b ∈ l := List.mem_of_getLast? hlast
        rw [if_pos hlast] at h ⊢
        rw [if_pos hmem, ih h]
      · rw [if_neg hlast, List.filter_append] at h ⊢
        have hfront := ih (List.nodup_append.1 h).1
        by_cases hmem : b ∈ l
        · -- it is left twice, so it is not kept
          have hdrop : keep b = false := by
            by_contra hkeep
            rw [Bool.not_eq_false] at hkeep
            refine (List.nodup_append.1 h).2.2 b ?_ b ?_ rfl
            · exact List.mem_filter.2 ⟨mem_dropRepeats.2 hmem, hkeep⟩
            · exact List.mem_filter.2 ⟨List.mem_singleton_self b, hkeep⟩
          rw [if_pos hmem, List.filter_singleton, hdrop, hfront]
          exact List.append_nil _
        · rw [if_neg hmem, List.filter_append, hfront]

/-- A list in which nothing is repeated is left as it is. -/
theorem dropRepeats_of_nodup (h : l.Nodup) : dropRepeats l = l := by
  induction l with
  | nil => rfl
  | cons a rest ih =>
      obtain ⟨hnew, hrest⟩ := List.nodup_cons.1 h
      cases rest with
      | nil => rfl
      | cons b rest =>
          have hne : ¬ (a == b) = true := fun hab => hnew (eq_of_beq hab ▸ List.mem_cons_self)
          rw [dropRepeats, if_neg hne, ih hrest]

omit [DecidableEq α] in
/-- A list without repeats, of which all items that have a property are the same, has one of them at
most. -/
theorem countP_le_one {p : α → Bool} (hl : l.Nodup)
    (hsame : ∀ a ∈ l, ∀ b ∈ l, p a = true → p b = true → a = b) : l.countP p ≤ 1 := by
  rw [List.countP_eq_length_filter]
  have hfilter := hl.filter p
  have hmem : ∀ {a : α}, a ∈ l.filter p → a ∈ l ∧ p a = true := List.mem_filter.1
  cases hitems : l.filter p with
  | nil => exact Nat.zero_le 1
  | cons a rest =>
      cases rest with
      | nil => exact Nat.le_refl 1
      | cons b rest =>
          rw [hitems] at hfilter hmem
          obtain ⟨ha, hpa⟩ := hmem (a := a) List.mem_cons_self
          obtain ⟨hb, hpb⟩ := hmem (a := b) (List.mem_cons_of_mem _ List.mem_cons_self)
          have heq := hsame a ha b hb hpa hpb
          exact absurd (heq ▸ List.mem_cons_self) (List.nodup_cons.1 hfilter).1

end

/-! ## Extensions -/

namespace Language

/-- The extensions of analyzers are in small letters. -/
theorem lowered_of_mem {l : Language} {x : String} (h : x ∈ l.analyzer.extensions) :
    asciiLowered x = x := by
  revert x
  cases l <;> decide +kernel

/-- An analyzer takes the files whose extension is among its own, in any case. -/
theorem handles_iff {l : Language} {ext : String} :
    l.analyzer.handles ext = true ↔ asciiLowered ext ∈ l.analyzer.extensions := by
  rw [Analyzer.handles, List.any_eq_true]
  constructor
  · rintro ⟨x, hx, heq⟩
    rw [← eq_of_beq heq, lowered_of_mem hx]
    exact hx
  · intro h
    exact ⟨_, h, beq_iff_eq.2 (lowered_of_mem h)⟩

/-- What an analyzer takes is of its language; the typed script analyzer takes plain scripts too. -/
theorem ofExtension?_of_handles {l : Language} {ext : String} (h : l.analyzer.handles ext = true) :
    ofExtension? ext = some l ∨ l = .typeScript ∧ ofExtension? ext = some .javaScript := by
  have hmem := handles_iff.1 h
  rw [ofExtension?]
  generalize asciiLowered ext = x at hmem
  revert x
  cases l <;> decide +kernel

/-- The analyzer of a language takes its files. -/
theorem handles_of_ofExtension? {l : Language} {ext : String} (h : ofExtension? ext = some l) :
    l.analyzer.handles ext = true := by
  rw [handles_iff]
  rw [ofExtension?] at h
  -- one case for every known extension, and one without a language
  split at h <;> cases h
  all_goals
    rename_i heq
    rw [heq]
    decide +kernel

/-- The typed script analyzer takes plain scripts. -/
theorem handles_typeScript {ext : String} (h : ofExtension? ext = some .javaScript) :
    typeScript.analyzer.handles ext = true := by
  have hplain := handles_iff.1 (handles_of_ofExtension? h)
  exact handles_iff.2 (List.mem_cons_of_mem _ (List.mem_cons_of_mem _ hplain))

end Language

/-! ## The languages that are analyzed -/

namespace Language

/-- The languages of a repository are not repeated. -/
theorem nodup_present (r : Repository) : (present r).Nodup := by
  have hall : all.Nodup := by decide
  exact hall.filter _

/-- A language is found by its label. -/
theorem find?_label (l : Language) : all.find? (fun l' => l'.label == l.label) = some l := by
  cases l <;> decide +kernel

/-- The analyzer of a language is named by its label. -/
theorem language_analyzer (l : Language) : l.analyzer.language = l.label := by cases l <;> rfl

/-- Different languages have different analyzers. -/
theorem analyzer_injective : Function.Injective analyzer := by
  intro l l' h
  have hlabel : l.label = l'.label := by rw [← language_analyzer, h, language_analyzer]
  exact Option.some.inj ((find?_label l).symm.trans (hlabel ▸ find?_label l'))

end Language

open CodeAtlas.Language

/-- Whether a language stays among others: plain scripts are left out where typed ones are. -/
def stays (languages : List Language) (l : Language) : Bool :=
  l != .javaScript || !languages.contains .typeScript

/-- Scripts are left out where typed ones are, and everything else stays. -/
theorem shareScript_eq (languages : List Language) :
    shareScript languages = languages.filter (stays languages) := by
  have hstays : stays languages
      = fun l => l != .javaScript || !languages.contains .typeScript := rfl
  rw [shareScript, hstays]
  cases languages.contains .typeScript with
  | true => simp
  | false => simp

/-- What stays is told by the languages that are there. -/
theorem stays_congr {languages languages' : List Language}
    (h : ∀ l, l ∈ languages ↔ l ∈ languages') :
    stays languages = stays languages' := by
  have hcontains : languages.contains .typeScript = languages'.contains .typeScript := by
    rw [Bool.eq_iff_iff, List.contains_iff_mem, List.contains_iff_mem, h]
  funext l
  rw [stays, stays, hcontains]

/-- Whether no language that stays is asked for again behind another one. -/
def Regrouped (requested : List Language) : Prop :=
  ∀ l, stays requested l = true → InOneGroup l requested

section
variable {r : Repository} {requested : List Language}

/-- Without a request the languages that are there are analyzed, if they stay. -/
theorem languagesToAnalyze_nil (r : Repository) :
    languagesToAnalyze r [] = (present r).filter (stays (present r)) := shareScript_eq _

/-- With a request its languages are analyzed without repetitions next to each other, if they
stay. -/
theorem languagesToAnalyze_eq (r : Repository) (h : requested ≠ []) :
    languagesToAnalyze r requested = (dropRepeats requested).filter (stays requested) := by
  have hempty : ¬ requested.isEmpty = true := fun h' => h (List.isEmpty_iff.1 h')
  rw [languagesToAnalyze, if_neg hempty, shareScript_eq, stays_congr fun l => mem_dropRepeats]

/-- A language is analyzed twice exactly if it is asked for again behind another one. -/
theorem nodup_languagesToAnalyze :
    (languagesToAnalyze r requested).Nodup ↔ Regrouped requested := by
  by_cases h : requested = []
  · subst h
    rw [languagesToAnalyze_nil]
    exact iff_of_true ((nodup_present r).filter _) fun _ _ => List.not_mem_nil
  · rw [languagesToAnalyze_eq r h]
    exact nodup_filter_dropRepeats

/-- Plain scripts are not analyzed beside typed ones. -/
theorem script_apart (h : .typeScript ∈ languagesToAnalyze r requested) :
    .javaScript ∉ languagesToAnalyze r requested := by
  rw [languagesToAnalyze, shareScript_eq] at h ⊢
  intro hplain
  have hstays := (List.mem_filter.1 hplain).2
  rw [stays, List.contains_iff_mem.2 (List.mem_filter.1 h).1] at hstays
  exact Bool.false_ne_true hstays

/-- Of the languages that are analyzed only one takes the files with an extension. -/
theorem eq_of_handles {l l' : Language} (hl : l ∈ languagesToAnalyze r requested)
    (hl' : l' ∈ languagesToAnalyze r requested) {ext : String} (h : l.analyzer.handles ext = true)
    (h' : l'.analyzer.handles ext = true) : l = l' := by
  rcases ofExtension?_of_handles h with hext | ⟨rfl, hext⟩
  · rcases ofExtension?_of_handles h' with hext' | ⟨rfl, hext'⟩
    · exact Option.some.inj (hext.symm.trans hext')
    · obtain rfl := Option.some.inj (hext.symm.trans hext')
      exact absurd hl (script_apart hl')
  · rcases ofExtension?_of_handles h' with hext' | ⟨rfl, -⟩
    · obtain rfl := Option.some.inj (hext.symm.trans hext')
      exact absurd hl' (script_apart hl)
    · rfl

/-- Repeated requests change nothing if no language that stays is asked for again behind another
one. -/
theorem languagesToAnalyze_eraseDups (r : Repository) (h : Regrouped requested) :
    languagesToAnalyze r requested = languagesToAnalyze r requested.eraseDups := by
  by_cases hne : requested = []
  · rw [hne, List.eraseDups_nil]
  · have hmem : ∀ l, l ∈ requested.eraseDups ↔ l ∈ requested := fun l => List.mem_eraseDups
    have hne' : requested.eraseDups ≠ [] := by
      obtain ⟨l, hl⟩ := List.exists_mem_of_ne_nil _ hne
      exact List.ne_nil_of_mem ((hmem l).2 hl)
    rw [languagesToAnalyze_eq r hne, languagesToAnalyze_eq r hne', stays_congr hmem,
      dropRepeats_of_nodup (Keyed.nodup_eraseDups requested)]
    exact filter_dropRepeats_eq (nodup_filter_dropRepeats.2 h)

end

/-! ## The analyzers that run -/

/-- The analyzers that run on a repository. -/
def analyzersFor (r : Repository) (requested : List Language) : List Analyzer :=
  (languagesToAnalyze r requested).map analyzer

/-- How many of the analyzers that run take the files with an extension. -/
def timesTaken (r : Repository) (requested : List Language) (ext : String) : Nat :=
  (analyzersFor r requested).countP (·.handles ext)

/-- If all repetitions of a request stand together an extension is taken once at most. -/
theorem timesTaken_le_one {r : Repository} {requested : List Language} (h : Regrouped requested)
    (ext : String) : timesTaken r requested ext ≤ 1 := by
  rw [timesTaken, analyzersFor, List.countP_map]
  exact countP_le_one (nodup_languagesToAnalyze.2 h) fun l hl l' hl' => eq_of_handles hl hl'

/-- An empty request has no repetitions. -/
theorem regrouped_nil : Regrouped [] := fun _ _ => List.not_mem_nil

/-- Some language that is analyzed without a request takes the files of one that is there. -/
theorem exists_handles {r : Repository} {l : Language} (hl : l ∈ present r) {ext : String}
    (hext : ofExtension? ext = some l) :
    ∃ l' ∈ languagesToAnalyze r [], l'.analyzer.handles ext = true := by
  rw [languagesToAnalyze_nil]
  by_cases hstays : stays (present r) l = true
  · exact ⟨l, List.mem_filter.2 ⟨hl, hstays⟩, handles_of_ofExtension? hext⟩
  · rw [stays, Bool.or_eq_true, not_or, bne_iff_ne, not_not, Bool.not_eq_true', Bool.not_eq_false,
      List.contains_iff_mem] at hstays
    obtain ⟨rfl, htyped⟩ := hstays
    exact ⟨.typeScript, List.mem_filter.2 ⟨htyped, rfl⟩, handles_typeScript hext⟩

/-- Without a request every file of a known language is taken once. -/
theorem timesTaken_nil {r : Repository} {e : Repository.Entry}
    (he : e ∈ r.entries fun e => (ofFile? e).isSome) :
    ∃ ext, e.extension? = some ext ∧ timesTaken r [] ext = 1 := by
  have hknown : (ofFile? e).isSome = true := by
    have htest := (List.mem_filter.1 he).2
    simp only [Bool.and_eq_true] at htest
    exact htest.1.1.1.2
  obtain ⟨l, hl⟩ := Option.isSome_iff_exists.1 hknown
  obtain ⟨ext, hname, hext⟩ := Option.bind_eq_some_iff.1 hl
  have hfound : l ∈ indicated r ++ ofFiles r :=
    List.mem_append_right _ (List.mem_filterMap.2 ⟨e, he, hl⟩)
  have hpresent : l ∈ present r := List.mem_filter.2 ⟨mem_all l, List.contains_iff_mem.2 hfound⟩
  obtain ⟨l', hl', hhandles⟩ := exists_handles hpresent hext
  refine ⟨ext, hname, Nat.le_antisymm (timesTaken_le_one regrouped_nil ext) ?_⟩
  exact List.countP_pos_iff.2 ⟨_, List.mem_map_of_mem hl', hhandles⟩

/-- Two different languages that are analyzed never take files with the same extension. An analyzer
runs twice exactly if a language that stays is asked for again behind another one. If there is none,
the files with an extension are taken by one analyzer at most, and repeated requests do not change
the analysis. Without a request every file of a known language is taken by exactly one analyzer. -/
theorem analyzers_of_request (r : Repository) (requested : List Language) :
    (∀ l ∈ languagesToAnalyze r requested, ∀ l' ∈ languagesToAnalyze r requested,
        ∀ ext, l.analyzer.handles ext = true → l'.analyzer.handles ext = true → l = l')
      ∧ ((analyzersFor r requested).Nodup ↔ Regrouped requested)
      ∧ (Regrouped requested → (∀ ext, timesTaken r requested ext ≤ 1)
        ∧ ∀ scope tree root, analyzeRepository scope tree root requested
          = analyzeRepository scope tree root requested.eraseDups)
      ∧ ∀ e ∈ r.entries (fun e => (ofFile? e).isSome),
        ∃ ext, e.extension? = some ext ∧ timesTaken r [] ext = 1 := by
  refine ⟨fun l hl l' hl' ext => eq_of_handles hl hl', ?_, fun h => ?_, fun e => timesTaken_nil⟩
  · rw [analyzersFor, List.nodup_map_iff analyzer_injective, nodup_languagesToAnalyze]
  · refine ⟨timesTaken_le_one h, fun scope tree root => ?_⟩
    simp only [analyzeRepository, languagesToAnalyze_eraseDups _ h]

instance (requested : List Language) : Decidable (Regrouped requested) :=
  decidable_of_iff (∀ l ∈ all, stays requested l = true → InOneGroup l requested)
    ⟨fun h l => h l (mem_all l), fun h l _ => h l⟩

/-- Languages that are asked for twice in a row, and plain scripts beside typed ones. -/
theorem analyzers_of_request_grouped :
    let requested := [Language.bash, .bash, .javaScript, .typeScript, .javaScript, .go, .go]
    let r : Repository := ({} : Scope).repository {} "."
    Regrouped requested ∧ timesTaken r requested "js" ≤ 1 ∧ (analyzersFor r requested).Nodup := by
  intro requested r
  have h : Regrouped requested := by decide
  obtain ⟨-, hnodup, htaken, -⟩ := analyzers_of_request r requested
  exact ⟨h, (htaken h).1 "js", hnodup.2 h⟩

/-- A language that is asked for again behind another one is analyzed again: its files are taken
twice. -/
theorem taken_twice : ¬ ∀ r requested ext, timesTaken r requested ext ≤ 1 := by
  intro h
  have htwice := h (({} : Scope).repository {} ".") [.go, .bash, .go] "go"
  revert htwice
  decide +kernel

end CodeAtlas
