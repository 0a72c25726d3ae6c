import CodeAtlas.Language.Detect
import Mathlib.Data.List.Basic
import Mathlib.Data.List.Induction

/-!
# Detected languages

The language of a repository and the languages found in it are detected in two ways. A file at the
root that tells a language decides the first and belongs to the second. Without one, the files below
the root are counted by language. The search through the counts, step by step, keeps the largest so
far, and the first of equal ones; since the counts stand in the order of the languages, it ends with
the language that leads.
-/

namespace CodeAtlas.Language

/-! ## Order -/

/-- A language is before another if it comes first in the list of all. -/
theorem before_iff {a b : Language} : a.before b = true ↔ all.idxOf a < all.idxOf b :=
  decide_eq_true_iff

/-- Of two languages one comes in front of the other. -/
theorem before_or_before {a b : Language} (h : a ≠ b) : a.before b = true ∨ b.before a = true := by
  have hne : all.idxOf a ≠ all.idxOf b := fun heq => h ((List.idxOf_inj (mem_all a)).1 heq)
  rw [before_iff, before_iff]
  omega

/-- Of two different languages one is before the other. -/
theorem before_asymm {a b : Language} (h : a.before b = true) : b.before a = false ∧ b ≠ a := by
  rw [before_iff] at h
  refine ⟨?_, fun heq => Nat.lt_irrefl _ (heq ▸ h)⟩
  rw [← Bool.not_eq_true, before_iff]
  omega

theorem pairwise_all : all.Pairwise fun a b => a.before b = true := by decide

/-! ## The search -/

section
variable {p : Language × Nat} {entries : List (Language × Nat)}

/-- The entry is larger than those in front of it, and none behind it is larger. -/
def IsBest (entries : List (Language × Nat)) (p : Language × Nat) : Prop :=
  ∃ front back, entries = front ++ p :: back ∧ (∀ q ∈ front, q.2 < p.2) ∧ ∀ q ∈ back, q.2 ≤ p.2

/-- The best entry counts as much as any other. -/
theorem IsBest.le (h : IsBest entries p) : ∀ q ∈ entries, q.2 ≤ p.2 := by
  obtain ⟨front, back, rfl, hfront, hback⟩ := h
  intro q hq
  rcases List.mem_append.1 hq with hq | hq
  · exact Nat.le_of_lt (hfront q hq)
  · rcases List.mem_cons.1 hq with rfl | hq
    · exact Nat.le_refl _
    · exact hback q hq

/-- One step of the search takes the entry that comes next if it is larger. -/
theorem IsBest.append (h : IsBest entries p) (q : Language × Nat) :
    IsBest (entries ++ [q]) (if p.2 < q.2 then q else p) := by
  by_cases hlt : p.2 < q.2
  · rw [if_pos hlt]
    exact ⟨entries, [], rfl, fun x hx => Nat.lt_of_le_of_lt (h.le x hx) hlt, nofun⟩
  · obtain ⟨front, back, rfl, hfront, hback⟩ := h
    rw [if_neg hlt]
    refine ⟨front, back ++ [q], by simp, hfront, fun x hx => ?_⟩
    rcases List.mem_append.1 hx with hx | hx
    · exact hback x hx
    · rw [List.mem_singleton.1 hx]
      exact Nat.le_of_not_lt hlt

/-- The search finds the best entry, if there are entries. -/
theorem foldl_better : entries = [] ∧ entries.foldl better none = none ∨
    ∃ p, entries.foldl better none = some p ∧ IsBest entries p := by
  induction entries using List.reverseRecOn with
  | nil => exact .inl ⟨rfl, rfl⟩
  | append_singleton entries q ih =>
      rw [List.foldl_append]
      rcases ih with ⟨rfl, hnone⟩ | ⟨p, hp, hbest⟩
      · exact .inr ⟨q, by rw [hnone]; rfl, [], [], rfl, nofun, nofun⟩
      · refine .inr ⟨_, ?_, hbest.append q⟩
        rw [hp]
        exact (apply_ite some _ _ _).symm

end

/-! ## Counts -/

section
variable {files : List Language} {l : Language}

/-- A language with the most files, the first of those with equally many. -/
def Leads (count : Language → Nat) (l : Language) : Prop :=
  0 < count l ∧ ∀ l', count l' ≤ count l ∧ (l'.before l = true → count l' < count l)

/-- Only one language leads. -/
theorem Leads.unique {count : Language → Nat} {l l' : Language} (h : Leads count l)
    (h' : Leads count l') :
    l = l' := by
  by_contra hne
  rcases before_or_before hne with hbefore | hbefore
  · exact Nat.not_lt.2 (h.2 l').1 ((h'.2 l).2 hbefore)
  · exact Nat.not_lt.2 (h'.2 l).1 ((h.2 l').2 hbefore)

/-- Languages are counted that files are of. -/
theorem mem_counts {p : Language × Nat} :
    p ∈ counts files ↔ p.2 = files.count p.1 ∧ p.1 ∈ files := by
  obtain ⟨l, n⟩ := p
  rw [counts, List.mem_filter, List.mem_map, ← List.count_pos_iff]
  constructor
  · rintro ⟨⟨l', -, heq⟩, hne⟩
    obtain ⟨rfl, rfl⟩ := Prod.mk.inj heq
    exact ⟨rfl, Nat.pos_of_ne_zero (bne_iff_ne.1 hne)⟩
  · rintro ⟨hn, hpos⟩
    obtain rfl : n = files.count l := hn
    exact ⟨⟨l, mem_all l, rfl⟩, bne_iff_ne.2 (Nat.ne_of_gt hpos)⟩

/-- Counts ascend by language. -/
theorem pairwise_counts (files : List Language) :
    (counts files).Pairwise fun p q => p.1.before q.1 = true :=
  (List.pairwise_map.2 pairwise_all).filter _

/-- The best of the counts belongs to the language that leads. -/
theorem leads_of_isBest {p : Language × Nat} (h : IsBest (counts files) p) :
    Leads files.count p.1 := by
  have hle := h.le
  obtain ⟨front, back, hcounts, hfront, -⟩ := h
  have hp : p ∈ counts files := by
    rw [hcounts]
    exact List.mem_append_right _ List.mem_cons_self
  obtain ⟨hcount, hmem⟩ := mem_counts.1 hp
  have hpairwise := pairwise_counts files
  rw [hcounts, List.pairwise_append, List.pairwise_cons] at hpairwise
  obtain ⟨-, ⟨hbehind, -⟩, -⟩ := hpairwise
  -- an earlier language stands in front of the best entry
  have hlt : ∀ q ∈ counts files, q.1.before p.1 = true → q.2 < p.2 := by
    intro q hq hbefore
    rw [hcounts] at hq
    rcases List.mem_append.1 hq with hq | hq
    · exact hfront q hq
    · obtain ⟨hnot, hne⟩ := before_asymm hbefore
      rcases List.mem_cons.1 hq with rfl | hq
      · exact absurd rfl hne
      · rw [hbehind q hq] at hnot
        cases hnot
  have hpos : 0 < files.count p.1 := List.count_pos_iff.2 hmem
  refine ⟨hpos, fun l' => ?_⟩
  show files.count l' ≤ files.count p.1 ∧ (l'.before p.1 = true → files.count l' < files.count p.1)
  by_cases hl' : l' ∈ files
  · have hq : (l', files.count l') ∈ counts files := mem_counts.2 ⟨rfl, hl'⟩
    rw [← hcount]
    exact ⟨hle _ hq, hlt _ hq⟩
  · rw [List.count_eq_zero_of_not_mem hl']
    exact ⟨Nat.zero_le _, fun _ => hpos⟩

/-- There is no most frequent language if there are no files. -/
theorem mostFrequent?_eq_none : mostFrequent? files = none ↔ files = [] := by
  rcases @foldl_better (counts files) with ⟨hnil, hnone⟩ | ⟨p, hp, hbest⟩
  · rw [mostFrequent?, hnone]
    refine iff_of_true rfl (List.eq_nil_iff_forall_not_mem.2 fun l hl => ?_)
    have hmem : (l, files.count l) ∈ counts files := mem_counts.2 ⟨rfl, hl⟩
    rw [hnil] at hmem
    cases hmem
  · rw [mostFrequent?, hp]
    refine iff_of_false nofun fun hnil => ?_
    have hleads := (leads_of_isBest hbest).1
    rw [hnil] at hleads
    exact Nat.lt_irrefl 0 hleads

/-- The search finds the language that leads. -/
theorem mostFrequent?_eq_some_iff : mostFrequent? files = some l ↔ Leads files.count l := by
  rcases @foldl_better (counts files) with ⟨-, hnone⟩ | ⟨p, hp, hbest⟩
  · have hmost : mostFrequent? files = none := by
      rw [mostFrequent?, hnone]
      rfl
    rw [hmost, mostFrequent?_eq_none.1 hmost]
    exact iff_of_false nofun fun h => Nat.lt_irrefl 0 h.1
  · have hmost : mostFrequent? files = some p.1 := by
      rw [mostFrequent?, hp]
      rfl
    rw [hmost, Option.some.injEq]
    have hleads := leads_of_isBest hbest
    constructor
    · rintro rfl
      exact hleads
    · exact hleads.unique

end

/-! ## Repositories -/

section
variable {r : Repository} {l : Language}

/-- The files of a language among those that are looked at. -/
def filesOf (r : Repository) (l : Language) : List Repository.Entry :=
  r.entries fun e => ofFile? e == some l

/-- Entries that are accepted and have a property are those accepted by both. -/
theorem filter_entries (r : Repository) (accept p : Repository.Entry → Bool) :
    (r.entries accept).filter p = r.entries fun e => accept e && p e := by
  rw [Repository.entries, Repository.entries, List.filter_filter]
  refine List.filter_congr fun e _ => ?_
  cases p e <;> simp

/-- The files of a language are counted. -/
theorem count_ofFiles (r : Repository) (l : Language) :
    (ofFiles r).count l = (filesOf r l).length := by
  have haccept : ∀ e, ((ofFile? e).isSome && ofFile? e == some l) = (ofFile? e == some l) := by
    intro e
    cases ofFile? e <;> rfl
  rw [ofFiles, List.count_filterMap, List.countP_eq_length_filter, filter_entries, filesOf]
  simp only [haccept]

/-- A language that files are of is one with files. -/
theorem mem_ofFiles : l ∈ ofFiles r ↔ filesOf r l ≠ [] := by
  rw [← List.count_pos_iff, count_ofFiles, List.length_pos_iff]

/-- A language is indicated by a file with one of its names. -/
theorem mem_indicated : l ∈ indicated r ↔ ∃ name, (name, l) ∈ indicators
    ∧ r.hasFile name = true := by
  rw [indicated, List.mem_map]
  constructor
  · rintro ⟨p, hp, rfl⟩
    exact ⟨p.1, List.mem_filter.1 hp⟩
  · rintro ⟨name, h⟩
    exact ⟨(name, l), List.mem_filter.2 h, rfl⟩

/-- A language is there if it is indicated or files are of it. -/
theorem mem_present : l ∈ present r ↔ l ∈ indicated r ∨ l ∈ ofFiles r := by
  rw [present, List.mem_filter, List.contains_iff_mem, List.mem_append]
  exact and_iff_right (mem_all l)

/-- A file at the root that tells a language comes first, and else the language that leads. -/
theorem primary?_of_indicated {l : Language} {rest : List Language} (h : indicated r = l :: rest) :
    primary? r = some l := by rw [primary?, h]

/-- Without indications the most frequent language is the primary one. -/
theorem primary?_of_nil (h : indicated r = []) : primary? r = mostFrequent? (ofFiles r) := by
  rw [primary?, h]

/-- The primary language is there. -/
theorem mem_present_of_primary? (h : primary? r = some l) : l ∈ present r := by
  cases hindicated : indicated r with
  | nil =>
      rw [primary?_of_nil hindicated, mostFrequent?_eq_some_iff] at h
      exact mem_present.2 (.inr (List.count_pos_iff.1 h.1))
  | cons first rest =>
      rw [primary?_of_indicated hindicated] at h
      cases h
      exact mem_present.2 (.inl (hindicated ▸ List.mem_cons_self))

/-- There is no primary language if no language is there. -/
theorem primary?_eq_none : primary? r = none ↔ present r = [] := by
  constructor
  · intro h
    cases hindicated : indicated r with
    | nil =>
        rw [primary?_of_nil hindicated, mostFrequent?_eq_none] at h
        refine List.eq_nil_iff_forall_not_mem.2 fun l hl => ?_
        rw [mem_present, hindicated, h] at hl
        rcases hl with hl | hl <;> cases hl
    | cons first rest =>
        rw [primary?_of_indicated hindicated] at h
        cases h
  · intro h
    cases hprimary : primary? r with
    | none => rfl
    | some l =>
        have hl := mem_present_of_primary? hprimary
        rw [h] at hl
        cases hl

/-- The language of a repository is among its languages, and there is one exactly if there are some.
The languages stand in order: they are those that files at the root tell and those of the files that
are looked at. Without a file at the root that tells one, the language is the one with the most
files, the first of those with equally many. -/
theorem detection_agrees (r : Repository) :
    (∀ l, primary? r = some l → l ∈ present r)
      ∧ (primary? r = none ↔ present r = [])
      ∧ (present r).Pairwise (fun a b => a.before b = true)
      ∧ (∀ l, l ∈ present r ↔
          (∃ name, (name, l) ∈ indicators ∧ r.hasFile name = true) ∨ filesOf r l ≠ [])
      ∧ ((∀ p ∈ indicators, r.hasFile p.1 = false) →
          ∀ l, primary? r = some l ↔ Leads (fun l => (filesOf r l).length) l) := by
  refine ⟨fun l => mem_present_of_primary?, primary?_eq_none, pairwise_all.filter _, fun l => ?_,
    fun h l => ?_⟩
  · rw [mem_present, mem_indicated, mem_ofFiles]
  · have hnil : indicated r = [] := by
      refine List.eq_nil_iff_forall_not_mem.2 fun l hl => ?_
      obtain ⟨name, hname, hfile⟩ := mem_indicated.1 hl
      rw [h _ hname] at hfile
      cases hfile
    rw [primary?_of_nil hnil, mostFrequent?_eq_some_iff, ← funext (count_ofFiles r)]

end

end CodeAtlas.Language
