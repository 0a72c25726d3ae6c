import CodeAtlas.Files.Change
import Mathlib.Data.List.Basic

/-!
# Following locations while files come and go

A location leads to the same path as long as the folders on the way stay folders. Writing and
renaming files keeps all folders, and the paths of new files were none of them. So a file that was
written or renamed is found by the location that it was given.
-/

namespace CodeAtlas

/-- What succeeds in two parts succeeds in both. -/
theorem exists_of_bind {ε α β : Type} {x : Except ε α} {f : α → Except ε β} {b : β}
    (h : x >>= f = .ok b) : ∃ a, x = .ok a ∧ f a = .ok b := by
  cases x with
  | error e => cases h
  | ok a => exact ⟨a, rfl, h⟩

/-- A path is below another if it goes on behind it. -/
theorem Path.below?_eq_some_iff {root path rest : Path} :
    root.below? path = some rest ↔ path = root ++ rest := by
  induction root generalizing path with
  | nil =>
      rw [Path.below?, Option.some.injEq]
      rfl
  | cons a root ih =>
      cases path with
      | nil => exact ⟨nofun, nofun⟩
      | cons b path =>
          rw [Path.below?]
          split
          · next h => rw [ih, List.cons_append, List.cons.injEq, and_iff_right h.symm]
          · next h => exact ⟨nofun, fun heq => absurd (List.cons.inj heq).1.symm h⟩

namespace Tree

variable {t t' : Tree}

/-! ## Files and folders of a changed tree -/

/-- A file is looked up at the first entry or behind it. -/
theorem lookup_cons_if (q p : Path) (b : List UInt8) (files : List (Path × List UInt8)) :
    ((p, b) :: files).lookup q = if q = p then some b else files.lookup q := by
  rw [List.lookup_cons]
  by_cases h : q = p
  · rw [if_pos h, beq_iff_eq.2 h]
  · rw [if_neg h, beq_eq_false_iff_ne.2 h]

/-- A file that is put into a list is found under its path, and the others as before. -/
theorem lookup_insertFile (path : Path) (bytes : List UInt8) (files : List (Path × List UInt8))
    (q : Path) :
    (insertFile path bytes files).lookup q = if q = path then some bytes else files.lookup q := by
  induction files with
  | nil => exact lookup_cons_if q path bytes []
  | cons f files ih =>
      obtain ⟨p, b⟩ := f
      rw [insertFile]
      split
      · next hp =>
        rw [lookup_cons_if, lookup_cons_if, hp]
        by_cases h : q = path
        · rw [if_pos h, if_pos h]
        · rw [if_neg h, if_neg h, if_neg h]
      · next hp =>
        split
        · rw [lookup_cons_if]
        · rw [lookup_cons_if, lookup_cons_if, ih]
          by_cases h : q = p
          · rw [if_pos h, if_pos h, if_neg fun heq => hp (h.symm.trans heq)]
          · rw [if_neg h, if_neg h]

/-- A file that is put into a tree is found under its path, and the others as before. -/
theorem bytes?_put (path : Path) (bytes : List UInt8) (q : Path) :
    (t.put path bytes).bytes? q = if q = path then some bytes else t.bytes? q :=
  lookup_insertFile path bytes t.files q

/-- A file that is dropped is not found, and the others are as before. -/
theorem bytes?_drop (path q : Path) :
    (t.drop path).bytes? q = if q = path then none else t.bytes? q := by
  have hfiles : (t.drop path).files = t.files.filter fun f => f.1 != path := rfl
  rw [bytes?, hfiles, bytes?]
  induction t.files with
  | nil => exact (ite_self none).symm
  | cons f files ih =>
      obtain ⟨p, b⟩ := f
      rw [List.filter_cons, lookup_cons_if]
      by_cases hp : p = path
      · rw [if_neg (by simp [hp]), ih, hp]
        by_cases h : q = path
        · rw [if_pos h, if_pos h]
        · rw [if_neg h, if_neg h, if_neg h]
      · rw [if_pos (by simp [hp]), lookup_cons_if, ih]
        by_cases h : q = p
        · rw [if_pos h, if_pos h, if_neg fun heq => hp (h.symm.trans heq)]
        · rw [if_neg h, if_neg h]

/-- A folder is on the way to a folder that is there, or on the way to a file. -/
theorem isFolder_iff {q : Path} : t.isFolder q = true
    ↔ q = [] ∨ (∃ f ∈ t.here :: t.folders, q <+: f) ∨ ∃ f ∈ t.files, q <+: f.1 ∧ q ≠ f.1 := by
  have hfolder : ∀ f, (q.below? f).isSome = true ↔ q <+: f := by
    intro f
    rw [Option.isSome_iff_exists]
    exact exists_congr fun rest => Path.below?_eq_some_iff.trans eq_comm
  rw [isFolder, Bool.or_eq_true, Bool.or_eq_true, List.isEmpty_iff, List.any_eq_true,
    List.any_eq_true, or_assoc]
  simp only [hfolder]
  refine or_congr_right (or_congr_right (exists_congr fun f => and_congr_right fun _ => ?_))
  constructor
  · intro h
    split at h
    · next x rest heq =>
      rw [Path.below?_eq_some_iff] at heq
      refine ⟨⟨_, heq.symm⟩, fun hq => ?_⟩
      rw [← hq] at heq
      exact absurd (List.self_eq_append_right.1 heq) (List.cons_ne_nil x rest)
    · exact absurd h Bool.false_ne_true
  · rintro ⟨⟨rest, hrest⟩, hne⟩
    rw [Path.below?_eq_some_iff.2 hrest.symm]
    cases rest with
    | nil => exact absurd ((List.append_nil q).symm.trans hrest) hne
    | cons x rest => rfl

/-- Before the last name of a folder there is a folder. -/
theorem isFolder_dropLast {q : Path} (h : t.isFolder q = true) : t.isFolder q.dropLast = true := by
  have hprefix : q.dropLast <+: q := List.dropLast_prefix q
  rcases isFolder_iff.1 h with rfl | ⟨f, hf, hq⟩ | ⟨f, hf, hq, hne⟩
  · exact isFolder_iff.2 (.inl rfl)
  · exact isFolder_iff.2 (.inr (.inl ⟨f, hf, hprefix.trans hq⟩))
  · refine isFolder_iff.2 (.inr (.inr ⟨f, hf, hprefix.trans hq, fun heq => hne ?_⟩))
    exact hq.eq_of_length_le (heq ▸ hprefix.length_le)

/-- Putting a file into a list keeps the paths that were there. -/
theorem exists_mem_insertFile (path : Path) (bytes : List UInt8)
    {files : List (Path × List UInt8)} {f : Path × List UInt8} (h : f ∈ files) :
    ∃ f' ∈ insertFile path bytes files, f'.1 = f.1 := by
  induction files with
  | nil => cases h
  | cons g files ih =>
      rw [insertFile]
      split
      · next hg =>
        rcases List.mem_cons.1 h with rfl | h
        · exact ⟨_, List.mem_cons_self, hg.symm⟩
        · exact ⟨f, List.mem_cons_of_mem _ h, rfl⟩
      · split
        · exact ⟨f, List.mem_cons_of_mem _ h, rfl⟩
        · rcases List.mem_cons.1 h with rfl | h
          · exact ⟨_, List.mem_cons_self, rfl⟩
          · obtain ⟨f', hf', heq⟩ := ih h
            exact ⟨f', List.mem_cons_of_mem _ hf', heq⟩

/-- Putting a file keeps the folders. -/
theorem isFolder_put (path : Path) (bytes : List UInt8) {q : Path} (h : t.isFolder q = true) :
    (t.put path bytes).isFolder q = true := by
  rcases isFolder_iff.1 h with rfl | ⟨f, hf, hq⟩ | ⟨f, hf, hq⟩
  · exact isFolder_iff.2 (.inl rfl)
  · exact isFolder_iff.2 (.inr (.inl ⟨f, hf, hq⟩))
  · obtain ⟨f', hf', heq⟩ := exists_mem_insertFile path bytes hf
    exact isFolder_iff.2 (.inr (.inr ⟨f', hf', heq ▸ hq⟩))

/-- A folder that is added is there. -/
theorem mem_folders_addFolder (path : Path) : path ∈ (t.addFolder path).folders := by
  rw [addFolder]
  split
  · next h => exact List.contains_iff_mem.1 h
  · exact List.mem_cons_self

/-- Adding a folder keeps the folders. -/
theorem folders_subset_addFolder (path : Path) :
    ∀ f ∈ t.folders, f ∈ (t.addFolder path).folders := by
  intro f hf
  rw [addFolder]
  split
  · exact hf
  · exact List.mem_cons_of_mem _ hf

/-- Adding a folder does not move the working directory. -/
theorem here_addFolder (path : Path) : (t.addFolder path).here = t.here := by
  rw [addFolder]
  split
  · rfl
  · rfl

/-- Dropping a file keeps the folders. -/
theorem isFolder_drop (path : Path) {q : Path} (h : t.isFolder q = true) :
    (t.drop path).isFolder q = true := by
  have hhere : (t.drop path).here = t.here := here_addFolder path.dropLast
  rcases isFolder_iff.1 h with rfl | ⟨f, hf, hq⟩ | ⟨f, hf, hq, hne⟩
  · exact isFolder_iff.2 (.inl rfl)
  · refine isFolder_iff.2 (.inr (.inl ⟨f, ?_, hq⟩))
    rcases List.mem_cons.1 hf with rfl | hf
    · exact hhere ▸ List.mem_cons_self
    · exact List.mem_cons_of_mem _ (folders_subset_addFolder path.dropLast f hf)
  · by_cases hpath : f.1 = path
    · -- what was on the way to the file is on the way to its folder, which stays
      have hmem : path.dropLast ∈ (t.drop path).folders := mem_folders_addFolder path.dropLast
      have hlt : q.length < f.1.length :=
        Nat.lt_of_le_of_ne hq.length_le fun heq => hne (hq.eq_of_length heq)
      refine isFolder_iff.2 (.inr (.inl ⟨path.dropLast, List.mem_cons_of_mem _ hmem, ?_⟩))
      rw [← hpath]
      refine List.prefix_of_prefix_length_le hq (List.dropLast_prefix f.1) ?_
      rw [List.length_dropLast]
      omega
    · refine isFolder_iff.2 (.inr (.inr ⟨f, List.mem_filter.2 ⟨hf, by simpa using hpath⟩, hq, hne⟩))

/-! ## Following a location -/

/-- A tree with all folders of another, and with no files but those of the other and some in new
paths, which were no folders. -/
structure Grows (t t' : Tree) (paths : List Path) : Prop where
  here : t'.here = t.here
  folders : ∀ {q}, t.isFolder q = true → t'.isFolder q = true
  files : ∀ {q}, t'.isFile q = true → t.isFile q = true ∨ q ∈ paths
  free : ∀ p ∈ paths, t.isFolder p = false

namespace Grows

/-- A tree that stays the same has grown by nothing. -/
theorem refl (t : Tree) : Grows t t [] := ⟨rfl, id, .inl, List.forall_mem_nil _⟩

/-- Growing is transitive, and the paths add up. -/
theorem trans {t'' : Tree} {paths paths' : List Path} (h : Grows t t' paths)
    (h' : Grows t' t'' paths') : Grows t t'' (paths ++ paths') where
  here := h'.here.trans h.here
  folders := fun hq => h'.folders (h.folders hq)
  files := by
    intro q hq
    rcases h'.files hq with hq | hq
    · exact (h.files hq).imp_right (List.mem_append_left _)
    · exact .inr (List.mem_append_right _ hq)
  free := by
    refine List.forall_mem_append.2 ⟨h.free, fun p hp => ?_⟩
    cases hfolder : t.isFolder p with
    | false => rfl
    | true => exact absurd (h.folders hfolder) (by rw [h'.free p hp]; exact Bool.false_ne_true)

/-- A tree grows by a file where no folder stands. -/
theorem put {path : Path} (bytes : List UInt8) (hpath : t.isFolder path = false) :
    Grows t (t.put path bytes) [path] where
  here := rfl
  folders := isFolder_put path bytes
  files := by
    intro q hq
    rw [isFile, bytes?_put] at hq
    by_cases h : q = path
    · exact .inr (List.mem_singleton.2 h)
    · rw [if_neg h] at hq
      exact .inl hq
  free := List.forall_mem_singleton.2 hpath

/-- A tree from which a file is dropped has grown by nothing. -/
theorem drop (t : Tree) (path : Path) : Grows t (t.drop path) [] where
  here := here_addFolder path.dropLast
  folders := isFolder_drop path
  files := by
    intro q hq
    rw [isFile, bytes?_drop] at hq
    by_cases h : q = path
    · rw [if_pos h] at hq
      cases hq
    · rw [if_neg h] at hq
      exact .inl hq
  free := List.forall_mem_nil _

/-- A folder of the first tree is no file of the second unless it was one. -/
theorem isFile_eq_false {paths : List Path} (h : Grows t t' paths) {q : Path}
    (hfolder : t.isFolder q = true) (hfile : t.isFile q = false) : t'.isFile q = false := by
  cases hq : t'.isFile q with
  | false => rfl
  | true =>
      rcases h.files hq with hq | hq
      · exact hfile.symm.trans hq |>.symm
      · exact absurd hfolder (by rw [h.free q hq]; exact Bool.false_ne_true)

end Grows

/-- What a step can do: it stays, goes back, or goes to something in the folder. -/
theorem step_eq_ok_iff {q q' : Path} {name : String} :
    t.step q name = .ok q' ↔ t.isFile q = false ∧
      ((name = "" ∨ name = ".") ∧ q' = q ∨ name = ".." ∧ q' = q.dropLast ∨
        isOnTheWay name = false ∧ t.isThere (q ++ [name]) = true ∧ q' = q ++ [name]) := by
  rw [step]
  cases t.isFile q with
  | true => simp
  | false =>
      by_cases hstay : name = "" ∨ name = "."
      · rcases hstay with rfl | rfl
        · simp [isOnTheWay, eq_comm (a := q')]
        · simp [isOnTheWay, eq_comm (a := q')]
      · by_cases hback : name = ".."
        · simp [hback, isOnTheWay, eq_comm (a := q')]
        · rw [not_or] at hstay
          cases hthere : t.isThere (q ++ [name]) with
          | true => simp [hstay, hback, isOnTheWay, eq_comm (a := q')]
          | false => simp [hstay, hback]

/-- A step to a name is not made from a file. -/
theorem isFile_of_step {q q' : Path} {name : String} (h : t.step q name = .ok q') :
    t.isFile q = false :=
  (step_eq_ok_iff.1 h).1

/-- A name that is not on the way leads to what has it in the folder. -/
theorem step_of_proper {q : Path} {name : String} (hproper : isOnTheWay name = false)
    (hopen : t.isFile q = false) :
    t.step q name = if t.isThere (q ++ [name]) then .ok (q ++ [name])
      else .error (if name.utf8ByteSize ≤ maxNameBytes then .missing else .tooLong) := by
  rw [isOnTheWay, Bool.or_eq_false_iff] at hproper
  rw [step, hopen, if_neg Bool.false_ne_true, hproper.1, if_neg Bool.false_ne_true, hproper.2,
    if_neg Bool.false_ne_true]

/-- A location with one more name is followed to the end of the others, and from there to this
name. -/
theorem follow_concat (t : Tree) (l : Location) (front : List String) (name : String) :
    t.follow l (front ++ [name]) = t.follow l front >>= fun q => t.step q name := by
  rw [follow, List.foldlM_append]
  exact congrArg _ (funext fun q => bind_pure (t.step q name))

/-- A step from a folder to a folder is one in a tree that grew, too. -/
theorem step_of_grows {paths : List Path} (h : Grows t t' paths) {q q' : Path} {name : String}
    (hfolder : t.isFolder q = true) (hstep : t.step q name = .ok q') (hfile : t.isFile q' = false) :
    t'.step q name = .ok q' ∧ t.isFolder q' = true := by
  obtain ⟨hq, hgoes⟩ := step_eq_ok_iff.1 hstep
  rw [step_eq_ok_iff, and_iff_right (h.isFile_eq_false hfolder hq)]
  rcases hgoes with hstays | hback | ⟨hproper, hthere, rfl⟩
  · exact ⟨.inl hstays, hstays.2 ▸ hfolder⟩
  · exact ⟨.inr (.inl hback), hback.2 ▸ isFolder_dropLast hfolder⟩
  · rw [isThere, hfile, Bool.or_false] at hthere
    refine ⟨.inr (.inr ⟨hproper, ?_, rfl⟩), hthere⟩
    rw [isThere, h.folders hthere, Bool.true_or]

/-- Steps that lead to a folder still do when the tree has grown. -/
theorem foldlM_step_of_grows {paths : List Path} (h : Grows t t' paths) (names : List String)
    {q₀ q : Path} (hfolder : t.isFolder q₀ = true) (hsteps : names.foldlM t.step q₀ = .ok q)
    (hfile : t.isFile q = false) :
    names.foldlM t'.step q₀ = .ok q ∧ t.isFolder q = true := by
  induction names generalizing q₀ with
  | nil =>
      cases hsteps
      exact ⟨rfl, hfolder⟩
  | cons name names ih =>
      rw [List.foldlM_cons] at hsteps
      obtain ⟨q₁, hstep, hsteps⟩ := exists_of_bind hsteps
      -- it was left again, or it is the end
      have hfile₁ : t.isFile q₁ = false := by
        cases names with
        | nil =>
            cases hsteps
            exact hfile
        | cons name' names =>
            rw [List.foldlM_cons] at hsteps
            obtain ⟨q₂, hstep', -⟩ := exists_of_bind hsteps
            exact isFile_of_step hstep'
      obtain ⟨hstep₁, hfolder₁⟩ := step_of_grows h hfolder hstep hfile₁
      obtain ⟨hrest, hend⟩ := ih hfolder₁ hsteps
      refine ⟨?_, hend⟩
      rw [List.foldlM_cons, hstep₁]
      exact hrest

/-- A location that leads to a folder still does in a tree that grew. -/
theorem follow_of_grows {paths : List Path} (h : Grows t t' paths) {l : Location}
    {names : List String} {q : Path} (hfollow : t.follow l names = .ok q)
    (hfile : t.isFile q = false) : t'.follow l names = .ok q ∧ t.isFolder q = true := by
  rw [follow] at hfollow ⊢
  rw [h.here]
  refine foldlM_step_of_grows h names ?_ hfollow hfile
  split
  · exact isFolder_iff.2 (.inl rfl)
  · exact isFolder_iff.2 (.inr (.inl ⟨t.here, List.mem_cons_self, List.prefix_rfl⟩))

end Tree

end CodeAtlas
