import CodeAtlas.Proofs.Files.Placing

/-!
# Files that stay as they are

A file is read as before while files with other names come and go. It also is while folders are
made, unless its location goes back from a folder that was missing: such a location leads nowhere
until the folder is made, and then it may lead to a file that was there all the time.
-/

namespace CodeAtlas

open CodeAtlas.Location

/-- Answers that succeed with the same values are the same but for errors. -/
theorem toOption_congr {ε α : Type} {x y : Except ε α} (h : ∀ a, x = .ok a ↔ y = .ok a) :
    x.toOption = y.toOption := by
  cases x with
  | ok a => rw [(h a).1 rfl]
  | error e =>
      cases y with
      | ok a => cases (h a).2 rfl
      | error e' => rfl

namespace Tree

variable {t t' : Tree} {l : Location} {front : List String} {folder p : Path} {n : String}
  {bytes : List UInt8}

/-! ## Reading by names -/

/-- A file is read in the folder to which the names in front of its own lead. -/
theorem read_eq_ok_iff (hl : l.names = front ++ [n]) (hn : isOnTheWay n = false) :
    t.read l = .ok bytes ↔ refusal? l = none ∧ ∃ folder, t.follow l front = .ok folder ∧
      t.isFile folder = false ∧ t.bytes? (folder ++ [n]) = some bytes := by
  have hnonempty : l.isEmpty = false := by
    refine isEmpty_eq_false_of_names hl ?_
    rintro rfl
    cases hn
  constructor
  · intro h
    obtain ⟨p, hlocate, hbytes⟩ := bytes?_of_read h
    have haccepted := (accepted_of_locate hlocate).1
    rw [locate_eq_follow haccepted hnonempty, hl, follow_concat] at hlocate
    obtain ⟨folder, hfollow, hstep⟩ := exists_of_bind hlocate
    have hopen := isFile_of_step hstep
    rw [step_of_proper hn hopen] at hstep
    split at hstep
    · cases hstep
      exact ⟨haccepted, folder, hfollow, hopen, hbytes⟩
    · cases hstep
  · rintro ⟨haccepted, folder, hfollow, hopen, hbytes⟩
    refine read_of_bytes? ?_ hbytes
    rw [locate_eq_follow haccepted hnonempty, hl, follow_concat, hfollow]
    show t.step folder n = _
    rw [step_of_proper hn hopen, isThere, isFile_of_bytes? hbytes, Bool.or_true, if_pos rfl]

/-! ## Files with other names -/

/-- A tree with the folders of another, and with its files but for those with some names. -/
structure Spares (t t' : Tree) (names : List String) : Prop where
  here : t'.here = t.here
  isFolder : ∀ q, t'.isFolder q = t.isFolder q
  isFile : ∀ q, t.isFolder q = true → t'.isFile q = t.isFile q
  bytes? : ∀ n ∉ names, ∀ folder : Path, t'.bytes? (folder ++ [n]) = t.bytes? (folder ++ [n])

namespace Spares

variable {names : List String}

/-- A tree spares everything when it stays the same. -/
theorem refl (t : Tree) (names : List String) : Spares t t names :=
  ⟨rfl, fun _ => rfl, fun _ _ => rfl, fun _ _ _ => rfl⟩

/-- Sparing is symmetric. -/
theorem symm (h : Spares t t' names) : Spares t' t names where
  here := h.here.symm
  isFolder := fun q => (h.isFolder q).symm
  isFile := fun q hq => (h.isFile q ((h.isFolder q).symm.trans hq)).symm
  bytes? := fun n hn folder => (h.bytes? n hn folder).symm

/-- Sparing is transitive, and the names add up. -/
theorem trans {t'' : Tree} {names' : List String} (h : Spares t t' names)
    (h' : Spares t' t'' names') : Spares t t'' (names ++ names') where
  here := h'.here.trans h.here
  isFolder := fun q => (h'.isFolder q).trans (h.isFolder q)
  isFile := fun q hq => (h'.isFile q ((h.isFolder q).trans hq)).trans (h.isFile q hq)
  bytes? := by
    intro n hn folder
    rw [List.mem_append, not_or] at hn
    exact (h'.bytes? n hn.2 folder).trans (h.bytes? n hn.1 folder)

/-- A tree that spares all but some names is touched at these names at most. -/
theorem touches (h : Spares t t' names) : Touches t t' names where
  grows := by
    -- the files that are new
    refine ⟨(t'.files.map Prod.fst).filter fun q => !t.isFile q, h.here, ?_, ?_, ?_⟩
    · intro q hq
      exact (h.isFolder q).trans hq
    · intro q hq
      rw [List.mem_filter, ← bytes?_isSome_iff]
      cases hold : t.isFile q with
      | true => exact .inl rfl
      | false => exact .inr ⟨hq, rfl⟩
    · intro q hq
      obtain ⟨hnew, hold⟩ := List.mem_filter.1 hq
      rw [← bytes?_isSome_iff] at hnew
      rw [Bool.not_eq_true'] at hold
      rw [← Bool.not_eq_true]
      intro hfolder
      have hsame := h.isFile q hfolder
      rw [hold, Tree.isFile, hnew] at hsame
      cases hsame
  kept := h.bytes?

/-- A file with another name is read as before. -/
theorem read_of_read (h : Spares t t' names) (hl : l.names = front ++ [n])
    (hn : isOnTheWay n = false) (hname : n ∉ names) (hread : t.read l = .ok bytes) :
    t'.read l = .ok bytes := by
  rw [read_eq_ok_iff hl hn] at hread ⊢
  obtain ⟨haccepted, folder, hfollow, hopen, hbytes⟩ := hread
  obtain ⟨paths, hgrows⟩ := h.touches.grows
  obtain ⟨hfollow', hfolder⟩ := follow_of_grows hgrows hfollow hopen
  exact ⟨haccepted, folder, hfollow', hgrows.isFile_eq_false hfolder hopen,
    (h.bytes? n hname folder).trans hbytes⟩

/-- A file with another name is read as it was. -/
theorem toOption_read (h : Spares t t' names) (hl : l.names = front ++ [n])
    (hn : isOnTheWay n = false) (hname : n ∉ names) : (t'.read l).toOption = (t.read l).toOption :=
  toOption_congr fun _ => ⟨h.symm.read_of_read hl hn hname, h.read_of_read hl hn hname⟩

/-- A file that is put into its place, with any bytes, spares all with other names. -/
theorem put (hl : l.names = front ++ [n]) (hn : n ≠ "") (h : t.locateFile l = .ok p)
    (bytes : List UInt8) : Spares t (t.put p bytes) [n] := by
  obtain ⟨folder, hfits, rfl⟩ := fits_of_locateFile hl hn h
  have hfolder := (follow_of_grows (Grows.refl t) hfits.follow hfits.notFile).2
  refine ⟨rfl, fun q => ?_, fun q hq => ?_, fun n' hn' folder' => ?_⟩
  · exact Bool.eq_iff_iff.2 ⟨isFolder_of_put hfolder, isFolder_put _ bytes⟩
  · -- the place was that of no folder
    rw [Tree.isFile, bytes?_put, if_neg, Tree.isFile]
    rintro rfl
    exact Bool.eq_false_iff.1 hfits.free hq
  · rw [bytes?_put,
      if_neg (append_ne_append (fun h => hn' (List.mem_singleton.2 h)) folder' folder)]

/-- A file that is renamed spares all with other names than its two. -/
theorem rename {source : Location} {n' : String} (hl : l.names = front ++ [n]) (hn : n ≠ "")
    (hsource : t.locate source = .ok (folder ++ [n'])) (hfree : t.isFolder (folder ++ [n']) = false)
    (h : t.rename source l = .ok t') : Spares t t' [n', n] := by
  have hfolders := fun q => isFolder_of_rename (q := q) h
  rw [Tree.rename, hsource] at h
  obtain ⟨bytes, -, h⟩ := exists_of_bind h
  obtain ⟨_, heq, h⟩ := exists_of_bind h
  cases heq
  obtain ⟨p, hp, h⟩ := exists_of_bind h
  cases h
  obtain ⟨target, hfits, rfl⟩ := fits_of_locateFile hl hn hp
  have hbytes : ∀ q, q ≠ target ++ [n] → q ≠ folder ++ [n'] →
      ((t.drop (folder ++ [n'])).put (target ++ [n]) bytes).bytes? q = t.bytes? q := by
    intro q hq hq'
    rw [bytes?_put, if_neg hq, bytes?_drop, if_neg hq']
  refine ⟨here_addFolder _, fun q => ?_, fun q hq => ?_, fun n'' hn'' folder' => ?_⟩
  · exact Bool.eq_iff_iff.2 ⟨hfolders q, fun hq => isFolder_put _ _ (isFolder_drop _ hq)⟩
  · rw [Tree.isFile, hbytes, Tree.isFile]
    · rintro rfl
      exact Bool.eq_false_iff.1 hfits.free hq
    · rintro rfl
      exact Bool.eq_false_iff.1 hfree hq
  · rw [List.mem_cons, List.mem_singleton, not_or] at hn''
    exact hbytes _ (append_ne_append hn''.2 folder' target) (append_ne_append hn''.1 folder' folder)

end Spares

/-! ## Folders that are made -/

/-- What becomes of a tree while some of the folders at these locations are made, one by one. -/
inductive Makes (ls : List Location) : Tree → Tree → Prop
  | refl (t : Tree) : Makes ls t t
  | make {t t₁ t' : Tree} {l : Location} (hl : l ∈ ls) (hmake : t.makeFolder l = .ok t₁)
      (h : Makes ls t₁ t') : Makes ls t t'

/-- A folder that is made is added. -/
theorem exists_of_makeFolder (h : t.makeFolder l = .ok t') : ∃ path, t' = t.addFolder path := by
  rw [makeFolder] at h
  obtain ⟨⟨folder, n⟩, -, h⟩ := exists_of_bind h
  dsimp only at h
  split at h
  · cases h
  · split at h
    · cases h
    · cases h
      exact ⟨_, rfl⟩

/-- Adding a folder leaves the files. -/
theorem files_addFolder (path : Path) : (t.addFolder path).files = t.files := by
  rw [addFolder]
  split
  · rfl
  · rfl

/-- Adding a folder keeps the folders. -/
theorem isFolder_addFolder (path : Path) {q : Path} (h : t.isFolder q = true) :
    (t.addFolder path).isFolder q = true := by
  rw [isFolder_iff, here_addFolder, files_addFolder]
  refine (isFolder_iff.1 h).imp_right (Or.imp_left ?_)
  rintro ⟨f, hf, hq⟩
  refine ⟨f, ?_, hq⟩
  rcases List.mem_cons.1 hf with rfl | hf
  · exact List.mem_cons_self
  · exact List.mem_cons_of_mem _ (folders_subset_addFolder path f hf)

namespace Makes

variable {ls : List Location}

/-- Making folders is transitive. -/
theorem trans {t'' : Tree} (h : Makes ls t t') (h' : Makes ls t' t'') : Makes ls t t'' := by
  induction h with
  | refl t => exact h'
  | make hl hmake h ih => exact .make hl hmake (ih h')

/-- What makes some folders makes some of more. -/
theorem mono {ls' : List Location} (h : Makes ls t t') (hls : ∀ l ∈ ls, l ∈ ls') :
    Makes ls' t t' := by
  induction h with
  | refl t => exact .refl t
  | make hl hmake h ih => exact .make (hls _ hl) hmake ih

/-- Ensuring a folder makes it at most. -/
theorem ensureFolder (hl : l ∈ ls) (t : Tree) : Makes ls t (t.ensureFolder l).1 := by
  rw [Tree.ensureFolder]
  cases hmake : t.makeFolder l with
  | ok t₁ => exact .make hl hmake (.refl t₁)
  | error e => exact .refl t

/-- Ensuring folders makes these at most. -/
theorem ensureFolders (ls : List Location) (t : Tree) : Makes ls t (t.ensureFolders ls).1 := by
  induction ls generalizing t with
  | nil => exact .refl t
  | cons l above ih =>
      have hl : ∀ t : Tree, Makes (l :: above) t (t.ensureFolder l).1 :=
        ensureFolder List.mem_cons_self
      have habove : Makes (l :: above) t (t.ensureFolders above).1 :=
        (ih t).mono fun _ => List.mem_cons_of_mem l
      rw [Tree.ensureFolders]
      split
      · -- it is missing, and the folders on the way to it come first
        split
        · next t₁ hdone =>
          rw [hdone] at habove
          exact habove.trans (hl t₁)
        · exact habove
      · exact hl t

/-- Making folders makes the location and those above it at most. -/
theorem makeFolders (t : Tree) (l : Location) : Makes (l :: l.above) t (t.makeFolders l).1 := by
  rw [Tree.makeFolders]
  split
  · exact .refl t
  · exact ensureFolders (l :: l.above) t

/-- No file comes or goes, and no folder goes. -/
theorem kept (h : Makes ls t t') :
    t'.files = t.files ∧ t'.here = t.here ∧ ∀ q, t.isFolder q = true → t'.isFolder q = true := by
  induction h with
  | refl t => exact ⟨rfl, rfl, fun _ => id⟩
  | make hl hmake h ih =>
      obtain ⟨path, rfl⟩ := exists_of_makeFolder hmake
      exact ⟨ih.1.trans (files_addFolder path), ih.2.1.trans (here_addFolder path),
        fun q hq => ih.2.2 q (isFolder_addFolder path hq)⟩

/-- Making folders leaves the bytes of files. -/
theorem bytes?_eq (h : Makes ls t t') (q : Path) : t'.bytes? q = t.bytes? q := by
  rw [bytes?, h.kept.1, bytes?]

/-- Making folders leaves what is a file. -/
theorem isFile_eq (h : Makes ls t t') (q : Path) : t'.isFile q = t.isFile q := by
  rw [isFile, h.bytes?_eq, isFile]

/-- Making folders leaves the steps that could be made. -/
theorem step_of_step (h : Makes ls t t') (hstep : t.step p n = .ok folder) :
    t'.step p n = .ok folder := by
  rw [step_eq_ok_iff, h.isFile_eq]
  rw [step_eq_ok_iff] at hstep
  refine hstep.imp_right (Or.imp_right (Or.imp_right fun ⟨hproper, hthere, heq⟩ => ?_))
  rw [isThere, Bool.or_eq_true] at hthere
  refine ⟨hproper, ?_, heq⟩
  rw [isThere, h.isFile_eq, Bool.or_eq_true]
  exact hthere.imp_left (h.kept.2.2 _)

/-- Where a location led, it leads. -/
theorem follow_of_follow (h : Makes ls t t') {names : List String}
    (hfollow : t.follow l names = .ok folder) : t'.follow l names = .ok folder := by
  rw [follow] at hfollow ⊢
  rw [h.kept.2.1]
  revert hfollow
  generalize (if l.isAbsolute then [] else t.here) = p
  intro hfollow
  induction names generalizing p with
  | nil => exact hfollow
  | cons name names ih =>
      rw [List.foldlM_cons] at hfollow ⊢
      obtain ⟨q, hstep, hrest⟩ := exists_of_bind hfollow
      rw [h.step_of_step hstep]
      exact ih q hrest

end Makes

/-- Names that do not go back lead on. -/
theorem prefix_of_foldlM_step {names : List String} (hback : ".." ∉ names)
    (h : names.foldlM t.step p = .ok folder) : p <+: folder := by
  induction names generalizing p with
  | nil =>
      cases h
      exact List.prefix_rfl
  | cons name names ih =>
      rw [List.mem_cons, not_or] at hback
      rw [List.foldlM_cons] at h
      obtain ⟨q, hstep, hrest⟩ := exists_of_bind h
      refine List.IsPrefix.trans ?_ (ih hback.2 hrest)
      obtain ⟨-, ⟨-, rfl⟩ | ⟨rfl, -⟩ | ⟨-, -, rfl⟩⟩ := step_eq_ok_iff.1 hstep
      · exact List.prefix_rfl
      · exact absurd rfl hback.1
      · exact List.prefix_append p [name]

namespace Makes

variable {ls : List Location}

/-- Names that do not go back lead to a folder that was there as they did before the others were
made. -/
theorem foldlM_step_of_made (h : Makes ls t t') {names : List String} (hback : ".." ∉ names)
    (hfolder : t.isFolder folder = true) (hsteps : names.foldlM t'.step p = .ok folder) :
    names.foldlM t.step p = .ok folder := by
  induction names generalizing p with
  | nil => exact hsteps
  | cons name names ih =>
      rw [List.mem_cons, not_or] at hback
      rw [List.foldlM_cons] at hsteps ⊢
      obtain ⟨q, hstep, hrest⟩ := exists_of_bind hsteps
      -- it is on the way to a folder that was there, so it was there
      have hq : t.isFolder q = true :=
        isFolder_of_prefix hfolder (prefix_of_foldlM_step hback.2 hrest)
      have hstep' : t.step p name = .ok q := by
        rw [step_eq_ok_iff, h.isFile_eq] at hstep
        rw [step_eq_ok_iff]
        refine hstep.imp_right (Or.imp_right (Or.imp_right fun ⟨hproper, _, heq⟩ => ?_))
        refine ⟨hproper, ?_, heq⟩
        rw [isThere, ← heq, hq, Bool.true_or]
      rw [hstep']
      exact ih hback.2 hrest

/-- A file is read as it was if the names in front of its own led somewhere, or do not go back. -/
theorem toOption_read (h : Makes ls t t') (hl : l.names = front ++ [n])
    (hn : isOnTheWay n = false)
    (hfront : (∃ folder, t.follow l front = .ok folder) ∨ ".." ∉ front) :
    (t'.read l).toOption = (t.read l).toOption := by
  refine toOption_congr fun bytes => ?_
  rw [read_eq_ok_iff hl hn, read_eq_ok_iff hl hn]
  simp only [h.isFile_eq, h.bytes?_eq]
  refine and_congr_right fun _ => exists_congr fun folder => ?_
  refine and_congr_left fun ⟨_, hbytes⟩ => ⟨fun hfollow => ?_, h.follow_of_follow⟩
  rcases hfront with ⟨folder', hfollow'⟩ | hback
  · rw [h.follow_of_follow hfollow'] at hfollow
    rw [hfollow', hfollow]
  · -- the file was there, so its folder was
    have hfile := bytes?_isSome_iff.1 (isFile_of_bytes? hbytes)
    obtain ⟨f, hf, hpath⟩ := List.mem_map.1 hfile
    have hfolder : t.isFolder folder = true := by
      refine isFolder_iff.2 (.inr (.inr ⟨f, hf, hpath ▸ List.prefix_append folder [n], ?_⟩))
      rw [hpath]
      exact fun heq => List.cons_ne_nil _ _ (List.self_eq_append_right.1 heq)
    rw [follow] at hfollow ⊢
    rw [h.kept.2.1] at hfollow
    exact h.foldlM_step_of_made hback hfolder hfollow

end Makes

/-- A file below a folder is read by names that lead somewhere or do not go back, if the location of
the folder does. -/
theorem exists_front_of_join {dir : Location} (name : String) (hname : '/' ∉ name.toList)
    (hdir : (∃ p, t.locate dir = .ok p) ∨ ".." ∉ dir.names) :
    ∃ front, (join dir name).names = front ++ [name] ∧
      ((∃ folder, t.follow (join dir name) front = .ok folder) ∨ ".." ∉ front) := by
  obtain ⟨front, hnames, hfront⟩ := exists_names_join dir hname
  refine ⟨front, hnames, ?_⟩
  rcases hfront with ⟨-, rfl⟩ | ⟨habsolute, hfront⟩
  · exact .inr List.not_mem_nil
  · rcases hdir with ⟨p, hp⟩ | hback
    · left
      obtain ⟨haccepted, hnonempty⟩ := accepted_of_locate hp
      rw [locate_eq_follow haccepted hnonempty] at hp
      rw [follow, habsolute]
      rcases hfront with hfront | hfront
      · rw [hfront] at hp
        exact ⟨p, hp⟩
      · rw [hfront, follow_concat] at hp
        obtain ⟨folder, hfollow, -⟩ := exists_of_bind hp
        exact ⟨folder, hfollow⟩
    · right
      rcases hfront with rfl | hfront
      · exact hback
      · rw [hfront] at hback
        exact fun hmem => hback (List.mem_append_left _ hmem)

end Tree

end CodeAtlas
