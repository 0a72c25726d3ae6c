import CodeAtlas.Proofs.Files.Following
import CodeAtlas.Proofs.Files.Writing
import CodeAtlas.Proofs.Keyed

/-!
# Files in a folder

A folder lists the names of what is in it, each once and in ascending order. A name that ends in an
extension with something in front of it has that extension.

A location that leads to a folder does so until the folder is taken away, which no operation does.
So the names behind it lead to the files in the folder. Files come into folders that are there, to
places that are no folders, so no operation on files makes a folder. A folder that is missing is
made with the folders on the way to it; one that is there stays as it is.
-/

namespace CodeAtlas

/-! ## Repetitions in a sorted list -/

/-- Repetitions in a sorted list stand next to each other. Those in front of `a` are all below
it. -/
theorem eraseReps_loop_spec {a : String} {l below : List String} (hl : (a :: l).Pairwise (· ≤ ·))
    (hbelow : (below.reverse ++ [a]).Pairwise (· < ·)) :
    (List.eraseRepsBy.loop (· == ·) a l below).Pairwise (· < ·) ∧
      ∀ x, x ∈ List.eraseRepsBy.loop (· == ·) a l below ↔ x ∈ below ∨ x ∈ a :: l := by
  induction l generalizing a below with
  | nil =>
      rw [List.eraseRepsBy.loop, List.reverse_cons]
      refine ⟨hbelow, fun x => ?_⟩
      rw [List.mem_append, List.mem_reverse]
  | cons b l ih =>
      obtain ⟨ha, hb⟩ := List.pairwise_cons.1 hl
      rw [List.eraseRepsBy.loop]
      split
      · -- an equal element is dropped, and the first of the run stands for it
        next heq =>
        obtain rfl := beq_iff_eq.1 heq
        obtain ⟨hpairwise, hmem⟩ := ih hb hbelow
        refine ⟨hpairwise, fun x => (hmem x).trans (or_congr_right ?_)⟩
        rw [List.mem_cons, List.mem_cons, List.mem_cons, or_self_left]
      · -- the run of `a` is over, and all that is below it is smaller
        next hne =>
        have hlt : a < b := by
          have hle := String.not_lt.2 (ha b List.mem_cons_self)
          have hne : a ≠ b := beq_eq_false_iff_ne.1 hne
          exact (Std.lt_trichotomy a b).resolve_right fun h => h.elim hne hle
        have hbelow' : ((a :: below).reverse ++ [b]).Pairwise (· < ·) := by
          rw [List.reverse_cons, List.pairwise_append]
          refine ⟨hbelow, List.pairwise_singleton _ b, fun x hx y hy => ?_⟩
          obtain rfl := List.mem_singleton.1 hy
          rcases List.mem_append.1 hx with hx | hx
          · exact String.lt_trans ((List.pairwise_append.1 hbelow).2.2 x hx a
              (List.mem_singleton_self a)) hlt
          · rwa [List.mem_singleton.1 hx]
        obtain ⟨hpairwise, hmem⟩ := ih hb hbelow'
        refine ⟨hpairwise, fun x => (hmem x).trans ?_⟩
        rw [List.mem_cons, List.mem_cons (a := x) (b := a), or_comm (a := x = a), or_assoc]

/-- A sorted list without its repetitions ascends strictly and has the same members. -/
theorem eraseReps_spec {l : List String} (hl : l.Pairwise (· ≤ ·)) :
    l.eraseReps.Pairwise (· < ·) ∧ ∀ x, x ∈ l.eraseReps ↔ x ∈ l := by
  cases l with
  | nil => exact ⟨.nil, fun _ => .rfl⟩
  | cons a l =>
      have hbelow : (([] : List String).reverse ++ [a]).Pairwise (· < ·) :=
        List.pairwise_singleton _ a
      obtain ⟨hpairwise, hmem⟩ := eraseReps_loop_spec hl hbelow
      exact ⟨hpairwise, fun x => (hmem x).trans (or_iff_right List.not_mem_nil)⟩

namespace Tree

variable {t : Tree}

/-! ## Names -/

/-- A file has bytes if its path is among those of the files. -/
theorem bytes?_isSome_iff {q : Path} : (t.bytes? q).isSome = true ↔ q ∈ t.files.map Prod.fst := by
  rw [bytes?]
  induction t.files with
  | nil => exact iff_of_false Bool.false_ne_true List.not_mem_nil
  | cons f files ih =>
      obtain ⟨p, b⟩ := f
      rw [lookup_cons_if, List.map_cons, List.mem_cons]
      split
      · next h => exact iff_of_true rfl (.inl h)
      · next h => exact ih.trans (or_iff_right h).symm

/-- What is there is on the way to a file or a folder, or is one. -/
theorem isThere_iff {q : Path} (hq : q ≠ []) :
    t.isThere q = true ↔ ∃ p ∈ t.files.map Prod.fst ++ t.here :: t.folders, q <+: p := by
  rw [isThere, Bool.or_eq_true, isFolder_iff, isFile, bytes?_isSome_iff]
  constructor
  · rintro ((h | ⟨f, hf, hprefix⟩ | ⟨f, hf, hprefix, -⟩) | h)
    · exact absurd h hq
    · exact ⟨f, List.mem_append_right _ hf, hprefix⟩
    · exact ⟨f.1, List.mem_append_left _ (List.mem_map_of_mem hf), hprefix⟩
    · exact ⟨q, List.mem_append_left _ h, List.prefix_rfl⟩
  · rintro ⟨p, hp, hprefix⟩
    rcases List.mem_append.1 hp with hp | hp
    · obtain ⟨f, hf, rfl⟩ := List.mem_map.1 hp
      by_cases heq : q = f.1
      · exact .inr (heq ▸ List.mem_map_of_mem hf)
      · exact .inl (.inr (.inr ⟨f, hf, hprefix, heq⟩))
    · exact .inl (.inr (.inl ⟨p, hp, hprefix⟩))

/-- The names in a folder ascend and are those of what is there. -/
theorem names_spec (t : Tree) (path : Path) : (t.names path).Pairwise (· < ·) ∧
    ∀ n, n ∈ t.names path ↔ t.isThere (path ++ [n]) = true := by
  obtain ⟨hpairwise, hmem⟩ := eraseReps_spec (Keyed.pairwise_mergeSort_le id
    ((t.files.map (·.1) ++ t.here :: t.folders).filterMap fun p =>
      (path.below? p) >>= (·.head?)))
  refine ⟨hpairwise, fun n => (hmem n).trans ?_⟩
  rw [(List.mergeSort_perm _ _).mem_iff, List.mem_filterMap, isThere_iff (by simp)]
  refine exists_congr fun p => and_congr_right fun _ => ?_
  rw [Option.bind_eq_bind, Option.bind_eq_some_iff]
  constructor
  · rintro ⟨rest, hrest, hhead⟩
    obtain ⟨rest, rfl⟩ := List.head?_eq_some_iff.1 hhead
    rw [Path.below?_eq_some_iff] at hrest
    exact ⟨rest, by rw [hrest, List.append_assoc, List.singleton_append]⟩
  · rintro ⟨rest, rfl⟩
    refine ⟨n :: rest, Path.below?_eq_some_iff.2 ?_, rfl⟩
    rw [List.append_assoc, List.singleton_append]

end Tree

/-! ## Extensions -/

/-- A name has an extension if it ends in it behind a point, with something in front. -/
theorem Path.extensionOf?_eq_some_iff {name ext : String} (hext : '.' ∉ ext.toList)
    (hne : ext ≠ "") :
    extensionOf? name = some ext ↔ ∃ stem, stem ≠ "" ∧ name = stem ++ ("." ++ ext) := by
  have hpoint : ("." : String).toList = ['.'] := rfl
  constructor
  · intro h
    rw [extensionOf?] at h
    split at h
    · -- the name is cut at its last dot, so what is behind the dot has none
      next front rest hcut =>
      rw [Text.cutLast?, Option.map_eq_some_iff] at hcut
      obtain ⟨⟨back, front'⟩, hcut, heq⟩ := hcut
      obtain ⟨rfl, rfl⟩ := Prod.mk.inj heq
      split at h
      · cases h
      · next hproper =>
        rw [Bool.not_eq_true, Bool.or_eq_false_iff] at hproper
        refine ⟨String.ofList front'.reverse, fun hempty => ?_, ?_⟩
        · rw [← String.toList_inj, String.toList_ofList] at hempty
          rw [hempty] at hproper
          exact absurd hproper.1 (by decide)
        · have htext := Text.eq_append_of_cut? hcut
          rw [List.reverse_eq_iff] at htext
          rw [← String.toList_inj, htext, ← Option.some.inj h]
          simp [hpoint]
    · cases h
  · -- conversely the text behind the last dot is `ext`, as it holds no dot itself
    rintro ⟨stem, hstem, rfl⟩
    have hback : (stem ++ ("." ++ ext)).toList.reverse
        = ext.toList.reverse ++ '.' :: stem.toList.reverse := by
      simp [hpoint]
    have hcut := Text.cut?_singleton (mt List.mem_reverse.1 hext) stem.toList.reverse
    have hfront : stem.toList.isEmpty = false := by
      rw [List.isEmpty_eq_false_iff]
      exact fun h => hstem (String.toList_inj.1 h)
    -- `..` is too short to have a stem and an extension
    have htwo : (stem ++ ("." ++ ext) == "..") = false := by
      rw [beq_eq_false_iff_ne]
      intro h
      have hlength := congrArg String.length h
      have hpos : ∀ s : String, s ≠ "" → 0 < s.length :=
        fun s hs => Nat.pos_of_ne_zero fun h => hs (String.length_eq_zero_iff.1 h)
      have hstem := hpos stem hstem
      have hext := hpos ext hne
      rw [String.length_append, String.length_append] at hlength
      have hone : ("." : String).length = 1 := rfl
      have htwo : (".." : String).length = 2 := rfl
      omega
    rw [extensionOf?, Text.cutLast?, hback, List.reverse_singleton, hcut, Option.map_some]
    dsimp only
    rw [List.reverse_reverse, List.reverse_reverse, hfront, htwo, Bool.or_false,
      if_neg Bool.false_ne_true, String.ofList_toList]

/-! ## Locations -/

namespace Location

/-- A location with a name is not empty. -/
theorem isEmpty_eq_false_of_names {l : Location} {front : List String} {n : String}
    (hl : l.names = front ++ [n]) (hn : n ≠ "") : l.isEmpty = false := by
  rw [← Bool.not_eq_true, String.isEmpty_iff]
  rintro rfl
  have hnames : names "" = [] ++ [""] := rfl
  exact hn (List.singleton_inj.1 (List.append_inj' (hl.symm.trans hnames) rfl).2)

/-- A name comes behind a slash if there is none at the end of the location of the folder. -/
theorem join_eq {folder : Location} {front : List String} {n name : String}
    (hfolder : folder.names = front ++ [n]) (hn : n ≠ "") (hname : '/' ∉ name.toList) :
    join folder name = folder ++ "/" ++ name := by
  have hend : Text.endsWith folder.toList ['/'] = false := by
    rw [← Bool.not_eq_true]
    intro h
    obtain ⟨l, rfl⟩ := exists_of_endsWith_slash h
    rw [names_append_slash] at hfolder
    exact hn (List.singleton_inj.1 (List.append_inj' hfolder rfl).2).symm
  rw [join, isAbsolute_eq_false hname, isEmpty_eq_false_of_names hfolder hn, Bool.or_false,
    if_neg Bool.false_ne_true, hend, if_neg Bool.false_ne_true]

end Location

namespace Tree

open Location

variable {t t' : Tree} {l : Location} {front : List String} {p q : Path} {n : String}
  {bytes : List UInt8}

/-! ## Locations in a folder -/

/-- A location whose longer form is accepted is accepted. -/
theorem refusal?_of_append {s : String} (h : refusal? (l ++ s) = none) : refusal? l = none := by
  rw [refusal?] at h ⊢
  split at h
  · cases h
  · next hzero =>
    split at h
    · cases h
    · next hlength =>
      rw [if_neg, if_neg]
      · rw [String.utf8ByteSize_append] at hlength
        omega
      · intro hmem
        refine hzero ?_
        rw [List.contains_iff_mem] at hmem ⊢
        rw [String.toList_append]
        exact List.mem_append_left _ hmem

/-- A name behind a location leads on from where the location leads. -/
theorem locate_append (hl : l.isEmpty = false) (hn : '/' ∉ n.toList)
    (haccepted : refusal? (l ++ "/" ++ n) = none) :
    t.locate (l ++ "/" ++ n) = t.locate l >>= fun p => t.step p n := by
  have hempty : (l ++ "/" ++ n).isEmpty = false := by
    rw [← Bool.not_eq_true, String.isEmpty_iff, String.append_assoc, String.append_eq_empty_iff,
      not_and_or]
    exact .inl fun h => Bool.eq_false_iff.1 hl (String.isEmpty_iff.2 h)
  have hl' : refusal? l = none := by
    rw [String.append_assoc] at haccepted
    exact refusal?_of_append haccepted
  rw [locate_eq_follow haccepted hempty, locate_eq_follow hl' hl, names_append_slash_append l hn,
    follow_concat, follow, follow, String.append_assoc, isAbsolute_append hl]

/-- A location that leads somewhere is accepted and not empty. -/
theorem accepted_of_locate (h : t.locate l = .ok p) : refusal? l = none ∧ l.isEmpty = false := by
  rw [locate] at h
  split at h
  · cases h
  · next haccepted =>
    rw [trace] at h
    split at h
    · cases h
    · split at h
      · cases h
      · next hempty => exact ⟨haccepted, Bool.eq_false_iff.2 hempty⟩

/-- A location that is refused is not one that leads nowhere. -/
theorem refusal?_ne_missing (l : Location) : refusal? l ≠ some .missing := by
  intro h
  rw [refusal?] at h
  split at h
  · cases h
  · split at h
    · cases h
    · cases h

/-- A location that is missing is accepted. -/
theorem accepted_of_missing (h : t.locate l = .error .missing) : refusal? l = none := by
  cases hrefused : refusal? l with
  | none => rfl
  | some e =>
      rw [locate, hrefused] at h
      obtain rfl : e = .missing := Except.error.inj h
      exact absurd hrefused (refusal?_ne_missing l)

/-- A location that leads to a folder. -/
structure LeadsTo (t : Tree) (l : Location) (p : Path) : Prop where
  locate : t.locate l = .ok p
  notFile : t.isFile p = false

namespace LeadsTo

/-- A location that leads to a folder is followed there. -/
theorem follow (h : t.LeadsTo l p) : t.follow l l.names = .ok p := by
  obtain ⟨haccepted, hnonempty⟩ := accepted_of_locate h.locate
  rw [← locate_eq_follow haccepted hnonempty, h.locate]

/-- What a location leads to is a folder. -/
theorem isFolder (h : t.LeadsTo l p) : t.isFolder p = true :=
  (follow_of_grows (Grows.refl t) h.follow h.notFile).2

/-- A location still leads to a folder when the tree has grown. -/
theorem of_grows {paths : List Path} (h : t.LeadsTo l p) (hgrows : Grows t t' paths) :
    t'.LeadsTo l p := by
  obtain ⟨haccepted, hnonempty⟩ := accepted_of_locate h.locate
  refine ⟨?_, hgrows.isFile_eq_false h.isFolder h.notFile⟩
  rw [locate_eq_follow haccepted hnonempty]
  exact (follow_of_grows hgrows h.follow h.notFile).1

/-- The name of something in the folder leads to it, and no other name leads anywhere. -/
theorem locate_name (h : t.LeadsTo l p) (hn : '/' ∉ n.toList) (hproper : isOnTheWay n = false)
    (haccepted : refusal? (l ++ "/" ++ n) = none) :
    t.locate (l ++ "/" ++ n) = if t.isThere (p ++ [n]) then .ok (p ++ [n])
      else .error (if n.utf8ByteSize ≤ maxNameBytes then .missing else .tooLong) := by
  rw [locate_append (accepted_of_locate h.locate).2 hn haccepted, h.locate]
  exact step_of_proper hproper h.notFile

/-- A name below a location that leads to a folder is found in this folder. -/
theorem eq_of_locate_name (h : t.LeadsTo l p) (hn : '/' ∉ n.toList)
    (hproper : isOnTheWay n = false) (hq : t.locate (l ++ "/" ++ n) = .ok q) : q = p ++ [n] := by
  rw [h.locate_name hn hproper (accepted_of_locate hq).1] at hq
  split at hq
  · exact (Except.ok.inj hq).symm
  · cases hq

end LeadsTo

/-! ## Folders that are not made by files -/

/-- What stands above a folder is a folder. -/
theorem isFolder_of_prefix {f : Path} (h : t.isFolder f = true) (hq : q <+: f) :
    t.isFolder q = true := by
  rcases isFolder_iff.1 h with rfl | ⟨f', hf', hf⟩ | ⟨f', hf', hf, hne⟩
  · exact isFolder_iff.2 (.inl (List.prefix_nil.1 hq))
  · exact isFolder_iff.2 (.inr (.inl ⟨f', hf', hq.trans hf⟩))
  · refine isFolder_iff.2 (.inr (.inr ⟨f', hf', hq.trans hf, fun heq => hne ?_⟩))
    exact hf.eq_of_length_le (heq ▸ hq.length_le)

/-- A file in a list behind a change is the one put in or was there. -/
theorem mem_insertFile {path : Path} {files : List (Path × List UInt8)} {f : Path × List UInt8}
    (h : f ∈ insertFile path bytes files) : f = (path, bytes) ∨ f ∈ files := by
  induction files with
  | nil => exact .inl (List.mem_singleton.1 h)
  | cons g files ih =>
      rw [insertFile] at h
      split at h
      · exact (List.mem_cons.1 h).imp_right (List.mem_cons_of_mem _)
      · split at h
        · exact List.mem_cons.1 h
        · rcases List.mem_cons.1 h with rfl | h
          · exact .inr List.mem_cons_self
          · exact (ih h).imp_right (List.mem_cons_of_mem _)

/-- A folder behind a file that was put into a folder was one before. -/
theorem isFolder_of_put {folder : Path} (hfolder : t.isFolder folder = true)
    (h : (t.put (folder ++ [n]) bytes).isFolder q = true) : t.isFolder q = true := by
  rcases isFolder_iff.1 h with rfl | ⟨f, hf, hq⟩ | ⟨f, hf, hq, hne⟩
  · exact isFolder_iff.2 (.inl rfl)
  · exact isFolder_iff.2 (.inr (.inl ⟨f, hf, hq⟩))
  · rcases mem_insertFile hf with rfl | hf
    · exact isFolder_of_prefix hfolder ((List.prefix_concat_iff.1 hq).resolve_left hne)
    · exact isFolder_iff.2 (.inr (.inr ⟨f, hf, hq, hne⟩))

/-- The folder of a file is there without it. -/
theorem isFolder_of_drop {path : Path} (hfile : t.isFile path = true)
    (h : (t.drop path).isFolder q = true) : t.isFolder q = true := by
  have hhere : (t.drop path).here = t.here := here_addFolder path.dropLast
  have hfolders : ∀ f ∈ (t.drop path).folders, f = path.dropLast ∨ f ∈ t.folders := by
    intro f hf
    have hf : f ∈ (t.addFolder path.dropLast).folders := hf
    rw [addFolder] at hf
    split at hf
    · exact .inr hf
    · exact List.mem_cons.1 hf
  rcases isFolder_iff.1 h with rfl | ⟨f, hf, hq⟩ | ⟨f, hf, hq⟩
  · exact isFolder_iff.2 (.inl rfl)
  · rcases List.mem_cons.1 hf with rfl | hf
    · exact isFolder_iff.2 (.inr (.inl ⟨t.here, List.mem_cons_self, hhere ▸ hq⟩))
    · rcases hfolders f hf with rfl | hf
      · obtain ⟨g, hg, rfl⟩ := List.mem_map.1 (bytes?_isSome_iff.1 hfile)
        by_cases hnil : q = []
        · exact isFolder_iff.2 (.inl hnil)
        · refine isFolder_iff.2 (.inr (.inr ⟨g, hg, hq.trans (List.dropLast_prefix _), ?_⟩))
          rintro rfl
          have hlength := hq.length_le
          have hpos := List.length_pos_iff.2 hnil
          rw [List.length_dropLast] at hlength
          omega
      · exact isFolder_iff.2 (.inr (.inl ⟨f, List.mem_cons_of_mem _ hf, hq⟩))
  · exact isFolder_iff.2 (.inr (.inr ⟨f, List.mem_of_mem_filter hf, hq⟩))

/-- A place for a file is in a folder. -/
theorem exists_of_locateFile (h : t.locateFile l = .ok p) :
    ∃ folder n, p = folder ++ [n] ∧ t.isFolder folder = true := by
  rw [locateFile] at h
  obtain ⟨⟨folder, n⟩, hlast, h⟩ := exists_of_bind h
  rw [locateLast] at hlast
  split at hlast
  · cases hlast
  · split at hlast
    · cases hlast
    · split at hlast
      · -- nothing but slashes
        cases hlast
        cases h
      · split at hlast
        · cases hlast
        · next q hfollow =>
          split at hlast
          · cases hlast
          · next hopen =>
            cases hlast
            dsimp only at h
            have hfolder := (follow_of_grows (Grows.refl t) hfollow (Bool.eq_false_iff.2 hopen)).2
            split at h
            · cases h
            · split at h
              · cases h
              · cases h
                exact ⟨_, _, rfl, hfolder⟩

/-- Writing makes no folders. -/
theorem isFolder_of_write (h : t.write l bytes = .ok t') (hq : t'.isFolder q = true) :
    t.isFolder q = true := by
  rw [write] at h
  obtain ⟨p, hp, h⟩ := exists_of_bind h
  cases h
  obtain ⟨folder, n, rfl, hfolder⟩ := exists_of_locateFile hp
  exact isFolder_of_put hfolder hq

/-- What is read is a file. -/
theorem bytes?_of_read (h : t.read l = .ok bytes) :
    ∃ p, t.locate l = .ok p ∧ t.bytes? p = some bytes := by
  rw [read] at h
  obtain ⟨p, hp, h⟩ := exists_of_bind h
  refine ⟨p, hp, ?_⟩
  split at h
  · next b hb => rw [hb, Except.ok.inj h]
  · cases h

/-- Renaming makes no folders. -/
theorem isFolder_of_rename {source : Location} (h : t.rename source l = .ok t')
    (hq : t'.isFolder q = true) : t.isFolder q = true := by
  rw [rename] at h
  obtain ⟨bytes, hread, h⟩ := exists_of_bind h
  obtain ⟨path, hlocate, hbytes⟩ := bytes?_of_read hread
  rw [hlocate] at h
  obtain ⟨_, heq, h⟩ := exists_of_bind h
  cases heq
  obtain ⟨p, hp, h⟩ := exists_of_bind h
  cases h
  obtain ⟨folder, n, rfl, hfolder⟩ := exists_of_locateFile hp
  exact isFolder_of_drop (isFile_of_bytes? hbytes)
    (isFolder_of_put (isFolder_drop path hfolder) hq)

/-- What is removed is a file. -/
theorem eq_drop_of_remove (h : t.remove l = .ok t') :
    ∃ p, t.locate l = .ok p ∧ t.isFile p = true ∧ t' = t.drop p := by
  rw [remove] at h
  obtain ⟨bytes, hread, h⟩ := exists_of_bind h
  obtain ⟨p, hlocate, hbytes⟩ := bytes?_of_read hread
  rw [hlocate] at h
  obtain ⟨_, heq, h⟩ := exists_of_bind h
  cases heq
  cases h
  exact ⟨p, hlocate, isFile_of_bytes? hbytes, rfl⟩

/-- If there is nothing to remove the location is missing. -/
theorem locate_of_remove (h : t.remove l = .error .missing) : t.locate l = .error .missing := by
  rw [remove, read] at h
  cases hlocate : t.locate l with
  | error e =>
      rw [hlocate] at h
      rw [show e = .missing from Except.error.inj h]
  | ok p =>
      rw [hlocate] at h
      simp only [bind, Except.bind] at h
      cases hbytes : t.bytes? p with
      | none =>
          rw [hbytes] at h
          cases h
      | some bytes =>
          rw [hbytes] at h
          cases h

/-! ## Making folders -/

/-- A folder that is made, or for which one is missing, has an accepted location. -/
theorem accepted_of_makeFolder (h : t.makeFolder l = .ok t' ∨ t.makeFolder l = .error .missing) :
    refusal? l = none := by
  cases hrefused : refusal? l with
  | none => rfl
  | some e =>
      rw [makeFolder, locateLast, hrefused] at h
      rcases h with h | h
      · cases h
      · obtain rfl : e = .missing := Except.error.inj h
        exact absurd hrefused (refusal?_ne_missing l)

/-- A folder is made behind the others of its location, unless something stands in the way. -/
theorem makeFolder_eq (hl : l.names = front ++ [n]) (hn : n ≠ "") (haccepted : refusal? l = none)
    (hnonempty : l.isEmpty = false) :
    t.makeFolder l = t.follow l front >>= fun folder =>
      if t.isFile folder then .error .notFolder
      else if isOnTheWay n || t.isThere (folder ++ [n]) then .error .occupied
      else if maxNameBytes < n.utf8ByteSize then .error .tooLong
      else .ok (t.addFolder (folder ++ [n])) := by
  rw [makeFolder, locateLast_eq hl hn haccepted hnonempty]
  cases t.follow l front with
  | error e => rfl
  | ok folder =>
      cases hopen : t.isFile folder with
      | true => simp only [bind, Except.bind, hopen, if_true]
      | false => simp only [bind, Except.bind, hopen, Bool.false_eq_true, if_false]

/-- A folder that is made was missing, and one that is missing on the way makes it so. -/
theorem locate_of_makeFolder (hl : l.names = front ++ [n]) (hn : n ≠ "")
    (h : t.makeFolder l = .ok t' ∨ t.makeFolder l = .error .missing) :
    t.locate l = .error .missing := by
  have haccepted := accepted_of_makeFolder h
  have hnonempty := isEmpty_eq_false_of_names hl hn
  rw [makeFolder_eq hl hn haccepted hnonempty] at h
  rw [locate_eq_follow haccepted hnonempty, hl, follow_concat]
  cases hfollow : t.follow l front with
  | error e =>
      rw [hfollow] at h
      rcases h with h | h
      · cases h
      · obtain rfl : e = .missing := Except.error.inj h
        rfl
  | ok folder =>
      rw [hfollow] at h
      simp only [bind, Except.bind] at h ⊢
      -- the three refusals that are not `missing` come first, so none of them applied
      split at h
      · rcases h with h | h
        · cases h
        · cases h
      · next hopen =>
        split at h
        · rcases h with h | h
          · cases h
          · cases h
        · next hfree =>
          split at h
          · rcases h with h | h
            · cases h
            · cases h
          · next hlength =>
            rw [Bool.not_eq_true, Bool.or_eq_false_iff, isOnTheWay, Bool.or_eq_false_iff] at hfree
            rw [step, if_neg hopen, hfree.1.1, if_neg Bool.false_ne_true, hfree.1.2,
              if_neg Bool.false_ne_true, hfree.2, if_neg Bool.false_ne_true,
              if_pos (Nat.not_lt.1 hlength)]

/-- Making folders leaves the tree as it is unless the last one is missing. -/
theorem makeFolders_cases (hl : l.names = front ++ [n]) (hn : n ≠ "") (t : Tree) :
    (t.makeFolders l).1 = t ∨ t.locate l = .error .missing := by
  rw [makeFolders, isEmpty_eq_false_of_names hl hn, if_neg Bool.false_ne_true, ensureFolders,
    ensureFolder]
  cases hmake : t.makeFolder l with
  | ok t' => exact .inr (locate_of_makeFolder hl hn (.inl hmake))
  | error e =>
      dsimp only
      cases t.leadsToFolder l with
      | true => exact .inl rfl
      | false =>
          by_cases he : e = .missing
          · have hmissing : t.makeFolder l = .ok t ∨ t.makeFolder l = .error .missing :=
              .inr (he ▸ hmake)
            exact .inr (locate_of_makeFolder hl hn hmissing)
          · left
            rw [if_neg Bool.false_ne_true]
            cases e with
            | missing => exact absurd rfl he
            | _ => rfl

/-- A folder that is there does not need to be made. -/
theorem LeadsTo.makeFolders_eq (h : t.LeadsTo l p) (hl : l.names = front ++ [n]) (hn : n ≠ "") :
    t.makeFolders l = (t, none) := by
  have hleads : t.leadsToFolder l = true := by
    rw [leadsToFolder, h.locate]
    exact h.isFolder
  rw [makeFolders, isEmpty_eq_false_of_names hl hn, if_neg Bool.false_ne_true, ensureFolders,
    ensureFolder]
  cases hmake : t.makeFolder l with
  | ok t' =>
      have hmissing := locate_of_makeFolder hl hn (.inl hmake)
      rw [h.locate] at hmissing
      cases hmissing
  | error e =>
      dsimp only
      rw [hleads, if_pos rfl]

end Tree

end CodeAtlas
