import CodeAtlas.Proofs.Files.Following

/-!
# Files that were written

A location ends in a name for a file. If the file could be written there, or renamed to be there,
the location leads to it from then on, until files with its name come or go again.
-/

namespace CodeAtlas

/-! ## The last name of a location -/

namespace Text

variable {p : Char → Bool}

/-- A text without a separator is one piece behind those before. -/
theorem splitWhere_go_of_forall {s : List Char} (hs : ∀ c ∈ s, p c = false)
    (pieces : List (List Char)) (piece : List Char) :
    splitWhere.go p pieces piece s = pieces.reverse ++ [piece.reverse ++ s] := by
  induction s generalizing piece with
  | nil => simp [splitWhere.go]
  | cons c s ih =>
      obtain ⟨hc, hs⟩ := List.forall_mem_cons.1 hs
      rw [splitWhere.go, hc, if_neg Bool.false_ne_true, ih hs]
      simp

/-- A text without separators behind another is a part of its last piece. -/
theorem splitWhere_go_append (text : List Char) {s : List Char} (hs : ∀ c ∈ s, p c = false)
    (pieces : List (List Char)) (piece : List Char) :
    ∃ front last, splitWhere.go p pieces piece text = front ++ [last] ∧
      splitWhere.go p pieces piece (text ++ s) = front ++ [last ++ s] := by
  induction text generalizing pieces piece with
  | nil => exact ⟨_, _, by simp [splitWhere.go], splitWhere_go_of_forall hs pieces piece⟩
  | cons c text ih =>
      rw [List.cons_append, splitWhere.go, splitWhere.go]
      cases p c with
      | true => exact ih (piece.reverse :: pieces) []
      | false => exact ih pieces (c :: piece)

/-- A separator at the end has an empty piece behind it. -/
theorem splitWhere_go_snoc (text : List Char) {c : Char} (hc : p c = true)
    (pieces : List (List Char)) (piece : List Char) :
    splitWhere.go p pieces piece (text ++ [c]) = splitWhere.go p pieces piece text ++ [[]] := by
  induction text generalizing pieces piece with
  | nil => simp [splitWhere.go, hc]
  | cons d text ih =>
      rw [List.cons_append, splitWhere.go, splitWhere.go]
      cases p d with
      | true => exact ih (piece.reverse :: pieces) []
      | false => exact ih pieces (d :: piece)

end Text

namespace Location

/-- A text without a slash behind a location is a part of its last name. -/
theorem names_append (l : Location) {s : String} (hs : '/' ∉ s.toList) :
    ∃ front last, names l = front ++ [last] ∧ names (l ++ s) = front ++ [last ++ s] := by
  have hsplit : ∀ c ∈ s.toList, (c == '/') = false := by
    intro c hc
    refine beq_eq_false_iff_ne.2 fun h => hs (h ▸ hc)
  obtain ⟨front, last, hl, hls⟩ := Text.splitWhere_go_append l.toList hsplit [] []
  refine ⟨front.map String.ofList, String.ofList last, ?_, ?_⟩
  · rw [names, Text.splitChar, Text.splitWhere, hl, List.map_append, List.map_singleton]
  · rw [names, Text.splitChar, Text.splitWhere, String.toList_append, hls, List.map_append,
      List.map_singleton, String.ofList_append, String.ofList_toList]

/-- A slash behind a location adds an empty name. -/
theorem names_append_slash (l : Location) : names (l ++ "/") = names l ++ [""] := by
  have hslash : ("/" : String).toList = ['/'] := rfl
  rw [names, names, Text.splitChar, Text.splitChar, Text.splitWhere, Text.splitWhere,
    String.toList_append, hslash, Text.splitWhere_go_snoc l.toList rfl, List.map_append]
  rfl

/-- A name behind a slash is the last name. -/
theorem names_append_slash_append (l : Location) {name : String} (hname : '/' ∉ name.toList) :
    names (l ++ "/" ++ name) = names l ++ [name] := by
  obtain ⟨front, last, hlast, happend⟩ := names_append (l ++ "/") hname
  rw [names_append_slash] at hlast
  obtain ⟨hfront, hlast⟩ := List.append_inj' hlast rfl
  obtain rfl : "" = last := List.singleton_inj.1 hlast
  rw [happend, hfront, String.empty_append]

/-- A location that ends with a slash is another with a slash behind it. -/
theorem exists_of_endsWith_slash {l : Location} (h : Text.endsWith l.toList ['/'] = true) :
    ∃ l', l = l' ++ "/" := by
  rw [Text.endsWith, Text.startsWith, Option.isSome_iff_exists] at h
  obtain ⟨rest, hrest⟩ := h
  rw [Text.after?_eq_some_iff] at hrest
  refine ⟨String.ofList rest.reverse, String.toList_inj.1 ?_⟩
  rw [String.toList_append, String.toList_ofList, ← List.reverse_inj, hrest]
  simp

/-- A name without a slash is not absolute. -/
theorem isAbsolute_eq_false {name : Location} (hname : '/' ∉ name.toList) :
    isAbsolute name = false := by
  rw [isAbsolute, Text.startsWith, ← Bool.not_eq_true, Option.isSome_iff_exists]
  rintro ⟨rest, hrest⟩
  refine hname ?_
  rw [Text.after?_eq_some_iff.1 hrest]
  exact List.mem_append_left _ List.mem_cons_self

/-- Whether a location is absolute is told by its start. -/
theorem isAbsolute_append {l : Location} (hl : l.isEmpty = false) (s : String) :
    isAbsolute (l ++ s) = isAbsolute l := by
  obtain ⟨c, text, htext⟩ : ∃ c text, l.toList = c :: text := by
    refine List.exists_cons_of_ne_nil fun h => Bool.eq_false_iff.1 hl ?_
    exact String.isEmpty_iff.2 (String.toList_inj.1 h)
  rw [isAbsolute, isAbsolute, String.toList_append, htext, List.cons_append, Text.startsWith,
    Text.startsWith, Text.after?, Text.after?, Text.after?, Text.after?]
  split
  · rfl
  · rfl

/-- In front of a name below a folder are the names of the folder, without a slash at its end. -/
theorem exists_names_join (folder : Location) {name : String} (hname : '/' ∉ name.toList) :
    ∃ front, names (join folder name) = front ++ [name] ∧
      (folder = "" ∧ front = [] ∨
        isAbsolute (join folder name) = isAbsolute folder ∧
          (folder.names = front ∨ folder.names = front ++ [""])) := by
  by_cases hempty : folder.isEmpty = true
  · obtain rfl := String.isEmpty_iff.1 hempty
    have hjoin : join "" name = "" ++ name := by
      rw [join, isAbsolute_eq_false hname, Bool.false_or, hempty, if_pos rfl, String.empty_append]
    obtain ⟨front, last, hlast, happend⟩ := names_append "" hname
    have hnames : names "" = [] ++ [""] := rfl
    obtain ⟨rfl, hlast⟩ := List.append_inj' (hnames.symm.trans hlast) rfl
    obtain rfl : "" = last := List.singleton_inj.1 hlast
    refine ⟨[], ?_, .inl ⟨rfl, rfl⟩⟩
    rw [hjoin, happend, String.empty_append]
  · rw [Bool.not_eq_true] at hempty
    rw [join, isAbsolute_eq_false hname, hempty, Bool.or_false, if_neg Bool.false_ne_true]
    split
    · next hend =>
      obtain ⟨l, rfl⟩ := exists_of_endsWith_slash hend
      exact ⟨l.names, names_append_slash_append l hname,
        .inr ⟨isAbsolute_append hempty name, .inr (names_append_slash l)⟩⟩
    · refine ⟨folder.names, names_append_slash_append folder hname, .inr ⟨?_, .inl rfl⟩⟩
      rw [String.append_assoc, isAbsolute_append hempty]

/-- The last name of a name below a folder is that name. -/
theorem names_join (folder : Location) (name : String) (hname : '/' ∉ name.toList) :
    ∃ front, names (join folder name) = front ++ [name] :=
  (exists_names_join folder hname).imp fun _ h => h.1

end Location

namespace Tree

/-! ## Places for files -/

/-- A location that is handed on as it is leads where its names lead. -/
theorem locate_eq_follow {t : Tree} {l : Location} (haccepted : refusal? l = none)
    (hl : l.isEmpty = false) : t.locate l = t.follow l l.names := by
  have hnozero : l.toList.contains '\x00' = false := by
    rw [refusal?] at haccepted
    split at haccepted
    · cases haccepted
    · next hnozero => exact Bool.eq_false_iff.2 hnozero
  rw [locate, haccepted]
  dsimp only
  rw [trace, hnozero, if_neg Bool.false_ne_true, hl, if_neg Bool.false_ne_true]

/-- A location that leads to a place for a file: its last name is that of no folder in the folder to
which the names in front of it lead. -/
structure Fits (t : Tree) (l : Location) (front : List String) (folder : Path) (name : String) :
    Prop where
  names : l.names = front ++ [name]
  accepted : refusal? l = none
  nonempty : l.isEmpty = false
  follow : t.follow l front = .ok folder
  notFile : t.isFile folder = false
  proper : isOnTheWay name = false
  free : t.isFolder (folder ++ [name]) = false

variable {t t' : Tree} {l : Location} {front : List String} {folder p : Path} {name : String}

/-- The folder and the last name of a location whose names are known. -/
theorem locateLast_eq (hl : l.names = front ++ [name]) (hname : name ≠ "")
    (haccepted : refusal? l = none) (hnonempty : l.isEmpty = false) :
    t.locateLast l = match t.follow l front with
      | .error e => .error e
      | .ok folder => if t.isFile folder then .error .notFolder else .ok (folder, name) := by
  have hback : l.names.reverse.dropWhile (· == "") = name :: front.reverse := by
    have hstop : (name == "") = false := beq_eq_false_iff_ne.2 hname
    rw [hl, List.reverse_append, List.reverse_singleton, List.singleton_append, List.dropWhile_cons,
      hstop, if_neg Bool.false_ne_true]
  rw [locateLast, haccepted]
  dsimp only
  rw [hnonempty, if_neg Bool.false_ne_true, hback]
  cases hfollow : t.follow l front with
  | error e => simp only [List.reverse_reverse, hfollow]
  | ok folder => simp only [List.reverse_reverse, hfollow]

/-- A location whose last name is located is accepted and not empty. -/
theorem accepted_of_locateLast {e : Path × String} (h : t.locateLast l = .ok e) :
    refusal? l = none ∧ l.isEmpty = false := by
  rw [locateLast] at h
  split at h
  · cases h
  · next haccepted =>
    split at h
    · cases h
    · next hempty => exact ⟨haccepted, Bool.eq_false_iff.2 hempty⟩

/-- The names in front of the last one lead to a folder. -/
theorem follow_of_locateLast (hl : l.names = front ++ [name]) (hname : name ≠ "") {name' : String}
    (h : t.locateLast l = .ok (folder, name')) :
    name' = name ∧ t.follow l front = .ok folder ∧ t.isFile folder = false := by
  obtain ⟨haccepted, hnonempty⟩ := accepted_of_locateLast h
  rw [locateLast_eq hl hname haccepted hnonempty] at h
  split at h
  · cases h
  · next q hfollow =>
    split at h
    · cases h
    · next hopen =>
      cases h
      exact ⟨rfl, hfollow, Bool.eq_false_iff.2 hopen⟩

/-- A location of a file that is located fits a folder and a name. -/
theorem fits_of_locateFile (hl : l.names = front ++ [name]) (hname : name ≠ "")
    (h : t.locateFile l = .ok p) : ∃ folder, t.Fits l front folder name ∧ p = folder ++ [name] := by
  rw [locateFile] at h
  obtain ⟨⟨folder, name'⟩, hlast, h⟩ := exists_of_bind h
  obtain ⟨haccepted, hnonempty⟩ := accepted_of_locateLast hlast
  obtain ⟨rfl, hfollow, hopen⟩ := follow_of_locateLast hl hname hlast
  dsimp only at h
  split at h
  · cases h
  · next hfree =>
    rw [Bool.not_eq_true, Bool.or_eq_false_iff] at hfree
    split at h
    · cases h
    · cases h
      exact ⟨folder, ⟨hl, haccepted, hnonempty, hfollow, hopen, hfree.1, hfree.2⟩, rfl⟩

namespace Fits

/-- If there is a file in the place, the location leads to it, also when other files have come and
gone. -/
theorem locate_of_grows {paths : List Path} (h : t.Fits l front folder name)
    (hgrows : Grows t t' paths) (hfile : t'.isFile (folder ++ [name]) = true) :
    t'.locate l = .ok (folder ++ [name]) := by
  obtain ⟨hfollow, hfolder⟩ := follow_of_grows hgrows h.follow h.notFile
  have hopen : t'.isFile folder = false := hgrows.isFile_eq_false hfolder h.notFile
  rw [locate_eq_follow h.accepted h.nonempty, h.names, follow_concat, hfollow]
  show t'.step folder name = _
  rw [step_of_proper h.proper hopen, isThere, hfile, Bool.or_true, if_pos rfl]

end Fits

/-- A file that is moved makes the tree grow by its new path. -/
theorem Grows.move {path : Path} (source : Path) (bytes : List UInt8)
    (hpath : t.isFolder path = false) : Grows t ((t.drop source).put path bytes) [path] where
  here := (Grows.drop t source).here
  folders := fun hq => isFolder_put path bytes (isFolder_drop source hq)
  files := by
    intro q hq
    rw [isFile, bytes?_put] at hq
    by_cases h : q = path
    · exact .inr (List.mem_singleton.2 h)
    · rw [if_neg h] at hq
      exact ((Grows.drop t source).files hq).imp_right fun h => absurd h List.not_mem_nil
  free := List.forall_mem_singleton.2 hpath

/-- A tree in which files came or went, all with one of these names. -/
structure Touches (t t' : Tree) (names : List String) : Prop where
  grows : ∃ paths, Grows t t' paths
  kept : ∀ n ∉ names, ∀ folder : Path, t'.bytes? (folder ++ [n]) = t.bytes? (folder ++ [n])

/-- Touching is transitive, and the names add up. -/
theorem Touches.trans {t'' : Tree} {names names' : List String} (h : Touches t t' names)
    (h' : Touches t' t'' names') : Touches t t'' (names ++ names') where
  grows := by
    obtain ⟨paths, hgrows⟩ := h.grows
    obtain ⟨paths', hgrows'⟩ := h'.grows
    exact ⟨paths ++ paths', hgrows.trans hgrows'⟩
  kept := by
    intro n hn folder
    rw [List.mem_append, not_or] at hn
    exact (h'.kept n hn.2 folder).trans (h.kept n hn.1 folder)

/-- A location leads to a file with these bytes, and did lead to its place before the last
changes. -/
def Holds (t' : Tree) (l : Location) (name : String) (bytes : List UInt8) : Prop :=
  ∃ t front folder paths, Fits t l front folder name ∧ Grows t t' paths ∧
    t'.bytes? (folder ++ [name]) = some bytes

variable {bytes : List UInt8}

/-- What has bytes is a file. -/
theorem isFile_of_bytes? (h : t.bytes? p = some bytes) : t.isFile p = true := by
  rw [isFile, h, Option.isSome_some]

/-- A location that leads to bytes reads them. -/
theorem read_of_bytes? (hp : t.locate l = .ok p) (hbytes : t.bytes? p = some bytes) :
    t.read l = .ok bytes := by
  simp only [Tree.read, hp, bind, Except.bind, hbytes]

namespace Holds

/-- A location that holds bytes under a name is located there. -/
theorem locate (h : t.Holds l name bytes) :
    ∃ folder, t.locate l = .ok (folder ++ [name]) ∧ t.bytes? (folder ++ [name]) = some bytes := by
  obtain ⟨t₀, front, folder, paths, hfits, hgrows, hbytes⟩ := h
  exact ⟨folder, hfits.locate_of_grows hgrows (isFile_of_bytes? hbytes), hbytes⟩

/-- A location that holds bytes reads them. -/
theorem read (h : t.Holds l name bytes) : t.read l = .ok bytes := by
  obtain ⟨folder, hlocate, hbytes⟩ := h.locate
  exact read_of_bytes? hlocate hbytes

/-- A file stays as it is while files with other names come and go. -/
theorem of_touches {names : List String} (h : t.Holds l name bytes) (ht : Touches t t' names)
    (hname : name ∉ names) : t'.Holds l name bytes := by
  obtain ⟨t₀, front, folder, paths₀, hfits, hgrows₀, hbytes⟩ := h
  obtain ⟨paths, hgrows⟩ := ht.grows
  exact ⟨t₀, front, folder, _, hfits, hgrows₀.trans hgrows,
    (ht.kept name hname folder).trans hbytes⟩

end Holds

/-! ## Writing and renaming -/

/-- Paths with different last names are different. -/
theorem append_ne_append {n n' : String} (h : n ≠ n') (p q : Path) : p ++ [n] ≠ q ++ [n'] := by
  intro heq
  exact h (List.singleton_inj.1 (List.append_inj' heq rfl).2)

/-- What is written is held, and only its name is touched. -/
theorem holds_of_write (hl : l.names = front ++ [name]) (hname : name ≠ "")
    (h : t.write l bytes = .ok t') : t'.Holds l name bytes ∧ Touches t t' [name] := by
  rw [write] at h
  obtain ⟨p, hp, h⟩ := exists_of_bind h
  cases h
  obtain ⟨folder, hfits, rfl⟩ := fits_of_locateFile hl hname hp
  have hgrows := Grows.put bytes hfits.free
  refine ⟨⟨t, front, folder, _, hfits, hgrows, ?_⟩, ⟨⟨_, hgrows⟩, fun n hn folder' => ?_⟩⟩
  · rw [bytes?_put, if_pos rfl]
  · rw [bytes?_put, if_neg (append_ne_append (fun h => hn (List.mem_singleton.2 h)) folder' folder)]

/-- What is renamed is held under the new name, and only both names are touched. -/
theorem holds_of_rename {source : Location} {sourceName : String}
    (hsource : t.Holds source sourceName bytes) (hl : l.names = front ++ [name]) (hname : name ≠ "")
    (h : t.rename source l = .ok t') :
    t'.Holds l name bytes ∧ Touches t t' [sourceName, name] := by
  obtain ⟨sourceFolder, hlocate, -⟩ := hsource.locate
  rw [rename, hsource.read] at h
  obtain ⟨_, heq, h⟩ := exists_of_bind h
  cases heq
  rw [hlocate] at h
  obtain ⟨_, heq, h⟩ := exists_of_bind h
  cases heq
  obtain ⟨p, hp, h⟩ := exists_of_bind h
  cases h
  obtain ⟨folder, hfits, rfl⟩ := fits_of_locateFile hl hname hp
  have hgrows := Grows.move (sourceFolder ++ [sourceName]) bytes hfits.free
  refine ⟨⟨t, front, folder, _, hfits, hgrows, ?_⟩, ⟨⟨_, hgrows⟩, fun n hn folder' => ?_⟩⟩
  · rw [bytes?_put, if_pos rfl]
  · rw [List.mem_cons, List.mem_singleton, not_or] at hn
    rw [bytes?_put, if_neg (append_ne_append hn.2 folder' folder), bytes?_drop,
      if_neg (append_ne_append hn.1 folder' sourceFolder)]

end Tree

end CodeAtlas
