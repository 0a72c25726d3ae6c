import CodeAtlas.Proofs.Json.Sorting
import CodeAtlas.Proofs.Reply.Regions

/-!
# Whole replies

A reply that is the text of a list of records is read in full: the region that its first bracket
opens ends at its last one, whatever brackets and quotes its strings hold. Only three back quotes in
a row are taken for a fence, even within a string. What a fence encloses is read as if it stood
alone.
-/

namespace CodeAtlas.Reply

open Text

/-- The region of a list ends with the list. -/
theorem regionAt?_arr {n : Nat} {items : List Json} {s : List Char}
    (h : Json.Text n (.value (.arr items)) s) : regionAt? s = some s := by
  cases h with
  | arr h =>
      have hpair : closerOf? '[' = some ']' := rfl
      exact regionAt?_brackets hpair (passes_text hpair h) []

/-- White space around a list is trimmed. -/
theorem trim_arr {n : Nat} {items : List Json} {b s b' : List Char} (hb : AllBlank b)
    (h : Json.Text n (.value (.arr items)) s) (hb' : AllBlank b') : trim (b ++ (s ++ b')) = s := by
  cases h with
  | @arr n es s h =>
      have hopen : Unicode.isBlank '[' = false := isBlank_of_printed (by decide) (by decide)
      have hclose : Unicode.isBlank ']' = false := isBlank_of_printed (by decide) (by decide)
      rw [trim, trimStart_append_blank hb, List.cons_append, trimStart_cons hopen,
        ← List.cons_append, trimEnd_append_blank _ hb', trimEnd_of_solid]
      exact solid_append_singleton ('[' :: s) hclose

/-- The records among records are all of them. -/
theorem records_objects (xs : List Item) : records (.arr (xs.map .obj)) = xs := by
  rw [records, List.filterMap_map]
  exact List.filterMap_some

/-- A reply that is the text of a list of records, with white space around it, is read as these
records, unless it holds three back quotes in a row. -/
theorem items_of_text {items : List Json} {xs : List Item} {b s b' : List Char} (hb : AllBlank b)
    (hs : Json.Text Json.maxNesting (.value (.arr items)) s) (hb' : AllBlank b')
    (hitems : items.map Json.sorted = xs.map .obj) (hfence : ¬ fence <:+: s) :
    Reply.items (b ++ (s ++ b')) = xs := by
  have hpayload : payload (b ++ (s ++ b')) = s := by
    rw [payload, trim_arr hb hs hb', cut?_eq_none hfence]
  have hread := Json.readChars?_of_text Json.blank_nil hs Json.blank_nil
  rw [List.nil_append, List.append_nil] at hread
  have hsorted : (Json.arr items).sorted = .arr (xs.map .obj) := by
    rw [Json.sorted, Json.sortedItems_eq_map, hitems]
  have hparse : parse? s = some (.arr (xs.map .obj)) := by
    rw [parse?, Json.parseChars?, hread, Option.map_some, hsorted]
  have hregion := regionAt?_arr hs
  have hfind : findInRegions? parse? s = some (.arr (xs.map .obj)) := by
    cases hs with
    | arr hs =>
        rw [findInRegions?, hregion, Option.bind_eq_bind, Option.bind_some, hparse]
  rw [Reply.items, hpayload, hfind]
  exact records_objects xs

/-- A list of one record with one string is written as a text that can be read. -/
theorem text_record (s : String) :
    Json.Text Json.maxNesting (.value (.arr [.obj [("a", .str s)]]))
      (Json.writePretty 0 (.arr [.obj [("a", .str s)]])) := by
  have hplain : Json.Plain (.arr [.obj [("a", .str s)]]) :=
    .arr (List.forall_mem_singleton.2 (.obj (List.forall_mem_singleton.2 (.str _))))
  have hnesting : (Json.arr [.obj [("a", .str s)]]).nesting ≤ Json.maxNesting := by
    simp [Json.nesting, Json.nestingItems, Json.nestingMembers, Json.maxNesting]
  exact (Json.text_writePretty hplain 0).mono hnesting

/-- Brackets, quotes and back quotes in a string are kept. -/
theorem items_of_text_brackets :
    let record : Json := .obj [("a", .str "]\"[``\\\x7b")]
    Json.Text Json.maxNesting (.value (.arr [record])) (Json.writePretty 0 (.arr [record]))
      ∧ Reply.items ([' '] ++ (Json.writePretty 0 (.arr [record]) ++ ['\n']))
        = [[("a", .str "]\"[``\\\x7b")]] := by
  intro record
  have htext := text_record "]\"[``\\\x7b"
  have hblank : ∀ c, Json.isSpace c = true → AllBlank [c] := fun c hc =>
    List.forall_mem_singleton.2 (isBlank_of_isSpace hc)
  have hitems : [record].map Json.sorted = [[("a", .str "]\"[``\\\x7b")]].map .obj := by
    simp [record, Json.sorted, Json.sortedMembers, Json.ofMembers, Json.sortMembers,
      Json.insertMember]
  have hfence : ¬ fence <:+: Json.writePretty 0 (.arr [record]) := by
    simp [record, fence, Json.writePretty, Json.writePrettyItems, Json.writePrettyMembers,
      Json.newLine, Json.quoted, Json.escapeChar, List.infix_cons_iff]
  exact ⟨htext, items_of_text (hblank ' ' rfl) htext (hblank '\n' rfl) hitems hfence⟩

/-- Three back quotes within a string are taken for a fence. -/
theorem items_fence_inString :
    let record : Json := .obj [("a", .str "```x```")]
    Json.parseChars? (Json.writePretty 0 (.arr [record])) = some (.arr [record])
      ∧ Reply.items (Json.writePretty 0 (.arr [record])) = [] := by
  intro record
  have htext := text_record "```x```"
  have hread := Json.readChars?_of_text Json.blank_nil htext Json.blank_nil
  rw [List.nil_append, List.append_nil] at hread
  have hnil : AllBlank [] := List.forall_mem_nil _
  have htrim := trim_arr hnil htext hnil
  rw [List.nil_append, List.append_nil] at htrim
  have hwrite : Json.writePretty 0 (.arr [record])
      = "[\n  \x7b\n    \"a\": \"```x```\"\n  \x7d\n]".toList := by
    simp [record, Json.writePretty, Json.writePrettyItems, Json.writePrettyMembers,
      Json.newLine, Json.quoted, Json.escapeChar]
  have hpayload : payload (Json.writePretty 0 (.arr [record])) = [] := by
    rw [payload, htrim, hwrite]
    rfl
  constructor
  · rw [Json.parseChars?, hread]
    simp [record, Json.sorted, Json.sortedItems, Json.sortedMembers, Json.ofMembers,
      Json.sortMembers, Json.insertMember]
  · rw [Reply.items, hpayload]
    rfl

/-! ## Fenced replies -/

/-- A text in front of a fence that is no part of it: it holds none, and does not end in a back
quote. -/
theorem cut?_fence {front : List Char} (hfence : ¬ fence <:+: front)
    (hlast : ∀ c, front.getLast? = some c → c ≠ Char.ofNat 96) (rest : List Char) :
    cut? fence (front ++ (fence ++ rest)) = some (front, rest) := by
  refine cut?_eq_some_iff.2 ⟨rfl, ?_⟩
  rintro a b rfl hb ⟨back, hback⟩
  rcases List.append_eq_append_iff.1 hback with ⟨c, rfl, -⟩ | ⟨c, hc, -⟩
  · exact hfence ⟨a, c, by rw [List.append_assoc]⟩
  · -- the fence would start with `b`, whose last character is no back quote
    have hmem : b.getLast hb ∈ fence := hc ▸ List.mem_append_left c (List.getLast_mem hb)
    refine hlast (b.getLast hb) ?_ (List.eq_of_mem_replicate hmem)
    rw [List.getLast?_append_of_ne_nil _ hb, List.getLast?_eq_some_getLast hb]

/-- A fence does not end with a line. -/
theorem not_infix_line {b : List Char} (hb : ¬ fence <:+: b) : ¬ fence <:+: b ++ ['\n'] := by
  rw [List.infix_concat_iff]
  rintro (hsuffix | hinfix)
  · have hlast := hsuffix.getLast (by simp [fence])
    rw [List.getLast_concat] at hlast
    exact absurd hlast (by decide)
  · exact hb hinfix

/-- A back quote is no white space. -/
theorem isBlank_backQuote : Unicode.isBlank (Char.ofNat 96) = false :=
  isBlank_of_printed (by decide) (by decide)

/-- A fence begins and ends with characters that are no white space. -/
theorem solid_fence : Solid fence :=
  solid_append_singleton (List.replicate 2 (Char.ofNat 96)) isBlank_backQuote

/-- A format is a word of ASCII letters, and the payload starts behind its line. -/
theorem afterFormat_line {f : List Char} (hf : ∀ c ∈ f, c.isAlpha = true) (rest : List Char) :
    afterFormat (f ++ '\n' :: rest) = rest := by
  rw [afterFormat, List.dropWhile_append_of_pos (p := isFormatChar) hf]
  rfl

/-- A word of ASCII letters is a format and nothing behind it. -/
theorem afterFormat_word {f : List Char} (hf : ∀ c ∈ f, c.isAlpha = true) : afterFormat f = [] := by
  have hnil : f.dropWhile isFormatChar = [] := by
    rw [← List.append_nil f, List.dropWhile_append_of_pos (p := isFormatChar) hf]
    rfl
  rw [afterFormat, hnil]
  rfl

/-- A text without a fence is its own payload. -/
theorem payload_of_not_infix {b : List Char} (hb : ¬ fence <:+: b) : payload b = trim b := by
  have hinfix : trim b <:+: b := by
    obtain ⟨back, hback, -⟩ := exists_trimEnd_append (trimStart b)
    obtain ⟨front, -, hfront⟩ := exists_append_trimStart b
    exact ⟨front, back, by rw [List.append_assoc, trim, ← hback, ← hfront]⟩
  rw [payload, cut?_eq_none fun h => hb (h.trans hinfix)]

section
variable {q f b : List Char} (hq : ¬ fence <:+: q) (hend : q = [] ∨ q.getLast? = some '\n')
include hq hend

/-- The first fence of a reply is the one behind the prose. -/
theorem cut?_trim_fence (w : List Char) :
    cut? fence (trim (q ++ (fence ++ w))) = some (trimStart q, trimEnd w) := by
  have hstart : trimStart (q ++ (fence ++ w)) = trimStart q ++ (fence ++ w) :=
    trimStart_append_cons q isBlank_backQuote _
  obtain ⟨front, -, hfront⟩ := exists_append_trimStart q
  have hlast : ∀ c, (trimStart q).getLast? = some c → c = '\n' := by
    intro c hc
    rcases hend with rfl | hend
    · cases hc
    · rw [hfront, List.getLast?_append, hc] at hend
      exact Option.some.inj hend
  have hsolid : Solid (trimStart q ++ fence) := Solid.append_cons solid_fence
  rw [trim, hstart, ← List.append_assoc, trimEnd_append_of_solid hsolid, List.append_assoc]
  refine cut?_fence (fun h => hq (h.trans ⟨front, [], ?_⟩)) ?_ _
  · rw [List.append_nil, ← hfront]
  · rintro c hc rfl
    exact absurd (hlast _ hc) (by decide)

variable (hf : ∀ c ∈ f, c.isAlpha = true) (hb : ¬ fence <:+: b)
include hf hb

/-- The payload of a fenced reply is what the fence encloses. -/
theorem payload_fenced (z : List Char) :
    payload (q ++ (fence ++ (f ++ '\n' :: (b ++ '\n' :: (fence ++ z))))) = trim b := by
  have hblank : AllBlank ['\n'] := List.forall_mem_singleton.2 (isBlank_of_isSpace rfl)
  have hcut : upTo fence (b ++ '\n' :: (fence ++ trimEnd z)) = b ++ ['\n'] := by
    rw [← List.singleton_append, ← List.append_assoc, upTo, upTo?, cut?_fence (not_infix_line hb)]
    · rfl
    · rintro c hc rfl
      rw [List.getLast?_concat] at hc
      exact absurd (Option.some.inj hc) (by decide)
  have htrim : trimEnd (f ++ '\n' :: (b ++ '\n' :: (fence ++ z)))
      = f ++ '\n' :: (b ++ '\n' :: (fence ++ trimEnd z)) := by
    have hsolid : Solid (f ++ '\n' :: (b ++ ['\n']) ++ fence) := Solid.append_cons solid_fence
    simpa using trimEnd_append_of_solid hsolid z
  rw [payload, cut?_trim_fence hq hend, htrim]
  show trim (upTo fence (afterFormat _)) = trim b
  rw [afterFormat_line hf, hcut, trim_append_blank _ hblank]

/-- The payload of a reply that is cut off within its fence is what there is of it. -/
theorem payload_open : payload (q ++ (fence ++ (f ++ '\n' :: b))) = trim b := by
  obtain ⟨blank, hsplit, hblank, hsolid⟩ := exists_trimEnd_append b
  have hnone : ¬ fence <:+: trimEnd b := fun h => hb (h.trans ⟨[], blank, hsplit.symm⟩)
  rw [payload, cut?_trim_fence hq hend]
  show trim (upTo fence (afterFormat (trimEnd (f ++ '\n' :: b)))) = trim b
  rw [← trim_trimEnd b]
  cases hbody : trimEnd b with
  | nil =>
      -- nothing but white space is behind the format
      rw [hbody, List.nil_append] at hsplit
      have hline : AllBlank ('\n' :: b) :=
        List.forall_mem_cons.2 ⟨isBlank_of_isSpace rfl, hsplit ▸ hblank⟩
      have hword : Solid f := fun c hc => isBlank_of_isAlpha (hf c (List.mem_of_getLast? hc))
      rw [trimEnd_append_blank f hline, trimEnd_of_solid hword, afterFormat_word hf]
      rfl
  | cons c body =>
      have hsolid' : Solid (f ++ '\n' :: trimEnd b) := by
        rw [hbody, ← List.singleton_append, ← List.append_assoc]
        exact Solid.append_cons (hbody ▸ hsolid)
      rw [hsplit, ← List.cons_append, ← List.append_assoc, trimEnd_append_blank _ hblank,
        trimEnd_of_solid hsolid', afterFormat_line hf, upTo_of_not_infix hnone, hbody]

end

/-- What stands in a fence is read as if it stood alone, whatever prose comes in front of the fence
and whatever follows it, and also if the reply is cut off within the fence. -/
theorem items_fenced {q f b : List Char} (hq : ¬ fence <:+: q)
    (hend : q = [] ∨ q.getLast? = some '\n') (hf : ∀ c ∈ f, c.isAlpha = true)
    (hb : ¬ fence <:+: b) :
    (∀ z, Reply.items (q ++ (fence ++ (f ++ '\n' :: (b ++ '\n' :: (fence ++ z))))) = Reply.items b)
      ∧ Reply.items (q ++ (fence ++ (f ++ '\n' :: (b ++ ['\n'])))) = Reply.items b
      ∧ Reply.items (q ++ (fence ++ (f ++ '\n' :: b))) = Reply.items b := by
  have hread : ∀ {reply : List Char}, payload reply = trim b →
      Reply.items reply = Reply.items b := by
    intro reply h
    rw [Reply.items, Reply.items, h, payload_of_not_infix hb]
  have hblank : AllBlank ['\n'] := List.forall_mem_singleton.2 (isBlank_of_isSpace rfl)
  have hline : payload (q ++ (fence ++ (f ++ '\n' :: (b ++ ['\n'])))) = trim b := by
    rw [payload_open hq hend hf (not_infix_line hb), trim_append_blank b hblank]
  exact ⟨fun z => hread (payload_fenced hq hend hf hb z), hread hline,
    hread (payload_open hq hend hf hb)⟩

/-- A payload that starts with a blank and ends in two back quotes, behind prose with a bracket. -/
theorem items_fenced_backQuotes :
    let q := ['[', '1', '\n']
    let b := [' ', '[', '\x7b', '"', 'a', '"', ':', '"', '"', '\x7d', ']', Char.ofNat 96,
      Char.ofNat 96]
    (∀ z, Reply.items (q ++ (fence ++ (['j'] ++ '\n' :: (b ++ '\n' :: (fence ++ z)))))
      = Reply.items b)
      ∧ Reply.items (q ++ (fence ++ (['j'] ++ '\n' :: b))) = Reply.items b := by
  intro q b
  have hq : ¬ fence <:+: q := by decide
  have hb : ¬ fence <:+: b := by decide
  have hf : ∀ c ∈ ['j'], c.isAlpha = true := List.forall_mem_singleton.2 rfl
  obtain ⟨hclosed, -, hopen⟩ := items_fenced hq (.inr rfl) hf hb
  exact ⟨hclosed, hopen⟩

end CodeAtlas.Reply
