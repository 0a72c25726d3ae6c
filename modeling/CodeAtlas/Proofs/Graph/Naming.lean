import CodeAtlas.Proofs.Graph.Lifting
import CodeAtlas.Proofs.Unicode.Lowercase

/-!
# Ids

No slug has a colon, so what stands in front of the first colon of an id tells what its entity is
for, and the slug of the service can be read off the ids that have it between two colons. A slug
tells the words of a name and nothing else. The label of a category has no hyphen, so it can be read
off the id of an integration.
-/

namespace CodeAtlas.Graph

open Unicode Text

/-! ## Slugs -/

/-- There is no colon in a slug. -/
theorem colon_not_mem_slugFrom (started pending : Bool) (text : List Char) :
    ':' ∉ slugFrom started pending text := by
  induction text generalizing started pending with
  | nil => exact List.not_mem_nil
  | cons c rest ih =>
      rw [slugFrom]
      split
      · next hc =>
        have hne : c ≠ ':' := by
          rintro rfl
          exact absurd hc (by decide)
        have hkept : ':' ∉ lowerChars c ++ slugFrom true false rest := by
          intro h
          rcases List.mem_append.1 h with h | h
          · exact colon_not_mem_lowerChars hne h
          · exact ih true false h
        dsimp only
        split
        · intro h
          rcases List.mem_cons.1 h with h | h
          · exact nomatch h
          · exact hkept h
        · exact hkept
      · exact ih started true

/-- No slug has a colon. -/
theorem colon_not_mem_slugify (name : String) : ':' ∉ (slugify name).toList := by
  rw [slugify, String.toList_ofList]
  exact colon_not_mem_slugFrom false false _

/-- The slug of a name of printed ASCII characters. -/
theorem slugify_of_printed {name : String}
    (h : (name.toList.all fun c => 33 ≤ c.toNat && c.toNat < 127) = true) :
    slugify name = String.ofList (slugFrom false false name.toList) := by
  have hblank : ∀ c ∈ name.toList, isBlank c = false := by
    intro c hc
    have hprinted := List.all_eq_true.1 h c hc
    rw [Bool.and_eq_true, decide_eq_true_iff, decide_eq_true_iff] at hprinted
    exact isBlank_of_printed hprinted.1 hprinted.2
  have hstart : trimStart name.toList = name.toList := by
    cases hname : name.toList with
    | nil => rfl
    | cons c rest => exact trimStart_cons (hblank c (hname ▸ List.mem_cons_self)) rest
  rw [slugify, slug, trim, hstart,
    trimEnd_of_solid fun c hc => hblank c (List.mem_of_getLast? hc)]

example : slugify "Pay-(API)" = "pay-api" := by
  rw [slugify_of_printed (by decide)]
  decide

/-! ## Words of slugs -/

/-- The parts of a text that are not empty, in small form. -/
def smallWords (parts : List (List Char)) : List (List Char) :=
  (parts.filter fun part => !part.isEmpty).map (·.flatMap lowerChars)

/-- The words of a name: its longest parts of characters that slugs keep, in small form. -/
def slugWords (name : String) : List (List Char) :=
  smallWords ((trim name.toList).splitOnP fun c => !isSlugChar c)

/-- The words of a name that begins and ends with printed characters. -/
theorem slugWords_of_printed {name : String} {words : List (List Char)}
    (hhead : name.toList.head?.all isPrinted = true)
    (hlast : name.toList.getLast?.all isPrinted = true)
    (h : smallWords (name.toList.splitOnP fun c => !isSlugChar c) = words) :
    slugWords name = words := by
  rw [slugWords, trim_of_printed hhead hlast, h]

/-- What a slug makes of a text behind a character that it keeps: the part up to the next one that
it leaves out, and then every word behind a hyphen. -/
theorem slugFrom_started {text part : List Char} {parts : List (List Char)}
    (h : text.splitOnP (fun c => !isSlugChar c) = part :: parts) :
    slugFrom true false text = part.flatMap lowerChars ++ (smallWords parts).flatMap ('-' :: ·)
      ∧ slugFrom true true text = (smallWords (part :: parts)).flatMap ('-' :: ·) := by
  induction text generalizing part parts with
  | nil =>
      rw [List.splitOnP_nil] at h
      obtain ⟨rfl, rfl⟩ := List.cons.inj h
      exact ⟨rfl, rfl⟩
  | cons c rest ih =>
      obtain ⟨part', parts', hrest⟩ := List.exists_cons_of_ne_nil
        (List.splitOnP_ne_nil (fun c => !isSlugChar c) rest)
      obtain ⟨hkept, hpending⟩ := ih hrest
      rw [List.splitOnP_cons_eq_if_modifyHead, hrest, List.modifyHead_cons] at h
      rw [slugFrom, slugFrom]
      cases hc : isSlugChar c with
      | true =>
          rw [hc] at h
          obtain ⟨rfl, rfl⟩ := List.cons.inj h
          have hword : lowerChars c ++ slugFrom true false rest
              = (c :: part').flatMap lowerChars ++ (smallWords parts').flatMap ('-' :: ·) := by
            rw [hkept, List.flatMap_cons, List.append_assoc]
          exact ⟨hword, congrArg ('-' :: ·) hword⟩
      | false =>
          rw [hc] at h
          obtain ⟨rfl, rfl⟩ := List.cons.inj h
          exact ⟨hpending, hpending⟩

/-- In front of the first word there is no hyphen. -/
theorem slugFrom_not_started (pending : Bool) (text : List Char) :
    slugFrom true true text = [] ∧ slugFrom false pending text = []
      ∨ slugFrom true true text = '-' :: slugFrom false pending text
        ∧ slugFrom false pending text ≠ [] := by
  induction text generalizing pending with
  | nil => exact .inl ⟨rfl, rfl⟩
  | cons c rest ih =>
      rw [slugFrom, slugFrom]
      cases isSlugChar c with
      | true =>
          rw [Bool.and_false]
          exact .inr ⟨rfl, List.append_ne_nil_of_left_ne_nil (lowerChars_ne_nil c) _⟩
      | false => exact ih true

/-- The parts of a text between characters with a property have none of these. -/
theorem of_mem_splitOnP {p : Char → Bool} {text part : List Char} (h : part ∈ text.splitOnP p) :
    ∀ c ∈ part, p c = false := by
  induction text generalizing part with
  | nil =>
      rw [List.splitOnP_nil, List.mem_singleton] at h
      rw [h]
      exact List.forall_mem_nil _
  | cons c rest ih =>
      rw [List.splitOnP_cons_eq_if_modifyHead] at h
      cases hc : p c with
      | true =>
          rw [hc] at h
          rcases List.mem_cons.1 h with rfl | h
          · exact List.forall_mem_nil _
          · exact ih h
      | false =>
          rw [hc] at h
          obtain ⟨first, parts, hrest⟩ := List.exists_cons_of_ne_nil (List.splitOnP_ne_nil p rest)
          rw [hrest] at ih h
          rcases List.mem_cons.1 h with rfl | h
          · exact List.forall_mem_cons.2 ⟨hc, ih List.mem_cons_self⟩
          · exact ih (List.mem_cons_of_mem _ h)

/-- No word of a name has a hyphen. -/
theorem hyphen_not_mem_of_mem_slugWords {name : String} :
    ∀ word ∈ slugWords name, '-' ∉ word := by
  intro word hword hdash
  obtain ⟨part, hpart, rfl⟩ := List.mem_map.1 hword
  obtain ⟨c, hc, hdash⟩ := List.mem_flatMap.1 hdash
  obtain rfl := eq_of_mem_lowerChars (by decide) hdash
  exact absurd (of_mem_splitOnP (List.mem_of_mem_filter hpart) _ hc) (by decide)

/-- Words without hyphens can be read off their text with a hyphen in front of each. -/
theorem flatMap_hyphen_injective {l m : List (List Char)} (hl : ∀ word ∈ l, '-' ∉ word)
    (hm : ∀ word ∈ m, '-' ∉ word) (h : l.flatMap ('-' :: ·) = m.flatMap ('-' :: ·)) : l = m := by
  have hfirst : ∀ {word : List Char}, '-' ∉ word → ∀ rest : List (List Char),
      (word ++ rest.flatMap ('-' :: ·)).takeWhile (· != '-') = word := by
    intro word hword rest
    have hall : ∀ c ∈ word, (c != '-') = true := fun c hc => bne_iff_ne.2 fun h => hword (h ▸ hc)
    rw [List.takeWhile_append_of_pos hall]
    cases rest with
    | nil => exact List.append_nil _
    | cons _ _ => exact List.append_nil _
  induction l generalizing m with
  | nil =>
      cases m with
      | nil => rfl
      | cons _ _ => exact nomatch h
  | cons word l ih =>
      cases m with
      | nil => exact nomatch h
      | cons word' m =>
          obtain ⟨hword, hrest⟩ := List.forall_mem_cons.1 hl
          obtain ⟨hword', hrest'⟩ := List.forall_mem_cons.1 hm
          have htail : word ++ l.flatMap ('-' :: ·) = word' ++ m.flatMap ('-' :: ·) :=
            (List.cons.inj h).2
          have heq := congrArg (List.takeWhile (· != '-')) htail
          rw [hfirst hword, hfirst hword'] at heq
          obtain rfl := heq
          exact congrArg (word :: ·) (ih hrest hrest' (List.append_cancel_left htail))

/-- Names have one slug if they have the same words. -/
theorem slugify_eq_iff {a b : String} : slugify a = slugify b ↔ slugWords a = slugWords b := by
  have hwords : ∀ name : String,
      slugFrom true true (trim name.toList) = (slugWords name).flatMap ('-' :: ·) := by
    intro name
    obtain ⟨part, parts, hparts⟩ := List.exists_cons_of_ne_nil
      (List.splitOnP_ne_nil (fun c => !isSlugChar c) (trim name.toList))
    rw [slugWords, hparts]
    exact (slugFrom_started hparts).2
  have hslugs : slug a.toList = slug b.toList
      ↔ slugFrom true true (trim a.toList) = slugFrom true true (trim b.toList) := by
    rw [slug, slug]
    rcases slugFrom_not_started false (trim a.toList) with ⟨ha, ha'⟩ | ⟨ha, ha'⟩
    · rcases slugFrom_not_started false (trim b.toList) with ⟨hb, hb'⟩ | ⟨hb, hb'⟩
      · rw [ha, ha', hb, hb']
      · rw [ha, ha', hb]
        exact iff_of_false hb'.symm (List.cons_ne_nil _ _).symm
    · rcases slugFrom_not_started false (trim b.toList) with ⟨hb, hb'⟩ | ⟨hb, hb'⟩
      · rw [ha, hb, hb']
        exact iff_of_false ha' (List.cons_ne_nil _ _)
      · rw [ha, hb, List.cons_inj_right]
  rw [slugify, slugify, String.ofList_inj, hslugs, hwords, hwords]
  refine ⟨?_, fun h => by rw [h]⟩
  exact flatMap_hyphen_injective hyphen_not_mem_of_mem_slugWords hyphen_not_mem_of_mem_slugWords

/-! ## Ids of services -/

/-- Two texts that are split at their first colons are the same only if their parts are. -/
theorem append_colon_inj {a b x y : String} (ha : ':' ∉ a.toList) (hb : ':' ∉ b.toList)
    (h : a ++ ":" ++ x = b ++ ":" ++ y) : a = b ∧ x = y := by
  have hfront : ∀ {a : String}, ':' ∉ a.toList → ∀ x : String,
      (a ++ ":" ++ x).toList.takeWhile (· != ':') = a.toList := by
    intro a ha x
    have hall : ∀ c ∈ a.toList, (c != ':') = true := by
      intro c hc
      rw [bne_iff_ne]
      rintro rfl
      exact ha hc
    rw [String.toList_append, String.toList_append, List.append_assoc,
      List.takeWhile_append_of_pos hall]
    exact List.append_nil _
  have hab : a = b := by
    have hlist := congrArg (fun s : String => s.toList.takeWhile (· != ':')) h
    rw [hfront ha, hfront hb] at hlist
    exact String.toList_inj.1 hlist
  subst hab
  exact ⟨rfl, (String.append_right_inj _).1 h⟩

/-- What the ids of a part start with. -/
def Part.label : Part → String
  | service => "service"
  | repository => "repository"
  | schema => "schema"
  | api => "api"
  | endpoint => "endpoint"
  | integration => "integration"
  | resource => "infra"

/-- There is no colon in the label of a part. -/
theorem Part.colon_not_mem_label (part : Part) : ':' ∉ part.label.toList := by
  cases part <;> decide

/-- The parts of a report have different labels. -/
theorem Part.label_inj {part part' : Part} (h : part.label = part'.label) : part = part' := by
  revert h
  cases part <;> cases part' <;> decide

/-- A numbered id is the base with some number behind it. -/
theorem exists_numbered (used : List String) (base : String) (fuel n : Nat) :
    ∃ k : Nat, numbered used base fuel n = base ++ "-" ++ toString k := by
  induction fuel generalizing n with
  | zero => exact ⟨n, rfl⟩
  | succ fuel ih =>
      rw [numbered]
      split
      · exact ih (n + 1)
      · exact ⟨n, rfl⟩

/-- The id of a schema starts with the slug of its service and a point. -/
theorem exists_schemaId (slug : String) (used : List String) (m : Model) :
    ∃ rest, schemaId slug used m = "schema:" ++ (slug ++ "." ++ rest) := by
  rw [schemaId]
  dsimp only
  split
  · split
    · obtain ⟨k, hk⟩ := exists_numbered used
        ("schema:" ++ slug ++ "." ++ slugify m.file ++ "." ++ slugify m.name) used.length 2
      refine ⟨slugify m.file ++ "." ++ slugify m.name ++ "-" ++ toString k, hk.trans ?_⟩
      simp only [String.append_assoc]
    · refine ⟨slugify m.file ++ "." ++ slugify m.name, ?_⟩
      simp only [String.append_assoc]
  · refine ⟨slugify m.name, ?_⟩
    simp only [String.append_assoc]

/-- The id of a model starts with that of the service. -/
theorem exists_schemaIds {slug : String} {used : List String} {models : List Model} {m : Model}
    {id : String} (h : (m, id) ∈ schemaIds slug used models) :
    ∃ rest, id = "schema:" ++ (slug ++ "." ++ rest) := by
  induction models generalizing used with
  | nil => exact nomatch h
  | cons x models ih =>
      rw [schemaIds] at h
      rcases List.mem_cons.1 h with h | h
      · obtain ⟨rfl, rfl⟩ := Prod.mk.injEq .. ▸ h
        exact exists_schemaId slug used m
      · exact ih h

/-- The id of an endpoint starts with the slug of its service and a colon. -/
theorem exists_endpointIds {slug : String} {seen : List String}
    {endpoints : List CodeAtlas.Endpoint} {e : CodeAtlas.Endpoint} {id : String}
    (h : (e, id) ∈ endpointIds slug seen endpoints) :
    ∃ rest, id = "endpoint:" ++ (slug ++ ":" ++ rest) := by
  induction endpoints generalizing seen with
  | nil => exact nomatch h
  | cons x endpoints ih =>
      rw [endpointIds] at h
      split at h
      · exact ih h
      · rcases List.mem_cons.1 h with h | h
        · obtain ⟨rfl, rfl⟩ := Prod.mk.injEq .. ▸ h
          refine ⟨slugify (e.method ++ " " ++ e.path), ?_⟩
          rw [endpointId]
          simp only [String.append_assoc]
        · exact ih h

/-- What may follow the label of a part in an id, for a service with a slug. -/
def Part.Follows (slug rest : String) : Part → Prop
  | service | repository | api => rest = slug
  | schema => ∃ x, rest = slug ++ "." ++ x
  | endpoint => ∃ x, rest = slug ++ ":" ++ x
  | integration | resource => True

namespace Occurs

variable {name name' : String} {url? url?' : Option String} {a a' : Analysis} {part part' : Part}
  {id : String} {s s' : Step}

/-- An id starts with the label of the part that it is for. -/
theorem exists_id_eq (h : Occurs name url? a part id s) :
    ∃ rest, id = part.label ++ ":" ++ rest ∧ part.Follows (slugify name) rest := by
  cases h with
  | service | count | repository => exact ⟨_, rfl, rfl⟩
  | model hm =>
      obtain ⟨x, rfl⟩ := exists_schemaIds hm
      exact ⟨_, rfl, x, rfl⟩
  | api => exact ⟨_, rfl, rfl⟩
  | endpoint he =>
      obtain ⟨x, rfl⟩ := exists_endpointIds he
      exact ⟨_, rfl, x, rfl⟩
  | integration | resource => exact ⟨_, rfl, trivial⟩

/-- What an id is for does not depend on the service. -/
theorem part_eq (h : Occurs name url? a part id s) (h' : Occurs name' url?' a' part' id s') :
    part = part' := by
  obtain ⟨rest, rfl, -⟩ := h.exists_id_eq
  obtain ⟨rest', heq, -⟩ := h'.exists_id_eq
  exact Part.label_inj (append_colon_inj part.colon_not_mem_label part'.colon_not_mem_label heq).1

/-- Services with different slugs share no ids but those of integrations and resources, and those of
schemas in whose names the slug of either service is followed by a point. -/
theorem shared (h : Occurs name url? a part id s) (h' : Occurs name' url?' a' part id s')
    (hslug : slugify name ≠ slugify name') :
    part = .integration ∨ part = .resource
      ∨ part = .schema ∧ ∃ x y, id = "schema:" ++ (slugify name ++ "." ++ x)
        ∧ id = "schema:" ++ (slugify name' ++ "." ++ y) := by
  obtain ⟨rest, rfl, hrest⟩ := h.exists_id_eq
  obtain ⟨rest', heq, hrest'⟩ := h'.exists_id_eq
  obtain rfl : rest = rest' := (String.append_right_inj _).1 heq
  cases part with
  | integration => exact .inl rfl
  | resource => exact .inr (.inl rfl)
  | schema =>
      obtain ⟨x, rfl⟩ := hrest
      obtain ⟨y, hy⟩ := hrest'
      exact .inr (.inr ⟨rfl, x, y, rfl, congrArg ("schema:" ++ ·) hy⟩)
  | service | repository | api => exact absurd (hrest.symm.trans hrest') hslug
  | endpoint =>
      obtain ⟨x, rfl⟩ := hrest
      obtain ⟨y, hy⟩ := hrest'
      exact absurd (append_colon_inj (colon_not_mem_slugify _) (colon_not_mem_slugify _) hy).1 hslug

end Occurs

/-! ## Ids of integrations -/

/-- Whether a slug keeps a character as it is. -/
def IsPlain (c : Char) : Prop := isSlugChar c = true ∧ lowerChars c = [c]

/-- A slug starts with the plain characters that the text starts with. -/
theorem slugFrom_plain {front : List Char} (h : ∀ c ∈ front, IsPlain c) (started : Bool)
    (rest : List Char) :
    slugFrom started false (front ++ rest)
      = front ++ slugFrom (started || !front.isEmpty) false rest := by
  induction front generalizing started with
  | nil => rw [List.nil_append, List.nil_append, List.isEmpty_nil, Bool.not_true, Bool.or_false]
  | cons c front ih =>
      obtain ⟨⟨hkept, hlower⟩, hfront⟩ := List.forall_mem_cons.1 h
      rw [List.cons_append, slugFrom, if_pos hkept, hlower, ih hfront]
      cases started <;> rfl

/-- After what has been left out a hyphen comes first. -/
theorem slugFrom_pending (text : List Char) :
    slugFrom true true text = [] ∨ ∃ rest, slugFrom true true text = '-' :: rest := by
  induction text with
  | nil => exact .inl rfl
  | cons c rest ih =>
      rw [slugFrom]
      split
      · exact .inr ⟨_, rfl⟩
      · exact ih

/-- The plain characters in front of a hyphen are what a slug has in front of its first one. -/
theorem takeWhile_slug {front rest : List Char} (hne : front ≠ [])
    (h : ∀ c ∈ front, IsPlain c ∧ c ≠ '-' ∧ isBlank c = false) :
    (slug (front ++ '-' :: rest)).takeWhile (· != '-') = front := by
  -- white space behind the hyphen may go, the hyphen itself does not
  have htrim : ∃ rest', trim (front ++ '-' :: rest) = front ++ '-' :: rest' := by
    obtain ⟨b, hb, hblank, hsolid⟩ := exists_trimEnd_append rest
    have hdash : isBlank '-' = false := isBlank_of_printed (by decide) (by decide)
    have hstart : trimStart (front ++ '-' :: rest) = front ++ '-' :: rest := by
      cases front with
      | nil => exact absurd rfl hne
      | cons c front => exact trimStart_cons (h c List.mem_cons_self).2.2 _
    refine ⟨trimEnd rest, ?_⟩
    rw [trim, hstart]
    conv_lhs => rw [hb, ← List.cons_append, ← List.append_assoc]
    rw [trimEnd_append_blank _ hblank, trimEnd_of_solid (solid_append_cons front hdash hsolid)]
  obtain ⟨rest', htrim⟩ := htrim
  have hstarted : (false || !front.isEmpty) = true := by
    cases front with
    | nil => exact absurd rfl hne
    | cons c front => rfl
  have hslug : slug (front ++ '-' :: rest) = front ++ slugFrom true true rest' := by
    rw [slug, htrim, slugFrom_plain fun c hc => (h c hc).1, hstarted, slugFrom,
      if_neg (by decide)]
  have hfront : ∀ c ∈ front, (c != '-') = true := fun c hc => bne_iff_ne.2 (h c hc).2.1
  rw [hslug, List.takeWhile_append_of_pos hfront]
  rcases slugFrom_pending rest' with hend | ⟨t, hend⟩
  · rw [hend]
    exact List.append_nil _
  · rw [hend]
    exact List.append_nil _

/-- The id of an integration tells the category. -/
theorem category_eq {c c' : EffectCategory} {target target' : String}
    (h : entityId .integration (c.label ++ "-" ++ target)
      = entityId .integration (c'.label ++ "-" ++ target')) : c.label = c'.label := by
  have hplain : ∀ c : EffectCategory, ∀ x ∈ c.label.toList,
      IsPlain x ∧ x ≠ '-' ∧ isBlank x = false := by
    intro c x hx
    have hletters : (c.label.toList.all fun x => isSlugChar x && lowerChars x == [x] && x != '-'
        && 33 ≤ x.toNat && x.toNat < 127) = true := by
      cases c <;> decide
    have hx := List.all_eq_true.1 hletters x hx
    simp only [Bool.and_eq_true, beq_iff_eq, bne_iff_ne, decide_eq_true_iff] at hx
    obtain ⟨⟨⟨⟨hslug, hlower⟩, hdash⟩, hlow⟩, hhigh⟩ := hx
    exact ⟨⟨hslug, hlower⟩, hdash, isBlank_of_printed hlow hhigh⟩
  have hne : ∀ c : EffectCategory, c.label.toList ≠ [] := by
    intro c
    cases c <;> decide
  have hlist : ∀ (c : EffectCategory) (target : String),
      (slugify (c.label ++ "-" ++ target)).toList.takeWhile (· != '-') = c.label.toList := by
    intro c target
    rw [slugify, String.toList_ofList, String.toList_append, String.toList_append,
      List.append_assoc]
    exact takeWhile_slug (hne c) (hplain c)
  have hslug : slugify (c.label ++ "-" ++ target) = slugify (c'.label ++ "-" ++ target') :=
    (String.append_right_inj _).1 h
  rw [← String.toList_inj, ← hlist c target, ← hlist c' target', hslug]

end CodeAtlas.Graph
