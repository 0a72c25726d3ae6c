import CodeAtlas.Proofs.Php.Arrays
import Mathlib.Data.List.Basic

/-!
# Rules of an array

The entries of an array that have a literal for a key name entities, and the entries of their arrays
the methods that have rules. The walk over the array remembers the last entity, so it finds what is
declared, and under an entry without such a key what belongs to the entity in front of it.
-/

namespace CodeAtlas.Source.Php

open Text
open Unicode (isBlank)

/-! ## Entries and methods -/

/-- An entry of an array and its offset. -/
structure Entry where
  offset : Nat
  lead : Lead
  value : Value

/-- The entries of an array whose text stands at an offset, in their order. -/
def Items.entries (offset : Nat) : Items → List Entry
  | .nil _ => []
  | .last lead value _ => [⟨offset, lead, value⟩]
  | .cons lead value behind rest =>
      ⟨offset, lead, value⟩ ::
        rest.entries (offset + byteLength (lead.text ++ (value.text ++ (behind.text ++ [',']))))

/-- The entries of the array that is the value of an entry. -/
def Entry.inner (e : Entry) : List Entry :=
  match e.value with
  | .array opening items => items.entries (e.offset + byteLength (e.lead.text ++ opening.text))
  | _ => []

/-- The method that an entry has for a key, with the offset of the key. What is a key is up to
`key?`. -/
def Entry.method? (key? : Lead → Option Literal) (e : Entry) : Option (String × Nat) :=
  (key? e.lead).bind fun l =>
    if httpMethods.contains (asciiUppered l.value)
      then some (asciiUppered l.value, e.lead.keyOffset e.offset)
    else none

/-- The methods that stand directly in the array of an entry. -/
def Entry.methods (key? : Lead → Option Literal) (e : Entry) : List (String × Nat) :=
  e.inner.filterMap (Entry.method? key?)

/-- The rules for methods of an entity, if there is one. -/
def rulesFor (entity? : Option String) (methods : List (String × Nat)) : List RuleKey :=
  match entity? with
  | none => []
  | some entity => methods.map fun (method, offset) => { entity, method, offset }

/-- The rules that entries declare: those for the methods in the arrays of entities. -/
def declaredRules (entries : List Entry) : List RuleKey :=
  entries.flatMap fun e => rulesFor (e.lead.key?.map Literal.value) (e.methods Lead.key?)

/-- The entity whose rules are read behind the key of an entry: without a key that is seen it is
still the one in front. -/
def Entry.entityFrom? (e : Entry) (entity? : Option String) : Option String :=
  (e.lead.seen?.map Literal.value).or entity?

/-- The rules that are found in entries one after the other. -/
def walkedRules (entity? : Option String) : List Entry → List RuleKey
  | [] => []
  | e :: entries =>
      rulesFor (e.entityFrom? entity?) (e.methods Lead.seen?)
        ++ walkedRules (e.entityFrom? entity?) entries

/-! ## What the walk finds -/

/-- What is found in entries one after the other, each at the place behind those in front of it. -/
def keysAlong (keys : RulePlace → Entry → List RuleKey) (next : RulePlace → Entry → RulePlace) :
    RulePlace → List Entry → List RuleKey
  | _, [] => []
  | p, e :: entries => keys p e ++ keysAlong keys next (next p e) entries

/-- The walk over an array goes entry by entry. -/
theorem Items.reads_entries (keys : RulePlace → Entry → List RuleKey)
    (next : RulePlace → Entry → RulePlace) {inv : RulePlace → Prop}
    (hinv : ∀ {p} e, inv p → inv (next p e))
    (hentry : ∀ {p} (e : Entry) {rest}, inv p → arrowFollows rest = false →
      Reads p e.offset (e.lead.text ++ e.value.text) rest (keys p e) (next p e))
    (items : Items) {p : RulePlace} (offset : Nat) {rest : List Char} (hp : inv p)
    (hrest : arrowFollows rest = false) :
    Reads p offset items.text rest (keysAlong keys next p (items.entries offset))
      ((items.entries offset).foldl next p) := by
  cases items with
  | nil gap => exact gap.reads
  | last lead value behind =>
      have hfirst := hentry ⟨offset, lead, value⟩ hp (behind.not_arrowFollows hrest)
      rw [Items.text, ← List.append_assoc, Items.entries, keysAlong, keysAlong, List.append_nil]
      exact hfirst.behind behind.reads
  | cons lead value behind more =>
      -- a comma is no arrow, so the value in front of it is no key
      have hcomma : arrowFollows ((behind.text ++ ([','] ++ more.text)) ++ rest) = false := by
        rw [List.append_assoc, List.append_assoc]
        exact behind.not_arrowFollows (arrowFollows_comma _)
      have hfirst := hentry ⟨offset, lead, value⟩ hp hcomma
      have hmore := more.reads_entries keys next hinv hentry
        (offset + byteLength (lead.text ++ (value.text ++ (behind.text ++ [',']))))
          (hinv ⟨offset, lead, value⟩ hp) hrest
      have hnext : byteLength (lead.text ++ (value.text ++ (behind.text ++ [','])))
          = byteLength (lead.text ++ value.text) + (byteLength behind.text + byteLength [',']) := by
        simp only [byteLength_append, Nat.add_assoc]
      rw [Items.text, ← List.append_assoc, Items.entries, keysAlong, List.foldl_cons]
      rw [hnext, ← Nat.add_assoc, ← Nat.add_assoc] at hmore ⊢
      exact hfirst.append (behind.reads.silent (Reads.comma.silent hmore))

section
variable {p : RulePlace} {offset : Nat} {rest : List Char}

/-- No methods give no rules. -/
theorem rulesFor_nil (entity? : Option String) : rulesFor entity? [] = [] := by
  cases entity? <;> rfl

/-- The rules of two lists of methods are those of the one and those of the other. -/
theorem rulesFor_append (entity? : Option String) (a b : List (String × Nat)) :
    rulesFor entity? (a ++ b) = rulesFor entity? a ++ rulesFor entity? b := by
  cases entity? with
  | none => rfl
  | some entity => exact List.map_append

/-- A key one level down is a rule of the entity in front, if it is a method. -/
theorem RulePlace.toList_key? (hdepth : p.depth = 1) (key : String) (offset : Nat) :
    (p.key? key offset).toList = rulesFor p.entity?
      (if httpMethods.contains (asciiUppered key) then some (asciiUppered key, offset)
        else none).toList := by
  rw [RulePlace.key?, hdepth]
  cases httpMethods.contains (asciiUppered key) <;> cases p.entity? <;> rfl

/-- In the array of an entity the keys that are methods are found. -/
theorem Entry.reads_method (e : Entry) (hdepth : p.depth = 1) (hrest : arrowFollows rest = false) :
    Reads p e.offset (e.lead.text ++ e.value.text) rest
      (rulesFor p.entity? (e.method? Lead.seen?).toList) p := by
  have hvalue : ∀ {offset}, Reads p offset e.value.text rest [] p := e.value.reads (by omega) hrest
  have hkey : Reads p e.offset e.lead.text (e.value.text ++ rest) _ _ := e.lead.reads
  cases hseen : e.lead.seen? with
  | none =>
      rw [hseen] at hkey
      have hnone : e.method? Lead.seen? = none := by simp [Entry.method?, hseen]
      rw [hnone, Option.toList_none, rulesFor_nil]
      exact hkey.silent hvalue
  | some l =>
      have hafter : p.afterKey l.value = p := p.afterKey_of_ne (by omega) l.value
      simp only [hseen, Option.elim_some, hafter, p.toList_key? hdepth] at hkey
      have hsome : e.method? Lead.seen? = if httpMethods.contains (asciiUppered l.value)
          then some (asciiUppered l.value, e.lead.keyOffset e.offset) else none := by
            simp [Entry.method?, hseen]
      rw [hsome]
      exact hkey.behind hvalue

/-- Entries one level down give the rules of their methods. -/
theorem Items.reads_methods (items : Items) (hdepth : p.depth = 1)
    (hrest : arrowFollows rest = false) :
    Reads p offset items.text rest
      (rulesFor p.entity? ((items.entries offset).filterMap (Entry.method? Lead.seen?))) p := by
  have h := items.reads_entries (fun p e => rulesFor p.entity? (e.method? Lead.seen?).toList)
    (fun p _ => p)
    (fun _ hp => hp) (fun e _ hp hrest => e.reads_method hp hrest) offset hdepth hrest
  have hkeys : ∀ entries : List Entry,
      keysAlong (fun p e => rulesFor p.entity? (e.method? Lead.seen?).toList)
      (fun p _ => p) p entries
        = rulesFor p.entity? (entries.filterMap (Entry.method? Lead.seen?)) := by
    intro entries
    induction entries with
    | nil => rw [keysAlong, List.filterMap_nil, rulesFor_nil]
    | cons e entries ih =>
        rw [keysAlong, ih, ← rulesFor_append, List.filterMap_cons]
        cases e.method? Lead.seen? <;> rfl
  have hplace : ∀ entries : List Entry, entries.foldl (fun p _ => p) p = p := by
    intro entries
    induction entries with
    | nil => rfl
    | cons e entries ih => exact ih
  rwa [hkeys, hplace] at h

/-- An entry of the outermost array gives the methods in its array. -/
theorem Entry.reads_rules (e : Entry) (hdepth : p.depth = 0) (hrest : arrowFollows rest = false) :
    Reads p e.offset (e.lead.text ++ e.value.text) rest
      (rulesFor (e.entityFrom? p.entity?) (e.methods Lead.seen?))
      { p with entity? := e.entityFrom? p.entity? } := by
  -- the lead, a key and an arrow or nothing, only sets the entity
  have hlead : Reads p e.offset e.lead.text (e.value.text ++ rest) []
      { p with entity? := e.entityFrom? p.entity? } := by
    have h : Reads p e.offset e.lead.text (e.value.text ++ rest) _ _ := e.lead.reads
    cases hseen : e.lead.seen? with
    | none =>
        rw [hseen] at h
        rw [Entry.entityFrom?, hseen]
        exact h
    | some l =>
        have hkey := p.key?_of_ne (by omega) l.value (e.lead.keyOffset e.offset)
        have hafter : p.afterKey l.value = { p with entity? := some l.value } := if_pos hdepth
        simp only [hseen, Option.elim_some, hkey, hafter] at h
        rw [Entry.entityFrom?, hseen]
        exact h
  -- the value adds the rules, and only an array has any
  refine hlead.silent ?_
  generalize e.entityFrom? p.entity? = entity?
  obtain ⟨offset, lead, value⟩ := e
  cases value with
  | literal l =>
      rw [Entry.methods, Entry.inner, List.filterMap_nil, rulesFor_nil]
      exact l.reads hrest
  | word w =>
      rw [Entry.methods, Entry.inner, List.filterMap_nil, rulesFor_nil]
      exact w.reads
  | array opening items =>
      have hinside : RulePlace.depth (RulePlace.inside { p with entity? }) = 1 := by
        show p.depth + 1 = 1
        omega
      have hmethods : Entry.methods Lead.seen? ⟨offset, lead, .array opening items⟩
          = (items.entries (offset + byteLength lead.text + byteLength opening.text)).filterMap
            (Entry.method? Lead.seen?) := by
        rw [Nat.add_assoc, ← byteLength_append]
        rfl
      rw [hmethods]
      exact opening.reads.silent
        ((items.reads_methods hinside (arrowFollows_closer opening rest)).behind
          opening.reads_closer)

/-- What the walk over an array finds. -/
theorem Items.ruleKeys_text (items : Items) (base : Nat) :
    ruleKeys items.text base = walkedRules none (items.entries base) := by
  have h :=
    items.reads_entries (fun p e => rulesFor (e.entityFrom? p.entity?) (e.methods Lead.seen?))
    (fun p e => { p with entity? := e.entityFrom? p.entity? }) (fun _ hp => hp)
    (fun e _ hp hrest => e.reads_rules hp hrest) base (rfl : RulePlace.depth {} = 0)
      arrowFollows_nil
  have hkeys : ∀ (entries : List Entry) (p : RulePlace),
      keysAlong (fun p e => rulesFor (e.entityFrom? p.entity?) (e.methods Lead.seen?))
        (fun p e => { p with entity? := e.entityFrom? p.entity? }) p entries
          = walkedRules p.entity? entries := by
    intro entries
    induction entries with
    | nil => exact fun _ => rfl
    | cons e entries ih =>
        intro p
        rw [keysAlong, ih, walkedRules]
  rw [Reads, List.append_nil, ruleKeysFrom_nil, List.append_nil, hkeys] at h
  exact h

end

/-! ## What is declared -/

/-- No comment hides the key of the entry, and none a key in its array. -/
def Entry.Shown (e : Entry) : Prop :=
  e.lead.seen? = e.lead.key? ∧ ∀ i ∈ e.inner, i.lead.seen? = i.lead.key?

section
variable {entity? : Option String} {entries : List Entry}

/-- An entry all of whose keys are seen has the methods that it is declared with. -/
theorem Entry.Shown.methods_eq {e : Entry} (h : e.Shown) :
    e.methods Lead.seen? = e.methods Lead.key? := by
  refine List.filterMap_congr fun i hi => ?_
  rw [Entry.method?, Entry.method?, h.2 i hi]

/-- There are no rules if there is no entity, or no method. -/
theorem rulesFor_eq_nil_iff {methods : List (String × Nat)} :
    rulesFor entity? methods = [] ↔ entity? = none ∨ methods = [] := by
  cases entity? <;> simp [rulesFor]

/-- The rules declared by entries are those of the first one and those of the others. -/
theorem declaredRules_cons (e : Entry) (entries : List Entry) : declaredRules (e :: entries) =
    rulesFor (e.lead.key?.map Literal.value) (e.methods Lead.key?) ++ declaredRules entries :=
  List.flatMap_cons

/-- The walk finds no less than what is declared. -/
theorem length_declaredRules_le (hshown : ∀ e ∈ entries, e.Shown) (entity? : Option String) :
    (declaredRules entries).length ≤ (walkedRules entity? entries).length := by
  induction entries generalizing entity? with
  | nil => exact Nat.le_refl 0
  | cons e entries ih =>
      obtain ⟨he, hrest⟩ := List.forall_mem_cons.1 hshown
      have hle := ih hrest (e.entityFrom? entity?)
      rw [declaredRules_cons, walkedRules, List.length_append, List.length_append, he.methods_eq]
      refine Nat.add_le_add ?_ hle
      rw [Entry.entityFrom?, he.1]
      cases e.lead.key? with
      | none => exact Nat.zero_le _
      | some l => exact Nat.le_refl _

/-- The walk finds what is declared and no more if no entry without a key has methods that are taken
for those of the entity in front. -/
theorem walkedRules_eq_declaredRules_iff (hshown : ∀ e ∈ entries, e.Shown) :
    walkedRules entity? entries = declaredRules entries ↔
      ∀ front e back, entries = front ++ e :: back → e.lead.key? = none →
        (entity? ≠ none ∨ ∃ f ∈ front, f.lead.key? ≠ none) → e.methods Lead.key? = [] := by
  induction entries generalizing entity? with
  | nil => simp [walkedRules, declaredRules]
  | cons e entries ih =>
      obtain ⟨he, hrest⟩ := List.forall_mem_cons.1 hshown
      rw [walkedRules, declaredRules_cons, he.methods_eq, Entry.entityFrom?, he.1]
      cases hkey : e.lead.key? with
      | some l =>
          show rulesFor (some l.value) _ ++ walkedRules (some l.value) entries
            = rulesFor (some l.value) _ ++ declaredRules entries ↔ _
          rw [List.append_cancel_left_eq, ih hrest]
          constructor
          · intro h front f back hsplit hnone _
            cases front with
            | nil =>
                obtain ⟨rfl, -⟩ := List.cons.inj hsplit
                cases hkey.symm.trans hnone
            | cons g front =>
                obtain ⟨-, rfl⟩ := List.cons.inj hsplit
                exact h front f back rfl hnone (.inl (Option.some_ne_none _))
          · intro h front f back hsplit hnone _
            have hfront : ∃ g ∈ e :: front, g.lead.key? ≠ none :=
              ⟨e, List.mem_cons_self, by rw [hkey]; exact Option.some_ne_none l⟩
            exact h (e :: front) f back (by rw [hsplit]; rfl) hnone (.inr hfront)
      | none =>
          show rulesFor entity? _ ++ walkedRules entity? entries = declaredRules entries ↔ _
          have hle := length_declaredRules_le hrest entity?
          -- nothing is declared here, so whatever is found is too much
          have happend : rulesFor entity? (e.methods Lead.key?) ++ walkedRules entity? entries
              = declaredRules entries
              ↔ rulesFor entity? (e.methods Lead.key?) = []
                ∧ walkedRules entity? entries = declaredRules entries := by
            constructor
            · intro heq
              have hlength := congrArg List.length heq
              rw [List.length_append] at hlength
              have hnil :=
                List.length_eq_zero_iff.1
                  (show (rulesFor entity? (e.methods Lead.key?)).length = 0 by omega)
              rw [hnil] at heq
              exact ⟨hnil, heq⟩
            · rintro ⟨hnil, heq⟩
              rw [hnil, heq]
              rfl
          rw [happend, ih hrest, rulesFor_eq_nil_iff]
          constructor
          · rintro ⟨hfirst, h⟩ front f back hsplit hnone hentity
            cases front with
            | nil =>
                obtain ⟨rfl, -⟩ := List.cons.inj hsplit
                exact hfirst.resolve_left (hentity.resolve_right (by simp))
            | cons g front =>
                obtain ⟨rfl, rfl⟩ := List.cons.inj hsplit
                refine h front f back rfl hnone (hentity.imp_right ?_)
                rintro ⟨d, hd, hne⟩
                rcases List.mem_cons.1 hd with rfl | hd
                · exact absurd hkey hne
                · exact ⟨d, hd, hne⟩
          · intro h
            constructor
            · rw [or_iff_not_imp_left]
              exact fun hentity => h [] e entries rfl hkey (.inl hentity)
            · intro front f back hsplit hnone hentity
              refine h (e :: front) f back (by rw [hsplit]; rfl) hnone (hentity.imp_right ?_)
              exact fun ⟨g, hg, hne⟩ => ⟨g, List.mem_cons_of_mem e hg, hne⟩

end

/-! ## Where rules stand -/

/-- An entry stands at its offset in the text of the array. -/
theorem Items.exists_text_of_mem (items : Items) (offset : Nat) {e : Entry}
    (h : e ∈ items.entries offset) :
    ∃ front back, items.text = front ++ (e.lead.text ++ (e.value.text ++ back))
      ∧ e.offset = offset + byteLength front := by
  match items with
  | .nil _ => cases h
  | .last lead value behind =>
      obtain rfl := List.mem_singleton.1 h
      exact ⟨[], behind.text, rfl, rfl⟩
  | .cons lead value behind more =>
      rcases List.mem_cons.1 h with rfl | h
      · exact ⟨[], behind.text ++ ([','] ++ more.text), rfl, rfl⟩
      · obtain ⟨front, back, htext, hoffset⟩ := more.exists_text_of_mem _ h
        refine ⟨(lead.text ++ (value.text ++ (behind.text ++ [',']))) ++ front, back, ?_, ?_⟩
        · rw [Items.text, htext]
          simp only [List.append_assoc]
        · rw [hoffset, Nat.add_assoc, ← byteLength_append]

/-- A key that is seen stands behind the gap of its lead. -/
theorem Lead.exists_text_of_seen? {lead : Lead} {l : Literal} (h : lead.seen? = some l) :
    ∃ back, lead.text = lead.before.text ++ (l.text ++ back) := by
  obtain ⟨before, binding?⟩ := lead
  rw [Lead.seen?] at h
  split at h
  · next m gap behind hbinding =>
    split at h
    · obtain rfl := Option.some.inj h
      obtain rfl : binding? = some ⟨.literal m, gap, behind⟩ := hbinding
      exact ⟨_, rfl⟩
    · cases h
  · cases h

/-- A method that is found is the key of an entry in the array. -/
theorem Entry.exists_of_mem_methods {e : Entry} {method : String} {offset : Nat}
    (h : (method, offset) ∈ e.methods Lead.seen?) :
    ∃ i ∈ e.inner, ∃ l, i.lead.seen? = some l ∧ method = asciiUppered l.value
      ∧ offset = i.lead.keyOffset i.offset := by
  obtain ⟨i, hi, hmethod⟩ := List.mem_filterMap.1 h
  obtain ⟨l, hl, hmethod⟩ := Option.bind_eq_some_iff.1 hmethod
  split at hmethod
  · obtain ⟨rfl, rfl⟩ := Prod.mk.inj (Option.some.inj hmethod)
    exact ⟨i, hi, l, hl, rfl, rfl⟩
  · cases hmethod

/-- A rule comes from a method with its offset. -/
theorem exists_of_mem_rulesFor {entity? : Option String} {methods : List (String × Nat)}
    {k : RuleKey} (h : k ∈ rulesFor entity? methods) : (k.method, k.offset) ∈ methods := by
  cases entity? with
  | none => cases h
  | some entity =>
      obtain ⟨m, hm, rfl⟩ := List.mem_map.1 h
      exact hm

/-- A rule that the walk finds comes from a method of an entry. -/
theorem exists_of_mem_walkedRules {entity? : Option String} {entries : List Entry} {k : RuleKey}
    (h : k ∈ walkedRules entity? entries) :
    ∃ e ∈ entries, (k.method, k.offset) ∈ e.methods Lead.seen? := by
  induction entries generalizing entity? with
  | nil => cases h
  | cons e entries ih =>
      rcases List.mem_append.1 h with h | h
      · exact ⟨e, List.mem_cons_self, exists_of_mem_rulesFor h⟩
      · obtain ⟨f, hf, hmethod⟩ := ih h
        exact ⟨f, List.mem_cons_of_mem e hf, hmethod⟩

/-- A rule stands where the key of its method does. -/
theorem Items.exists_text_of_mem_ruleKeys (items : Items) (base : Nat) {k : RuleKey}
    (h : k ∈ ruleKeys items.text base) :
    ∃ front l back, items.text = front ++ (Literal.text l ++ back)
      ∧ k.offset = base + byteLength front ∧ k.method = asciiUppered l.value := by
  rw [items.ruleKeys_text] at h
  obtain ⟨e, he, hmethod⟩ := exists_of_mem_walkedRules h
  obtain ⟨i, hi, l, hl, hupper, hkey⟩ := Entry.exists_of_mem_methods hmethod
  obtain ⟨front, back, htext, hoffset⟩ := items.exists_text_of_mem base he
  obtain ⟨offset, lead, value⟩ := e
  cases value with
  | literal | word => cases hi
  | array opening inner =>
      obtain ⟨front', back', htext', hoffset'⟩ := inner.exists_text_of_mem _ hi
      obtain ⟨more, hlead⟩ := Lead.exists_text_of_seen? hl
      refine ⟨front ++ (lead.text ++ (opening.text ++ (front' ++ i.lead.before.text))), l,
        more ++ (i.value.text ++ (back' ++ ([opening.closer] ++ back))), ?_, ?_, hupper⟩
      · rw [htext, Value.text, htext', hlead]
        simp only [List.append_assoc]
      · rw [hkey, Lead.keyOffset, hoffset', hoffset]
        simp only [byteLength_append]
        omega

/-- The rules in an array. Every entry with a literal for a key that no comment hides is an entity,
and the rules are the methods in the arrays of entries, each for the last entity. So they are what
is declared if and only if no entry without such a key has methods in its array and an entity in
front of it. A rule stands where the key of its method does. -/
theorem ruleKeys_declared (items : Items) (base : Nat) :
    ruleKeys items.text base = walkedRules none (items.entries base)
    ∧ ((∀ e ∈ items.entries base, e.Shown) →
      (ruleKeys items.text base = declaredRules (items.entries base) ↔
        ∀ front e back, items.entries base = front ++ e :: back → e.lead.key? = none →
          (∃ f ∈ front, f.lead.key? ≠ none) → e.methods Lead.key? = []))
    ∧ ∀ k ∈ ruleKeys items.text base, ∃ front l back, items.text = front ++ (Literal.text l ++ back)
      ∧ k.offset = base + byteLength front ∧ k.method = asciiUppered l.value := by
  refine ⟨items.ruleKeys_text base, fun hshown => ?_,
    fun k => items.exists_text_of_mem_ruleKeys base⟩
  rw [items.ruleKeys_text, walkedRules_eq_declaredRules_iff hshown]
  simp only [ne_eq, not_true_eq_false, false_or]

/-! ## Two arrays -/

/-- A literal without quotes, backslashes and line ends. -/
def Literal.plain (inside : List Char) (h : ∀ c ∈ inside, c ≠ '\\' ∧ c ≠ '\'' ∧ c ≠ '\n') :
    Literal where
  quote := '\''
  inside
  isQuote := .inl rfl
  closed := by
    induction inside with
    | nil => exact .nil
    | cons c inside ih =>
        obtain ⟨⟨hslash, hquote, hline⟩, hrest⟩ := List.forall_mem_cons.1 h
        exact .char hslash hquote (fun hc => absurd hc hline) (ih hrest)

/-- The number five as a key. -/
def Word.five : Word where
  text := ['5']
  ne_nil := List.cons_ne_nil _ _
  plain := List.forall_mem_singleton.2 ⟨isBlank_of_isPrinted rfl, by decide⟩

/-- A space as a filler. -/
def Filler.space : Filler := .blank ' ' (isBlank_of_isSpace rfl)

/-- A method under an entity, and behind a comment a number with an empty array. -/
def Items.commented : Items :=
  .cons ⟨[], some ⟨.literal (.plain ['a'] (by simp)), [.space], [.space]⟩⟩
    (.array (.keyword ['a', 'r', 'r', 'a', 'y'] rfl [])
      (.last ⟨[], some ⟨.literal (.plain ['g', 'e', 't'] (by simp)), [.space], [.space]⟩⟩
        (.array .bracket (.nil [])) []))
    [] (.last ⟨[.line ['/', '/'] ['\'', 'b', '\''] (.inr rfl) (by decide)],
      some ⟨.word .five, [], []⟩⟩
      (.array .bracket (.nil [])) [])

/-- An empty entity, and a method under a number. -/
def Items.numbered : Items :=
  .cons ⟨[], some ⟨.literal (.plain ['a'] (by simp)), [], []⟩⟩ (.array .bracket (.nil [])) []
    (.last ⟨[], some ⟨.word .five, [], []⟩⟩
      (.array .bracket
        (.last ⟨[], some ⟨.literal (.plain ['g', 'e', 't'] (by simp)), [], []⟩⟩
          (.array .bracket (.nil [])) []))
      [])

/-- Of two entries, one with a key and a comment behind it, the other with a number, the first has a
rule. -/
theorem ruleKeys_declared_commented :
    ruleKeys "'a' => array('get' => []),//'b'\n5=>[]".toList 10 = [⟨"a", "GET", 23⟩] := by
  obtain ⟨-, hiff, -⟩ := ruleKeys_declared .commented 10
  have hshown : ∀ e ∈ Items.commented.entries 10, e.Shown :=
    List.forall_mem_cons.2 ⟨⟨rfl, List.forall_mem_singleton.2 rfl⟩,
      List.forall_mem_singleton.2 ⟨rfl, nofun⟩⟩
  have hempty : ∀ front e back, Items.commented.entries 10 = front ++ e :: back →
      e.lead.key? = none →
      (∃ f ∈ front, f.lead.key? ≠ none) → e.methods Lead.key? = [] := by
    intro front e back hsplit hnone _
    have hmem : e ∈ Items.commented.entries 10 :=
      hsplit ▸ List.mem_append_right front List.mem_cons_self
    rcases List.mem_cons.1 hmem with rfl | hmem
    · cases hnone
    · rw [List.mem_singleton.1 hmem]
      rfl
  exact ((hiff hshown).2 hempty).trans (by decide +kernel)

/-- A method under a number is taken for one of the entity in front. -/
theorem ruleKeys_numbered : Items.numbered.text = "'a'=>[],5=>['get'=>[]]".toList
    ∧ ruleKeys "'a'=>[],5=>['get'=>[]]".toList 0 = [⟨"a", "GET", 12⟩]
    ∧ declaredRules (Items.numbered.entries 0) = [] := by
  have hwalk := Items.numbered.ruleKeys_text 0
  refine ⟨rfl, ?_, by decide +kernel⟩
  exact hwalk.trans (by decide +kernel)

end CodeAtlas.Source.Php
