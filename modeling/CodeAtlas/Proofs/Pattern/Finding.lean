import CodeAtlas.Proofs.Pattern.Compiling
import Mathlib.Data.List.Forall2

/-!
# All matches in a text

A pattern that cannot match the empty text finds its matches from the start of a text on: at each
place it takes the way that is preferred there and goes on behind it, and where there is no way it
goes on with the next character. So the matches in a part of a text are found as if the part stood
alone, if none of them begins in the part and ends behind it. That is so for a pattern that takes
characters of an alphabet only and looks at word boundaries at most, wherever a character that is
neither of the alphabet nor of words cuts the text.
-/

namespace CodeAtlas.Pattern

open Text (byteLength)
open Unicode (CharSet)

/-! ## Places that ways lead to -/

/-- Going behind a text leads to a place of the same text. -/
theorem Place.behind_mem_all {root p : Place} (hp : p ∈ root.all) {a rest : List Char}
    (h : p.rest = a ++ rest) : p.behind a ∈ root.all := by
  induction a generalizing p with
  | nil => exact hp
  | cons c a ih =>
      rw [behind_cons]
      refine ih ?_ (rest_behind (a := [c]) h)
      rw [← next_eq h]
      exact next_mem_all hp h

/-- The ways lead forward along the text. -/
def Advances (ways : Place → List Way) : Prop :=
  ∀ p, ∀ v ∈ ways p, ∃ cs, p.rest = cs ++ v.1.rest ∧ v.1 = p.behind cs

section
variable {ways ways' : Place → List Way}

/-- The way that stays goes on in the text. -/
theorem advances_done : Advances fun p => [(p, [])] := by
  intro p v hv
  rw [List.mem_singleton.1 hv]
  exact ⟨[], rfl, rfl⟩

/-- Ways that go on in the text do so behind each other. -/
theorem Advances.andThen (h : Advances ways) (h' : Advances ways') :
    Advances fun p => andThen (ways p) ways' := by
  intro p v hv
  obtain ⟨w, hw, u, hu, rfl⟩ := mem_andThen.1 hv
  obtain ⟨a, ha, hplace⟩ := h p w hw
  obtain ⟨b, hb, hplace'⟩ := h' w.1 u hu
  exact ⟨a ++ b, by rw [ha, hb, List.append_assoc], by rw [hplace', hplace, Place.behind_append]⟩

/-- Several rounds go on in the text. -/
theorem advances_exactly (h : Advances ways) (n : Nat) : Advances (exactly ways n) := by
  induction n with
  | zero => exact advances_done
  | succ n ih => exact ih.andThen h

/-- Up to several rounds go on in the text. -/
theorem advances_rounds (h : Advances ways) (greedy : Bool) (n : Nat) :
    Advances (rounds greedy ways n) := by
  induction n with
  | zero => exact advances_done
  | succ n ih =>
      intro p v hv
      rw [rounds] at hv
      cases greedy with
      | true =>
          rcases List.mem_append.1 hv with hv | hv
          · exact h.andThen ih p v hv
          · exact advances_done p v hv
      | false =>
          rcases List.mem_cons.1 hv with hv | hv
          · exact advances_done p v (List.mem_singleton.2 hv)
          · exact h.andThen ih p v hv

/-- A text goes on in the text that is read. -/
theorem advances_textWays (cs : List Char) : Advances (textWays cs) := by
  induction cs with
  | nil => exact advances_done
  | cons d cs ih =>
      intro p v hv
      rw [textWays] at hv
      split at hv
      · cases hv
      · next c rest hrest =>
        split at hv
        · obtain ⟨a, ha, hplace⟩ := ih _ v hv
          refine ⟨c :: a, ?_, ?_⟩
          · rw [hrest]
            exact congrArg _ ha
          · rw [Place.behind_cons, ← Place.next_eq hrest]
            exact hplace
        · cases hv

end

mutual

/-- Every way of a node goes on in the text. -/
theorem Node.advances : (a : Node) → Advances a.ways
  | .empty => advances_done
  | .text cs => advances_textWays cs
  | .one set bytes => by
      intro p v hv
      cases hrest : p.rest with
      | nil =>
          rw [ways_one_nil hrest] at hv
          cases hv
      | cons c rest =>
          rw [ways_one hrest] at hv
          split at hv
          · rw [List.mem_singleton.1 hv]
            exact ⟨[c], by rw [Place.rest_behind (a := [c]) hrest]; rfl, rfl⟩
          · cases hv
  | .look l => by
      intro p v hv
      rw [Node.ways] at hv
      split at hv
      · exact advances_done p v hv
      · cases hv
  | .repeated least most? greedy a => fun p v hv => by
      -- the rounds one behind the other advance by what each of them takes
      rw [Node.ways] at hv
      obtain ⟨w, hw, u, hu, rfl⟩ := mem_andThen.1 hv
      obtain ⟨b, hb, hplace⟩ := advances_exactly a.advances least p w hw
      obtain ⟨c, hc, hplace'⟩ := advances_rounds a.advances greedy _ w.1 u hu
      exact ⟨b ++ c, by rw [hb, hc, List.append_assoc], by
        rw [hplace', hplace, Place.behind_append]⟩
  | .group _ _ a => fun p v hv => by
      rw [Node.ways] at hv
      obtain ⟨w, hw, rfl⟩ := List.mem_map.1 hv
      exact a.advances p w hw
  | .row as => advances_row as
  | .choice as => advances_choice as

/-- Every way of a row goes on in the text. -/
theorem advances_row : (as : List Node) → Advances (rowWays as)
  | [] => advances_done
  | a :: as => a.advances.andThen (advances_row as)

/-- Every way of a choice goes on in the text. -/
theorem advances_choice : (as : List Node) → Advances (choiceWays as)
  | [] => nofun
  | a :: as => fun p v hv => by
      rw [choiceWays] at hv
      rcases List.mem_append.1 hv with hv | hv
      · exact a.advances p v hv
      · exact advances_choice as p v hv

end

/-- Every pattern of a row has a way further on. -/
theorem exists_of_rowWays {as : List Node} {p : Place} {v : Way} (h : v ∈ rowWays as p) :
    ∀ a ∈ as, ∃ q w, w ∈ a.ways q ∧ q.rest <:+ p.rest := by
  induction as generalizing p v with
  | nil => nofun
  | cons a as ih =>
      obtain ⟨w, hw, u, hu, rfl⟩ := mem_andThen.1 h
      obtain ⟨cs, hrest, -⟩ := a.advances p w hw
      refine List.forall_mem_cons.2 ⟨⟨p, w, hw, List.suffix_refl _⟩, fun b hb => ?_⟩
      obtain ⟨q, x, hx, hsuffix⟩ := ih hu b hb
      exact ⟨q, x, hx, hsuffix.trans ⟨cs, hrest.symm⟩⟩

/-! ## Matches -/

/-- The matches from a place on: at each place the way that is preferred there, and those behind
it. -/
inductive Finds (a : Node) : Place → List Found → Prop
  | done {p : Place} (h : p.rest = []) : Finds a p []
  | skip {p : Place} {c : Char} {rest : List Char} {fs : List Found} (hp : p.rest = c :: rest)
      (hnone : a.ways p = []) (h : Finds a (p.behind [c]) fs) : Finds a p fs
  | take {p q : Place} {s : Saves} {fs : List Found} (hway : (a.ways p).head? = some (q, s))
      (h : Finds a q fs) : Finds a p (⟨p, q, (1, q.offset) :: (s ++ [(0, p.offset)])⟩ :: fs)

section
variable {a : Node} (ha : a.Steady) (hnull : a.nullable = false)
include ha hnull

/-- A node that cannot be empty takes characters. -/
theorem Node.takes_ways : Takes a.ways := by
  have hopens := a.opens ha
  rw [hnull] at hopens
  exact hopens.takes

/-- A way takes a part of the text, which is not empty. -/
theorem exists_taken {p : Place} {v : Way} (hv : v ∈ a.ways p) :
    ∃ c cs, p.rest = c :: cs ++ v.1.rest ∧ v.1 = p.behind (c :: cs) := by
  obtain ⟨cs, hrest, hplace⟩ := a.advances p v hv
  cases cs with
  | nil =>
      have hlt := a.takes_ways ha hnull p v hv
      rw [hrest] at hlt
      exact absurd hlt (Nat.lt_irrefl _)
  | cons c cs => exact ⟨c, cs, hrest, hplace⟩

/-- A node that cannot be empty has no way at the end of a text. -/
theorem ways_of_nil {p : Place} (h : p.rest = []) : a.ways p = [] :=
  (a.takes_ways ha hnull).eq_nil (Nat.le_of_eq (by rw [h]; rfl))

/-- There are matches from every place on. -/
theorem exists_finds (p : Place) : ∃ fs, Finds a p fs := by
  induction hlength : p.rest.length using Nat.strongRecOn generalizing p with
  | ind n ih =>
      cases hways : a.ways p with
      | nil =>
          cases hrest : p.rest with
          | nil => exact ⟨[], .done hrest⟩
          | cons c rest =>
              have hlt : (p.behind [c]).rest.length < n := by
                rw [Place.rest_behind (a := [c]) hrest, ← hlength, hrest]
                exact Nat.lt_succ_self _
              obtain ⟨fs, hfs⟩ := ih _ hlt _ rfl
              exact ⟨fs, .skip hrest hways hfs⟩
      | cons v ways =>
          have hlt := a.takes_ways ha hnull p v (hways ▸ List.mem_cons_self)
          obtain ⟨fs, hfs⟩ := ih _ (hlength ▸ hlt) v.1 rfl
          exact ⟨_, .take (by rw [hways]; rfl) hfs⟩

omit ha hnull in
/-- Where no way begins in the text in front, the matches are those behind it. -/
theorem finds_of_front {p : Place} {front rest : List Char} (hp : p.rest = front ++ rest)
    (hnone : ∀ b c, front = b ++ c → c ≠ [] → a.ways (p.behind b) = []) {fs : List Found}
    (h : Finds a (p.behind front) fs) : Finds a p fs := by
  induction front generalizing p with
  | nil => exact h
  | cons c front ih =>
      refine .skip hp (hnone [] _ rfl (List.cons_ne_nil _ _))
        (ih (Place.rest_behind (a := [c]) hp) ?_ h)
      rintro b d rfl hd
      exact hnone (c :: b) d rfl hd

/-- Where every way that begins in the text in front ends there, the matches behind it are found. -/
theorem exists_finds_front {p : Place} {front rest : List Char} (hp : p.rest = front ++ rest)
    (hends : ∀ b c, front = b ++ c → c ≠ [] → ∀ v ∈ a.ways (p.behind b), rest <:+ v.1.rest)
    {fs : List Found} (h : Finds a (p.behind front) fs) : ∃ ms, Finds a p (ms ++ fs) ∧
      ∀ m ∈ ms, p.offset ≤ m.start.offset ∧ m.start.offset < p.offset + byteLength front := by
  induction hlength : front.length using Nat.strongRecOn generalizing p front with
  | ind n ih =>
      -- the place behind some of the text in front
      have hmore : ∀ b c, front = b ++ c → b ≠ [] → ∃ ms, Finds a (p.behind b) (ms ++ fs) ∧
          ∀ m ∈ ms, p.offset ≤ m.start.offset ∧ m.start.offset < p.offset + byteLength front := by
        rintro b c rfl hb
        have hlt : c.length < n := by
          have hpos := List.length_pos_iff.2 hb
          rw [← hlength, List.length_append]
          omega
        rw [Place.behind_append] at h
        obtain ⟨ms, hms, hin⟩ :=
          ih _ hlt (p := p.behind b) (Place.rest_behind (by rw [hp, List.append_assoc]))
          (fun d e hde he => by
            rw [← Place.behind_append]
            exact hends (b ++ d) e (by rw [hde, List.append_assoc]) he) h rfl
        refine ⟨ms, hms, fun m hm => ?_⟩
        have hin := hin m hm
        rw [Place.offset_behind] at hin
        rw [Text.byteLength_append]
        omega
      cases hfront : front with
      | nil =>
          subst hfront
          exact ⟨[], h, nofun⟩
      | cons c cs =>
          cases hways : a.ways p with
          | nil =>
              obtain ⟨ms, hms, hin⟩ := hmore [c] cs hfront (List.cons_ne_nil _ _)
              rw [hfront] at hp hin
              exact ⟨ms, .skip hp hways hms, hin⟩
          | cons v ways =>
              have hv : v ∈ a.ways p := hways ▸ List.mem_cons_self
              obtain ⟨d, ds, htaken, hplace⟩ := exists_taken ha hnull hv
              obtain ⟨back, hback⟩ := hends [] front rfl (hfront ▸ List.cons_ne_nil _ _) v hv
              have hsplit : front = d :: ds ++ back := by
                rw [hp, ← hback, ← List.append_assoc] at htaken
                exact List.append_cancel_right htaken
              obtain ⟨ms, hms, hin⟩ := hmore (d :: ds) back hsplit (List.cons_ne_nil _ _)
              rw [← hplace] at hms
              refine ⟨_ :: ms, .take (q := v.1) (s := v.2) (by rw [hways]; rfl) hms,
                List.forall_mem_cons.2 ⟨⟨Nat.le_refl _, ?_⟩, hfront ▸ hin⟩⟩
              have hpos := c.utf8Size_pos
              show p.offset < _
              rw [Text.byteLength_cons]
              omega

/-- The first match from a place on. -/
theorem Finds.cases {p : Place} {fs : List Found} (h : Finds a p fs) :
    (fs = [] ∧ ∀ q ∈ p.all, a.ways q = []) ∨ ∃ f more, fs = f :: more ∧ Finds a f.stop more
      ∧ f.stop ∈ p.all ∧ f.start.offset < f.stop.offset ∧ f.stop.rest.length < p.rest.length
      ∧ (p.all.findSome? fun q => ((Node.group 0 none a).ways q).head?.map fun (stop, saves) =>
        (⟨q, stop, saves⟩ : Found)) = some f := by
  have hall : ∀ {p : Place} {c : Char} {rest : List Char}, p.rest = c :: rest →
      p.all = p :: (p.behind [c]).all := by
    intro p c rest hp
    rw [← Place.next_eq hp]
    obtain ⟨offset, before, _⟩ := p
    obtain rfl := hp
    exact Place.all_cons ..
  have hself : ∀ p : Place, ∃ others, p.all = p :: others := by
    intro p
    cases hrest : p.rest with
    | nil =>
        obtain ⟨offset, before, _⟩ := p
        obtain rfl := hrest
        exact ⟨[], Place.all_nil ..⟩
    | cons c rest => exact ⟨_, hall hrest⟩
  induction h with
  | @done p h =>
      obtain ⟨offset, before, _⟩ := p
      obtain rfl := h
      -- at the end of the text only the empty match is left, which `a` does not take
      refine .inl ⟨rfl, fun q hq => ?_⟩
      rw [List.mem_singleton.1 hq]
      exact ways_of_nil ha hnull rfl
  | @skip p c rest fs hp hnone h ih =>
      have hgroup : (Node.group 0 none a).ways p = [] := by rw [Node.ways, hnone]; rfl
      rw [hall hp]
      rcases ih with ⟨hnil, hways⟩ | ⟨f, more, hfs, hmore, hmem, hoffset, hlt, hfirst⟩
      · -- nothing matches here, so the first match is that of the rest
        exact .inl ⟨hnil, List.forall_mem_cons.2 ⟨hnone, hways⟩⟩
      · refine .inr ⟨f, more, hfs, hmore, List.mem_cons_of_mem _ hmem, hoffset, ?_, ?_⟩
        · rw [Place.rest_behind (a := [c]) hp] at hlt
          rw [hp]
          exact Nat.lt_succ_of_lt hlt
        · rw [List.findSome?_cons, hgroup]
          exact hfirst
  | @take p q s fs hway h ih =>
      have hv : (q, s) ∈ a.ways p := List.mem_of_head? hway
      obtain ⟨c, cs, hrest, hplace⟩ := exists_taken ha hnull hv
      have hplace : q = p.behind (c :: cs) := hplace
      -- something matches here, and it takes at least one character
      refine .inr ⟨_, fs, rfl, h, ?_, ?_, a.takes_ways ha hnull p _ hv, ?_⟩
      · show q ∈ p.all
        rw [hplace]
        exact Place.behind_mem_all p.self_mem_all hrest
      · have hpos := c.utf8Size_pos
        show p.offset < q.offset
        rw [hplace, Place.offset_behind, Text.byteLength_cons]
        omega
      · obtain ⟨others, hothers⟩ := hself p
        rw [hothers, List.findSome?_cons, Node.ways, List.head?_map, hway]
        rfl

/-- All matches in a text are those from its start on. -/
theorem findAll_ofNode {text : List Char} {fs : List Found} (h : Finds a (.start text) fs) :
    (ofNode a).findAll text = fs.map (ofNode a).toMatch := by
  have hdescends := descends_of_grows (a.program_grows ha)
  have hsearch : ∀ q ∈ (Place.start text).all,
      a.program.search (stepBound a.program.code text.length) q =
        q.all.findSome? fun q => ((Node.group 0 none a).ways q).head?.map fun (stop, saves) =>
          (⟨q, stop, saves⟩ : Found) := by
    intro q hq
    refine @Program.searchFrom_eq a.program hdescends (a.program_written ha).start_lt
      (.start text) _
      (fun p _ => a.program_leads ha p) (fun set hset p _ hway => a.program_firsts ha hset hway)
      q.offset q.before q.rest hq ∅ fun m pc _ p _ hc => ?_
    rw [Std.HashSet.contains_empty] at hc
    cases hc
  have hall : ∀ n last? q found fs, q ∈ (Place.start text).all → q.rest.length < n → Finds a q fs →
      a.program.findAllFrom (stepBound a.program.code text.length) n last? q found
        = found.reverse ++ fs := by
    intro n
    -- the fuel is enough as every match is shorter by what it takes
    induction n with
    | zero => exact fun _ _ _ _ _ hlt => absurd hlt (Nat.not_lt_zero _)
    | succ n ih =>
        intro last? q found fs hq hlt hfs
        rw [Program.findAllFrom, hsearch q hq]
        rcases hfs.cases ha hnull with ⟨rfl, hnone⟩ | ⟨f, more, rfl, hmore, hmem, hoffset,
          hshorter, hfirst⟩
        · have hfind : (q.all.findSome? fun q =>
              ((Node.group 0 none a).ways q).head?.map fun (stop, saves) =>
              (⟨q, stop, saves⟩ : Found)) = none := by
            refine List.findSome?_eq_none_iff.2 fun p hp => ?_
            rw [Node.ways, hnone p hp]
            rfl
          rw [hfind, List.append_nil]
        · rw [hfirst]
          have hne : (f.start.offset == f.stop.offset) = false :=
            beq_eq_false_iff_ne.2 (Nat.ne_of_lt hoffset)
          dsimp only
          rw [hne, Bool.false_and, if_neg Bool.false_ne_true,
            ih _ _ _ _ (Place.all_subset hq hmem) (by omega) hmore, List.reverse_cons,
              List.append_assoc]
          rfl
  rw [findAll]
  refine congrArg (List.map _) ?_
  have hlt : (Place.start text).rest.length < 2 * text.length + 2 := by
    show text.length < _
    omega
  exact hall _ none _ [] _ (Place.self_mem_all _) hlt h

end

/-! ## Parts of a text -/

mutual

/-- A pattern without groups that takes characters with a property only, and looks at nothing but
word boundaries. -/
def Node.Spells (P : Char → Prop) : Node → Prop
  | .empty => True
  | .text cs => ∀ c ∈ cs, P c
  | .one set _ => ∀ c, set.contains c = true → P c
  | .look l => l = .wordBoundary false
  | .repeated _ _ _ a => a.Spells P
  | .group .. => False
  | .row as | .choice as => AllSpell P as

/-- Several patterns take characters with a property only. -/
def AllSpell (P : Char → Prop) : List Node → Prop
  | [] => True
  | a :: as => a.Spells P ∧ AllSpell P as

end

/-- A character that cuts a text: it has not the property and is none of a word. -/
def Cut (P : Char → Prop) (c : Char) : Prop := ¬ P c ∧ Unicode.isWordChar c = false

/-- Whether the character in front of a place is one of a word. -/
def Place.behindWord (p : Place) : Bool := p.offset != 0 && Unicode.isWordChar p.before

/-- A place in a text and one in a longer text: what stands behind the second goes on with a tail,
which is empty or starts with a character that cuts the text. -/
structure Beside (P : Char → Prop) (tail : List Char) (p q : Place) : Prop where
  rest_eq : p.rest = q.rest ++ tail
  behindWord_eq : p.behindWord = q.behindWord
  cut : ∀ c, tail.head? = some c → Cut P c

section
variable {P : Char → Prop} {tail : List Char} {p q : Place}

/-- The place behind a character is behind a word just if the character stands in words. -/
theorem behindWord_next (p : Place) (c : Char) (rest : List Char) :
    (p.next c rest).behindWord = Unicode.isWordChar c := by
  have hne : (p.offset + c.utf8Size != 0) = true := by
    have hpos := c.utf8Size_pos
    rw [bne_iff_ne]
    omega
  show (p.offset + c.utf8Size != 0 && Unicode.isWordChar c) = _
  rw [hne, Bool.true_and]

/-- Places beside each other stay so behind one character. -/
theorem Beside.next (h : Beside P tail p q) {c : Char} {rest : List Char} :
    Beside P tail (p.next c (rest ++ tail)) (q.next c rest) where
  rest_eq := rfl
  behindWord_eq := by rw [behindWord_next, behindWord_next]
  cut := h.cut

/-- Ways that lead to places side by side and save nothing. -/
structure Abreast (P : Char → Prop) (tail : List Char) (v w : Way) : Prop where
  beside : Beside P tail v.1 w.1
  saves_left : v.2 = []
  saves_right : w.2 = []

/-- The way that stays is abreast in both texts. -/
theorem abreast_done (h : Beside P tail p q) :
    List.Forall₂ (Abreast P tail) [(p, [])] [(q, [])] := .cons ⟨h, rfl, rfl⟩ .nil

/-- Ways that are abreast go on abreast. -/
theorem abreast_andThen {ways ways' : List Way} {more : Place → List Way}
    (h : List.Forall₂ (Abreast P tail) ways ways')
    (hmore : ∀ p q, Beside P tail p q → List.Forall₂ (Abreast P tail) (more p) (more q)) :
    List.Forall₂ (Abreast P tail) (andThen ways more) (andThen ways' more) := by
  induction h with
  | nil => exact .nil
  | @cons v w ways ways' hvw _ ih =>
      refine List.rel_append (List.rel_map ?_ (hmore _ _ hvw.beside)) ih
      rintro ⟨p, s⟩ ⟨q, t⟩ ⟨hbeside, rfl, rfl⟩
      exact ⟨hbeside, hvw.saves_left, hvw.saves_right⟩

/-- Several rounds are abreast if one is. -/
theorem abreast_exactly {ways : Place → List Way}
    (hways : ∀ p q, Beside P tail p q → List.Forall₂ (Abreast P tail) (ways p) (ways q)) (n : Nat) :
    ∀ p q, Beside P tail p q →
      List.Forall₂ (Abreast P tail) (exactly ways n p) (exactly ways n q) := by
  induction n with
  | zero => exact fun p q h => abreast_done h
  | succ n ih => exact fun p q h => abreast_andThen (ih p q h) hways

/-- Up to several rounds are abreast if one is. -/
theorem abreast_rounds {ways : Place → List Way}
    (hways : ∀ p q, Beside P tail p q → List.Forall₂ (Abreast P tail) (ways p) (ways q))
    (greedy : Bool) (n : Nat) : ∀ p q, Beside P tail p q →
      List.Forall₂ (Abreast P tail) (rounds greedy ways n p) (rounds greedy ways n q) := by
  induction n with
  | zero => exact fun p q h => abreast_done h
  | succ n ih =>
      intro p q h
      have hmore := abreast_andThen (hways p q h) ih
      rw [rounds, rounds]
      cases greedy with
      | true => exact List.rel_append hmore (abreast_done h)
      | false => exact .cons ⟨h, rfl, rfl⟩ hmore

/-- A text of characters that spell is abreast in both texts. -/
theorem abreast_textWays {cs : List Char} (hcs : ∀ c ∈ cs, P c) :
    ∀ p q, Beside P tail p q → List.Forall₂ (Abreast P tail) (textWays cs p) (textWays cs q) := by
  induction cs with
  | nil => exact fun p q h => abreast_done h
  | cons d cs ih =>
      obtain ⟨hd, hcs⟩ := List.forall_mem_cons.1 hcs
      intro p q h
      rw [textWays, textWays, h.rest_eq]
      cases hq : q.rest with
      | nil =>
          rw [List.nil_append]
          cases htail : tail with
          | nil => exact .nil
          | cons c rest =>
              -- the tail starts with another character
              dsimp only
              rw [if_neg]
              · exact .nil
              · intro hc
                exact (h.cut c (by rw [htail]; rfl)).1 (beq_iff_eq.1 hc ▸ hd)
      | cons c rest =>
          rw [List.cons_append]
          dsimp only
          split
          · exact ih hcs _ _ h.next
          · exact .nil

/-- A set of characters that spell is abreast in both texts. -/
theorem abreast_one {set : CharSet} {bytes : Bool} (hset : ∀ c, set.contains c = true → P c)
    (h : Beside P tail p q) :
    List.Forall₂ (Abreast P tail) ((Node.one set bytes).ways p) ((Node.one set bytes).ways q) := by
  rw [Node.ways, Node.ways, h.rest_eq]
  cases hq : q.rest with
  | nil =>
      rw [List.nil_append]
      cases htail : tail with
      | nil => exact .nil
      | cons c rest =>
          dsimp only
          rw [if_neg fun hc => (h.cut c (by rw [htail]; rfl)).1 (hset c hc)]
          exact .nil
  | cons c rest =>
      rw [List.cons_append]
      dsimp only
      split
      · exact abreast_done h.next
      · exact .nil

/-- The bounds of words are the same at places beside each other. -/
theorem holds_wordBoundary (h : Beside P tail p q) :
    (Look.wordBoundary false).holds p.offset p.before p.rest =
      (Look.wordBoundary false).holds q.offset q.before q.rest := by
  have hword : wordBehind false p.rest = wordBehind false q.rest := by
    rw [h.rest_eq]
    cases hq : q.rest with
    | nil =>
        cases htail : tail with
        | nil => rfl
        | cons c rest => exact (h.cut c (by rw [htail]; rfl)).2
    | cons c rest => rfl
  show (p.behindWord != wordBehind false p.rest) = (q.behindWord != wordBehind false q.rest)
  rw [h.behindWord_eq, hword]

end

section
variable {P : Char → Prop} {tail : List Char}

mutual

/-- A pattern that takes characters with a property only has the same ways in front of a character
that cuts the text as at the end of a text. -/
theorem Node.ways_abreast : (a : Node) → a.Steady → a.Spells P → ∀ p q, Beside P tail p q →
    List.Forall₂ (Abreast P tail) (a.ways p) (a.ways q)
  | .empty, _, _ => fun _ _ h => abreast_done h
  | .text _, _, hspells => abreast_textWays hspells
  | .one _ _, _, hspells => fun _ _ h => abreast_one hspells h
  | .look _, _, hspells => fun p q h => by
      obtain rfl := hspells
      rw [Node.ways, Node.ways, holds_wordBoundary h]
      split
      · exact abreast_done h
      · exact .nil
  | .repeated least most? greedy a, hsteady, hspells => fun p q h => by
      have hways := a.ways_abreast hsteady.1 hspells
      rw [Node.ways, Node.ways]
      cases most? with
      | some most =>
          exact abreast_andThen (abreast_exactly hways least p q h) (abreast_rounds hways greedy _)
      | none =>
          refine abreast_andThen (abreast_exactly hways least p q h) fun p q h => ?_
          -- the rounds are bounded by the rest of the text, which the tail makes longer
          have htakes := a.takes_ways hsteady.1 (hsteady.2 rfl)
          have hle : q.rest.length ≤ p.rest.length := by
            rw [h.rest_eq, List.length_append]
            exact Nat.le_add_right _ _
          rw [rounds_congr htakes greedy (Nat.le_refl q.rest.length) hle]
          exact abreast_rounds hways greedy _ p q h
  | .group .., _, hspells => hspells.elim
  | .row as, hsteady, hspells => rowWays_abreast as hsteady hspells
  | .choice as, hsteady, hspells => choiceWays_abreast as hsteady hspells

/-- The ways of a row are abreast in both texts. -/
theorem rowWays_abreast :
    (as : List Node) → AllSteady as → AllSpell P as → ∀ p q, Beside P tail p q →
    List.Forall₂ (Abreast P tail) (rowWays as p) (rowWays as q)
  | [], _, _ => fun _ _ h => abreast_done h
  | a :: as, hsteady, hspells => fun p q h =>
      abreast_andThen (a.ways_abreast hsteady.1 hspells.1 p q h)
        (rowWays_abreast as hsteady.2 hspells.2)

/-- The ways of a choice are abreast in both texts. -/
theorem choiceWays_abreast :
    (as : List Node) → AllSteady as → AllSpell P as → ∀ p q, Beside P tail p q →
    List.Forall₂ (Abreast P tail) (choiceWays as p) (choiceWays as q)
  | [], _, _ => fun _ _ _ => .nil
  | a :: as, hsteady, hspells => fun p q h => by
      rw [choiceWays, choiceWays]
      exact List.rel_append (a.ways_abreast hsteady.1 hspells.1 p q h)
        (choiceWays_abreast as hsteady.2 hspells.2 p q h)

end

end

/-- The text of a match. -/
def Found.taken (f : Found) : List Char :=
  f.start.rest.take (f.start.rest.length - f.stop.rest.length)

/-- What is found is taken from its start to its end. -/
theorem Found.taken_eq {f : Found} {cs : List Char} (h : f.start.rest = cs ++ f.stop.rest) :
    f.taken = cs := by
  rw [taken, h, List.length_append, Nat.add_sub_cancel, List.take_left]

/-- The texts of all matches. -/
def texts (p : Pattern) (text : List Char) : List String := (p.findAll text).map (·.text 0)

section
variable {P : Char → Prop} {a : Node} (ha : a.Steady) (hspells : a.Spells P)
include ha hspells

/-- A node without groups saves nothing. -/
theorem saves_eq_nil {p : Place} {v : Way} (hv : v ∈ a.ways p) : v.2 = [] := by
  have hself : Beside P [] p p := ⟨(List.append_nil _).symm, rfl, nofun⟩
  obtain ⟨i, hi, rfl⟩ := List.getElem_of_mem hv
  exact ((a.ways_abreast ha hspells p p hself).get hi hi).saves_left

/-- The text of a match is what is found. -/
theorem text_toMatch {p : Place} {fs : List Found} (h : Finds a p fs) :
    ∀ f ∈ fs, ((ofNode a).toMatch f).text 0 = String.ofList f.taken := by
  induction h with
  | done => nofun
  | skip _ _ _ ih => exact ih
  | @take p q s fs hway h ih =>
      refine List.forall_mem_cons.2 ⟨?_, ih⟩
      have hv : (q, s) ∈ a.ways p := List.mem_of_head? hway
      obtain ⟨cs, hrest, hplace⟩ := a.advances p _ hv
      obtain rfl : s = [] := saves_eq_nil ha hspells hv
      have hoffset : q.offset = p.offset + byteLength cs :=
        (congrArg Place.offset hplace).trans (p.offset_behind cs)
      have hgroup := @group?_toMatch (ofNode a) ⟨p, q, (1, q.offset) :: ([] ++ [(0, p.offset)])⟩ 0
        (Nat.zero_le _) [] cs q.rest hrest rfl (congrArg some hoffset)
      rw [Match.text, hgroup, Found.taken_eq hrest]
      rfl

variable (hnull : a.nullable = false)
include hnull

/-- The texts of a pattern are what its node finds from place to place. -/
theorem texts_ofNode {text : List Char} {fs : List Found} (h : Finds a (.start text) fs) :
    (ofNode a).texts text = fs.map fun f => String.ofList f.taken := by
  rw [texts, findAll_ofNode ha hnull h, List.map_map]
  exact List.map_congr_left fun f hf => text_toMatch ha hspells h f hf

/-- A way begins with a character of the alphabet. -/
theorem ways_of_cut {p : Place} {c : Char} {rest : List Char} (hc : Cut P c)
    (hp : p.rest = c :: rest) :
    a.ways p = [] := by
  have hbeside : Beside P (c :: rest) p ⟨p.offset, p.before, []⟩ :=
    ⟨hp, rfl, fun d hd => by cases hd; exact hc⟩
  have hways := a.ways_abreast ha hspells p _ hbeside
  rw [ways_of_nil ha hnull (p := ⟨p.offset, p.before, []⟩) rfl] at hways
  exact List.forall₂_nil_right_iff.1 hways

omit hnull in
/-- The matches at the end of a text are found in front of a tail too. -/
theorem exists_finds_beside {tail : List Char} {p q : Place} (hpq : Beside P tail p q)
    {fs gs : List Found} (h : Finds a q fs) (hgs : Finds a (p.behind q.rest) gs) :
    ∃ ms, Finds a p (ms ++ gs) ∧ ms.map Found.taken = fs.map Found.taken := by
  induction h generalizing p with
  | @done q hq =>
      rw [hq] at hgs
      exact ⟨[], hgs, rfl⟩
  | @skip q c rest fs hq hnone h ih =>
      have hp : p.rest = c :: (rest ++ tail) := by rw [hpq.rest_eq, hq]; rfl
      have hways := a.ways_abreast ha hspells p q hpq
      rw [hnone] at hways
      have hnext := @Beside.next _ _ _ _ hpq c rest
      rw [Place.next_eq hp, Place.next_eq hq] at hnext
      rw [hq, Place.behind_cons] at hgs
      obtain ⟨ms, hms, htaken⟩ := ih hnext (by rwa [Place.rest_behind (a := [c]) hq])
      exact ⟨ms, .skip hp (List.forall₂_nil_right_iff.1 hways) hms, htaken⟩
  | @take q q' s fs hway h ih =>
      have hways := a.ways_abreast ha hspells p q hpq
      obtain ⟨w, ws, hqways⟩ :=
        List.exists_cons_of_ne_nil (List.ne_nil_of_mem (List.mem_of_head? hway))
      rw [hqways] at hways hway
      obtain rfl : w = (q', s) := Option.some.inj hway
      obtain ⟨⟨p', t⟩, vs, hhead, -, hpways⟩ := List.forall₂_cons_right_iff.1 hways
      obtain ⟨cs, hrest, hplace⟩ := a.advances q _ (hqways ▸ List.mem_cons_self)
      obtain ⟨ds, hrest', hplace'⟩ := a.advances p _ (hpways ▸ List.mem_cons_self)
      -- both take the same part of the text
      obtain rfl : ds = cs := by
        have hbeside : p'.rest = q'.rest ++ tail := hhead.beside.rest_eq
        have hsame : ds ++ p'.rest = cs ++ p'.rest :=
          calc ds ++ p'.rest = q.rest ++ tail := hrest'.symm.trans hpq.rest_eq
            _ = cs ++ q'.rest ++ tail := congrArg (· ++ tail) hrest
            _ = cs ++ p'.rest := by rw [hbeside, List.append_assoc]
        exact List.append_cancel_right hsame
      have hplace' : p' = p.behind ds := hplace'
      rw [hrest, Place.behind_append, ← hplace'] at hgs
      obtain ⟨ms, hms, htaken⟩ := ih hhead.beside hgs
      refine ⟨_ :: ms, .take (q := p') (s := t) (by rw [hpways]; rfl) hms, ?_⟩
      rw [List.map_cons, List.map_cons, htaken]
      exact congrArg (· :: _) ((Found.taken_eq hrest').trans (Found.taken_eq hrest).symm)

/-- A character that cuts the text parts the matches. -/
theorem texts_append {c : Char} (hc : Cut P c) (front back : List Char) :
    (ofNode a).texts (front ++ c :: back) = (ofNode a).texts front ++ (ofNode a).texts back := by
  obtain ⟨fs, hfs⟩ := exists_finds ha hnull (.start front)
  obtain ⟨gs, hgs⟩ := exists_finds ha hnull (.start back)
  have hrest : ((Place.start (front ++ c :: back)).behind front).rest = c :: back :=
    Place.rest_behind (p := .start (front ++ c :: back)) rfl
  have hback : Beside P [] (((Place.start (front ++ c :: back)).behind front).behind [c])
      (.start back) := by
    refine ⟨(Place.rest_behind (a := [c]) hrest).trans (List.append_nil _).symm, ?_, nofun⟩
    rw [← Place.next_eq hrest, behindWord_next, hc.2]
    rfl
  have hnil : Finds a ((((Place.start (front ++ c :: back)).behind front).behind [c]).behind back)
      [] :=
    .done (Place.rest_behind (b := [])
      ((Place.rest_behind (a := [c]) hrest).trans (List.append_nil _).symm))
  obtain ⟨ms, hms, htaken⟩ := exists_finds_beside ha hspells hback hgs hnil
  rw [List.append_nil] at hms
  have hfront : Beside P (c :: back) (.start (front ++ c :: back)) (.start front) :=
    ⟨rfl, rfl, fun d hd => by cases hd; exact hc⟩
  obtain ⟨ns, hns, htaken'⟩ := exists_finds_beside ha hspells hfront hfs
    (.skip hrest (ways_of_cut ha hspells hnull hc hrest) hms)
  have hmap : ∀ fs : List Found, (fs.map fun f => String.ofList f.taken)
      = (fs.map Found.taken).map String.ofList := fun _ => by
    rw [List.map_map]
    rfl
  rw [texts_ofNode ha hspells hnull hns, texts_ofNode ha hspells hnull hfs,
    texts_ofNode ha hspells hnull hgs, List.map_append, hmap, hmap, hmap, hmap, htaken, htaken']

/-- Nothing is found in the empty text. -/
theorem texts_nil : (ofNode a).texts [] = [] := texts_ofNode ha hspells hnull (.done rfl)

/-- There are no matches among characters that cut the text. -/
theorem texts_of_forall_cut {text : List Char} (h : ∀ c ∈ text, Cut P c) :
    (ofNode a).texts text = [] := by
  induction text with
  | nil => exact texts_nil ha hspells hnull
  | cons c text ih =>
      obtain ⟨hc, htext⟩ := List.forall_mem_cons.1 h
      rw [← List.nil_append (c :: text), texts_append ha hspells hnull hc,
        texts_nil ha hspells hnull, ih htext]
      rfl

end

end CodeAtlas.Pattern
