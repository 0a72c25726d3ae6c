import CodeAtlas.Proofs.Text.Lines
import CodeAtlas.Scan
import Mathlib.Data.List.Forall2
import Mathlib.Data.List.Induction

/-!
# What a scan finds

Side effects and settings are scanned for in the same way: every match of every rule has a key, and
an item with a key that is not known yet is added. One step either changes nothing or adds one item
and its key. By induction on the matches, a scan adds the first match of each new key, in order, and
leaves what was found before; behind it all keys of the matches are known. So the same scan again
adds nothing, and tables of rules may be put together.
-/

namespace CodeAtlas

open Text

section
variable {α β κ σ : Type} {key : α → κ}

/-! ## Steps and runs -/

/-- A step that adds an item and its key, unless the key is known. -/
def AddsOnce (key : α → κ) (keys : σ → List κ) (add : Array α × σ → α → Array α × σ) : Prop :=
  ∀ state a, (key a ∈ keys state.2 → add state a = state) ∧ (key a ∉ keys state.2 →
    (add state a).1 = state.1.push a ∧ keys (add state a).2 = key a :: keys state.2)

variable {keys : σ → List κ} {add : Array α × σ → α → Array α × σ}

/-- Behind a run all keys of the items are known, and no others than before. -/
theorem AddsOnce.keys_foldl (h : AddsOnce key keys add) (l : List α) (state : Array α × σ) (k : κ) :
    k ∈ keys (l.foldl add state).2 ↔ k ∈ keys state.2 ∨ k ∈ l.map key := by
  induction l generalizing state with
  | nil => simp
  | cons a l ih =>
      rw [List.foldl_cons, ih, List.map_cons, List.mem_cons]
      by_cases ha : key a ∈ keys state.2
      · rw [(h state a).1 ha]
        constructor
        · exact Or.imp_right .inr
        · rintro (hk | rfl | hk)
          · exact .inl hk
          · exact .inl ha
          · exact .inr hk
      · rw [((h state a).2 ha).2, List.mem_cons, or_assoc]
        exact or_left_comm

/-- A run over items whose keys are known changes nothing. -/
theorem AddsOnce.foldl_of_mem (h : AddsOnce key keys add) {l : List α} {state : Array α × σ}
    (hl : ∀ a ∈ l, key a ∈ keys state.2) : l.foldl add state = state := by
  induction l with
  | nil => rfl
  | cons a l ih =>
      obtain ⟨ha, hl⟩ := List.forall_mem_cons.1 hl
      rw [List.foldl_cons, (h state a).1 ha, ih hl]

/-- A run keeps what no step changes. -/
theorem foldl_keeps (f : σ → β) {step : σ → α → σ} (h : ∀ state a, f (step state a) = f state)
    (l : List α) (state : σ) : f (l.foldl step state) = f state := by
  induction l generalizing state with
  | nil => rfl
  | cons a l ih => rw [List.foldl_cons, ih, h]

/-! ## First items -/

variable [DecidableEq κ] {old : List κ}

/-- The key of an item is not old, and no item in front has it. -/
def IsNew (key : α → κ) (old : List κ) (front : List α) (a : α) : Prop :=
  key a ∉ old ∧ ∀ b ∈ front, key b ≠ key a

instance (front : List α) (a : α) : Decidable (IsNew key old front a) :=
  inferInstanceAs (Decidable (_ ∧ _))

/-- The items whose key is not old, each where its key stands for the first time. -/
def firstNew (key : α → κ) (old : List κ) (l : List α) : List α :=
  (l.zipIdx.filter fun p => decide (IsNew key old (l.take p.2) p.1)).map (·.1)

/-- The new ones of a list with an item behind it are those of the list, and the item if it is
new. -/
theorem firstNew_append_singleton (l : List α) (a : α) :
    firstNew key old (l ++ [a]) = firstNew key old l ++ if IsNew key old l a then [a] else [] := by
  have hfront : l.zipIdx.filter (fun p => decide (IsNew key old ((l ++ [a]).take p.2) p.1)) =
      l.zipIdx.filter fun p => decide (IsNew key old (l.take p.2) p.1) := by
    refine List.filter_congr fun p hp => ?_
    have hlt := List.snd_lt_of_mem_zipIdx hp
    rw [List.take_append_of_le_length (by omega)]
  have hlast : [a].zipIdx (0 + l.length) = [(a, l.length)] := by
    rw [Nat.zero_add]
    rfl
  have htake : (l ++ [a]).take l.length = l := List.take_left
  rw [firstNew, List.zipIdx_append, List.filter_append, List.map_append, hfront, hlast,
    List.filter_cons, List.filter_nil, htake]
  by_cases h : IsNew key old l a
  · rw [if_pos (decide_eq_true h), if_pos h]
    rfl
  · rw [if_neg (mt of_decide_eq_true h), if_neg h]
    rfl

/-- Items may be taken for what they stand for. -/
theorem firstNew_map {f : β → α} (l : List β) :
    firstNew key old (l.map f) = (firstNew (fun b => key (f b)) old l).map f := by
  induction l using List.reverseRecOn with
  | nil => rfl
  | append_singleton l b ih =>
      have hnew : IsNew key old (l.map f) (f b) ↔ IsNew (fun b => key (f b)) old l b :=
        and_congr_right' List.forall_mem_map
      rw [List.map_append, List.map_singleton, firstNew_append_singleton,
        firstNew_append_singleton, ih, List.map_append]
      by_cases h : IsNew key old (l.map f) (f b)
      · rw [if_pos h, if_pos (hnew.1 h)]
        rfl
      · rw [if_neg h, if_neg (mt hnew.2 h)]
        rfl

/-- A run adds the first items with new keys to those found. -/
theorem AddsOnce.foldl (h : AddsOnce key keys add) (l : List α) (state : Array α × σ) :
    (l.foldl add state).1.toList = state.1.toList ++ firstNew key (keys state.2) l := by
  induction l using List.reverseRecOn with
  | nil => exact (List.append_nil _).symm
  | append_singleton l a ih =>
      have hkeys := h.keys_foldl l state (key a)
      rw [List.foldl_append, List.foldl_cons, List.foldl_nil, firstNew_append_singleton,
        ← List.append_assoc, ← ih]
      by_cases ha : key a ∈ keys (l.foldl add state).2
      · have hold : ¬ IsNew key (keys state.2) l a := by
          rintro ⟨hnew, hfirst⟩
          rcases hkeys.1 ha with hk | hk
          · exact hnew hk
          · obtain ⟨b, hb, hkey⟩ := List.mem_map.1 hk
            exact hfirst b hb hkey
        rw [(h _ a).1 ha, if_neg hold, List.append_nil]
      · rw [hkeys, not_or] at ha
        have hnew : IsNew key (keys state.2) l a :=
          ⟨ha.1, fun b hb hkey => ha.2 (List.mem_map.2 ⟨b, hb, hkey⟩)⟩
        rw [((h _ a).2 (by rwa [hkeys, not_or])).1, if_pos hnew, Array.toList_push]

end

/-! ## Keys -/

/-- What tells side effects apart. -/
def SideEffect.key (e : SideEffect) : EffectCategory × String × Option String :=
  (e.category, e.operation, e.target)

/-- A side effect is added, and its key is seen, unless the key has been seen. -/
theorem addEffect_eq (state : Array SideEffect × Seen) (e : SideEffect) : addEffect state e =
    if e.key ∈ state.2.effects then state
    else (state.1.push e, { state.2 with effects := e.key :: state.2.effects }) := by
  have hcontains : state.2.effects.contains (e.category, e.operation, e.target) = true ↔
      e.key ∈ state.2.effects := List.contains_iff_mem
  rw [addEffect, Seen.addEffect]
  by_cases h : e.key ∈ state.2.effects
  · rw [if_pos h, if_pos (hcontains.2 h)]
  · rw [if_neg h, if_neg (mt hcontains.1 h)]
    rfl

/-- A setting is added, and its key is seen, unless the key has been seen. -/
theorem addSetting_eq (state : Array Setting × Seen) (s : Setting) : addSetting state s =
    if s.key ∈ state.2.settings then state
    else (state.1.push s, { state.2 with settings := s.key :: state.2.settings }) := by
  rw [addSetting, Seen.addSetting]
  by_cases h : s.key ∈ state.2.settings
  · rw [if_pos h, if_pos (List.contains_iff_mem.2 h)]
  · rw [if_neg h, if_neg (mt List.contains_iff_mem.1 h)]

/-- Side effects are added once for each key. -/
theorem addsOnce_addEffect : AddsOnce SideEffect.key Seen.effects addEffect := by
  intro state e
  rw [addEffect_eq]
  refine ⟨fun h => if_pos h, fun h => ?_⟩
  rw [if_neg h]
  exact ⟨rfl, rfl⟩

/-- Settings are added once for each key. -/
theorem addsOnce_addSetting : AddsOnce Setting.key Seen.settings addSetting := by
  intro state s
  rw [addSetting_eq]
  refine ⟨fun h => if_pos h, fun h => ?_⟩
  rw [if_neg h]
  exact ⟨rfl, rfl⟩

/-- A side effect leaves the keys of settings. -/
theorem settings_addEffect (state : Array SideEffect × Seen) (e : SideEffect) :
    (addEffect state e).2.settings = state.2.settings := by
  rw [addEffect_eq]
  split <;> rfl

/-- A setting leaves the keys of side effects. -/
theorem effects_addSetting (state : Array Setting × Seen) (s : Setting) :
    (addSetting state s).2.effects = state.2.effects := by
  rw [addSetting_eq]
  split <;> rfl

/-! ## Matches -/

/-- The text of a named group without white space around it, unless the group is not part of the
match or nothing is left of it. -/
def Match.trimmed? (m : Match) (name : String) : Option String :=
  ((m.named? name).map fun g => trimmed g.text).filter (· ≠ "")

/-- What a match captures under a name is the trimmed text of the group. -/
theorem Match.capture?_eq (m : Match) (name : String) : m.capture? name = m.trimmed? name := by
  rw [capture?, trimmed?]
  cases m.named? name with
  | none => rfl
  | some g =>
      show (if (trimmed g.text).isEmpty then none else some (trimmed g.text))
        = (some (trimmed g.text)).filter (· ≠ "")
      rw [Option.filter_some]
      by_cases h : trimmed g.text = ""
      · rw [if_pos (String.isEmpty_iff.2 h), if_neg (by simp [h])]
      · rw [if_neg (mt String.isEmpty_iff.1 h), if_pos (by simp [h])]

/-- The line on which a match starts: one more than the newlines in front of it. -/
def SourceFile.lineOf (file : SourceFile) (m : Match) : Nat :=
  1 + ((encode file.content).take m.start).count newlineByte

/-- The matches of rules for side effects in a file, rule by rule. -/
def effectMatches (file : SourceFile) (rules : List EffectRule) : List (EffectRule × Match) :=
  rules.flatMap fun rule => (rule.pattern.findAll file.content).map (rule, ·)

/-- The matches of rules for settings in a file, rule by rule, each with the name it captures; those
that capture none do not count. -/
def settingMatches (file : SourceFile) (rules : List SettingRule) :
    List (SettingRule × Match × String) :=
  rules.flatMap fun rule => (rule.pattern.findAll file.content).filterMap fun m =>
    (m.trimmed? "key").map (rule, m, ·)

/-- The category of a rule, what a match captures of the operation and of the target, or else what
the rule says of them. -/
def EffectRule.key (rule : EffectRule) (m : Match) : EffectCategory × String × Option String :=
  (rule.category, ((m.trimmed? "op").map snakeCased).getD rule.operation,
    (m.trimmed? "target").or rule.target)

/-- The side effect is that of a match: it has its key, and stands on the line where the match
starts. -/
structure GivesEffect (r : Repository) (f : SourceFile) (p : EffectRule × Match) (e : SideEffect) :
    Prop where
  key : (e.category, e.operation, e.target) = p.1.key p.2
  file : e.file = f.rel
  line : e.line = f.lineOf p.2
  description : e.description = none
  sourceLink : e.sourceLink = r.sourceLink f.rel (f.lineOf p.2)

/-- The setting is that of a match: it has the name and the default that the match captures, is
required if there is no default, and stands on the line where the match starts. -/
structure GivesSetting (r : Repository) (f : SourceFile) (p : SettingRule × Match × String)
    (s : Setting) : Prop where
  key : s.key = p.2.2
  source : s.source = p.1.source
  default : s.default = (p.2.1.trimmed? "default").map unquoted
  required : s.required = true ↔ p.2.1.trimmed? "default" = none
  file : s.file = f.rel
  line : s.line = f.lineOf p.2.1
  description : s.description = none
  sourceLink : s.sourceLink = r.sourceLink f.rel (f.lineOf p.2.1)

/-- The side effect that a scan adds for a match. -/
def effectOf (r : Repository) (file : SourceFile) (p : EffectRule × Match) : SideEffect :=
  p.1.fact r file.rel (file.lineOf p.2) p.2

/-- The setting that a scan adds for a match. -/
def settingOf (r : Repository) (file : SourceFile) (p : SettingRule × Match × String) : Setting :=
  p.1.fact r file.rel (file.lineOf p.2.1) p.2.1 p.2.2

/-- The entry that a rule makes of a match is the one that they give. -/
theorem givesEffect_effectOf (r : Repository) (file : SourceFile) (p : EffectRule × Match) :
    GivesEffect r file p (effectOf r file p) where
  key := by rw [effectOf, EffectRule.fact, EffectRule.key, Match.capture?_eq, Match.capture?_eq]
  file := rfl
  line := rfl
  description := rfl
  sourceLink := rfl

/-- The entry that a rule makes of a match and a name is the one that they give. -/
theorem givesSetting_settingOf (r : Repository) (file : SourceFile)
    (p : SettingRule × Match × String) : GivesSetting r file p (settingOf r file p) where
  key := rfl
  source := rfl
  default := congrArg (Option.map unquoted) (p.2.1.capture?_eq "default")
  required := by
    rw [← Match.capture?_eq, settingOf, SettingRule.fact, Option.isNone_map,
      Option.isNone_iff_eq_none]
  file := rfl
  line := rfl
  description := rfl
  sourceLink := rfl

/-- The key of an entry is that of its rule at the match. -/
theorem key_effectOf (r : Repository) (file : SourceFile) (p : EffectRule × Match) :
    (effectOf r file p).key = p.1.key p.2 := (givesEffect_effectOf r file p).key

/-- The matches of a pattern stand on the lines where they start. -/
theorem SourceFile.find_eq_map (file : SourceFile) (p : Pattern) :
    file.find p = (p.findAll file.content).map fun m => (file.lineOf m, m) := by
  rw [SourceFile.find]
  refine List.map_congr_left fun m _ => ?_
  rw [LineIndex.lineOf_ofText, LineIndex.lineAt_eq, SourceFile.lineOf]

/-- Collecting side effects adds the entries of all matches, rule by rule. -/
theorem collectEffects_eq (r : Repository) (rules : List EffectRule) (file : SourceFile)
    (state : Array SideEffect × Seen) : collectEffects r rules file state =
      ((effectMatches file rules).map (effectOf r file)).foldl addEffect state := by
  rw [collectEffects, effectMatches, List.map_flatMap]
  simp only [SourceFile.find_eq_map, List.map_map]
  rfl

/-- Collecting settings adds the entries of all matches, rule by rule. -/
theorem collectSettings_eq (r : Repository) (rules : List SettingRule) (file : SourceFile)
    (state : Array Setting × Seen) : collectSettings r rules file state =
      ((settingMatches file rules).map (settingOf r file)).foldl addSetting state := by
  rw [collectSettings, settingMatches, List.map_flatMap]
  have hentry : ∀ (rule : SettingRule) (m : Match),
      rule.fact? r file.rel (file.lineOf m) m =
        ((m.trimmed? "key").map (rule, m, ·)).map (settingOf r file) := by
    intro rule m
    rw [SettingRule.fact?, Match.capture?_eq, Option.map_map]
    rfl
  simp only [SourceFile.find_eq_map, List.filterMap_map, List.map_filterMap,
    Function.comp_def, hentry]

/-- A scan by rules, where matches have keys and give entries. What was found before stays in front,
and behind it comes the entry of each match that is the first with its key, if that is new. Then all
keys of the matches are known. The same scan again changes nothing, and tables of rules may be put
together. -/
structure Scans {ρ μ α κ : Type} [DecidableEq κ] (matchesOf : List ρ → List μ) (key : μ → κ)
    (Gives : μ → α → Prop) (known : Seen → List κ)
    (scan : List ρ → Array α × Seen → Array α × Seen) : Prop where
  found (rules : List ρ) (state : Array α × Seen) :
    ∃ added, (scan rules state).1.toList = state.1.toList ++ added
      ∧ List.Forall₂ Gives (firstNew key (known state.2) (matchesOf rules)) added
  known (rules : List ρ) (state : Array α × Seen) (k : κ) :
    k ∈ known (scan rules state).2 ↔ k ∈ known state.2 ∨ ∃ m ∈ matchesOf rules, key m = k
  again (rules : List ρ) (state : Array α × Seen) : scan rules (scan rules state) = scan rules state
  append (first second : List ρ) (state : Array α × Seen) :
    scan (first ++ second) state = scan second (scan first state)

/-- A scan that is a run over the entries of matches. -/
theorem AddsOnce.scans {ρ μ α κ : Type} [DecidableEq κ] {keyOf : α → κ} {known : Seen → List κ}
    {add : Array α × Seen → α → Array α × Seen} (h : AddsOnce keyOf known add)
    {matchesOf : List ρ → List μ}
    (happend : ∀ first second, matchesOf (first ++ second) = matchesOf first ++ matchesOf second)
    {key : μ → κ} {Gives : μ → α → Prop} {entry : μ → α} (hkey : ∀ m, keyOf (entry m) = key m)
    (hgives : ∀ m, Gives m (entry m)) {scan : List ρ → Array α × Seen → Array α × Seen}
    (hscan : ∀ rules state, scan rules state = ((matchesOf rules).map entry).foldl add state) :
    Scans matchesOf key Gives known scan where
  found rules state := by
    refine ⟨(firstNew key (known state.2) (matchesOf rules)).map entry, ?_, ?_⟩
    · rw [hscan, h.foldl, firstNew_map, funext hkey]
    · exact List.forall₂_map_right_iff.2 (List.forall₂_same.2 fun m _ => hgives m)
  known rules state k := by
    rw [hscan, h.keys_foldl, List.map_map, List.mem_map]
    simp only [Function.comp_apply, hkey]
  again rules state := by
    rw [hscan rules (scan rules state)]
    refine h.foldl_of_mem fun a ha => ?_
    rw [hscan, h.keys_foldl]
    exact .inr (List.mem_map_of_mem ha)
  append first second state := by
    rw [hscan, hscan first, hscan second, happend, List.map_append, List.foldl_append]

/-- A scan for side effects adds, for each new key, the side effect of its first match, and likewise
a scan for settings; neither touches the keys of the other. -/
theorem scans_first_matches (r : Repository) (file : SourceFile) :
    Scans (effectMatches file) (fun p => p.1.key p.2) (GivesEffect r file) Seen.effects
        (fun rules => collectEffects r rules file)
      ∧ Scans (settingMatches file) (fun p => p.2.2) (GivesSetting r file) Seen.settings
        (fun rules => collectSettings r rules file)
      ∧ (∀ rules state, (collectEffects r rules file state).2.settings = state.2.settings)
      ∧ ∀ rules state, (collectSettings r rules file state).2.effects = state.2.effects := by
  refine ⟨?_, ?_, fun rules state => ?_, fun rules state => ?_⟩
  · exact addsOnce_addEffect.scans (fun first second => List.flatMap_append) (key_effectOf r file)
      (givesEffect_effectOf r file) fun rules state => collectEffects_eq r rules file state
  · exact addsOnce_addSetting.scans (fun first second => List.flatMap_append) (fun _ => rfl)
      (givesSetting_settingOf r file) fun rules state => collectSettings_eq r rules file state
  · rw [collectEffects_eq]
    exact foldl_keeps (fun state : Array SideEffect × Seen => state.2.settings)
      settings_addEffect _ _
  · rw [collectSettings_eq]
    exact foldl_keeps (fun state : Array Setting × Seen => state.2.effects) effects_addSetting _ _

end CodeAtlas
