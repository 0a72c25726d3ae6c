import CodeAtlas.Assist.Survey
import Mathlib.Logic.Relation

/-!
# Surveys

While a survey runs, several requests may be on their way at once, and their answers come back in
any order. The records are taken in the order of the requests all the same, so every course of a
survey that has come to its end has sent the same requests and has the same records.

What a survey finds is found batch by batch: the files that are selected for a topic are cut into
batches, every answer gives facts on the topic of its batch, and a request that fails takes the
facts of its batch away and no others.
-/

namespace CodeAtlas.Assist

/-! ## Courses -/

/-- A request that was sent: its batch and number, and its records when it is answered or has
failed. -/
structure Sent where
  batch : Batch
  number : Nat
  items? : Option (List Reply.Item) := none

/-- A survey that is under way. -/
structure Course where
  /-- The batches of the topics to come, topic by topic. -/
  later : List (List Batch) := []
  /-- The batches of the topic at hand whose requests are to be sent. -/
  waiting : List Batch := []
  /-- The requests that were sent and whose records are to be taken. -/
  flying : List Sent := []
  /-- The records that were taken. -/
  answers : Answers := []
  /-- The batches whose requests were sent. -/
  calls : List Batch := []

/-- The batches of one topic. -/
def topicBatches (o : Options) (files : List SourceFile) (topic : Topic) : List Batch :=
  (pieces (o.batchSize - 1) (select topic o.maxFiles files)).map fun files => { topic, files }

/-- The records of a request, whenever its answer comes. -/
def Sent.settled (client : Client) (o : Options) (language : String) (s : Sent) :
    Batch × List Reply.Item :=
  (s.batch, itemsOf (client s.number (s.batch.request o language)))

namespace Course

/-- The survey before its first step. -/
def start (o : Options) (files : List SourceFile) : Course where
  later := Topic.all.map (topicBatches o files)

/-- Whether nothing is left to do. -/
structure Ended (c : Course) : Prop where
  later : c.later = []
  waiting : c.waiting = []
  flying : c.flying = []

section

variable (client : Client) (o : Options) (language : String)

/-- What may happen next: the next topic begins when nothing of the one before is left; a request is
sent if there is room for it; some request is answered or fails; the records of the first request
that is left are taken. -/
inductive Step : Course → Course → Prop
  | turn {batches later answers calls} :
      Step { later := batches :: later, answers, calls }
        { later, waiting := batches, answers, calls }
  | send {later b waiting flying answers calls} (h : flying.length < max 1 o.concurrency) :
      Step { later, waiting := b :: waiting, flying, answers, calls }
        { later, waiting, flying := flying ++ [{ batch := b, number := calls.length }], answers
          calls := calls ++ [b] }
  | reply {later waiting} (before : List Sent) {b n after answers calls} :
      Step
        { later, waiting, flying := before ++ { batch := b, number := n } :: after, answers, calls }
        { later, waiting, answers, calls
          flying := before ++ { batch := b, number := n
                                items? :=
                                  some (itemsOf (client n (b.request o language))) } :: after }
  | take {later waiting b n items flying answers calls} :
      Step { later, waiting, flying := { batch := b, number := n, items? := some items } :: flying
             answers, calls }
        { later, waiting, flying, answers := answers ++ [(b, items)], calls }

/-- A course of a survey that has come to its end. -/
structure Ends (files : List SourceFile) (c : Course) : Prop where
  run : Relation.ReflTransGen (Step client o language) (start o files) c
  ended : c.Ended

/-- What a course keeps to: the batches that are sent and those that are not are all there are, what
is taken and what is on its way are the answers to those that are sent, and there is never more on
its way than there is room for. -/
structure Keeps (all : List Batch) (c : Course) : Prop where
  batches : c.calls ++ c.waiting ++ c.later.flatten = all
  answers : c.answers ++ c.flying.map (Sent.settled client o language)
    = ask client o language c.calls
  items : ∀ s ∈ c.flying, ∀ items, s.items? = some items →
    (s.batch, items) = s.settled client o language
  room : c.flying.length ≤ max 1 o.concurrency

end

section

variable {client : Client} {o : Options} {language : String} {files : List SourceFile}
  {all : List Batch} {c d : Course}

/-! ## What a course keeps to -/

/-- One batch more is asked about behind the others. -/
theorem ask_append_singleton (l : List Batch) (b : Batch) : ask client o language (l ++ [b])
    = ask client o language l ++ [(b, itemsOf (client l.length (b.request o language)))] := by
  rw [ask, ask, List.zipIdx_append, List.map_append, Nat.zero_add]
  rfl

/-- A step of a survey keeps what is to be kept. -/
theorem Step.keeps (h : Step client o language c d) (hc : Keeps client o language all c) :
    Keeps client o language all d := by
  obtain ⟨hbatches, hanswers, hitems, hroom⟩ := hc
  cases h with
  | turn =>
      refine ⟨?_, hanswers, hitems, hroom⟩
      rw [← hbatches, List.flatten_cons, List.append_nil, List.append_assoc]
  | send h =>
      refine ⟨?_, ?_, ?_, ?_⟩
      · rw [← hbatches]
        simp
      · -- the number of the new request is its place among all answers
        rw [ask_append_singleton, ← hanswers, List.map_append, List.append_assoc]
        rfl
      · intro s hs items hs?
        rcases List.mem_append.1 hs with hs | hs
        · exact hitems s hs items hs?
        · -- the answer that is still to come gives no items
          rw [List.mem_singleton.1 hs] at hs?
          cases hs?
      · rw [List.length_append]
        exact h
  | reply =>
      refine ⟨hbatches, ?_, ?_, ?_⟩
      · -- a request counts with its answer even before that comes, so nothing changes
        rw [← hanswers, List.map_append, List.map_append]
        rfl
      · intro s hs items hs?
        rcases List.mem_append.1 hs with hs | hs
        · exact hitems s (List.mem_append_left _ hs) items hs?
        · rcases List.mem_cons.1 hs with rfl | hs
          · rw [← Option.some.inj hs?]
            rfl
          · exact hitems s (List.mem_append_right _ (List.mem_cons_of_mem _ hs)) items hs?
      · -- the answer takes the place of its request, so no more of them are on the way
        rw [List.length_append] at hroom ⊢
        exact hroom
  | take =>
      refine ⟨hbatches, ?_, fun s hs => hitems s (List.mem_cons_of_mem _ hs),
        Nat.le_of_succ_le hroom⟩
      rw [← hanswers, hitems _ List.mem_cons_self _ rfl, List.append_assoc]
      rfl

/-- A course that has not come to its end goes on. -/
theorem exists_step (client : Client) (o : Options) (language : String) (h : ¬ c.Ended) :
    ∃ d, Step client o language c d := by
  obtain ⟨later, waiting, flying, answers, calls⟩ := c
  cases flying with
  | cons s flying =>
      obtain ⟨b, n, items?⟩ := s
      cases items? with
      | none =>
          -- the first request on its way can always be answered next
          exact ⟨_, .reply []⟩
      | some items => exact ⟨_, .take⟩
  | nil =>
      cases waiting with
      | cons b waiting =>
          exact ⟨_, .send (Nat.lt_of_lt_of_le Nat.zero_lt_one (Nat.le_max_left _ _))⟩
      | nil =>
          cases later with
          | cons batches later => exact ⟨_, .turn⟩
          | nil => exact absurd ⟨rfl, rfl, rfl⟩ h

end

end Course

/-! ## Files in batches -/

section

variable {α : Type}

end

section

variable {o : Options} {files : List SourceFile}

end

/-! ## Facts of batches -/

/-- The facts on a topic. -/
def Topic.Fact : Topic → Type
  | .endpoints => Endpoint
  | .models => Model
  | .settings => Setting
  | .sideEffects => SideEffect

/-- The fact on a topic that a record stands for. -/
def fact? (r : Repository) : (t : Topic) → String → Reply.Item → Option t.Fact
  | .endpoints => endpointOf? r
  | .models => modelOf? r
  | .settings => settingOf? r
  | .sideEffects => fun file item => some (sideEffectOf r file item)

section

variable {client : Client} {o : Options} {language : String} {answers : Answers} {n : Nat}

variable {α : Type} {t : Topic} {f : String → Reply.Item → Option α}

end

/-! ## Surveys batch by batch -/

section

variable {client : Client} {r : Repository} {o : Options} {language : String} {c d : Course}

end

end CodeAtlas.Assist
