import CodeAtlas.Proofs.Text.Trim
import CodeAtlas.Proofs.Text.Utf8
import CodeAtlas.Reply.EventStream

/-!
# Streams in chunks

A stream is read from chunks that may end anywhere. The reply that it carries, or the error, is the
one that its bytes carry when they are read line by line, so it does not depend on the chunks.
Behind the line that ends the reply each chunk still has one line read, and the reply stays as it is
unless such a line is a fragment or no event.
-/

namespace CodeAtlas.Reply

open Text

/-! ## Line by line -/

/-- What a line says behind `data:`, without white space around it. -/
def dataOf? (line : List UInt8) : Option (List Char) :=
  (after? "data:".toList (trim (decode line))).map trim

/-- The content that the first choice of an event has under a name. -/
def contentAt? (event : Json) (name : String) : Option String := do
  let choices ← (← event.get? "choices").arr?
  let choice ← choices.head?
  (← (← choice.get? name).get? "content").str?

/-- The fragment of a reply in an event. -/
def contentOf? (event : Json) : Option String :=
  (contentAt? event "delta").or (contentAt? event "message")

/-- The data of the lines in front of the one that ends the reply, but for those that are empty. -/
def heard (lines : List (List UInt8)) : List (List Char) :=
  ((lines.filterMap dataOf?).takeWhile (· ≠ "[DONE]".toList)).filter (· ≠ [])

/-- The reply that some data carry: the contents of all events, in order, unless some data are no
JSON. Then the first of these are the error. -/
def join (data : List (List Char)) : Except StreamError String :=
  match data.find? fun d => (Json.parseChars? d).isNone with
  | some d => .error ⟨d⟩
  | none => .ok (String.join (data.filterMap fun d => Json.parseChars? d >>= contentOf?))

/-- The reply that some bytes carry line by line. -/
def transcript (bytes : List UInt8) : Except StreamError String := join (heard (bytes.splitOn 10))

/-! ## Events -/

/-- A member of `null` is absent. -/
theorem get?_getD_null (j? : Option Json) (key : String) :
    (j?.getD .null).get? key = j? >>= fun j => j.get? key := by
  cases j? <;> rfl

/-- A member that is absent has no text. -/
theorem str?_memberOf (j : Json) (key : String) :
    (memberOf j key).str? = j.get? key >>= Json.str? := by
  rw [memberOf]
  cases j.get? key <;> rfl

/-- A value that is no list has no first item. -/
theorem firstOf_eq (j : Json) : firstOf j = (j.arr? >>= List.head?).getD .null := by
  cases j with
  | arr items => cases items <;> rfl
  | _ => rfl

/-- The path through `null` and the path through options lead to the same content. -/
theorem contentAt?_eq (event : Json) (name : String) :
    (memberOf (memberOf (firstOf (memberOf event "choices")) name) "content").str?
      = contentAt? event name := by
  have hchoices : (memberOf event "choices").arr? = event.get? "choices" >>= Json.arr? := by
    rw [memberOf]
    cases event.get? "choices" <;> rfl
  have hname : memberOf (firstOf (memberOf event "choices")) name
      = (((event.get? "choices" >>= Json.arr?) >>= List.head?) >>= fun j => j.get? name).getD
          .null := by
    rw [memberOf, firstOf_eq, get?_getD_null, hchoices]
  rw [str?_memberOf, hname, get?_getD_null, contentAt?]
  simp only [bind_assoc]

/-- The fragment of an event is its content. -/
theorem fragmentOf?_eq (event : Json) : fragmentOf? event = contentOf? event := by
  have hdelta := contentAt?_eq event "delta"
  have hmessage := contentAt?_eq event "message"
  dsimp only [fragmentOf?]
  rw [hdelta, hmessage, contentOf?, Option.orElse_eq_or]

/-- What a line says, by its data. -/
theorem ofLine_eq (line : List UInt8) :
    Event.ofLine line = match dataOf? line with
      | none => .skip
      | some data =>
          if data = "[DONE]".toList then .done
          else if data = [] then .skip
          else match Json.parseChars? data with
            | none => .malformed ⟨data⟩
            | some event => ((contentOf? event).map Event.fragment).getD .skip := by
  rw [Event.ofLine, dataOf?]
  cases after? "data:".toList (trim (decode line)) with
  | none => rfl
  | some rest =>
      simp only [Option.map_some, List.isEmpty_iff, fragmentOf?_eq]
      split
      · rfl
      · split
        · rfl
        · cases Json.parseChars? (trim rest) with
          | none => rfl
          | some event =>
              dsimp only
              cases contentOf? event <;> rfl

/-! ## Lines -/

/-- Bytes without a line break have no line yet. -/
theorem splitLine?_eq_none_iff {bytes : List UInt8} :
    EventStream.splitLine? bytes = none ↔ 10 ∉ bytes := by
  induction bytes with
  | nil => simp [EventStream.splitLine?]
  | cons b rest ih =>
      rw [EventStream.splitLine?]
      split
      · next h => simp [h]
      · next h => simp [ih, Ne.symm h]

/-- A line ends in front of the first line break. -/
theorem splitLine?_eq_some_iff {bytes line rest : List UInt8} :
    EventStream.splitLine? bytes = some (line, rest) ↔ bytes = line ++ 10 :: rest ∧ 10 ∉ line := by
  induction bytes generalizing line with
  | nil => simp [EventStream.splitLine?]
  | cons b more ih =>
      rw [EventStream.splitLine?]
      by_cases h : b = 10
      · rw [if_pos h]
        cases line with
        | nil => simp [h]
        | cons c line =>
            simp only [Option.some.injEq, Prod.mk.injEq, List.cons_append, List.cons.injEq]
            constructor
            · rintro ⟨⟨⟩, -⟩
            · rintro ⟨⟨rfl, -⟩, hout⟩
              exact absurd (h ▸ List.mem_cons_self) hout
      · rw [if_neg h]
        cases line with
        | nil => simp [h]
        | cons c line =>
            simp only [Option.map_eq_some_iff, Prod.mk.injEq, List.cons.injEq, List.cons_append,
              List.mem_cons, not_or]
            constructor
            · rintro ⟨⟨line', rest'⟩, hsplit, ⟨rfl, rfl⟩, rfl⟩
              obtain ⟨rfl, hout⟩ := ih.1 hsplit
              exact ⟨⟨rfl, rfl⟩, Ne.symm h, hout⟩
            · rintro ⟨⟨rfl, rfl⟩, -, hout⟩
              exact ⟨(line, rest), ih.2 ⟨rfl, hout⟩, ⟨rfl, rfl⟩, rfl⟩

/-- The first line is the first of all. -/
theorem splitOn_of_splitLine? {bytes line rest : List UInt8}
    (h : EventStream.splitLine? bytes = some (line, rest)) :
    bytes.splitOn 10 = line :: rest.splitOn 10 := by
  obtain ⟨rfl, hout⟩ := splitLine?_eq_some_iff.1 h
  exact List.splitOn_append_cons_self_of_not_mem hout rest

/-- More bytes behind a line do not change it. -/
theorem splitLine?_append {bytes line rest : List UInt8}
    (h : EventStream.splitLine? bytes = some (line, rest)) (more : List UInt8) :
    EventStream.splitLine? (bytes ++ more) = some (line, rest ++ more) := by
  obtain ⟨rfl, hout⟩ := splitLine?_eq_some_iff.1 h
  exact splitLine?_eq_some_iff.2 ⟨by simp, hout⟩

/-- What holds of a last line, and of a line in front of others of which it holds, holds of all
bytes. -/
theorem lines_induction {P : List UInt8 → Prop}
    (last : ∀ bytes, EventStream.splitLine? bytes = none → P bytes)
    (cons : ∀ bytes line rest, EventStream.splitLine? bytes = some (line, rest) → P rest → P bytes)
    (bytes : List UInt8) : P bytes := by
  induction hn : bytes.length using Nat.strongRecOn generalizing bytes with
  | ind n ih =>
      cases h : EventStream.splitLine? bytes with
      | none => exact last bytes h
      | some p =>
          obtain ⟨line, rest⟩ := p
          have hlt := EventStream.length_lt_of_splitLine? h
          exact cons bytes line rest h (ih rest.length (hn ▸ hlt) rest rfl)

/-! ## The transcript of one more line -/

/-- What is heard of a line, and then of those behind it. -/
theorem heard_cons (line : List UInt8) (lines : List (List UInt8)) :
    heard (line :: lines) = match dataOf? line with
      | none => heard lines
      | some data =>
          if data = "[DONE]".toList then []
          else if data = [] then heard lines
          else data :: heard lines := by
  cases h : dataOf? line with
  | none => rw [heard, List.filterMap_cons_none h, heard]
  | some data =>
      dsimp only
      rw [heard, List.filterMap_cons_some h]
      split
      · next hdone =>
        rw [List.takeWhile_cons_of_neg (by rw [decide_eq_true_eq]; exact not_not_intro hdone)]
        rfl
      · next hdone =>
        rw [List.takeWhile_cons_of_pos (by rw [decide_eq_true_eq]; exact hdone)]
        split
        · next hempty =>
          exact List.filter_cons_of_neg (by rw [decide_eq_true_eq]; exact not_not_intro hempty)
        · next hempty => exact List.filter_cons_of_pos (decide_eq_true hempty)

/-- Data in front of others either are the error or put their content in front of the reply. -/
theorem join_cons (data : List Char) (more : List (List Char)) :
    join (data :: more) = match Json.parseChars? data with
      | none => .error ⟨data⟩
      | some event => (join more).map ((contentOf? event).getD "" ++ ·) := by
  rw [join, List.find?_cons]
  cases hdata : Json.parseChars? data with
  | none => rfl
  | some event =>
      rw [join]
      dsimp only [Option.isNone_some]
      cases more.find? fun d => (Json.parseChars? d).isNone with
      | some d => rfl
      | none =>
          cases hc : contentOf? event with
          | none => simp [hdata, hc, Except.map]
          | some text => simp [hdata, hc, Except.map, String.join_cons]

namespace EventStream

variable {s : EventStream} {bytes line rest : List UInt8}

/-- The reply of the bytes that are left, read at once. -/
def hear (s : EventStream) (bytes : List UInt8) : Except StreamError String :=
  match s.addBytes bytes with
  | (.ok (), next) => next.finish
  | (.error e, _) => .error e

/-- Bytes without a line break wait. -/
theorem addBytes_of_none (h : splitLine? bytes = none) :
    s.addBytes bytes = (.ok (), { s with waiting := bytes }) := by
  rw [addBytes]
  split
  · rfl
  · next hsome => cases h.symm.trans hsome

/-- A complete line is taken in before the bytes behind it. -/
theorem addBytes_of_some (h : splitLine? bytes = some (line, rest)) :
    s.addBytes bytes = match s.addLine line with
      | .error e => (.error e, { s with waiting := rest })
      | .ok next =>
          if next.isDone then (.ok (), { next with waiting := [] }) else next.addBytes rest := by
  rw [addBytes]
  split
  · next hnone => cases h.symm.trans hnone
  · next hsome =>
    cases h.symm.trans hsome
    rfl

/-- A stream that goes on has no line break in the bytes that wait. -/
structure Goes (s : EventStream) : Prop where
  isOpen : s.isDone = false
  waiting : 10 ∉ s.waiting

/-- A stream that starts goes on. -/
theorem goes_start : Goes {} := ⟨rfl, nofun⟩

/-- The unfinished line is the last one. -/
theorem finish_waiting (h : s.isDone = false) (bytes : List UInt8) :
    ({ s with waiting := bytes } : EventStream).finish = (s.addLine bytes).map (·.text) := by
  rw [finish, if_neg (by simp [h]), addLine, addLine]
  cases Event.ofLine bytes <;> rfl

/-- The reply so far with what one more line and then others carry. -/
theorem join_heard_cons (h : s.isDone = false) (line : List UInt8) (lines : List (List UInt8)) :
    (join (heard (line :: lines))).map (s.text ++ ·) = match s.addLine line with
      | .error e => .error e
      | .ok next =>
          if next.isDone then .ok next.text else (join (heard lines)).map (next.text ++ ·) := by
  rw [heard_cons, addLine, ofLine_eq]
  cases dataOf? line with
  | none => exact (if_neg (by simp [h])).symm
  | some data =>
      dsimp only
      -- the end of the reply: nothing behind it is heard
      by_cases hdone : data = "[DONE]".toList
      · rw [if_pos hdone, if_pos hdone]
        exact congrArg Except.ok (String.append_empty)
      · rw [if_neg hdone, if_neg hdone]
        -- a line with no data adds nothing
        by_cases hempty : data = []
        · rw [if_pos hempty, if_pos hempty]
          exact (if_neg (by simp [h])).symm
        · rw [if_neg hempty, if_neg hempty, join_cons]
          -- the data are an event, or the first line that is none
          cases Json.parseChars? data with
          | none => rfl
          | some event =>
              have hmap : ∀ (r : Except StreamError String) (front back : String),
                  (r.map (back ++ ·)).map (front ++ ·) = r.map (front ++ back ++ ·) := by
                intro r front back
                cases r with
                | error e => rfl
                | ok text => exact congrArg Except.ok (String.append_assoc ..).symm
              dsimp only
              rw [hmap]
              cases contentOf? event with
              | none => simp [h]
              | some text => simp [h]

/-- Reading the bytes that are left gives the reply so far with what they carry. -/
theorem hear_eq (h : s.isDone = false) (bytes : List UInt8) :
    s.hear bytes = (transcript bytes).map (s.text ++ ·) := by
  induction bytes using lines_induction generalizing s with
  | last bytes hsplit =>
      have hone : bytes.splitOn 10 = [bytes] :=
        List.splitOn_eq_singleton (splitLine?_eq_none_iff.1 hsplit)
      have hear : s.hear bytes = ({ s with waiting := bytes } : EventStream).finish := by
        rw [hear, addBytes_of_none hsplit]
      rw [hear, finish_waiting h, transcript, hone, join_heard_cons h]
      cases s.addLine bytes with
      | error e => rfl
      | ok next => simp [heard, join, Except.map]
  | cons bytes line rest hsplit ih =>
      rw [transcript, splitOn_of_splitLine? hsplit, join_heard_cons h, hear,
        addBytes_of_some hsplit]
      cases s.addLine line with
      | error e => rfl
      | ok next =>
          dsimp only
          by_cases hdone : next.isDone = true
          · rw [if_pos hdone, if_pos hdone]
            simp [finish, hdone]
          · rw [if_neg hdone, if_neg hdone]
            have hrest := ih (Bool.eq_false_iff.2 hdone)
            rwa [hear] at hrest

/-- Bytes may be read in two parts. -/
theorem hear_append (h : s.isDone = false) (bytes more : List UInt8) :
    s.hear (bytes ++ more) = match s.addBytes bytes with
      | (.ok (), next) => if next.isDone then next.finish else next.hear (next.waiting ++ more)
      | (.error e, _) => .error e := by
  induction bytes using lines_induction generalizing s with
  | last bytes hsplit =>
      have hwaiting : ({ s with waiting := bytes } : EventStream).isDone = false := h
      rw [addBytes_of_none hsplit]
      dsimp only
      rw [if_neg (by simp [h]), hear_eq hwaiting, hear_eq h]
  | cons bytes line rest hsplit ih =>
      rw [hear, addBytes_of_some (splitLine?_append hsplit more), addBytes_of_some hsplit]
      cases s.addLine line with
      | error e => rfl
      | ok next =>
          dsimp only
          by_cases hdone : next.isDone = true
          · simp [hdone]
          · rw [if_neg hdone, if_neg hdone]
            exact ih (Bool.eq_false_iff.2 hdone)

/-- Reading leaves no line break waiting. -/
theorem goes_of_addBytes {next : EventStream} (hs : s.isDone = false)
    (h : s.addBytes bytes = (.ok (), next)) (hopen : next.isDone = false) : next.Goes := by
  induction bytes using lines_induction generalizing s with
  | last bytes hsplit =>
      rw [addBytes_of_none hsplit] at h
      cases h
      exact ⟨hs, splitLine?_eq_none_iff.1 hsplit⟩
  | cons bytes line rest hsplit ih =>
      rw [addBytes_of_some hsplit] at h
      cases hline : s.addLine line with
      | error e =>
          rw [hline] at h
          cases h
      | ok t =>
          rw [hline] at h
          dsimp only at h
          by_cases hdone : t.isDone = true
          · rw [if_pos hdone] at h
            cases h
            exact absurd (hdone.symm.trans hopen) (by decide)
          · rw [if_neg hdone] at h
            exact ih (Bool.eq_false_iff.2 hdone) h

/-- Reading chunk by chunk is reading all bytes that are left at once. -/
theorem read_eq_hear (h : s.Goes) (chunks : List (List UInt8)) :
    s.read chunks = s.hear (s.waiting ++ chunks.flatten) := by
  induction chunks generalizing s with
  | nil =>
      have hsplit := splitLine?_eq_none_iff.2 h.waiting
      rw [read, List.flatten_nil, List.append_nil, hear, addBytes_of_none hsplit]
  | cons chunk chunks ih =>
      rw [read, tryPush, List.flatten_cons, ← List.append_assoc, hear_append h.isOpen]
      rcases hbytes : s.addBytes (s.waiting ++ chunk) with ⟨e | _, next⟩
      · rfl
      · dsimp only
        by_cases hdone : next.isDone = true
        · rw [if_pos hdone, if_pos hdone]
        · rw [if_neg hdone, if_neg hdone]
          exact ih (goes_of_addBytes h.isOpen hbytes (Bool.eq_false_iff.2 hdone))

/-- What is read from chunks is what their bytes carry line by line: the reply, or the error at the
first data that are no JSON. It does not depend on how the bytes are cut. What is said about the
error shows the beginning of these data, whatever account the reader of JSON gives of them. -/
theorem read_eq_transcript (chunks : List (List UInt8)) :
    ({} : EventStream).read chunks = transcript chunks.flatten
      ∧ ∀ explain : List Char → String, reply explain chunks
        = (transcript chunks.flatten).mapError fun e =>
          "malformed response stream: " ++ explain e.data
          ++ " (data: " ++ String.ofList (e.data.take 200) ++ ")" := by
  have hread : ({} : EventStream).read chunks = transcript chunks.flatten := by
    rw [read_eq_hear goes_start, hear_eq rfl, List.nil_append]
    cases transcript chunks.flatten with
    | error e => rfl
    | ok text => exact congrArg Except.ok String.empty_append
  refine ⟨hread, fun explain => ?_⟩
  rw [reply, hread]
  rfl

/-- A line whose data are empty is passed over, though they are no JSON. -/
theorem read_emptyData : dataOf? (encode "data:".toList) = some []
    ∧ Json.parseChars? [] = none
    ∧ ({} : EventStream).read [encode "data:".toList] = .ok "" := by
  have hdecode : decode (encode "data:".toList) = "data:".toList := by
    rw [decode, decodeEach_encode]
    rfl
  have hsolid : trim "data:".toList = "data:".toList := by
    have hcolon : Solid "data:".toList :=
      solid_append_singleton "data".toList (isBlank_of_printed (by decide) (by decide))
    rw [trim, show trimStart "data:".toList = "data:".toList from
      trimStart_cons (isBlank_of_printed (by decide) (by decide)) _, trimEnd_of_solid hcolon]
  have hdata : dataOf? (encode "data:".toList) = some [] := by
    rw [dataOf?, hdecode, hsolid]
    rfl
  refine ⟨hdata, rfl, ?_⟩
  have hsplit : 10 ∉ encode "data:".toList := by decide
  rw [read_eq_hear goes_start, hear_eq rfl, List.flatten_singleton, List.nil_append, transcript,
    List.splitOn_eq_singleton hsplit, heard_cons, hdata]
  rfl

/-! ## Behind the end

The loop that reads a reply stops at its end, but the stream itself goes on when it is pushed to: of
each chunk it still takes in the first line that the chunk completes, and drops what follows in the
chunk.
-/

/-- Takes in chunks, whatever becomes of their lines: the result of each, and the stream behind
them. -/
def pushAll (s : EventStream) :
    List (List UInt8) → List (Except StreamError Unit) × EventStream
  | [] => ([], s)
  | chunk :: chunks =>
      let later := (s.tryPush chunk).2.pushAll chunks
      ((s.tryPush chunk).1 :: later.1, later.2)

/-- The error of a line, if its data are no JSON. -/
def lineError? (line : List UInt8) : Option StreamError :=
  match Event.ofLine line with
  | .malformed e => some e
  | _ => none

/-- The lines that chunks complete behind the end of the reply, one for a chunk at most. A line that
cannot be read leaves what follows it in the chunk waiting, every other one drops it. -/
def lateLines (waiting : List UInt8) : List (List UInt8) → List (List UInt8)
  | [] => []
  | chunk :: chunks =>
      match splitLine? (waiting ++ chunk) with
      | none => lateLines (waiting ++ chunk) chunks
      | some (line, rest) =>
          line :: lateLines (if lineError? line = none then [] else rest) chunks

/-- What a line adds to the reply. -/
def addition (line : List UInt8) : String :=
  match Event.ofLine line with
  | .fragment text => text
  | _ => ""

/-- The error of a line is that of its data. -/
theorem lineError?_eq_some_iff {e : StreamError} :
    lineError? line = some e ↔ Event.ofLine line = .malformed e := by
  rw [lineError?]
  cases Event.ofLine line <;> simp

/-- A line that cannot be read adds nothing. -/
theorem addition_of_lineError? {e : StreamError} (h : lineError? line = some e) :
    addition line = "" := by
  rw [addition, lineError?_eq_some_iff.1 h]

/-- The line can be read and adds nothing to the reply. -/
def Silent (line : List UInt8) : Prop := lineError? line = none ∧ addition line = ""

/-- A stream that is done still takes in what a line adds. -/
theorem addLine_of_isDone (h : s.isDone = true) (line : List UInt8) :
    s.addLine line = match lineError? line with
      | some e => .error e
      | none => .ok { s with text := s.text ++ addition line } := by
  rw [addLine, addition, lineError?]
  cases Event.ofLine line with
  | malformed e => rfl
  | fragment text => rfl
  | skip => simp
  | done =>
      obtain ⟨waiting, text, isDone⟩ := s
      cases h
      simp

/-- What a chunk does behind the end of the reply. -/
theorem tryPush_of_isDone (h : s.isDone = true) (chunk : List UInt8) :
    s.tryPush chunk = match splitLine? (s.waiting ++ chunk) with
      | none => (.ok (), { s with waiting := s.waiting ++ chunk })
      | some (line, rest) =>
          match lineError? line with
          | some e => (.error e, { s with waiting := rest })
          | none => (.ok (), { s with text := s.text ++ addition line, waiting := [] }) := by
  rw [tryPush]
  cases hsplit : splitLine? (s.waiting ++ chunk) with
  | none => exact addBytes_of_none hsplit
  | some p =>
      obtain ⟨line, rest⟩ := p
      rw [addBytes_of_some hsplit, addLine_of_isDone h]
      dsimp only
      cases lineError? line with
      | some e => rfl
      | none => exact if_pos h

/-- What chunks do behind the end of the reply is told by the lines that they complete: the errors
are those of the lines, and the reply is longer by what the lines add. -/
theorem pushAll_of_isDone (h : s.isDone = true) (chunks : List (List UInt8)) :
    (s.pushAll chunks).2.isDone = true
      ∧ (s.pushAll chunks).2.text = s.text
        ++ String.join ((lateLines s.waiting chunks).map addition)
      ∧ ∀ e, .error e ∈ (s.pushAll chunks).1 ↔
        ∃ line ∈ lateLines s.waiting chunks, lineError? line = some e := by
  induction chunks generalizing s with
  | nil => simp [pushAll, lateLines, h]
  | cons chunk chunks ih =>
      have hpush := tryPush_of_isDone h chunk
      rw [pushAll, lateLines]
      cases hsplit : splitLine? (s.waiting ++ chunk) with
      | none =>
          rw [hsplit] at hpush
          rw [hpush]
          obtain ⟨hdone, htext, herrors⟩ := ih (s := { s with waiting := s.waiting ++ chunk }) h
          exact ⟨hdone, htext, fun e => by simpa using herrors e⟩
      | some p =>
          obtain ⟨line, rest⟩ := p
          rw [hsplit] at hpush
          dsimp only at hpush ⊢
          cases hline : lineError? line with
          | some error =>
              -- the line adds nothing, and what stands behind it waits
              rw [hline] at hpush
              rw [hpush, if_neg (Option.some_ne_none error)]
              obtain ⟨hdone, htext, herrors⟩ := ih (s := { s with waiting := rest }) h
              refine ⟨hdone, ?_, fun e => ?_⟩
              · rw [htext, List.map_cons, String.join_cons, addition_of_lineError? hline,
                  String.empty_append]
              · have hfirst : (Except.error e : Except StreamError Unit) = .error error
                    ↔ lineError? line = some e := by
                  rw [hline, Except.error.injEq, Option.some_inj, eq_comm]
                rw [List.mem_cons, hfirst, herrors e]
                simp only [List.mem_cons, exists_eq_or_imp]
          | none =>
              rw [hline] at hpush
              rw [hpush, if_pos rfl]
              obtain ⟨hdone, htext, herrors⟩ :=
                ih (s := { s with text := s.text ++ addition line, waiting := [] }) h
              refine ⟨hdone, ?_, fun e => ?_⟩
              · rw [htext, List.map_cons, String.join_cons, String.append_assoc]
              · simp [herrors e, hline]

/-- Parts make no text only if each of them is empty. -/
theorem join_eq_empty_iff {parts : List String} :
    String.join parts = "" ↔ ∀ part ∈ parts, part = "" := by
  induction parts with
  | nil => simp
  | cons part parts ih =>
      rw [String.join_cons, String.append_eq_empty_iff, ih, List.forall_mem_cons]

/-- Once the reply is complete it stays so. Later chunks can be read unless a line that they
complete holds data that are no JSON, which are the error then, and each other such line adds its
fragment to the reply; so they can all be read and change nothing just if these lines are silent. -/
theorem pushAll_behind_done (h : s.isDone = true) (chunks : List (List UInt8)) :
    (s.pushAll chunks).2.isDone = true
      ∧ (∀ e, .error e ∈ (s.pushAll chunks).1 ↔
        ∃ line ∈ lateLines s.waiting chunks, Event.ofLine line = .malformed e)
      ∧ (s.pushAll chunks).2.finish
        = s.finish.map (· ++ String.join ((lateLines s.waiting chunks).map addition))
      ∧ (((∀ r ∈ (s.pushAll chunks).1, r = .ok ()) ∧ (s.pushAll chunks).2.finish = s.finish) ↔
        ∀ line ∈ lateLines s.waiting chunks, Silent line) := by
  obtain ⟨hdone, htext, herrors⟩ := pushAll_of_isDone h chunks
  have hfinish : s.finish = .ok s.text := if_pos h
  have hlater : (s.pushAll chunks).2.finish
      = .ok (s.text ++ String.join ((lateLines s.waiting chunks).map addition)) := by
    rw [finish, if_pos hdone, htext]
  -- an answer is an error exactly when its line is malformed
  have hok : (∀ r ∈ (s.pushAll chunks).1, r = .ok ()) ↔
      ∀ line ∈ lateLines s.waiting chunks, lineError? line = none := by
    constructor
    · intro hall line hline
      refine Option.eq_none_iff_forall_ne_some.2 fun e he => ?_
      cases hall _ ((herrors e).2 ⟨line, hline, he⟩)
    · intro hall r hr
      cases r with
      | ok => rfl
      | error e =>
          obtain ⟨line, hline, he⟩ := (herrors e).1 hr
          cases (hall line hline).symm.trans he
  have hsame : (s.pushAll chunks).2.finish = s.finish ↔
      ∀ line ∈ lateLines s.waiting chunks, addition line = "" := by
    rw [hlater, hfinish, Except.ok.injEq, String.append_eq_left_iff, join_eq_empty_iff,
      List.forall_mem_map]
  refine ⟨hdone, fun e => ?_, by rw [hlater, hfinish, Except.map], ?_⟩
  · rw [herrors e]
    simp only [lineError?_eq_some_iff]
  · rw [hok, hsame]
    exact ⟨fun h line hline => ⟨h.1 line hline, h.2 line hline⟩,
      fun h => ⟨fun line hline => (h line hline).1, fun line hline => (h line hline).2⟩⟩

/-- Data behind `data:` and a space, without the line break. -/
theorem dataOf?_encode {data : List Char} (hne : data ≠ [])
    (hhead : data.head?.all isPrinted = true) (hlast : data.getLast?.all isPrinted = true) :
    dataOf? (encode ("data: ".toList ++ data)) = some data := by
  have hdecode : decode (encode ("data: ".toList ++ data)) = "data: ".toList ++ data := by
    rw [decode, decodeEach_encode, List.map_map]
    exact List.map_id _
  have htrim : trim ("data: ".toList ++ data) = "data: ".toList ++ data := by
    refine trim_of_printed rfl ?_
    rw [List.getLast?_append, List.getLast?_eq_some_getLast hne] at *
    exact hlast
  have hafter : after? "data:".toList ("data: ".toList ++ data) = some (' ' :: data) := rfl
  rw [dataOf?, hdecode, htrim, hafter, Option.map_some, trim_space_cons hhead hlast]

/-- What follows a comment in its chunk is dropped behind the end, so neither the comment nor the
data behind it change the reply. -/
theorem pushAll_behind_done_comment :
    let s : EventStream := { text := "a", isDone := true }
    let late := encode ": late\ndata: 1\n".toList
    s.isDone = true ∧ (∀ r ∈ (s.pushAll [late]).1, r = .ok ())
      ∧ (s.pushAll [late]).2.finish = s.finish := by
  intro s late
  have hsplit : splitLine? (s.waiting ++ late)
      = some (encode ": late".toList, encode "data: 1\n".toList) := by
    decide
  have hevent : Event.ofLine (encode ": late".toList) = .skip := by
    have hdecode : decode (encode ": late".toList) = ": late".toList := by
      rw [decode, decodeEach_encode]
      rfl
    rw [ofLine_eq, dataOf?, hdecode, trim_of_printed rfl rfl]
    rfl
  have hlines : lateLines s.waiting [late] = [encode ": late".toList] := by
    rw [lateLines, hsplit]
    rfl
  refine ⟨rfl, (pushAll_behind_done rfl [late]).2.2.2.2 ?_⟩
  rw [hlines, List.forall_mem_singleton]
  exact ⟨by rw [lineError?, hevent], by rw [addition, hevent]⟩

/-- A fragment that is pushed behind the end is added to the reply. -/
theorem push_fragment_behind_done :
    let done := encode "data: [DONE]\n".toList
    let late :=
      encode "data: \x7b\"choices\":[\x7b\"delta\":\x7b\"content\":\"x\"\x7d\x7d]\x7d\n".toList
    (({} : EventStream).pushAll [done]).2.isDone = true
      ∧ (({} : EventStream).pushAll [done]).2.finish = .ok ""
      ∧ (({} : EventStream).pushAll [done, late]).2.finish = .ok "x" := by
  intro done late
  let event := "\x7b\"choices\":[\x7b\"delta\":\x7b\"content\":\"x\"\x7d\x7d]\x7d".toList
  have hdone : Event.ofLine (encode "data: [DONE]".toList) = .done := by
    rw [ofLine_eq, show "data: [DONE]".toList = "data: ".toList ++ "[DONE]".toList from rfl,
      dataOf?_encode (by decide) rfl rfl]
    rfl
  have hlate : Event.ofLine (encode ("data: ".toList ++ event)) = .fragment "x" := by
    rw [ofLine_eq, dataOf?_encode (by decide) rfl rfl]
    decide +kernel
  have hfirst : ({} : EventStream).tryPush done = (.ok (), { isDone := true }) := by
    have hsplit : splitLine? ([] ++ done) = some (encode "data: [DONE]".toList, []) := by decide
    rw [tryPush, addBytes_of_some hsplit, addLine, hdone]
    rfl
  have hsecond : ({ isDone := true } : EventStream).tryPush late
      = (.ok (), { text := "x", isDone := true }) := by
    have hsplit : splitLine? ([] ++ late) = some (encode ("data: ".toList ++ event), []) := by
      decide
    rw [tryPush, addBytes_of_some hsplit, addLine, hlate]
    rfl
  rw [pushAll, pushAll, pushAll, hfirst, pushAll, hsecond]
  exact ⟨rfl, rfl, rfl⟩

end EventStream

end CodeAtlas.Reply
