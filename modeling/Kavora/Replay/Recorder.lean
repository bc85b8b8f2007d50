import Kavora.Lib.JsonLines
import Kavora.Lib.Marshal
import Kavora.Lib.RawJson

/-!
# The replay log

A recorder numbers its events and writes each one on a line. A call that fails once its event is
numbered leaves a gap, and the reader accepts none.

* `Recorder.append` and `readAll`: the two sides of the log.
* `Recorder.run`: calls one after another, with the events of those that succeed.
* `read_all_iff`: when the reader gives these events.
-/

namespace Kavora.Replay

open Lib Lib.Go Lib.Json

/-! ## Events -/

/-- A recorded event. -/
structure Event where
  sequence : Int64
  kind : Bytes
  requestID : Bytes
  /-- The text of the payload. -/
  payload : List Char
  deriving DecidableEq

namespace Event

/-- The zero value. -/
def zero : Event where
  sequence := 0
  kind := []
  requestID := []
  payload := []

/-- A string value with its text. -/
def stringMember (name : String) (s : Bytes) : RawMember where
  name := { text := name, wellFormed := true }
  value := .string { text := .ofList (Utf8.runes s), wellFormed := true }
  raw := quoteBytes s

/-- The members of the object of an event whose payload is a document. -/
def members (event : Event) (doc : Json) : List RawMember :=
  [{ name := { text := "sequence", wellFormed := true }
     value := .number (.ofList (intText event.sequence.toInt))
     raw := intText event.sequence.toInt },
   stringMember "kind" event.kind,
   stringMember "request_id" event.requestID,
   { name := { text := "payload", wellFormed := true }
     value := doc
     raw := compact false false event.payload }]

/-- `json.Marshal`. It checks and compacts a `json.RawMessage`, which nests at most 10000 deep. -/
def marshal (event : Event) : Option (List Char) :=
  (parse event.payload).bind fun doc =>
    if 10000 < doc.nesting then none else some (rawText (event.members doc))

/-- `json.Unmarshal` into a string. -/
def unmarshalString (doc : Json) (s : Bytes) : Option Bytes :=
  match doc with
  | .string t => some (Utf8.encode t.text.toList)
  | .null => some s
  | _ => none

/-- A member is assigned to its field. -/
def assign (event : Event) (m : RawMember) : Option Event :=
  match fieldName ["sequence", "kind", "request_id", "payload"] m.name.text with
  | some "sequence" =>
    (Marshal.unmarshal m.value event.sequence).map fun sequence => { event with sequence }
  | some "kind" => (unmarshalString m.value event.kind).map fun kind => { event with kind }
  | some "request_id" =>
    (unmarshalString m.value event.requestID).map fun requestID => { event with requestID }
  | some "payload" => some { event with payload := m.raw }
  | _ => some event

/-- `json.Unmarshal` into a new event. Bytes of the payload that do not decode are not told apart. -/
def unmarshal (data : Bytes) : Option Event :=
  (parse (Utf8.runes data)).bind fun doc =>
    if 10000 < doc.nesting then none
    else
      match doc with
      | .object _ => (rawObject (Utf8.runes data)).foldlM assign zero
      | .null => some zero
      | _ => none

end Event

/-! ## The recorder -/

/-- What `json.Marshal` makes of a payload. -/
structure Encoded where
  text : List Char
  doc : Json
  denotes : Denotes text doc
  compacted : compact false false text = text
  printed : ∀ c ∈ text, 0x20 ≤ c.toNat

/-- One call of `Append`. -/
structure Call where
  kind : Bytes
  requestID : Bytes
  /-- `none` if the payload does not encode. -/
  payload : Option Encoded
  /-- Whether the writer accepts the write. -/
  accepted : Bool

/-- A recorder with what it has written. -/
structure Recorder where
  next : Int64
  /-- What the writer has accepted. -/
  written : Bytes

/-- A recorder before the first event. -/
def newRecorder : Recorder where
  next := 0
  written := []

/-- What can fail in `Append`. -/
inductive AppendError where
  | payload
  | event
  | writer
  deriving DecidableEq

/-- `Append`, which takes a number even if the writer then fails. -/
def Recorder.append (r : Recorder) (call : Call) : Recorder × Option AppendError :=
  match call.payload with
  | none => (r, some .payload)
  | some data =>
    let event : Event :=
      { sequence := r.next, kind := call.kind, requestID := call.requestID, payload := data.text }
    let r := { r with next := r.next + 1 }
    match event.marshal with
    | none => (r, some .event)
    | some encoded =>
      if call.accepted then ({ r with written := r.written ++ (Utf8.encode encoded ++ [lf]) }, none)
      else (r, some .writer)

/-- The event of a call. -/
def Call.event (call : Call) (sequence : Int64) : Event where
  sequence
  kind := call.kind
  requestID := call.requestID
  payload := call.payload.elim [] Encoded.text

/-- Calls one after another, and the events of those that succeed. -/
def Recorder.run : Recorder → List Call → Recorder × List Event
  | r, [] => (r, [])
  | r, call :: calls =>
    let (r', err) := r.append call
    let (last, events) := r'.run calls
    (last, if err = none then call.event r.next :: events else events)

/-! ## The reader -/

/-- The buffer of the scanner. -/
def maxLine : Nat := 64 * 1024

/-- What can fail in `ReadAll`. -/
inductive ReadError where
  | tooLong
  | unmarshal
  | sequence (got want : Int64)
  deriving DecidableEq

/-- The loop of `ReadAll` over what is left. -/
def readEvents : Int64 → List Bytes → Except ReadError (List Event)
  | _, [] => .ok []
  | sequence, piece :: pieces =>
    if maxLine ≤ piece.length then .error .tooLong
    else
      match Event.unmarshal ((stripSuffix cr piece).getD piece) with
      | none => .error .unmarshal
      | some event =>
        if event.sequence ≠ sequence then .error (.sequence event.sequence sequence)
        else (readEvents (sequence + 1) pieces).map fun events => event :: events

/-- `ReadAll`: the events of a recording. -/
def readAll (content : Bytes) : Except ReadError (List Event) :=
  readEvents 0 ((splitInclusive content).map dropLineEnd)

/-! ## One line -/

section Line

variable {event : Event} {data : Encoded}

theorem members_valid (hpayload : event.payload = data.text) :
    ∀ m ∈ event.members data.doc, m.Valid := by
  have hnumber : Denotes (intText event.sequence.toInt)
      (.number (.ofList (intText event.sequence.toInt))) := by
    have hreadable : (Json.number (.ofList (intText event.sequence.toInt))).Readable := by
      show isNumber (String.ofList (intText event.sequence.toInt)).toList = true
      rw [String.toList_ofList]
      exact isNumber_intText _
    have hdenotes := denotes_print hreadable
    rwa [show print (.number (.ofList (intText event.sequence.toInt))) =
      intText event.sequence.toInt from String.toList_ofList] at hdenotes
  have hdata : Denotes (compact false false event.payload) data.doc := by
    rw [hpayload, data.compacted]
    exact data.denotes
  intro m hm
  simp only [Event.members, List.mem_cons, List.not_mem_nil, or_false] at hm
  rcases hm with rfl | rfl | rfl | rfl
  · exact ⟨rfl, hnumber⟩
  · exact ⟨rfl, denotes_quoteBytes event.kind⟩
  · exact ⟨rfl, denotes_quoteBytes event.requestID⟩
  · exact ⟨rfl, hdata⟩

theorem nesting_members :
    (Json.object ((event.members data.doc).map RawMember.member)).nesting = data.doc.nesting + 1 := by
  simp [Event.members, Event.stringMember, RawMember.member, nesting, nestingMembers]

/-- An event is read back with what is left of its strings. -/
theorem unmarshal_line (hpayload : event.payload = data.text) :
    Event.unmarshal (Utf8.encode (rawText (event.members data.doc))) =
      if 10000 < data.doc.nesting + 1 then none
      else some { event with
        kind := Utf8.encode (Utf8.runes event.kind)
        requestID := Utf8.encode (Utf8.runes event.requestID) } := by
  have hobject : parse (rawText (event.members data.doc)) =
        some (.object ((event.members data.doc).map RawMember.member)) ∧
      rawObject (rawText (event.members data.doc)) = event.members data.doc :=
    parse_rawText (members_valid hpayload)
  unfold Event.unmarshal
  rw [Utf8.runes_encode, hobject.1, hobject.2, Option.bind_some, nesting_members]
  split
  · rfl
  · have hsequence : Marshal.unmarshal (Json.number (.ofList (intText event.sequence.toInt)))
        (0 : Int64) = some event.sequence := by
      show parseInt64 (String.ofList (intText event.sequence.toInt)).toList = some event.sequence
      rw [String.toList_ofList]
      exact parseInt64_intText event.sequence
    have hassign : (event.members data.doc).foldlM Event.assign Event.zero = some
        { sequence := event.sequence, kind := Utf8.encode (Utf8.runes event.kind)
          requestID := Utf8.encode (Utf8.runes event.requestID)
          payload := compact false false event.payload } := by
      simp [Event.members, Event.stringMember, Event.assign, fieldName, Event.zero, hsequence,
        Event.unmarshalString]
    rw [hpayload, data.compacted] at hassign
    rw [hpayload]
    exact hassign

/-- A line has no control characters. -/
theorem not_mem_line (hpayload : event.payload = data.text) {b : UInt8} (hb : b.toNat < 0x20) :
    b ∉ Utf8.encode (rawText (event.members data.doc)) := by
  intro hmem
  obtain ⟨c, hchar, hbyte⟩ := List.mem_flatMap.mp hmem
  have hvalue := Utf8.toNat_of_mem_utf8EncodeChar hbyte (by omega)
  have hlow : 0x20 ≤ c.toNat := by
    rcases mem_rawText hchar with h | ⟨m, hm, hc⟩
    · exact h
    · simp only [Event.members, List.mem_cons, List.not_mem_nil, or_false] at hm
      rcases hm with rfl | rfl | rfl | rfl
      · exact (printed_of_isNumberChar (isNumber_chars (isNumber_intText _) _ hc)).1
      · exact le_of_mem_quoteBytes hc
      · exact le_of_mem_quoteBytes hc
      · rw [show compact false false event.payload = data.text by
          rw [hpayload, data.compacted]] at hc
        exact data.printed _ hc
  omega

end Line

/-! ## The calls that are read back -/

namespace Call

/-- The call numbers an event. -/
def numbered (call : Call) : Bool := call.payload.isSome

/-- The event of the call is written. -/
def succeeds (call : Call) : Bool :=
  call.payload.any fun data => data.doc.nesting ≤ 10000 && call.accepted

/-- The call fails once its event is numbered. -/
def lost (call : Call) : Bool := call.numbered && !call.succeeds

/-- The length of the line of an event. -/
def size (call : Call) (sequence : Int64) : Nat :=
  46 + (Utf8.encode (intText sequence.toInt)).length + (Utf8.encode (quoteBytes call.kind)).length +
    (Utf8.encode (quoteBytes call.requestID)).length +
    (Utf8.encode (call.payload.elim [] Encoded.text)).length

/-- The strings of a call are texts, its payload leaves room for the object around it, and its line
fits in the buffer. -/
structure Readable (call : Call) (sequence : Int64) : Prop where
  kind : Utf8.encode (Utf8.runes call.kind) = call.kind
  requestID : Utf8.encode (Utf8.runes call.requestID) = call.requestID
  nesting : ∀ data ∈ call.payload, data.doc.nesting < 10000
  size : call.size sequence < maxLine

end Call

theorem length_line (call : Call) {data : Encoded} (hdata : call.payload = some data)
    (sequence : Int64) :
    (Utf8.encode (rawText ((call.event sequence).members data.doc))).length =
      call.size sequence := by
  have hpayload : (call.event sequence).payload = data.text := by
    unfold Call.event
    rw [hdata]
    rfl
  have h1 : (Utf8.encode (quote "sequence")).length = 10 := by decide
  have h2 : (Utf8.encode (quote "kind")).length = 6 := by decide
  have h3 : (Utf8.encode (quote "request_id")).length = 12 := by decide
  have h4 : (Utf8.encode (quote "payload")).length = 9 := by decide
  unfold Event.members
  rw [hpayload, data.compacted, length_rawText]
  simp only [List.map_cons, List.map_nil, List.sum_cons, List.sum_nil, RawMember.size,
    Event.stringMember, Call.event, Call.size, hdata, Option.elim_some, h1, h2, h3, h4]
  omega

/-- The line that a successful call writes. -/
def Call.line (call : Call) (data : Encoded) (sequence : Int64) : Bytes :=
  Utf8.encode (rawText ((call.event sequence).members data.doc))

/-- What a call does. -/
theorem append_cases (r : Recorder) (call : Call) :
    (call.numbered = false ∧ call.succeeds = false ∧ r.append call = (r, some .payload)) ∨
    (call.numbered = true ∧ call.succeeds = false ∧
      ∃ err, r.append call = ({ r with next := r.next + 1 }, some err)) ∨
    (call.numbered = true ∧ call.succeeds = true ∧ ∃ data, call.payload = some data ∧
      r.append call =
        ({ next := r.next + 1, written := r.written ++ (call.line data r.next ++ [lf]) }, none)) := by
  cases hpayload : call.payload with
  | none => exact .inl ⟨by rw [Call.numbered, hpayload]; rfl, by rw [Call.succeeds, hpayload]; rfl,
      by rw [Recorder.append, hpayload]⟩
  | some data =>
    have hnumbered : call.numbered = true := by
      rw [Call.numbered, hpayload]
      rfl
    have hsucceeds : call.succeeds = (decide (data.doc.nesting ≤ 10000) && call.accepted) := by
      rw [Call.succeeds, hpayload]
      rfl
    have hevent : call.event r.next = ⟨r.next, call.kind, call.requestID, data.text⟩ := by
      rw [Call.event, hpayload]
      rfl
    have hmarshal : (call.event r.next).marshal =
        if 10000 < data.doc.nesting then none
        else some (rawText ((call.event r.next).members data.doc)) := by
      rw [Event.marshal, hevent, data.denotes.parse_eq]
      rfl
    have happend : r.append call = match (call.event r.next).marshal with
        | none => ({ r with next := r.next + 1 }, some .event)
        | some encoded =>
          if call.accepted then
            ({ next := r.next + 1, written := r.written ++ (Utf8.encode encoded ++ [lf]) }, none)
          else ({ r with next := r.next + 1 }, some .writer) := by
      rw [Recorder.append, hpayload, hevent]
    by_cases hdeep : 10000 < data.doc.nesting
    · refine .inr (.inl ⟨hnumbered, ?_, .event, ?_⟩)
      · rw [hsucceeds, decide_eq_false (by omega)]
        rfl
      · rw [happend, hmarshal, if_pos hdeep]
    · rw [hmarshal, if_neg hdeep] at happend
      rw [decide_eq_true (by omega), Bool.true_and] at hsucceeds
      cases haccepted : call.accepted with
      | true =>
        refine .inr (.inr ⟨hnumbered, hsucceeds.trans haccepted, data, rfl, ?_⟩)
        rw [happend]
        exact if_pos haccepted
      | false =>
        refine .inr (.inl ⟨hnumbered, hsucceeds.trans haccepted, .writer, ?_⟩)
        rw [happend]
        exact if_neg (by rw [haccepted]; exact Bool.false_ne_true)

/-- The reader gives the event of a line just if the call is readable and its number is next. -/
theorem readEvents_line {call : Call} {data : Encoded} (hdata : call.payload = some data)
    (next want : Int64) (lines : List Bytes) (events : List Event) :
    readEvents want (call.line data next :: lines) = .ok (call.event next :: events) ↔
      next = want ∧ call.Readable next ∧ readEvents (want + 1) lines = .ok events := by
  have hpayload : (call.event next).payload = data.text := by
    rw [Call.event, hdata]
    rfl
  have hcr : cr ∉ call.line data next := not_mem_line hpayload (by decide)
  have hstrip : (stripSuffix cr (call.line data next)).getD (call.line data next) =
      call.line data next := by
    rw [stripSuffix, if_neg fun hlast => hcr (List.mem_of_getLast? hlast)]
    rfl
  have hlength : (call.line data next).length = call.size next := length_line call hdata next
  have hread := unmarshal_line hpayload
  have hstep : readEvents want (call.line data next :: lines) =
      if maxLine ≤ call.size next then .error .tooLong
      else if 10000 < data.doc.nesting + 1 then .error .unmarshal
      else if next ≠ want then .error (.sequence next want)
      else (readEvents (want + 1) lines).map fun events => { call.event next with
        kind := Utf8.encode (Utf8.runes call.kind)
        requestID := Utf8.encode (Utf8.runes call.requestID) } :: events := by
    rw [readEvents, hstrip, hlength, show Event.unmarshal (call.line data next) = _ from hread]
    by_cases hdeep : 10000 < data.doc.nesting + 1
    · rw [if_pos hdeep, if_pos hdeep]
    · rw [if_neg hdeep, if_neg hdeep]
      rfl
  rw [hstep]
  constructor
  · intro h
    split at h
    · cases h
    split at h
    · cases h
    split at h
    · cases h
    rename_i hsize hdeep hsequence
    cases hlines : readEvents (want + 1) lines with
    | error err =>
      rw [hlines] at h
      cases h
    | ok events' =>
      rw [hlines] at h
      injection h with h
      injection h with hevent hevents
      refine ⟨not_not.mp hsequence, ⟨?_, ?_, ?_, Nat.lt_of_not_le hsize⟩, by rw [hevents]⟩
      · exact congrArg Event.kind hevent
      · exact congrArg Event.requestID hevent
      · intro data' hdata'
        cases hdata.symm.trans hdata'
        omega
  · rintro ⟨rfl, hreadable, hlines⟩
    have hdeep := hreadable.nesting data hdata
    rw [if_neg (Nat.not_le_of_lt hreadable.size), if_neg (by omega), if_neg (not_not.mpr rfl), hlines,
      hreadable.kind, hreadable.requestID]
    rfl

/-- No number is lost before a successful call, and the reader can read each line. -/
def Consecutive : Int64 → Int64 → List Call → Prop
  | _, _, [] => True
  | next, want, call :: calls =>
    if call.succeeds then next = want ∧ call.Readable next ∧ Consecutive (next + 1) (want + 1) calls
    else Consecutive (if call.numbered then next + 1 else next) want calls

/-- What calls write, and when it is read back. The induction is on the calls, from any recorder
and for any number that the reader wants next. -/
theorem read_run (r : Recorder) (want : Int64) (calls : List Call) :
    ∃ lines, (r.run calls).1.written = r.written ++ lines.flatMap (· ++ [lf]) ∧
      (∀ line ∈ lines, lf ∉ line) ∧
      (readEvents want lines = .ok (r.run calls).2 ↔ Consecutive r.next want calls) := by
  induction calls generalizing r want with
  | nil => exact ⟨[], (List.append_nil _).symm, nofun, iff_of_true rfl trivial⟩
  | cons call calls ih =>
    rw [Recorder.run, Consecutive]
    rcases append_cases r call with ⟨hnumbered, hsucceeds, happend⟩ |
      ⟨hnumbered, hsucceeds, err, happend⟩ | ⟨hnumbered, hsucceeds, data, hdata, happend⟩
    · rw [happend, hsucceeds, hnumbered]
      exact ih r want
    · rw [happend, hsucceeds, hnumbered]
      exact ih { r with next := r.next + 1 } want
    · obtain ⟨lines, hwritten, hlf, hread⟩ := ih
        { next := r.next + 1, written := r.written ++ (call.line data r.next ++ [lf]) } (want + 1)
      have hline : lf ∉ call.line data r.next := by
        have hpayload : (call.event r.next).payload = data.text := by
          rw [Call.event, hdata]
          rfl
        exact not_mem_line hpayload (by decide)
      rw [happend, hsucceeds]
      refine ⟨call.line data r.next :: lines, ?_, List.forall_mem_cons.mpr ⟨hline, hlf⟩, ?_⟩
      · refine hwritten.trans ?_
        rw [List.flatMap_cons, List.append_assoc]
      · exact (readEvents_line hdata r.next want lines _).trans
          (and_congr_right fun _ => and_congr_right fun _ => hread)

theorem int64_ofNat_eq_zero {n : Nat} : Int64.ofNat n = 0 ↔ 2 ^ 64 ∣ n := by
  rw [← Int64.toBitVec_inj, Int64.toBitVec_ofNat', Nat.dvd_iff_mod_eq_zero]
  constructor
  · intro h
    have hvalue := congrArg BitVec.toNat h
    simpa [BitVec.toNat_ofNat] using hvalue
  · intro h
    apply BitVec.eq_of_toNat_eq
    simpa [BitVec.toNat_ofNat] using h

/-- What holds of a call in its place holds of the first call and of the others in theirs. -/
theorem forall_places_cons {α : Type} {P : List α → α → Prop} {a : α} {l : List α} :
    (∀ before b after, a :: l = before ++ b :: after → P before b) ↔
      P [] a ∧ ∀ before b after, l = before ++ b :: after → P (a :: before) b := by
  constructor
  · intro h
    exact ⟨h [] a l rfl, fun before b after hl => h (a :: before) b after (by rw [hl]; rfl)⟩
  · rintro ⟨hfirst, hrest⟩ before b after heq
    cases before with
    | nil =>
      cases heq
      exact hfirst
    | cons a' before =>
      cases heq
      exact hrest before b after rfl

theorem succ_add_ofNat (n : Int64) (k : Nat) : n + 1 + Int64.ofNat k = n + Int64.ofNat (k + 1) := by
  rw [Int64.ofNat_add, Int64.add_comm (Int64.ofNat k), ← Int64.add_assoc]
  rfl

theorem numbered_of_succeeds {call : Call} (h : call.succeeds = true) : call.numbered = true := by
  unfold Call.succeeds at h
  unfold Call.numbered
  cases hpayload : call.payload with
  | none =>
    rw [hpayload] at h
    cases h
  | some data => rfl

theorem consecutive_iff (next want : Int64) (calls : List Call) :
    Consecutive next want calls ↔ ∀ before call after, calls = before ++ call :: after →
      call.succeeds = true →
        next + Int64.ofNat (before.countP Call.numbered) =
            want + Int64.ofNat (before.countP Call.succeeds) ∧
          call.Readable (next + Int64.ofNat (before.countP Call.numbered)) := by
  induction calls generalizing next want with
  | nil => exact iff_of_true trivial fun before call after h => by simp at h
  | cons call calls ih =>
    rw [forall_places_cons, Consecutive]
    cases hsucceeds : call.succeeds with
    | true =>
      rw [if_pos rfl, ih]
      simp only [List.countP_nil, List.countP_cons, hsucceeds, numbered_of_succeeds hsucceeds, if_true,
        succ_add_ofNat, forall_const]
      have hzero : ∀ n : Int64, n + Int64.ofNat 0 = n := Int64.add_zero
      rw [hzero, hzero]
      exact and_assoc.symm
    | false =>
      rw [if_neg Bool.false_ne_true, ih]
      simp only [List.countP_nil, List.countP_cons, hsucceeds, Bool.false_eq_true, if_false,
        false_implies, true_and]
      cases hnumber : call.numbered with
      | true => simp only [if_true, succ_add_ofNat, Nat.add_zero]
      | false => simp only [Bool.false_eq_true, if_false, Nat.add_zero]

/-- Every numbered event is written or lost. -/
theorem countP_numbered (calls : List Call) :
    calls.countP Call.numbered = calls.countP Call.succeeds + calls.countP Call.lost := by
  induction calls with
  | nil => rfl
  | cons call calls ih =>
    have hsplit : (if call.numbered = true then 1 else 0) =
        (if call.succeeds = true then 1 else 0) + if call.lost = true then 1 else 0 := by
      unfold Call.lost
      cases hsucceeds : call.succeeds with
      | true =>
        rw [numbered_of_succeeds hsucceeds]
        rfl
      | false => cases call.numbered <;> rfl
    rw [List.countP_cons, List.countP_cons, List.countP_cons, ih, hsplit]
    omega

/-- The log of calls is read back just if no number is lost before a successful call. -/
theorem readAll_run (calls : List Call) :
    readAll (newRecorder.run calls).1.written = .ok (newRecorder.run calls).2 ↔
      Consecutive 0 0 calls := by
  obtain ⟨lines, hwritten, hlf, hread⟩ := read_run newRecorder 0 calls
  have hlines : (newRecorder.run calls).1.written = lines.flatMap (· ++ [lf]) := hwritten
  rw [readAll, hlines, pieces_lines hlf]
  exact hread

/-- **The replay log is read back** just if before each successful call the number of lost events is a
multiple of the size of the counter, and the reader can read the line of the call. -/
theorem read_all_iff (calls : List Call) :
    readAll (newRecorder.run calls).1.written = .ok (newRecorder.run calls).2 ↔
      ∀ before call after, calls = before ++ call :: after → call.succeeds = true →
        2 ^ 64 ∣ before.countP Call.lost ∧
          call.Readable (Int64.ofNat (before.countP Call.numbered)) := by
  rw [readAll_run, consecutive_iff]
  have hnext : ∀ before : List Call,
      Int64.ofNat (before.countP Call.numbered) = Int64.ofNat (before.countP Call.succeeds) ↔
        2 ^ 64 ∣ before.countP Call.lost := by
    intro before
    rw [countP_numbered, Int64.ofNat_add, Int64.add_eq_left, int64_ofNat_eq_zero]
  simp only [Int64.zero_add, hnext]

namespace RecorderSample

def payload : Encoded where
  text := ['n', 'u', 'l', 'l']
  doc := .null
  denotes := ⟨rfl, rfl⟩
  compacted := rfl
  printed := by
    simp only [List.forall_mem_cons]
    exact ⟨by decide, by decide, by decide, by decide, nofun⟩

def call (accepted : Bool) : Call where
  kind := utf8 "decision"
  requestID := utf8 "r1"
  payload := some payload
  accepted

/-- The writer rejects the first event and accepts the second one, and the log cannot be read. -/
theorem rejected_write_leaves_gap :
    readAll (newRecorder.run [call false, call true]).1.written ≠
      .ok (newRecorder.run [call false, call true]).2 := by
  rw [ne_eq, readAll_run]
  have hgap : Consecutive 1 0 [call true] → False := fun h => absurd h.1 (by decide)
  exact hgap

end RecorderSample

end Kavora.Replay
