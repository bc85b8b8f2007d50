import Kavora.Cli.Client
import Kavora.FakeBackend.Server

/-!
# Reading the streams of the fake backend

`StreamChat` on any beginning of a stream of `writeStream`, as a gateway or a broken connection
leaves it.

* `readValue_event`: what the client reads in an event.
* `Unread`: a line that is cut, which the client skips or fails at.
* `readEvents_cut`: the loop on the lines of a cut stream.
* `streamChat_cut`: an answer is the whole answer, and it is given exactly if the end mark was read.
-/

namespace Kavora.Cli

open Lib Lib.Go FakeBackend

/-! ## Events -/

theorem unmarshal_content (content : String) {rest : List (JsonText × Json)}
    (hrest : rest = [] ∨ ∃ role, rest = [member "role" role]) :
    Marshal.unmarshal (.object (member "content" (ofString content) :: rest))
      (Marshal.zero : Content) = some { content } := by
  have hassign : (field "content" Content.content fun a s => { s with content := a }).assign
      (ofString content) Marshal.zero = some { content } := rfl
  show List.foldlM (assignMember Content.fields) _ _ = _
  rw [foldlM_known rfl, hassign, Option.bind_some]
  rcases hrest with rfl | ⟨role, rfl⟩
  · rfl
  · exact foldlM_unknown (by decide)

theorem unmarshal_delta {content x y : Json} {c : Content}
    (h : Marshal.unmarshal content (Marshal.zero : Content) = some c) :
    Marshal.unmarshal (.object [member "delta" content, member "finish_reason" x, member "index" y])
      (Marshal.zero : Choice "delta") = some { content := c } := by
  have hassign : (field "delta" Choice.content fun a s => { s with content := a }).assign
      content (Marshal.zero : Choice "delta") = some { content := c } := by
    show (Marshal.unmarshal content (Marshal.zero : Content)).map _ = _
    rw [h]
    rfl
  show List.foldlM (assignMember (Choice.fields "delta")) _ _ = _
  rw [foldlM_known rfl, hassign, Option.bind_some, foldlM_unknown (by decide),
    foldlM_unknown (by decide)]
  rfl

theorem unmarshal_message {content x y : Json} {c : Content}
    (h : Marshal.unmarshal content (Marshal.zero : Content) = some c) :
    Marshal.unmarshal
      (.object [member "finish_reason" x, member "index" y, member "message" content])
      (Marshal.zero : Choice "message") = some { content := c } := by
  have hassign : (field "message" Choice.content fun a s => { s with content := a }).assign
      content (Marshal.zero : Choice "message") = some { content := c } := by
    show (Marshal.unmarshal content (Marshal.zero : Content)).map _ = _
    rw [h]
    rfl
  show List.foldlM (assignMember (Choice.fields "message")) _ _ = _
  rw [foldlM_unknown (by decide), foldlM_unknown (by decide), foldlM_known rfl, hassign]
  rfl

theorem unmarshal_payload {name : String} {choice x y z : Json} {id : String} {c : Choice name}
    (h : Marshal.unmarshal choice (Marshal.zero : Choice name) = some c) :
    Marshal.unmarshal
      (.object
        [ member "choices" (.array [choice]), member "created" x, member "id" (ofString id),
          member "model" y, member "object" z])
      (Marshal.zero : Payload name) = some { id, choices := [c] } := by
  have hunknown : ∀ {n v ms s}, (∀ n' ∈ ["id", "choices"], foldName n' ≠ foldName n) →
      (member n v :: ms).foldlM (assignMember (Payload.fields name)) s =
        ms.foldlM (assignMember (Payload.fields name)) s := fun h => foldlM_unknown h
  have hchoices : (field "choices" Payload.choices fun a s => { s with choices := a }).assign
      (.array [choice]) (Marshal.zero : Payload name) = some { id := "", choices := [c] } := by
    show (unmarshalList (.array [choice])).map _ = _
    simp only [unmarshalList, List.mapM_cons, h, List.mapM_nil]
    rfl
  have hid : (field "id" Payload.id fun a s => { s with id := a }).assign (ofString id)
      ({ id := "", choices := [c] } : Payload name) = some { id, choices := [c] } := rfl
  show List.foldlM (assignMember (Payload.fields name)) _ _ = _
  rw [foldlM_known rfl, hchoices, Option.bind_some, hunknown (by decide), foldlM_known rfl, hid,
    Option.bind_some, hunknown (by decide), hunknown (by decide)]
  rfl

/-- The client reads an event with this content. -/
structure Carries (doc : Json) (content : String) : Prop where
  readable : doc.Readable
  object : ∃ members, doc = .object members
  value : readValue (Payload "delta") doc =
    some { id := completionID, choices := [{ content := { content } }] }

theorem carries_event (model : String) (index : Nat) (content : String) (last : Bool) :
    Carries (event model index content last) content where
  readable := by
    unfold event
    cases last <;> by_cases h : index = 0 <;>
      simp [h, Json.Readable, Json.ReadableMembers, Json.ReadableValues, member, ofString] <;> decide
  object := ⟨_, rfl⟩
  value := by
    have hnesting : (event model index content last).nesting = 4 := by
      unfold event
      split <;> split <;> rfl
    unfold readValue
    rw [if_neg (by rw [hnesting]; decide)]
    refine unmarshal_payload (unmarshal_delta (unmarshal_content content ?_))
    split
    · exact .inr ⟨_, rfl⟩
    · exact .inl rfl

/-! ## Lines -/

theorem printMembers_end (ms : List (JsonText × Json)) :
    ∃ text, Json.printMembers ms = text ++ ['}'] := by
  induction ms with
  | nil => exact ⟨[], rfl⟩
  | cons m ms ih =>
    obtain ⟨text, htext⟩ := ih
    obtain ⟨name, v⟩ := m
    refine ⟨',' :: (Json.quote name.text ++ ':' :: (v.print ++ text)), ?_⟩
    rw [Json.printMembers, htext]
    simp

theorem print_object_ends (ms : List (JsonText × Json)) :
    ∃ text, (Json.object ms).print = '{' :: (text ++ ['}']) := by
  cases ms with
  | nil => exact ⟨[], rfl⟩
  | cons m ms =>
    obtain ⟨text, htext⟩ := printMembers_end ms
    obtain ⟨name, v⟩ := m
    refine ⟨Json.quote name.text ++ ':' :: (v.print ++ text), ?_⟩
    rw [Json.print, htext]
    simp

theorem isSpace_brace : isSpace '{' = false ∧ isSpace '}' = false := by decide

theorem dataOf_value (value : Bytes) :
    dataOf (utf8 "data: " ++ value) = some (GoString.trimSpace (0x20 :: value)) := by
  have hsplit : utf8 "data: " ++ value = utf8 "data:" ++ 0x20 :: value := by
    have hdata : utf8 "data: " = utf8 "data:" ++ [0x20] := by decide
    rw [hdata, List.append_assoc, List.singleton_append]
  rw [dataOf, hsplit, stripPrefix_append]
  rfl

/-- The data of an event that is whole. -/
theorem Carries.dataOf_eq {doc : Json} {content : String} (h : Carries doc content) :
    dataOf (utf8 "data: " ++ Utf8.encode doc.print) = some (Utf8.encode doc.print) := by
  obtain ⟨ms, rfl⟩ := h.object
  obtain ⟨text, htext⟩ := print_object_ends ms
  rw [dataOf_value, htext, GoString.trimSpace_encode isSpace_brace.1 isSpace_brace.2]

/-- A line that the client skips or fails at. -/
def unread (line : Bytes) : Bool :=
  match dataOf line with
  | none => true
  | some data => data ≠ utf8 "[DONE]" && (Json.parse (Utf8.runes data)).isNone

/-- The line of the end mark. -/
def doneLine : Bytes := utf8 "data: [DONE]"

theorem unread_cut_done {tail : Bytes} (h : tail <+: doneLine) (hne : tail ≠ doneLine) :
    unread tail = true := by
  have hall : ∀ n < 12, unread (doneLine.take n) = true := by decide
  have htake := List.prefix_iff_eq_take.mp h
  have hlength : tail.length < 12 := by
    rcases Nat.lt_or_ge tail.length 12 with hlt | hge
    · exact hlt
    · exact absurd (h.eq_of_length_le hge) hne
  rw [htake]
  exact hall _ hlength

/-- A cut event is not read. -/
theorem unread_cut_event {doc : Json} {content : String} (h : Carries doc content) {tail : Bytes}
    (hcut : tail <+: utf8 "data: " ++ Utf8.encode doc.print)
    (hne : tail ≠ utf8 "data: " ++ Utf8.encode doc.print) : unread tail = true := by
  rcases List.prefix_or_prefix_of_prefix hcut (List.prefix_append (utf8 "data: ") _) with
    hshort | ⟨value, rfl⟩
  · -- no value yet
    have hall : ∀ n < 7, unread ((utf8 "data: ").take n) = true := by decide
    have hlength : tail.length < 7 := Nat.lt_succ_of_le hshort.length_le
    rw [List.prefix_iff_eq_take.mp hshort]
    exact hall _ hlength
  · obtain ⟨ms, rfl⟩ := h.object
    obtain ⟨text, htext⟩ := print_object_ends ms
    have hvalue : value <+: Utf8.encode (Json.object ms).print :=
      (List.prefix_append_right_inj _).mp hcut
    have hne' : value ≠ Utf8.encode (Json.object ms).print := fun heq => hne (by rw [heq])
    cases value with
    | nil => decide
    | cons b value =>
      have hb : b :: value = String.utf8EncodeChar '{' ++ value := by
        rw [htext, Utf8.encode_cons] at hvalue
        obtain ⟨hhead, -⟩ := List.cons_prefix_cons.mp hvalue
        rw [hhead]
        rfl
      have hprefix : GoString.trimSpace (0x20 :: b :: value) <+: b :: value := by
        rw [hb]
        exact GoString.trimSpace_cut isSpace_brace.1 value
      obtain ⟨rest, hrest⟩ := hprefix.trans hvalue
      have hnonempty : rest ≠ [] := by
        rintro rfl
        rw [List.append_nil] at hrest
        rw [hrest] at hprefix
        exact hne' (hvalue.eq_of_length_le hprefix.length_le)
      have hparse := Json.parse_cut_bytes h.readable hrest hnonempty
      have hmark : GoString.trimSpace (0x20 :: b :: value) ≠ utf8 "[DONE]" := by
        intro heq
        rw [heq, htext, Utf8.encode_cons] at hrest
        exact absurd (List.cons.inj hrest).1 (by decide)
      unfold unread
      rw [dataOf_value]
      simp only [hparse, hmark, ne_eq, not_false_eq_true, decide_true, Option.isNone_none,
        Bool.and_self]

/-! ## The loop -/

section Loop

variable {onChunk : List String → Bool} {s : StreamState} {lines : List Bytes}

theorem readEvents_unread (onChunk : List String → Bool) {line : Bytes} (h : unread line = true)
    (lines : List Bytes) (s : StreamState) :
    (dataOf line = none ∧ readEvents onChunk (line :: lines) s = readEvents onChunk lines s) ∨
      readEvents onChunk (line :: lines) s = (s, .failed .decodeEvent) := by
  rw [readEvents]
  cases hdata : dataOf line with
  | none => exact .inl ⟨rfl, rfl⟩
  | some data =>
    rw [unread, hdata] at h
    obtain ⟨hmark, hparse⟩ : data ≠ utf8 "[DONE]" ∧ Json.parse (Utf8.runes data) = none := by
      simpa using h
    refine .inr ?_
    simp only [unmarshalBytes, hparse, Option.bind_none, if_neg hmark]

theorem readEvents_blank : readEvents onChunk ([] :: lines) s = readEvents onChunk lines s := rfl

theorem readEvents_done : readEvents onChunk (doneLine :: lines) s = (s, .done) := by
  have hdata : dataOf doneLine = some (utf8 "[DONE]") := by decide
  rw [readEvents, hdata]
  exact if_pos rfl

/-- One event. -/
theorem readEvents_event {doc : Json} {content : String} (h : Carries doc content) :
    readEvents onChunk ((utf8 "data: " ++ Utf8.encode doc.print) :: lines) s =
      if content = "" then readEvents onChunk lines { s with responseID := completionID }
      else if onChunk (s.chunks ++ [content]) then
        readEvents onChunk lines
          { responseID := completionID, chunks := s.chunks ++ [content] }
      else
        ({ responseID := completionID, chunks := s.chunks ++ [content] }, .failed .callback) := by
  have hmark : Utf8.encode doc.print ≠ utf8 "[DONE]" := by
    obtain ⟨ms, rfl⟩ := h.object
    obtain ⟨text, htext⟩ := print_object_ends ms
    rw [htext, Utf8.encode_cons]
    exact fun heq => absurd (List.cons.inj heq).1 (by decide)
  have hvalue := (unmarshalBytes_print h.readable).trans h.value
  rw [readEvents, h.dataOf_eq]
  simp only [if_neg hmark, hvalue, Payload.chunk]
  rw [if_pos (by decide : completionID ≠ "")]

/-- The chunks that are shown. -/
def shown (contents : List String) : List String := contents.filter (· ≠ "")

/-- The callback takes all of these chunks after others. -/
def Takes (onChunk : List String → Bool) (chunks more : List String) : Prop :=
  ∀ got, got ≠ [] → got <+: more → onChunk (chunks ++ got) = true

/-- What the loop makes of a stream of events with these contents; `whole` says whether the end mark
was read. -/
structure Reading (onChunk : List String → Bool) (contents : List String) (whole : Prop)
    (s : StreamState) (result : StreamState × Ending) : Prop where
  chunks : ∃ got, result.1.chunks = s.chunks ++ got ∧ got <+: shown contents
  done_iff : result.2 = .done ↔ whole ∧ Takes onChunk s.chunks (shown contents)
  done : result.2 = .done → result.1 =
    { responseID := if contents = [] then s.responseID else completionID
      chunks := s.chunks ++ shown contents }

/-- The loop stops before the end mark. -/
theorem Reading.stopped {contents : List String} {whole : Prop} {ending : Ending} (hwhole : ¬ whole)
    (hending : ending ≠ .done) : Reading onChunk contents whole s (s, ending) where
  chunks := ⟨[], (List.append_nil _).symm, List.nil_prefix⟩
  done_iff := ⟨fun h => absurd h hending, fun h => absurd h.1 hwhole⟩
  done h := absurd h hending

theorem takes_cons {chunks : List String} {content : String} {more : List String} :
    Takes onChunk chunks (content :: more) ↔
      onChunk (chunks ++ [content]) = true ∧ Takes onChunk (chunks ++ [content]) more := by
  constructor
  · intro h
    refine ⟨h [content] (List.cons_ne_nil _ _) (by simp), fun got hgot hprefix => ?_⟩
    rw [List.append_assoc, List.singleton_append]
    exact h (content :: got) (List.cons_ne_nil _ _) (List.cons_prefix_cons.mpr ⟨rfl, hprefix⟩)
  · rintro ⟨hfirst, hmore⟩ got hgot hprefix
    cases got with
    | nil => exact absurd rfl hgot
    | cons c got =>
      obtain ⟨rfl, hrest⟩ := List.cons_prefix_cons.mp hprefix
      cases got with
      | nil => exact hfirst
      | cons c' got =>
        have hgot' := hmore (c' :: got) (List.cons_ne_nil _ _) hrest
        rwa [List.append_assoc, List.singleton_append] at hgot'

/-- An event in front of the lines. -/
theorem Reading.event {doc : Json} {content : String} (hdoc : Carries doc content)
    {contents : List String} {whole : Prop}
    (h : ∀ s, Reading onChunk contents whole s (readEvents onChunk lines s)) (s : StreamState) :
    Reading onChunk (content :: contents) whole s
      (readEvents onChunk ((utf8 "data: " ++ Utf8.encode doc.print) :: lines) s) := by
  rw [readEvents_event hdoc]
  by_cases hempty : content = ""
  · have hshown : shown (content :: contents) = shown contents :=
      List.filter_cons_of_neg (by simpa using hempty)
    have hread := h { s with responseID := completionID }
    rw [if_pos hempty]
    refine ⟨?_, ?_, fun hdone => ?_⟩
    · rw [hshown]
      exact hread.chunks
    · rw [hshown]
      exact hread.done_iff
    · rw [hread.done hdone, hshown, if_neg (List.cons_ne_nil _ _), ite_self]
  · have hshown : shown (content :: contents) = content :: shown contents :=
      List.filter_cons_of_pos (by simpa using hempty)
    rw [if_neg hempty]
    by_cases htakes : onChunk (s.chunks ++ [content]) = true
    · have hread := h { responseID := completionID, chunks := s.chunks ++ [content] }
      rw [if_pos htakes]
      refine ⟨?_, ?_, fun hdone => ?_⟩
      · obtain ⟨got, hgot, hprefix⟩ := hread.chunks
        refine ⟨content :: got, by simpa using hgot, ?_⟩
        rw [hshown]
        exact List.cons_prefix_cons.mpr ⟨rfl, hprefix⟩
      · rw [hread.done_iff, hshown, takes_cons]
        exact ⟨fun hw => ⟨hw.1, htakes, hw.2⟩, fun hw => ⟨hw.1, hw.2.2⟩⟩
      · rw [hread.done hdone, hshown, if_neg (List.cons_ne_nil _ _), ite_self]
        simp
    · rw [if_neg htakes]
      refine ⟨⟨[content], rfl, ?_⟩, ?_, fun hdone => ?_⟩
      · rw [hshown]
        exact List.cons_prefix_cons.mpr ⟨rfl, List.nil_prefix⟩
      · rw [hshown, takes_cons]
        refine ⟨fun hdone => ?_, fun hw => absurd hw.2.1 htakes⟩
        cases hdone
      · cases hdone

theorem Reading.unread {contents : List String} {whole : Prop} (hwhole : ¬ whole) {tail : Bytes}
    (htail : unread tail = true) (s : StreamState) :
    Reading onChunk contents whole s (readEvents onChunk (cutLines [] tail) s) := by
  unfold cutLines
  split
  · exact .stopped hwhole nofun
  · rcases readEvents_unread onChunk htail [] s with ⟨-, h⟩ | h
    · rw [List.nil_append, h]
      exact .stopped hwhole nofun
    · rw [List.nil_append, h]
      exact .stopped hwhole nofun

/-- The end of the stream: the end mark, if the stream is finished. -/
theorem reading_end {stop : Stop} {before after : List Bytes} {tail : Bytes}
    (hsplit : streamLines [] stop = before ++ after)
    (htail : tail = [] ∨ ∃ line ∈ after.head?, tail <+: line) (s : StreamState) :
    Reading onChunk [] (stop = .finished ∧ lengthOf after ≤ tail.length + 2) s
      (readEvents onChunk (cutLines before tail) s) := by
  have hdone : ∀ {whole : Prop}, whole → Reading onChunk [] whole s (s, .done) := fun hwhole =>
    { chunks := ⟨[], (List.append_nil _).symm, List.nil_prefix⟩
      done_iff := ⟨fun _ => ⟨hwhole, fun got hgot hprefix =>
        absurd (List.prefix_nil.mp hprefix) hgot⟩, fun _ => rfl⟩
      done := fun _ => by simp [shown] }
  by_cases hstop : stop = .finished
  · subst hstop
    have hlines : streamLines [] .finished = [doneLine, []] := by decide
    rw [hlines] at hsplit
    cases before with
    | nil =>
      obtain rfl : after = [doneLine, []] := hsplit.symm
      have hlength : lengthOf [doneLine, []] = 14 := by decide
      have hpart : tail <+: doneLine := isPrefix_of_cut htail
      by_cases heq : tail = doneLine
      · subst heq
        have hcut : cutLines [] doneLine = [doneLine] := by decide
        rw [hcut, readEvents_done]
        exact hdone ⟨rfl, by decide⟩
      · refine .unread ?_ (unread_cut_done hpart heq) s
        rintro ⟨-, hle⟩
        rw [hlength] at hle
        have hdoneLength : doneLine.length = 12 := by decide
        exact heq (hpart.eq_of_length_le (by omega))
    | cons line before =>
      obtain ⟨rfl, hrest⟩ := List.cons.inj hsplit
      have hle : lengthOf after ≤ 1 := by
        have htotal : lengthOf [[]] = lengthOf (before ++ after) := congrArg lengthOf hrest
        have hblank : lengthOf [[]] = 1 := rfl
        rw [lengthOf_append, hblank] at htotal
        omega
      unfold cutLines
      rw [List.cons_append, readEvents_done]
      exact hdone ⟨rfl, by omega⟩
  · have hlines : streamLines [] stop = [] := by
      unfold streamLines
      rw [if_neg hstop]
      rfl
    rw [hlines] at hsplit
    obtain ⟨rfl, rfl⟩ := List.append_eq_nil_iff.mp hsplit.symm
    obtain rfl : tail = [] := by
      rcases htail with rfl | ⟨line, hline, -⟩
      · rfl
      · cases hline
    exact .stopped (fun h => hstop h.1) nofun

/-- **The loop on the lines of a cut stream.** -/
theorem readEvents_cut (onChunk : List String → Bool) {docs : List Json} {contents : List String}
    (hdocs : List.Forall₂ Carries docs contents) {stop : Stop} {before after : List Bytes}
    {tail : Bytes} (hsplit : streamLines docs stop = before ++ after)
    (htail : tail = [] ∨ ∃ line ∈ after.head?, tail <+: line) (s : StreamState) :
    Reading onChunk contents (stop = .finished ∧ lengthOf after ≤ tail.length + 2) s
      (readEvents onChunk (cutLines before tail) s) := by
  induction hdocs generalizing before after s with
  | nil => exact reading_end hsplit htail s
  | @cons doc content docs contents hdoc hdocs ih =>
    -- the line of the event and the blank line, then the rest of the stream
    have hlines : streamLines (doc :: docs) stop =
        (utf8 "data: " ++ Utf8.encode doc.print) :: [] :: streamLines docs stop := by
      simp [streamLines, eventLines]
    have hrest : stop = .finished → 14 ≤ lengthOf (streamLines docs stop) := by
      rintro rfl
      have hmark : lengthOf (eventLines (utf8 "[DONE]")) = 14 := by decide
      unfold streamLines
      rw [lengthOf_append, if_pos rfl, hmark]
      omega
    have hdrained : ∀ {whole : Prop}, ¬ whole → ∀ s,
        Reading onChunk contents whole s (readEvents onChunk [] s) := fun hwhole s =>
      .stopped hwhole nofun
    rw [hlines] at hsplit
    cases before with
    | nil =>
      obtain rfl : after = _ := hsplit.symm
      have hpart : tail <+: utf8 "data: " ++ Utf8.encode doc.print := isPrefix_of_cut htail
      have hwhole : ¬ (stop = .finished ∧ lengthOf ((utf8 "data: " ++ Utf8.encode doc.print) ::
          [] :: streamLines docs stop) ≤ tail.length + 2) := by
        rintro ⟨hstop, hle⟩
        have hlong := hrest hstop
        rw [lengthOf_cons, lengthOf_cons, List.length_nil] at hle
        have hlength := hpart.length_le
        omega
      by_cases heq : tail = utf8 "data: " ++ Utf8.encode doc.print
      · have hne : utf8 "data: " ++ Utf8.encode doc.print ≠ [] :=
          List.append_ne_nil_of_left_ne_nil (by decide) _
        have hcut : cutLines [] tail = [utf8 "data: " ++ Utf8.encode doc.print] := by
          rw [cutLines, heq, if_neg hne]
          rfl
        rw [hcut]
        exact .event hdoc (hdrained hwhole) s
      · exact .unread hwhole (unread_cut_event hdoc hpart heq) s
    | cons line before =>
      obtain ⟨rfl, hblank⟩ := List.cons.inj hsplit
      cases before with
      | nil =>
        obtain rfl : after = _ := hblank.symm
        obtain rfl : tail = [] := List.prefix_nil.mp (isPrefix_of_cut htail)
        refine .event hdoc (hdrained ?_) s
        rintro ⟨hstop, hle⟩
        have hlong := hrest hstop
        rw [lengthOf_cons, List.length_nil] at hle
        omega
      | cons line before =>
        obtain ⟨rfl, htext⟩ := List.cons.inj hblank
        rw [cutLines_cons, cutLines_cons]
        refine .event hdoc (fun s => ?_) s
        rw [readEvents_blank]
        exact ih htext htail s

end Loop

/-! ## The lines of a cut stream -/

/-- A line of a stream has no control characters. -/
theorem not_mem_streamLines {docs : List Json} (hdocs : ∀ doc ∈ docs, doc.Readable) {stop : Stop}
    {line : Bytes} (hline : line ∈ streamLines docs stop) {b : UInt8} (hb : b.toNat < 0x20) :
    b ∉ line := by
  have hall : (utf8 "data: " ++ utf8 "[DONE]").all (0x20 ≤ ·.toNat) = true := rfl
  have hplain : ∀ b' ∈ utf8 "data: " ++ utf8 "[DONE]", 0x20 ≤ b'.toNat := fun b' hb' =>
    of_decide_eq_true (List.all_eq_true.mp hall b' hb')
  have hdata : ∀ b' ∈ utf8 "data: ", 0x20 ≤ b'.toNat := fun b' hb' =>
    hplain b' (List.mem_append_left _ hb')
  intro hmem
  rcases List.mem_append.mp hline with hline | hline
  · obtain ⟨doc, hdoc, hline⟩ := List.mem_flatMap.mp hline
    simp only [eventLines, List.mem_cons, List.not_mem_nil, or_false] at hline
    rcases hline with rfl | rfl
    · rcases List.mem_append.mp hmem with hmem | hmem
      · have hlarge := hdata b hmem
        omega
      · obtain ⟨c, hc, hchar⟩ := List.mem_flatMap.mp hmem
        have hvalue := Utf8.toNat_of_mem_utf8EncodeChar hchar (by omega)
        exact Json.not_mem_print (hdocs doc hdoc) (by omega) hc
    · cases hmem
  · split at hline
    · simp only [eventLines, List.mem_cons, List.not_mem_nil, or_false] at hline
      rcases hline with rfl | rfl
      · have hlarge := hplain b hmem
        omega
      · cases hmem
    · cases hline

/-! ## Answers -/

theorem streamFrom_carries (failAfterChunks : Int) (model : String) (live : Nat → Bool)
    (chunks : List String) (index : Nat) :
    ∃ sent, sent <+: chunks ∧
      List.Forall₂ Carries (streamFrom failAfterChunks model live index chunks).1 sent ∧
      ((streamFrom failAfterChunks model live index chunks).2 = .finished → sent = chunks) := by
  induction chunks generalizing index with
  | nil => exact ⟨[], List.nil_prefix, .nil, fun _ => rfl⟩
  | cons content rest ih =>
    rw [streamFrom]
    split
    · exact ⟨[], List.nil_prefix, .nil, nofun⟩
    split
    · exact ⟨[content], List.cons_prefix_cons.mpr ⟨rfl, List.nil_prefix⟩,
        .cons (carries_event model index content _) .nil, nofun⟩
    · obtain ⟨sent, hsent, hcarries, hfinished⟩ := ih (index + 1)
      exact ⟨content :: sent, List.cons_prefix_cons.mpr ⟨rfl, hsent⟩,
        .cons (carries_event model index content _) hcarries,
        fun h => congrArg (content :: ·) (hfinished h)⟩

theorem readable_of_carries {docs : List Json} {sent : List String}
    (h : List.Forall₂ Carries docs sent) : ∀ doc ∈ docs, doc.Readable := by
  induction h with
  | nil => exact List.forall_mem_nil _
  | cons hdoc _ ih => exact List.forall_mem_cons.mpr ⟨hdoc.readable, ih⟩

theorem shown_isPrefix {sent chunks : List String} (h : sent <+: chunks) :
    shown sent <+: shown chunks :=
  h.filter _

theorem join_shown (chunks : List String) : String.join (shown chunks) = String.join chunks := by
  induction chunks with
  | nil => rfl
  | cons content chunks ih =>
    by_cases hempty : content = ""
    · have hshown : shown (content :: chunks) = shown chunks :=
        List.filter_cons_of_neg (by simpa using hempty)
      rw [hshown, ih, hempty, String.join_cons, String.empty_append]
    · have hshown : shown (content :: chunks) = content :: shown chunks :=
        List.filter_cons_of_pos (by simpa using hempty)
      rw [hshown, String.join_cons, String.join_cons, ih]

/-- The lines behind the cut fit in the buffer when the end mark was read. -/
theorem fits_after {docs : List Json} {before after : List Bytes} {tail : Bytes}
    (hsplit : streamLines docs .finished = before ++ after)
    (htail : tail = [] ∨ ∃ line ∈ after.head?, tail <+: line)
    (hle : lengthOf after ≤ tail.length + 2) : ∀ line ∈ after, line.length < maxLine := by
  have hend : ∃ lines, streamLines docs .finished = lines ++ [doneLine, []] := ⟨_, rfl⟩
  obtain ⟨lines, hlines⟩ := hend
  rw [hlines] at hsplit
  cases after with
  | nil => nofun
  | cons line rest =>
    have htailLength : tail.length ≤ line.length := (isPrefix_of_cut htail).length_le
    rw [lengthOf_cons] at hle
    cases rest with
    | nil =>
      have hsplit' : (lines ++ [doneLine]) ++ [[]] = before ++ [line] := by
        rw [List.append_assoc]
        exact hsplit
      rw [← (List.append_inj' hsplit' rfl).2]
      decide
    | cons blank rest =>
      rw [lengthOf_cons] at hle
      obtain rfl : blank = [] := List.eq_nil_of_length_eq_zero (by omega)
      cases rest with
      | nil =>
        obtain ⟨-, hlast⟩ := List.append_inj' hsplit rfl
        rw [← hlast]
        decide
      | cons line' rest =>
        rw [lengthOf_cons] at hle
        omega

/-- **A cut stream is never taken for an answer.** On any beginning of a stream of the fake backend
the client shows chunks of the answer in their order. It returns an answer exactly if the end mark
was read, no line is too long and the callback takes every chunk, and then the answer is whole. -/
theorem streamChat_cut (server : Server) (live : Nat → Bool) (model : String)
    (onChunk : List String → Bool) (response : Response)
    (hstatus : 200 ≤ response.statusCode ∧ response.statusCode < 300)
    (hbody : response.body <+: (server.writeStream live model).1.body) :
    let (result, chunks) := streamChat onChunk response
    chunks <+: shown server.responseChunks ∧
      (∀ answer, result = .ok answer → chunks = shown server.responseChunks ∧ answer =
        { id := completionID
          content := String.join server.responseChunks
          requestID := response.requestID }) ∧
      ((∃ answer, result = .ok answer) ↔ (server.writeStream live model).2 = .finished ∧
        (server.writeStream live model).1.body.length ≤ response.body.length + 2 ∧
        (∀ line ∈ streamLines (streamFrom server.failAfterChunks model live 0
          server.responseChunks).1 .finished, line.length < maxLine) ∧
        Takes onChunk [] (shown server.responseChunks)) := by
  obtain ⟨sent, hsent, hcarries, hfinished⟩ :=
    streamFrom_carries server.failAfterChunks model live server.responseChunks 0
  have hstream : server.writeStream live model =
      ({ statusCode := 200
         contentType := "text/event-stream"
         body := streamBody (streamFrom server.failAfterChunks model live 0
           server.responseChunks).1 (streamFrom server.failAfterChunks model live 0
           server.responseChunks).2 },
        (streamFrom server.failAfterChunks model live 0 server.responseChunks).2) := rfl
  rw [hstream] at hbody ⊢
  generalize streamFrom server.failAfterChunks model live 0 server.responseChunks = out at *
  obtain ⟨docs, stop⟩ := out
  dsimp only at hbody hcarries hfinished ⊢
  have hreadable := readable_of_carries hcarries
  obtain ⟨before, after, tail, hsplit, htail, hscan, hcomplete, hlong⟩ :=
    scan_cut (fun line hline b hb => not_mem_streamLines hreadable hline hb) hbody maxLine
  have hread := readEvents_cut onChunk hcarries hsplit htail
    { responseID := "", chunks := [] }
  rw [← hscan] at hread
  -- the end mark was read just if it is in the body and every line fits
  have hmark : stop = .finished → (lengthOf after ≤ tail.length + 2 ↔
      (streamBody docs stop).length ≤ response.body.length + 2 ∧
        ∀ line ∈ streamLines docs .finished, line.length < maxLine) := by
    rintro rfl
    have hlength : (streamBody docs .finished).length = lengthOf (streamLines docs .finished) := rfl
    rw [hlength]
    cases hfits : (scan maxLine response.body).2 with
    | true =>
      obtain ⟨htotal, hbefore⟩ := hcomplete hfits
      constructor
      · intro hle
        refine ⟨by omega, ?_⟩
        rw [hsplit]
        exact List.forall_mem_append.mpr ⟨hbefore, fits_after hsplit htail hle⟩
      · intro h
        omega
    | false =>
      obtain ⟨rfl, line, hline, hlarge⟩ := hlong hfits
      obtain ⟨rest, rfl⟩ : ∃ rest, after = line :: rest := by
        cases after with
        | nil => cases hline
        | cons line' rest =>
          cases hline
          exact ⟨rest, rfl⟩
      have hmax : maxLine = 1048576 := rfl
      constructor
      · intro hle
        rw [lengthOf_cons, List.length_nil] at hle
        omega
      · rintro ⟨-, hall⟩
        have hlt := hall line (hsplit ▸ List.mem_append_right _ List.mem_cons_self)
        omega
  have hanswer : ¬ (response.statusCode < 200 ∨ response.statusCode ≥ 300) := by omega
  unfold streamChat
  rw [if_neg hanswer]
  generalize scan maxLine response.body = scanned at hread ⊢
  obtain ⟨lines, complete⟩ := scanned
  dsimp only at hread ⊢
  generalize readEvents onChunk lines { responseID := "", chunks := [] } = result at hread ⊢
  obtain ⟨s, ending⟩ := result
  simp only [StreamState.result_ok, exists_and_left, exists_eq, and_true]
  refine ⟨?_, ?_, ?_⟩
  · obtain ⟨got, hgot, hprefix⟩ := hread.chunks
    rw [List.nil_append] at hgot
    rw [hgot]
    exact hprefix.trans (shown_isPrefix hsent)
  · rintro answer ⟨hending, rfl⟩
    obtain ⟨⟨hstop, -⟩, -⟩ := hread.done_iff.mp hending
    obtain rfl := hfinished hstop
    have hs := hread.done hending
    dsimp only at hs
    rw [hs, if_neg server.responseChunks_ne_nil, List.nil_append, join_shown]
    exact ⟨rfl, rfl⟩
  · have hiff := hread.done_iff
    dsimp only at hiff
    rw [hiff]
    constructor
    · rintro ⟨⟨hstop, hle⟩, htakes⟩
      obtain rfl := hfinished hstop
      obtain ⟨hlength, hall⟩ := (hmark hstop).mp hle
      exact ⟨hstop, hlength, hall, htakes⟩
    · rintro ⟨hstop, hlength, hall, htakes⟩
      obtain rfl := hfinished hstop
      exact ⟨⟨hstop, (hmark hstop).mpr ⟨hlength, hall⟩⟩, htakes⟩

end Kavora.Cli
