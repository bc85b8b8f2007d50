import Kavora.Lib.EventStream
import Kavora.Policy.Ascii
import Kavora.Policy.Feed

/-!
# The inspector's event-stream parser and a conforming one

`findEventEnd` and `eventData` know line feeds and carriage return line feed pairs only, take the
first two adjacent line feeds for the end of an event, and read `data:` fields only. On events that
are `Conforming` a standard reader (`EventStream`) dispatches what the inspector scanned
(`standard_payloads_scanned`). Elsewhere it can dispatch data that nothing has scanned
(`bare_cr_unscanned`).
-/

namespace Kavora.Policy

open Lib StreamInspector

/-- An event that both parsers read alike, in terms of the format: carriage returns stand before
line feeds only, no `data` line lacks its colon, no blank line stands between two data lines, and
the data is not one empty line. -/
structure Conforming (event : Bytes) : Prop where
  crlf : EventStream.crlfOnly event = true
  colon : utf8 "data" ∉ EventStream.lines false [] event
  oneGroup : EventStream.OneGroup (EventStream.lines false [] event)
  nonempty : (EventStream.lines false [] event).filterMap EventStream.dataField ≠ [[]]

variable {lib : Externals} {event : Bytes}

/-! ## Lines -/

/-- The two readings of a line without a carriage return at its end. -/
theorem dataLine_eq {line : Bytes} (hcr : line.getLast? ≠ some cr) (hcolon : line ≠ utf8 "data") :
    dataLine line = EventStream.dataField line := by
  have hname : utf8 "data" = [0x64, 0x61, 0x74, 0x61] := by decide
  have hfield : utf8 "data:" = [0x64, 0x61, 0x74, 0x61, 0x3A] := by decide
  have hstrip : (stripSuffix cr line).getD line = line := by
    rw [stripSuffix, if_neg hcr]
    rfl
  rw [dataLine, hstrip, EventStream.dataField]
  dsimp only
  by_cases h : utf8 "data:" <+: line
  · obtain ⟨rest, rfl⟩ := h
    simp [stripPrefix, hname, hfield]
  · rw [stripPrefix, if_neg h, Option.map_none]
    by_cases hn : line.takeWhile (· ≠ 0x3A) = utf8 "data"
    · have hsplit := List.takeWhile_append_dropWhile (p := (· ≠ 0x3A)) (l := line)
      cases hrest : line.dropWhile (· ≠ 0x3A) with
      | nil =>
        rw [hn, hrest, List.append_nil] at hsplit
        exact absurd hsplit.symm hcolon
      | cons c rest =>
        have hc := List.head_dropWhile_not (· ≠ 0x3A) (l := line) (by rw [hrest]; simp)
        simp only [hrest, List.head_cons, decide_eq_false_iff_not, not_not] at hc
        refine absurd ⟨rest, ?_⟩ h
        rw [← hsplit, hn, hrest, hname, hfield, hc]
        rfl
    · rw [if_pos hn]

/-! ## One event -/

/-- The data lines of an event as a standard reader sees them. -/
def eventFields (event : Bytes) : List Bytes :=
  (EventStream.lines false [] event).filterMap EventStream.dataField

theorem lines_eq (h : Conforming event) (hlast : event.getLast? = some lf) :
    EventStream.lines false [] event = strLines event := by
  rw [EventStream.lines_eq_strLines (.inr hlast) h.crlf, strLines]
  cases splitInclusive event with
  | nil => rfl
  | cons c cs => rfl

theorem eventData_eq (h : Conforming event) (hlast : event.getLast? = some lf)
    (hutf8 : fromUtf8 event = true) :
    eventData event = .ok ([lf].intercalate (eventFields event)) := by
  rw [eventData, if_pos hutf8, eventFields, ← lines_eq h hlast]
  congr 2
  refine List.filterMap_congr fun line hline => dataLine_eq ?_ fun heq => h.colon (heq ▸ hline)
  intro hcr
  have hmem := EventStream.mem_lines hline (List.mem_of_getLast? hcr)
  exact (hmem.resolve_left List.not_mem_nil).2 rfl

/-- A standard reader dispatches the data of a conforming event, if it has any. -/
theorem event_dispatch (h : Conforming event) (hwhole : Whole event) (payloads : List Bytes) :
    (EventStream.lines false [] event).foldl EventStream.Reader.line { data := [], payloads } =
      { data := []
        payloads := payloads ++ if eventFields event = [] then []
          else [[lf].intercalate (eventFields event)] } := by
  obtain ⟨hlast, lines, hlines⟩ := whole_last hwhole
  have hgroup := h.oneGroup
  rw [lines_eq h hlast, hlines] at hgroup
  have hfields : eventFields event = lines.filterMap EventStream.dataField := by
    rw [eventFields, lines_eq h hlast, hlines, List.filterMap_append]
    simp [EventStream.dataField_nil]
  rw [lines_eq h hlast, hlines, EventStream.dispatch_group [] payloads ?_ nofun, hfields,
    List.nil_append]
  intro before after heq
  refine (hgroup before (after ++ [[]]) (by rw [heq]; simp)).imp_right fun hnil => ?_
  rw [List.filterMap_append] at hnil
  exact (List.append_eq_nil_iff.mp hnil).1

/-- The data of an event with data lines, one of them not empty or more than one, is not empty. -/
theorem intercalate_ne_nil {fields : List Bytes} (h : fields ≠ []) (h' : fields ≠ [[]]) :
    [lf].intercalate fields ≠ [] := by
  cases fields with
  | nil => exact absurd rfl h
  | cons v fields =>
    cases fields with
    | nil => simpa using h'
    | cons w fields =>
      rw [List.intercalate_cons_cons]
      simp

/-- Accepted data that is neither empty nor the end mark was parsed and scanned. -/
theorem accepted_scanned {s s' : StreamInspector} {events : List Bytes} {data : Bytes}
    (h : Accepted lib s events s') (hmem : event ∈ events) (hd : eventData event = .ok data)
    (h1 : data ≠ []) (h2 : data ≠ utf8 "[DONE]") :
    ∃ value, lib.fromSlice data = some value ∧ Clean lib s.blockedTerms value.collectStrings := by
  induction h with
  | nil => cases hmem
  | @cons s s₁ s₂ e events he _ ih =>
    have hok := inspectEvent_ok he
    rcases List.mem_cons.mp hmem with rfl | hmem
    · cases hok with
      | empty hd' => rw [hd] at hd'; cases hd'; exact absurd rfl h1
      | done hd' => rw [hd] at hd'; cases hd'; exact absurd rfl h2
      | value hd' _ _ _ hv _ hclean _ =>
        rw [hd] at hd'
        cases hd'
        exact ⟨_, hv, hclean⟩
    · have hterms : s₁.blockedTerms = s.blockedTerms := by rw [hok.frame]
      exact hterms ▸ ih hmem

theorem accepted_utf8 {s s' : StreamInspector} {events : List Bytes}
    (h : Accepted lib s events s') (hmem : event ∈ events) : fromUtf8 event = true := by
  induction h with
  | nil => cases hmem
  | cons he _ ih =>
    rcases List.mem_cons.mp hmem with rfl | hmem
    · by_contra hutf8
      have hd : eventData event = .error (.protocolViolation, "SSE event is not UTF-8") :=
        if_neg hutf8
      cases inspectEvent_ok he with
      | empty hd' => rw [hd] at hd'; cases hd'
      | done hd' => rw [hd] at hd'; cases hd'
      | value hd' => rw [hd] at hd'; cases hd'
    · exact ih hmem

/-! ## The whole stream -/

/-- Whole conforming events dispatch their data, one after the other. -/
theorem events_dispatch {events : List Bytes} (hconf : ∀ e ∈ events, Conforming e)
    (hwhole : ∀ e ∈ events, Whole e) (tail : Bytes) (payloads : List Bytes) :
    (EventStream.lines false [] (events.flatten ++ tail)).foldl EventStream.Reader.line
        { data := [], payloads } =
      (EventStream.lines false [] tail).foldl EventStream.Reader.line
        { data := []
          payloads := payloads ++ ((events.map eventFields).filter (· ≠ [])).map
            [lf].intercalate } := by
  induction events generalizing payloads with
  | nil => simp
  | cons e events ih =>
    have hlast := (whole_last (hwhole e List.mem_cons_self)).1
    rw [List.flatten_cons, List.append_assoc, EventStream.lines_append hlast _ false [] nofun,
      List.foldl_append, event_dispatch (hconf e List.mem_cons_self) (hwhole e List.mem_cons_self),
      ih (fun e' he' => hconf e' (List.mem_cons_of_mem _ he'))
        (fun e' he' => hwhole e' (List.mem_cons_of_mem _ he'))]
    by_cases hf : eventFields e = []
    · simp [hf]
    · simp [hf]

theorem space_dispatch {tail : Bytes} (h : ∀ b ∈ tail, isAsciiWhitespace b = true)
    (payloads : List Bytes) :
    (EventStream.lines false [] tail).foldl EventStream.Reader.line { data := [], payloads } =
      { data := [], payloads } := by
  refine EventStream.dispatch_nothing payloads fun line hline => if_pos fun hname => ?_
  have hmem : (0x64 : UInt8) ∈ line := by
    refine (List.takeWhile_prefix (· ≠ 0x3A)).subset ?_
    rw [hname]
    decide
  have hspace := h _ ((EventStream.mem_lines hline hmem).resolve_left List.not_mem_nil).1
  exact absurd hspace (by decide)

/-- In every run, if the released events are conforming and do not start with a byte order mark:
what a standard reader dispatches from the released bytes, other than the end mark, is the data of
a released event, which was parsed and whose strings were scanned. -/
theorem standard_payloads_scanned (lib : Externals) (config : Config)
    (tokenBudget maxResponseBytes : Nat) {f : Feed}
    (hf : (Feed.system lib (.new lib config tokenBudget maxResponseBytes)).Reach f) :
    (∃ events s₁ tail, Delivered lib (.new lib config tokenBudget maxResponseBytes) f.released
      f.closed events s₁ tail) ∧
    ∀ events s₁ tail, Delivered lib (.new lib config tokenBudget maxResponseBytes) f.released
        f.closed events s₁ tail →
      (∀ event ∈ events, Conforming event) → ¬ EventStream.bom <+: f.released →
      ∀ payload ∈ EventStream.payloads f.released, payload ≠ utf8 "[DONE]" →
        ∃ event ∈ events, eventData event = .ok payload ∧
          ∃ value, lib.fromSlice payload = some value ∧
            Clean lib (config.blockedTerms.map lib.toLowercase) value.collectStrings := by
  constructor
  · obtain ⟨events, s₁, tail, hdel, -⟩ := (Feed.Reach.inv rfl hf).delivered
    exact ⟨events, s₁, tail, hdel⟩
  · intro events s₁ tail hdel hconf hbom payload hpayload hdone
    have hspace : ∀ b ∈ tail, isAsciiWhitespace b = true := by
      rcases hdel.tail_eq with rfl | ⟨-, -, h⟩
      · simp
      · exact h
    have hbytes : (stripPrefix EventStream.bom f.released).getD f.released = f.released := by
      rw [stripPrefix, if_neg hbom]
      rfl
    rw [EventStream.payloads, hbytes, hdel.released_eq,
      events_dispatch hconf hdel.whole tail [], space_dispatch hspace] at hpayload
    simp only [List.nil_append, List.mem_map, List.mem_filter, decide_eq_true_eq] at hpayload
    obtain ⟨fields, ⟨⟨event, hevent, rfl⟩, hfields⟩, rfl⟩ := hpayload
    have hlast := (whole_last (hdel.whole event hevent)).1
    have hdata := eventData_eq (hconf event hevent) hlast (accepted_utf8 hdel.accepted hevent)
    exact ⟨event, hevent, hdata, accepted_scanned hdel.accepted hevent hdata
      (intercalate_ne_nil hfields (hconf event hevent).nonempty) hdone⟩

/-! ### Runs -/

/-- The libraries of a stream with the event `"hi"`. -/
def hiLib : Externals := .ascii [("\"hi\"", .string "hi")] "" []

/-- An inspector with room for the event. -/
def hiInspector : StreamInspector := .new hiLib .default 1024 4096

/-- The inspector after one chunk. -/
def oneChunk (chunk : Bytes) : Feed :=
  ({ inspector := hiInspector, input := [], released := [], closed := false } : Feed).chunk
    hiLib chunk

theorem oneChunk_reach (chunk : Bytes) : (Feed.system hiLib hiInspector).Reach (oneChunk chunk) :=
  .step (i := .chunk chunk) (.init rfl) ⟨rfl, rfl⟩

/-- An event with a short text. -/
def hiEvent : Bytes := utf8 "data: \"hi\"\n\n"

theorem hiEvent_conforming : Conforming hiEvent where
  crlf := by decide
  colon := by decide
  oneGroup := by
    have hlines : EventStream.lines false [] hiEvent = [utf8 "data: \"hi\"", []] := by decide
    rw [hlines]
    intro before after heq
    cases before with
    | nil => cases heq
    | cons line before =>
      cases before with
      | nil => cases heq; exact .inr rfl
      | cons line' before => cases before <;> cases heq
  nonempty := by decide

theorem hiEvent_scanned :
    ∃ event ∈ [hiEvent], eventData event = .ok (utf8 "\"hi\"") ∧
      ∃ value, hiLib.fromSlice (utf8 "\"hi\"") = some value ∧
        Clean hiLib [] value.collectStrings := by
  have hdel : ∃ s₁, Delivered hiLib hiInspector (oneChunk hiEvent).released
      (oneChunk hiEvent).closed [hiEvent] s₁ [] :=
    ⟨_, .cons (Prod.ext (by decide) rfl) (.nil _), by decide, by decide, .inl rfl⟩
  obtain ⟨s₁, hdel⟩ := hdel
  exact (standard_payloads_scanned hiLib .default 1024 4096 (oneChunk_reach hiEvent)).2 _ _ _ hdel
    (by simpa using hiEvent_conforming) (by decide) _ (by decide) (by decide)

/-- A data line after a bare carriage return. -/
def bareCrEvent : Bytes := utf8 ": c\rdata: x@y.zz\r\rfoo\n\n"

/-- The inspector releases it without data, and a standard reader dispatches an address. -/
theorem bare_cr_unscanned : ∃ f events s₁,
    (Feed.system hiLib hiInspector).Reach f ∧
      Delivered hiLib hiInspector f.released f.closed events s₁ [] ∧
      utf8 "x@y.zz" ∈ EventStream.payloads f.released ∧ utf8 "x@y.zz" ≠ utf8 "[DONE]" ∧
      (∀ event ∈ events, eventData event = .ok []) ∧
      hiLib.fromSlice (utf8 "x@y.zz") = none ∧ hiLib.emailIsMatch "x@y.zz" = true := by
  have hdel : ∃ s₁, Delivered hiLib hiInspector (oneChunk bareCrEvent).released
      (oneChunk bareCrEvent).closed [bareCrEvent] s₁ [] :=
    ⟨_, .cons (Prod.ext (by decide) rfl) (.nil _), by decide, by decide, .inl rfl⟩
  obtain ⟨s₁, hdel⟩ := hdel
  exact ⟨_, _, s₁, oneChunk_reach bareCrEvent, hdel, by decide, by decide,
    by simp only [List.mem_singleton, forall_eq]; rfl, by decide, by decide⟩

end Kavora.Policy
