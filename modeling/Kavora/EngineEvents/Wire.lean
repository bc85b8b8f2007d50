import Kavora.EngineEvents.Delivery
import Kavora.Webui.Handler

/-!
# The posts of the subscriber over HTTP (`VLLMSubscriber._post` and `/v1/admin/cache-events`)

* `eventDoc`: the document of an event. `unmarshal_eventDoc` says that the gateway reads the event.
* `postOver`: a post with its token, its answer and `raise_for_status`.
* `delivery_over`: the runs of the subscriber against the API are those of the delivery to the index.
-/

namespace Kavora.EngineEvents

open Lib Lib.Go Lib.Json Router BackendState Webui

/-- `encoding/json` reads a printed time as the gateway's `time.Time`. -/
class PrintedTimes (T : Type) [PyFloat T] : Prop where
  parse_eq : ∀ {x : T} {text : String}, PyFloat.rfc3339 x = some text →
    PyFloat.parseTime T text = Time.unmarshalText text.toList

/-- The dictionary of an event as JSON. -/
def eventDoc (event : Event) : Json :=
  .object
    [item "operation" (ofString (Operation.text event.operation)),
      item "backend_id" (ofString event.backendID),
      item "cache_key" (ofString event.cacheKey),
      item "matched_tokens" (.number (.ofList (intText event.matchedTokens))),
      item "total_tokens" (.number (.ofList (intText event.totalTokens))),
      item "sequence" (.number (.ofList (Nat.toDigits 10 event.sequence))),
      item "has_sequence" (.bool event.hasSequence),
      item "generation" (ofString event.generation),
      item "engine_event_id" (ofString event.engineEventID),
      item "observed_at" (ofString event.observedAt),
      item "quality" (ofString event.quality.text)]

/-- `_post`. Without a token there is no header. -/
def eventRequest (writer : Json.Writer) (adminToken : String) (event : Event) : Request where
  method := "POST"
  path := "/v1/admin/cache-events"
  authorization := if adminToken = "" then "" else "Bearer " ++ adminToken
  query _ := ""
  body := writer.write (eventDoc event)

variable {T F : Type} [PyFloat T]

/-! ## Reading an event -/

theorem assign_uint64 {S : Type} {name : String} {get : S → Nat} {set : Nat → S → S} {n : Nat}
    {s : S} :
    (uint64Field name get set).assign (.number (.ofList (Nat.toDigits 10 n))) s =
      if n < 2 ^ 64 then some (set n s) else none := by
  have hparse : parseDigits (String.ofList (Nat.toDigits 10 n)).toList = some n := by
    rw [String.toList_ofList]
    exact parseDigits_toDigits n
  show ((parseDigits (String.ofList (Nat.toDigits 10 n)).toList).filter (· < 2 ^ 64)).map _ = _
  rw [hparse, Option.filter_some]
  by_cases hn : n < 2 ^ 64
  · rw [if_pos (decide_eq_true hn), if_pos hn]
    rfl
  · rw [if_neg (by simpa using hn), if_neg hn]
    rfl

theorem readable_eventDoc (event : Event) : (eventDoc event).Readable := by
  have hnumber : ∀ n : Int, isNumber (String.ofList (intText n)).toList = true := by
    intro n
    rw [String.toList_ofList]
    exact isNumber_intText n
  have hdigits : isNumber (String.ofList (Nat.toDigits 10 event.sequence)).toList = true := by
    rw [String.toList_ofList]
    exact isNumber_toDigits event.sequence
  exact ⟨rfl, rfl, rfl, rfl, rfl, rfl, rfl, hnumber _, rfl, hnumber _, rfl, hdigits, rfl, trivial,
    rfl, rfl, rfl, rfl, rfl, rfl, rfl, rfl, trivial⟩

/-- The gateway reads the event of a batch. -/
theorem unmarshal_eventDoc [PrintedTimes T] {a : VLLMEventAdapter T}
    {header : VLLMEventAdapter.Header T} {event : Event} (hstamped : a.Stamped header event) :
    Marshal.unmarshal (eventDoc event) (Marshal.zero : KVEvent) = event.decode T := by
  obtain ⟨operation, eventIndex, key, tokens, hoperation, hevent⟩ := hstamped
  obtain ⟨observedAt, hprint, rfl⟩ := VLLMEventAdapter.event_ok hevent
  have hoperation : (omitempty "operation" (· = Operation.unset) KVEvent.operation
      fun a s => { s with operation := a }).assign (ofString (Operation.text operation))
        (Marshal.zero : KVEvent) = some { (Marshal.zero : KVEvent) with operation } := by
    rcases hoperation with rfl | rfl | rfl <;> rfl
  have htime := PrintedTimes.parse_eq hprint
  unfold Event.decode
  dsimp only
  rw [htime]
  show (List.foldlM (assignMember KVEvent.fields) _ _ : Option KVEvent) = _
  rw [foldlM_item rfl hoperation, foldlM_item rfl rfl, foldlM_item rfl rfl]
  by_cases htokens : -2 ^ 63 ≤ tokens ∧ tokens < 2 ^ 63
  · rw [foldlM_item rfl (assign_int64 htokens), foldlM_item rfl (assign_int64 htokens)]
    by_cases hsequence : header.sequence < 2 ^ 64
    · rw [foldlM_item rfl (assign_uint64.trans (if_pos hsequence)), foldlM_item rfl rfl,
        foldlM_item rfl rfl, foldlM_item rfl rfl, if_neg (by omega)]
      cases hread : Time.unmarshalText observedAt.toList with
      | none => exact foldlM_none rfl (congrArg (Option.map _) hread)
      | some time =>
        rw [foldlM_item rfl (congrArg (Option.map _) hread), foldlM_item rfl rfl]
        rfl
    · rw [foldlM_none rfl (assign_uint64.trans (if_neg hsequence)), if_pos (by omega)]
  · rw [foldlM_none rfl (assign_int64_none htokens), if_pos (by omega)]

/-! ## A post -/

/-- The control plane with this index. -/
def withProvider (cp : ControlPlane F) (provider : KVEventProvider F) : ControlPlane F :=
  { cp with
    controller := { cp.controller with
      cache := { cp.controller.cache with provider := .kvEvents (some provider) } } }

variable [Float64 F] [FloatText F] [Rounding F] [QueryFloat F]

/-- A post of the subscriber; `none` is an exception of `raise_for_status`. -/
def postOver (writer : Json.Writer) (adminToken clientToken : String) (now : Time)
    (cp : ControlPlane F) (event : Event) : Option (ControlPlane F) :=
  match cp.serve adminToken now (eventRequest writer clientToken event) with
  | none => none
  | some (response, cp) => if response.statusCode / 100 = 2 then some cp else none

/-- A post of an event of a batch is a post to the index, if its document fits into the limit and
the token is the one of the gateway. -/
theorem postOver_eq [PrintedTimes T] (writer : Json.Writer) {adminToken clientToken : String}
    (htoken : adminToken = "" ∨ clientToken = adminToken) (now : Time) (cp : ControlPlane F)
    (p : KVEventProvider F) {a : VLLMEventAdapter T} {header : VLLMEventAdapter.Header T}
    {event : Event} (hstamped : a.Stamped header event)
    (hfits : (writer.write (eventDoc event)).length ≤ 2 ^ 20) :
    postOver writer adminToken clientToken now (withProvider cp p) event =
      (post T p now event).map (withProvider cp) := by
  have hnesting : ¬ (eventDoc event).nesting > 10000 := by
    simp [eventDoc, item, ofString, nesting, nestingMembers]
  have hdecode : decodeJSON KVEvent (eventRequest writer clientToken event) = event.decode T := by
    unfold decodeJSON eventRequest
    dsimp only
    rw [List.take_of_length_le hfits, decodeBytes_write writer (readable_eventDoc event), readValue,
      if_neg hnesting]
    exact unmarshal_eventDoc hstamped
  have hauthorized : ControlPlane.authorized adminToken (eventRequest writer clientToken event) =
      true := by
    unfold ControlPlane.authorized eventRequest
    dsimp only
    rw [Bool.or_eq_true, decide_eq_true_eq, decide_eq_true_eq]
    rcases htoken with hnone | rfl
    · exact .inl hnone
    · by_cases hempty : clientToken = ""
      · exact .inl hempty
      · rw [if_neg hempty]
        exact .inr rfl
  have hserve : (withProvider cp p).serve adminToken now (eventRequest writer clientToken event) =
      some ((withProvider cp p).postCacheEvent now (eventRequest writer clientToken event)) := by
    have hroute : route "/v1/admin/cache-events" = some .cacheEvents := by decide
    unfold ControlPlane.serve
    rw [show (eventRequest writer clientToken event).path = "/v1/admin/cache-events" from rfl,
      hroute, Option.map_some, hauthorized]
    rfl
  unfold postOver post
  rw [hserve]
  unfold ControlPlane.postCacheEvent
  rw [hdecode]
  cases hevent : event.decode T with
  | none => exact if_neg (show ¬ 400 / 100 = 2 by decide)
  | some kvEvent =>
    dsimp only
    cases hvalid : validEvent kvEvent with
    | false =>
      rw [if_pos rfl, if_neg Bool.false_ne_true]
      exact if_neg (show ¬ 400 / 100 = 2 by decide)
    | true =>
      rw [if_neg (show ¬ true = false from Bool.noConfusion), if_pos rfl]
      exact if_pos (show 202 / 100 = 2 by decide)

/-! ## The delivery -/

/-- The subscriber and the API. -/
def apiDelivery (T F : Type) [PyFloat T] [Float64 F] [FloatText F] [Rounding F] [QueryFloat F]
    (writer : Json.Writer) (adminToken clientToken : String) :
    Protocol (Message T) (Process T) Event Time (ControlPlane F) where
  prepare := Process.prepare
  commit := Process.commit
  recover := Process.restart
  apply now cp event := postOver writer adminToken clientToken now cp event

/-- The event that is posted fits into the limit of a body. -/
def Fits {R : Type} (writer : Json.Writer) (messages : List (Message T))
    (s : Protocol.State (Process T) R) : Protocol.Label Time → Prop
  | .post _ =>
    ∀ event ∈ (messages[s.done]?.bind (Process.prepare s.sender)).bind
      fun events => events[s.posted]?, (writer.write (eventDoc event)).length ≤ 2 ^ 20
  | _ => True

instance {R : Type} (writer : Json.Writer) (messages : List (Message T))
    (s : Protocol.State (Process T) R) : ∀ i, Decidable (Fits writer messages s i)
  | .post _ => inferInstanceAs (Decidable (∀ event ∈ _, _))
  | .fail => .isTrue trivial
  | .commit => .isTrue trivial

/-- A step over HTTP is that of the delivery to the index: a post is refused for the same events, and
otherwise leaves the same index. -/
theorem next_over [PrintedTimes T] (writer : Json.Writer) {adminToken clientToken : String}
    (htoken : adminToken = "" ∨ clientToken = adminToken) (messages : List (Message T))
    (cp : ControlPlane F) (q : Protocol.State (Process T) (KVEventProvider F))
    (label : Protocol.Label Time) (hfits : Fits writer messages q label) :
    (apiDelivery T F writer adminToken clientToken).next messages (q.map (withProvider cp)) label =
      ((delivery T F).next messages q label).map (.map (withProvider cp)) := by
  refine Protocol.next_map (withProvider cp) rfl rfl rfl label ?_
  rintro now rfl events hbatch event hevent
  obtain ⟨message, -, hprepare⟩ := Protocol.batch_eq_some.mp hbatch
  obtain ⟨header, -, hstamped⟩ := Process.prepare_stamped hprepare
  exact postOver_eq (T := T) writer htoken now cp q.receiver
    (hstamped event (List.mem_of_getElem? hevent))
    (hfits event (Option.bind_eq_some_iff.mpr ⟨events, hbatch, hevent⟩))

/-- **The runs over HTTP are those of the delivery to the index**, step by step, whatever writes the
documents, and the rest of the control plane stays as it is. -/
theorem delivery_over [PrintedTimes T] (writer : Json.Writer) {adminToken clientToken : String}
    (htoken : adminToken = "" ∨ clientToken = adminToken) (messages : List (Message T))
    (started : Process T) (cp : ControlPlane F) (p : KVEventProvider F) :
    (∀ s, (((apiDelivery T F writer adminToken clientToken).system messages started
        (withProvider cp p)).restrict (Fits writer messages)).Reach s ↔
      ∃ q, s = q.map (withProvider cp) ∧
        (((delivery T F).system messages started p).restrict (Fits writer messages)).Reach q) ∧
      ∀ (q : Protocol.State (Process T) (KVEventProvider F)) label, Fits writer messages q label →
        (apiDelivery T F writer adminToken clientToken).next messages (q.map (withProvider cp))
            label =
          ((delivery T F).next messages q label).map (.map (withProvider cp)) := by
  refine ⟨fun s => System.Lockstep.reach_iff ⟨fun s => ?_, fun q label s => ?_⟩,
    next_over writer htoken messages cp⟩
  · constructor
    · rintro rfl
      exact ⟨_, rfl, rfl⟩
    · rintro ⟨q, rfl, rfl⟩
      rfl
  · constructor
    · rintro ⟨hnext, hfits⟩
      have hnext : (apiDelivery T F writer adminToken clientToken).next messages
          (q.map (withProvider cp)) label = some s := hnext
      rw [next_over writer htoken messages cp q label hfits] at hnext
      obtain ⟨q', hdirect, rfl⟩ := Option.map_eq_some_iff.mp hnext
      exact ⟨q', rfl, hdirect, hfits⟩
    · rintro ⟨q', rfl, hnext, hfits⟩
      have hnext : (delivery T F).next messages q label = some q' := hnext
      refine ⟨?_, hfits⟩
      show (apiDelivery T F writer adminToken clientToken).next messages
        (q.map (withProvider cp)) label = _
      rw [next_over writer htoken messages cp q label hfits, hnext]
      rfl

namespace WireSample

attribute [local instance] PyFloat.wholeSeconds

local instance : Float64 Rat := .rational fun _ => 1
local instance : FloatText Rat := integerText
local instance : QueryFloat Rat := ⟨fun _ => 0⟩
local instance : Rounding Rat := ⟨Rat.floor, Rat.ceil, fun x => x⟩

local instance : PrintedTimes Nat where
  parse_eq := by
    have hall : ∀ x < 10, PyFloat.parseTime Nat (secondText x) =
        Time.unmarshalText (secondText x).toList := by decide +kernel
    intro x text hprint
    obtain ⟨hx, htext⟩ := Option.ite_none_right_eq_some.mp hprint
    cases htext
    exact hall x hx

/-- A gateway without a lifecycle that is given the events of one backend. -/
def gateway : ControlPlane Rat where
  controller :=
    { mode := .shadow, states := ∅
      cache := { affinity := none, provider := .kvEvents (some DeliverySample.empty) }
      predictor := .default, lifecycle := none, experiment := none, maxStateAge := 0
      stateLambda := 1 / 10 }
  ledger := .new 16 false

def initial : Protocol.State (Process Nat) (ControlPlane Rat) where
  sender := DeliverySample.started
  receiver := withProvider gateway DeliverySample.empty
  done := 0
  posted := 0
  reached := 0

/-- The subscriber with the token of the gateway. -/
def protocol : Protocol (Message Nat) (Process Nat) Event Time (ControlPlane Rat) :=
  apiDelivery Nat Rat .go "secret" "secret"

/-- A step that posts no document over the limit. -/
def step (s : Protocol.State (Process Nat) (ControlPlane Rat)) (i : Protocol.Label Time) :
    Option (Protocol.State (Process Nat) (ControlPlane Rat)) :=
  if Fits .go [DeliverySample.blocks] s i then protocol.next [DeliverySample.blocks] s i else none

/-- The reply to the first event is lost, both events are posted, and the batch is committed. -/
def run : Option (Protocol.State (Process Nat) (ControlPlane Rat)) :=
  [.post 0, .fail, .post 1, .post 2, .commit].foldlM step initial

def final : Protocol.State (Process Nat) (ControlPlane Rat) := run.get (by decide +kernel)

theorem reach_final :
    ((protocol.system [DeliverySample.blocks] DeliverySample.started
      (withProvider gateway DeliverySample.empty)).restrict (Fits .go [DeliverySample.blocks])).Reach
      final := by
  refine .foldlM (fun s i s' hstep => ?_) _ (.init rfl) (Option.some_get _).symm
  obtain ⟨hfits, hnext⟩ := Option.ite_none_right_eq_some.mp hstep
  exact ⟨hnext, hfits⟩

/-- The run over HTTP is one of the delivery to the index, which has taken the batch once. -/
theorem delivery_over_sample :
    final.done = 1 ∧ ∃ q, final = q.map (withProvider gateway) ∧
      (((delivery Nat Rat).system [DeliverySample.blocks] DeliverySample.started
        DeliverySample.empty).restrict (Fits .go [DeliverySample.blocks])).Reach q := by
  have htoken : "secret" = "" ∨ "secret" = "secret" := .inr rfl
  refine ⟨by decide +kernel, ?_⟩
  exact ((delivery_over .go htoken [DeliverySample.blocks] DeliverySample.started gateway
    DeliverySample.empty).1 final).mp reach_final

end WireSample

end Kavora.EngineEvents
