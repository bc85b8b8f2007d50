import Kavora.Lib.Redelivery
import Kavora.Router.CacheWindow
import Kavora.EngineEvents.Prepared

/-!
# Delivery of the batches (`VLLMSubscriber._deliver`)

The subscriber prepares a batch, posts its events one after the other and commits it. An exception,
a crash or a lost reply ends the process; the next one loads the checkpoint and is given the same
batch again. The subscriber and the gateway's index are a `Protocol`: the sender is the adapter
with its file.

* `delivery_idempotent`: the index ignores an event that it knows.
* `exactly_once`: at-least-once delivery of the batches gives the index of exactly-once delivery.
-/

namespace Kavora.EngineEvents

open Lib Lib.Go Router BackendState

/-- A batch as it arrives. -/
structure Message (T : Type) where
  sequence : Int
  payload : PyValue T

/-- The process of an adapter and its checkpoint file. -/
structure Process (T : Type) where
  adapter : VLLMEventAdapter T
  file : Option (Checkpoint T)

variable {T F : Type} [PyFloat T]

namespace Process

/-- `VLLMEventAdapter(args.backend_id, args.generation, args.checkpoint)`. -/
def start (backendID generation : String) (file : Option (Checkpoint T)) :
    Except AdapterError (Process T) :=
  (VLLMEventAdapter.new backendID generation file).map fun adapter => { adapter, file }

/-- A process that starts has names and the state of its checkpoint. -/
theorem start_ok {backendID generation : String} {file : Option (Checkpoint T)} {s : Process T}
    (h : start backendID generation file = .ok s) :
    (backendID ≠ "" ∧ generation ≠ "") ∧
      s = { adapter := .load backendID generation file, file } := by
  unfold start VLLMEventAdapter.new at h
  split at h
  · cases h
  · rename_i hnames
    cases h
    exact ⟨not_or.mp hnames, rfl⟩

/-- The events of a message, if it is accepted. -/
def prepare (s : Process T) (message : Message T) : Option (List Event) :=
  (s.adapter.prepare message.sequence message.payload).toOption.map (·.events)

/-- The message is committed; the adapter writes its file. -/
def commit (s : Process T) (message : Message T) : Process T :=
  match s.adapter.prepare message.sequence message.payload with
  | .error _ => s
  | .ok prepared =>
    let (adapter, file) := s.adapter.commit prepared s.file
    { adapter, file }

/-- The next process, with the same arguments. -/
def restart (s : Process T) : Process T :=
  { s with adapter := .load s.adapter.backendID s.adapter.configuredGeneration s.file }

end Process

/-- The subscriber and the index. -/
def delivery (T F : Type) [PyFloat T] :
    Protocol (Message T) (Process T) Event Time (KVEventProvider F) where
  prepare := Process.prepare
  commit := Process.commit
  recover := Process.restart
  apply now p event := post T p now event

/-- The index knows the event as it decodes it. -/
def KnowsEvent (T : Type) [PyFloat T] (p : KVEventProvider F) (event : Event) : Prop :=
  ∀ kvEvent, event.decode T = some kvEvent → p.Knows kvEvent

instance (p : KVEventProvider F) (event : Event) : Decidable (KnowsEvent T p event) :=
  match h : event.decode T with
  | none => .isTrue fun kvEvent hdecode => by rw [h] at hdecode; cases hdecode
  | some kvEvent =>
    decidable_of_iff (p.Knows kvEvent)
      ⟨fun hknows other hdecode => by rw [h] at hdecode; cases hdecode; exact hknows,
        fun hknows => hknows kvEvent h⟩

/-- The index is in the generation of the batch. -/
def Opened (events : List Event) (p : KVEventProvider F) : Prop :=
  ∀ event ∈ events, event.generation = "" ∨ p.generation event.backendID = event.generation

/-! ## Posting an event of a batch -/

theorem engineEventID_ne (generation : String) (sequence eventIndex : Nat) :
    VLLMEventAdapter.engineEventID generation sequence eventIndex ≠ "" := by
  intro h
  have := congrArg String.length h
  simp [VLLMEventAdapter.engineEventID] at this

theorem engineEventID_toList (generation : String) (sequence number : Nat) :
    (VLLMEventAdapter.engineEventID generation sequence number).toList =
      (generation.toList ++ ':' :: (toString sequence).toList) ++
        ':' :: (toString number).toList := by
  unfold VLLMEventAdapter.engineEventID
  simp only [String.toList_append, List.append_assoc]
  rfl

/-- The ID tells the generation, the sequence and the number. -/
theorem engineEventID_inj {generation generation' : String}
    {sequence sequence' number number' : Nat}
    (h : VLLMEventAdapter.engineEventID generation sequence number =
      VLLMEventAdapter.engineEventID generation' sequence' number') :
    generation = generation' ∧ sequence = sequence' ∧ number = number' := by
  have hcolon : ∀ n : Nat, ':' ∉ (toString n).toList := notMem_natText (by decide)
  have h := congrArg String.toList h
  rw [engineEventID_toList, engineEventID_toList] at h
  obtain ⟨h, hnumber⟩ := separator_append_inj (hcolon _) (hcolon _) h
  obtain ⟨hgeneration, hsequence⟩ := separator_append_inj (hcolon _) (hcolon _) h
  exact ⟨String.toList_injective hgeneration,
    natText_injective (String.toList_injective hsequence),
    natText_injective (String.toList_injective hnumber)⟩

theorem decode_ok {event : Event} {kvEvent : KVEvent} (h : event.decode T = some kvEvent) :
    ∃ observedAt, PyFloat.parseTime T event.observedAt = some observedAt ∧
      event.sequence < 2 ^ 64 ∧
      kvEvent =
        { operation := event.operation
          backendID := event.backendID
          cacheKey := event.cacheKey
          matchedTokens := event.matchedTokens
          totalTokens := event.totalTokens
          sequence := event.sequence
          hasSequence := event.hasSequence
          generation := event.generation
          engineEventID := event.engineEventID
          observedAt
          quality := event.quality } := by
  unfold Event.decode at h
  split at h
  · cases h
  · rename_i hfits
    obtain ⟨observedAt, hparse, heq⟩ := Option.map_eq_some_iff.mp h
    exact ⟨observedAt, hparse, by omega, heq.symm⟩

theorem post_ok {p p' : KVEventProvider F} {now : Time} {event : Event}
    (h : post T p now event = some p') :
    ∃ kvEvent, event.decode T = some kvEvent ∧ validEvent kvEvent = true ∧
      p' = p.observe now kvEvent := by
  unfold post at h
  split at h
  · cases h
  · rename_i kvEvent hdecode
    split at h
    · rename_i hvalid
      exact ⟨kvEvent, hdecode, hvalid, (Option.some.inj h).symm⟩
    · cases h

theorem validEvent_names {kvEvent : KVEvent} (h : validEvent kvEvent = true) :
    kvEvent.backendID ≠ "" ∧ (kvEvent.effectiveOperation = .clear ∨ kvEvent.cacheKey ≠ "") := by
  simp only [validEvent, Bool.and_eq_true, Bool.or_eq_true, decide_eq_true_eq] at h
  exact h.1.1.1.1

/-- What the gateway makes of an event of an adapter. -/
theorem stamped_decode {a : VLLMEventAdapter T} {header : VLLMEventAdapter.Header T} {event : Event}
    {kvEvent : KVEvent} (hstamped : a.Stamped header event)
    (hnonneg : PyFloat.nonneg header.timestamp = true) (hdecode : event.decode T = some kvEvent)
    (hvalid : validEvent kvEvent = true) :
    kvEvent.Valid ∧ kvEvent.observedAt.isZero = false ∧ kvEvent.backendID = a.backendID ∧
      kvEvent.generation = header.generation := by
  obtain ⟨operation, eventIndex, key, tokens, -, hevent⟩ := hstamped
  obtain ⟨text, hprint, rfl⟩ := VLLMEventAdapter.event_ok hevent
  obtain ⟨observedAt, hparse, -, rfl⟩ := decode_ok hdecode
  obtain ⟨hbackend, hkey⟩ := validEvent_names hvalid
  refine ⟨⟨hbackend, hkey, engineEventID_ne _ _ _⟩, ?_, rfl, rfl⟩
  exact PyFloat.parse_nonzero header.timestamp text observedAt hnonneg hprint hparse

/-! ## The protocol -/

theorem Process.prepare_eq_some {s : Process T} {message : Message T} {events : List Event} :
    s.prepare message = some events ↔
      ∃ prepared, s.adapter.prepare message.sequence message.payload = .ok prepared ∧
        prepared.events = events := by
  unfold Process.prepare
  cases s.adapter.prepare message.sequence message.payload with
  | error e => simp [Except.toOption]
  | ok prepared => simp [Except.toOption]

theorem Process.saved_commit {s : Process T} {message : Message T} {events : List Event}
    (h : s.adapter.Saved s.file) (hprepare : s.prepare message = some events) :
    (s.commit message).adapter.Saved (s.commit message).file := by
  obtain ⟨prepared, hok, -⟩ := prepare_eq_some.mp hprepare
  unfold Process.commit
  rw [hok]
  exact VLLMEventAdapter.load_commit h

/-- The events of a batch agree on the backend and the generation. -/
theorem Process.prepare_stamped {s : Process T} {message : Message T} {events : List Event}
    (hprepare : s.prepare message = some events) :
    ∃ header : VLLMEventAdapter.Header T, PyFloat.nonneg header.timestamp = true ∧
      ∀ event ∈ events, s.adapter.Stamped header event := by
  obtain ⟨prepared, hok, rfl⟩ := prepare_eq_some.mp hprepare
  exact ⟨VLLMEventAdapter.headerOf prepared, VLLMEventAdapter.prepare_nonneg hok,
    VLLMEventAdapter.prepare_stamped hok⟩

theorem delivery_idempotent :
    (delivery T F).Idempotent (fun s => s.adapter.Saved s.file) Opened (KnowsEvent T) where
  recover := by
    intro s hsaved
    show { s with adapter := _ } = s
    rw [hsaved]
  commit := by
    intro s message events hsaved hprepare
    exact Process.saved_commit hsaved hprepare
  env := by
    intro s message events event now now' p hprepare hmem
    obtain ⟨header, hnonneg, hstamped⟩ := Process.prepare_stamped hprepare
    show post T p now event = post T p now' event
    unfold post
    split
    · rfl
    · rename_i kvEvent hdecode
      split
      · rename_i hvalid
        obtain ⟨-, htime, -, -⟩ := stamped_decode (hstamped event hmem) hnonneg hdecode hvalid
        rw [KVEventProvider.observe_now htime now now']
      · rfl
  opened := by
    intro s message events event now p p' hprepare hmem happly other hother
    obtain ⟨header, hnonneg, hstamped⟩ := Process.prepare_stamped hprepare
    obtain ⟨kvEvent, hdecode, hvalid, rfl⟩ := post_ok happly
    obtain ⟨hv, -, hbackend, hgeneration⟩ :=
      stamped_decode (hstamped event hmem) hnonneg hdecode hvalid
    obtain ⟨_, _, _, _, -, hevent⟩ := hstamped other hother
    obtain ⟨_, -, rfl⟩ := VLLMEventAdapter.event_ok hevent
    have hopen := KVEventProvider.observe_inGeneration p now hv
    rwa [KVEventProvider.InGeneration, hbackend, hgeneration] at hopen
  ignores := by
    intro s message events event now p p' hprepare hmem hopen hknows happly
    obtain ⟨header, hnonneg, hstamped⟩ := Process.prepare_stamped hprepare
    obtain ⟨kvEvent, hdecode, hvalid, rfl⟩ := post_ok happly
    obtain ⟨hv, -, -, -⟩ := stamped_decode (hstamped event hmem) hnonneg hdecode hvalid
    refine KVEventProvider.observe_known hv.engineEventID ?_ (hknows kvEvent hdecode)
    obtain ⟨_, -, -, rfl⟩ := decode_ok hdecode
    exact hopen event hmem

/-- An event is known right after its post. -/
theorem post_knows {s : Process T} {message : Message T} {events : List Event} {event : Event}
    {p p' : KVEventProvider F} {now : Time} (hprepare : s.prepare message = some events)
    (hmem : event ∈ events) (hwindow : p.Window) (hmax : 0 < p.max)
    (hpost : post T p now event = some p') : p'.Window ∧ KnowsEvent T p' event := by
  obtain ⟨header, hnonneg, hstamped⟩ := Process.prepare_stamped hprepare
  obtain ⟨kvEvent, hdecode, hvalid, rfl⟩ := post_ok hpost
  obtain ⟨hv, -, -, -⟩ := stamped_decode (hstamped event hmem) hnonneg hdecode hvalid
  obtain ⟨hwindow', hknows⟩ := KVEventProvider.observe_window now hv hwindow hmax
  refine ⟨hwindow', fun other hother => ?_⟩
  rw [hdecode] at hother
  obtain rfl := Option.some.inj hother
  exact hknows

/-- **At-least-once delivery of the batches is exactly-once delivery.** In a run where an event
that is posted again is still known to the index, the adapter and the file are those of delivering
each committed batch once, and so is the index but for the posted events of the open batch. -/
theorem exactly_once {backendID generation : String} {file : Option (Checkpoint T)}
    {started : Process T} (hstart : Process.start backendID generation file = .ok started)
    {messages : List (Message T)} {p : KVEventProvider F} {now : Time}
    {s : Protocol.State (Process T) (KVEventProvider F)}
    (hs : (((delivery T F).system messages started p).restrict
      ((delivery T F).Retained (KnowsEvent T) messages)).Reach s) :
    ∃ once, (delivery T F).once now (started, p) (messages.take s.done) = some (s.sender, once) ∧
      (delivery T F).postAll now once ((delivery T F).seen messages s) = some s.receiver ∧
      (s.reached = 0 → s.receiver = once) := by
  have hsaved : started.adapter.Saved started.file := by
    obtain ⟨-, rfl⟩ := Process.start_ok hstart
    exact VLLMEventAdapter.load_saved
  obtain ⟨once, honce, hposted⟩ :=
    delivery_idempotent.delivered_once (started, p) hsaved hs
  refine ⟨once, honce, hposted, fun hreached => ?_⟩
  rw [Protocol.seen, hreached, List.take_zero] at hposted
  exact (Option.some.inj hposted).symm

namespace DeliverySample

attribute [local instance] PyFloat.wholeSeconds

/-- Two blocks of 16 tokens. -/
def blocks : Message Nat where
  sequence := 0
  payload :=
    .list
      [.float 1,
        .list [.list [.str "BlockStored", .list [.int 7, .int 8], .none, .list [], .int 16]]]

def started : Process Nat where
  adapter := .load "backend" "pod-1" none
  file := none

def empty : KVEventProvider Rat where
  max := 2
  ttl := 300000000000
  lambda := 0
  entries := .empty
  generation _ := ""
  lastSequence _ := 0
  hasSequence _ := false
  seenEvents := ∅
  eventOrder := []

def initial : Protocol.State (Process Nat) (KVEventProvider Rat) where
  sender := started
  receiver := empty
  done := 0
  posted := 0
  reached := 0

/-- The reply to the first event is lost; the batch is delivered again. -/
def run : Option (Protocol.State (Process Nat) (KVEventProvider Rat)) :=
  [.post 0, .fail, .post 1, .post 2, .commit].foldlM
    ((delivery Nat Rat).retry (KnowsEvent Nat) [blocks]) initial

def final : Protocol.State (Process Nat) (KVEventProvider Rat) := run.get (by decide +kernel)

theorem exactly_once_sample :
    ∃ once, (delivery Nat Rat).once 0 (started, empty) ([blocks].take final.done) =
        some (final.sender, once) ∧
      (delivery Nat Rat).postAll 0 once ((delivery Nat Rat).seen [blocks] final) =
        some final.receiver ∧
      (final.reached = 0 → final.receiver = once) :=
  exactly_once (show Process.start "backend" "pod-1" none = .ok started by rfl)
    (.foldlM (fun _ _ _ => Protocol.retry_step) _ (.init rfl) (Option.some_get _).symm)

example : final.done = 1 ∧ final.reached = 0 := by decide +kernel

end DeliverySample

end Kavora.EngineEvents
