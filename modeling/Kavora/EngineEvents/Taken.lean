import Kavora.Router.CacheIndex
import Kavora.EngineEvents.Delivery

/-!
# What the index takes

The index drops an event that it knows. An index with a record keeps the events that it took: those
of the generation that it is in, in their order, and those of the generations that it has left.

* `Observed.post`: one event, posted to an index with its record.
* `Observed.Sound`: the entries of the index are what the record makes of them.
* `Observed.postAll_batch`: of a batch that the index is not ahead of, and that it took nothing of
  in a generation that it has left, every posted event is in the record.
* `batchNumbers`: the numbers in the IDs of a batch's events.
-/

namespace Kavora.EngineEvents

open Lib Lib.Go Router

variable {T F : Type} [PyFloat T]

/-! ## The numbers of a batch -/

/-- The numbers of the events that one engine event is turned into. -/
def eventNumbers (eventIndex : Nat) : PyValue T → List Nat
  | .list (.str "AllBlocksCleared" :: _) => [eventIndex * 1000000]
  | .list (_ :: .list blockHashes :: _) =>
    List.range' (eventIndex * 1000000) blockHashes.length
  | _ => []

/-- The numbers of the events of some raw events. -/
def payloadNumbers : Nat → List (PyValue T) → List Nat
  | _, [] => []
  | eventIndex, raw :: raws => eventNumbers eventIndex raw ++ payloadNumbers (eventIndex + 1) raws

/-- The numbers of the events of a batch; a restart opens with a clear. -/
def batchNumbers (restart : Bool) : PyValue T → List Nat
  | .list (_ :: .list raws :: _) => (if restart then [0] else []) ++ payloadNumbers 1 raws
  | _ => []

omit [PyFloat T] in
theorem eventNumbers_blocks {kind : String} (h : kind ≠ "AllBlocksCleared") (eventIndex : Nat)
    (blockHashes fields : List (PyValue T)) :
    eventNumbers eventIndex (.list (.str kind :: .list blockHashes :: fields)) =
      List.range' (eventIndex * 1000000) blockHashes.length := by
  unfold eventNumbers
  split
  · rename_i heq
    cases heq
    exact absurd rfl h
  · rename_i heq
    cases heq
    rfl
  · rename_i hblocks
    exact absurd rfl (hblocks _ _ _)

namespace VLLMEventAdapter

variable {a a' : VLLMEventAdapter T} {header : Header T}

theorem blockEvents_ids {operation : Operation} {eventIndex : Nat} {tokens : Int} :
    ∀ {blockIndex : Nat} {blockHashes : List (PyValue T)} {events : List Event},
      a.blockEvents header operation eventIndex tokens blockIndex blockHashes = .ok events →
      events.map (·.engineEventID) =
        (List.range' (eventIndex * 1000000 + blockIndex) blockHashes.length).map
          (engineEventID header.generation header.sequence) := by
  intro blockIndex blockHashes
  induction blockHashes generalizing blockIndex with
  | nil =>
    intro events h
    cases h
    rfl
  | cons blockHash blockHashes ih =>
    intro events h
    obtain ⟨key, -, h⟩ := bind_ok h
    obtain ⟨first, hfirst, h⟩ := bind_ok h
    obtain ⟨rest, hrest, h⟩ := bind_ok h
    cases h
    obtain ⟨_, -, rfl⟩ := event_ok hfirst
    rw [List.map_cons, ih hrest, List.length_cons, List.range'_succ, List.map_cons,
      Nat.add_assoc]

theorem engineEvent_ids {eventIndex : Nat} {raw : PyValue T} {events : List Event}
    (h : a.engineEvent header eventIndex raw = .ok events) :
    events.map (·.engineEventID) =
      (eventNumbers eventIndex raw).map (engineEventID header.generation header.sequence) := by
  unfold engineEvent at h
  split at h
  · split at h
    · split at h
      · cases h
      · split at h
        · cases h
        · have hids := blockEvents_ids h
          rw [Nat.add_zero] at hids
          rwa [eventNumbers_blocks (by decide)]
    · cases h
  · split at h
    · have hids := blockEvents_ids h
      rw [Nat.add_zero] at hids
      rwa [eventNumbers_blocks (by decide)]
    · cases h
  · obtain ⟨cleared, hcleared, h⟩ := bind_ok h
    cases h
    obtain ⟨_, -, rfl⟩ := event_ok hcleared
    rfl
  · cases h
  · cases h

theorem engineEvents_ids :
    ∀ {eventIndex : Nat} {raws : List (PyValue T)} {events : List Event},
      a.engineEvents header eventIndex raws = .ok events →
      events.map (·.engineEventID) =
        (payloadNumbers eventIndex raws).map (engineEventID header.generation header.sequence) := by
  intro eventIndex raws
  induction raws generalizing eventIndex with
  | nil =>
    intro events h
    cases h
    rfl
  | cons raw raws ih =>
    intro events h
    obtain ⟨first, hfirst, h⟩ := bind_ok h
    obtain ⟨rest, hrest, h⟩ := bind_ok h
    cases h
    rw [List.map_append, engineEvent_ids hfirst, ih hrest, payloadNumbers, List.map_append]

theorem batchEvents_ids {restart : Bool} {raws : List (PyValue T)} {events : List Event}
    (h : a.batchEvents header restart raws = .ok events) (first : PyValue T)
    (rest : List (PyValue T)) :
    events.map (·.engineEventID) =
      (batchNumbers restart (.list (first :: .list raws :: rest))).map
        (engineEventID header.generation header.sequence) := by
  obtain ⟨opening, rest, rfl, hrest, hopening⟩ := batchEvents_ok h
  rw [List.map_append, engineEvents_ids hrest, batchNumbers, List.map_append]
  obtain ⟨rfl, rfl⟩ | ⟨rfl, cleared, rfl, hcleared⟩ := hopening
  · rfl
  · obtain ⟨_, -, rfl⟩ := event_ok hcleared
    rfl

/-! ### The events of a batch depend on the backend only -/

theorem event_congr (h : a.backendID = a'.backendID) : a.event = a'.event := by
  funext header operation eventIndex key tokens
  unfold event
  rw [h]

theorem blockEvents_congr (h : a.backendID = a'.backendID) (operation : Operation)
    (eventIndex : Nat) (tokens : Int) : ∀ (blockHashes : List (PyValue T)) (blockIndex : Nat),
      a.blockEvents header operation eventIndex tokens blockIndex blockHashes =
        a'.blockEvents header operation eventIndex tokens blockIndex blockHashes := by
  intro blockHashes
  induction blockHashes with
  | nil => exact fun _ => rfl
  | cons blockHash blockHashes ih =>
    intro blockIndex
    unfold blockEvents
    rw [event_congr h, ih]

theorem engineEvent_congr (h : a.backendID = a'.backendID) (eventIndex : Nat) (raw : PyValue T) :
    a.engineEvent header eventIndex raw = a'.engineEvent header eventIndex raw := by
  unfold engineEvent
  simp only [event_congr h, blockEvents_congr h]

theorem engineEvents_congr (h : a.backendID = a'.backendID) :
    ∀ (raws : List (PyValue T)) (eventIndex : Nat),
      a.engineEvents header eventIndex raws = a'.engineEvents header eventIndex raws := by
  intro raws
  induction raws with
  | nil => exact fun _ => rfl
  | cons raw raws ih =>
    intro eventIndex
    unfold engineEvents
    rw [engineEvent_congr h, ih]

theorem batchEvents_congr (h : a.backendID = a'.backendID) (restart : Bool)
    (raws : List (PyValue T)) :
    a.batchEvents header restart raws = a'.batchEvents header restart raws := by
  unfold batchEvents
  rw [event_congr h, engineEvents_congr h]

end VLLMEventAdapter

/-! ## An index with its record -/

/-- An index and the events that it took: in the generation that it is in, and in the generations
that it has left. -/
structure Observed (F : Type) where
  provider : KVEventProvider F
  taken : List Event
  left : List Event

namespace Observed

/-- A new generation starts a new record. -/
def enter (o : Observed F) (event : Event) : Observed F :=
  if o.provider.generation event.backendID = event.generation then o
  else
    { provider := o.provider.enterGeneration event.backendID event.generation
      taken := []
      left := o.left ++ o.taken }

/-- One event: the index takes it unless it knows it. -/
def post (T : Type) [PyFloat T] (now : Time) (o : Observed F) (event : Event) :
    Option (Observed F) :=
  (EngineEvents.post T o.provider now event).map fun provider =>
    { o.enter event with
      provider
      taken :=
        if KnowsEvent T (o.enter event).provider event then (o.enter event).taken
        else (o.enter event).taken ++ [event] }

/-- The events are posted one after the other. -/
def postAll (T : Type) [PyFloat T] (now : Time) (o : Observed F) (events : List Event) :
    Option (Observed F) :=
  events.foldlM (post T now) o

/-- The record does not change what the index does. -/
theorem postAll_provider {now : Time} : ∀ {events : List Event} {o o' : Observed F},
    o.postAll T now events = some o' →
      (delivery T F).postAll now o.provider events = some o'.provider := by
  intro events
  induction events with
  | nil =>
    intro o o' h
    cases h
    rfl
  | cons event events ih =>
    intro o o' h
    obtain ⟨next, hnext, hrest⟩ := Option.bind_eq_some_iff.mp h
    obtain ⟨provider, hprovider, rfl⟩ := Option.map_eq_some_iff.mp hnext
    exact Option.bind_eq_some_iff.mpr ⟨provider, hprovider, ih hrest⟩

end Observed

/-- The entries that events make of an empty index, of which it keeps the first `max`. -/
def replay (T : Type) [PyFloat T] (max : Nat) (taken : List Event) : List KVEventEntry :=
  (taken.filterMap (Event.decode T)).foldl
    (fun entries event => (KVEventProvider.applied event entries).take max) []

theorem replay_concat {max : Nat} {taken : List Event} {event : Event} {kvEvent : KVEvent}
    (h : event.decode T = some kvEvent) :
    replay T max (taken ++ [event]) =
      (KVEventProvider.applied kvEvent (replay T max taken)).take max := by
  unfold replay
  rw [List.filterMap_append, List.filterMap_cons_some h, List.filterMap_nil, List.foldl_append]
  rfl

/-- The keys of the entries are those of the backends of the events. -/
theorem mem_replay {max : Nat} {backendID : String} {entry : KVEventEntry} :
    ∀ {taken : List Event}, (∀ event ∈ taken, event.backendID = backendID) →
      entry ∈ replay T max taken → ∃ key, entry.key = backendKey backendID key := by
  intro taken
  induction taken using List.reverseRecOn with
  | nil => exact fun _ h => nomatch h
  | append_singleton taken event ih =>
    intro hbackend h
    have hinit := fun event hmem => hbackend event (List.mem_append_left [_] hmem)
    cases hdecode : event.decode T with
    | none =>
      unfold replay at h
      rw [List.filterMap_append, List.filterMap_cons_none hdecode, List.filterMap_nil,
        List.append_nil] at h
      exact ih hinit h
    | some kvEvent =>
      rw [replay_concat hdecode] at h
      rcases KVEventProvider.mem_applied (List.mem_of_mem_take h) with hold | hkey
      · exact ih hinit hold
      · obtain ⟨observedAt, -, -, rfl⟩ := decode_ok hdecode
        have hself := hbackend event (List.mem_append_right _ (List.mem_singleton.mpr rfl))
        exact ⟨event.cacheKey, by rw [hkey, ← hself]; rfl⟩

/-! ## Posts and the record -/

/-- What the gateway makes of an event of an adapter, as the index reads it. -/
theorem stamped_kvEvent {a : VLLMEventAdapter T} {header : VLLMEventAdapter.Header T}
    {event : Event} {kvEvent : KVEvent} (hstamped : a.Stamped header event)
    (hnonneg : PyFloat.nonneg header.timestamp = true) (hdecode : event.decode T = some kvEvent)
    (hvalid : validEvent kvEvent = true) (now : Time) :
    kvEvent.Valid ∧ kvEvent.withDefaults now = kvEvent ∧ kvEvent.sequenced = true ∧
      kvEvent.backendID = event.backendID ∧ kvEvent.generation = event.generation ∧
      kvEvent.sequence = event.sequence ∧
      kvEvent.eventKey = backendKey event.backendID event.engineEventID := by
  obtain ⟨hv, htime, -, -⟩ := stamped_decode hstamped hnonneg hdecode hvalid
  obtain ⟨operation, eventIndex, key, tokens, -, hevent⟩ := hstamped
  obtain ⟨text, -, rfl⟩ := VLLMEventAdapter.event_ok hevent
  obtain ⟨observedAt, -, -, rfl⟩ := decode_ok hdecode
  refine ⟨hv, ?_, rfl, rfl, rfl, rfl, rfl⟩
  have htime : observedAt.isZero = false := htime
  simp [KVEvent.withDefaults, htime]

theorem knowsEvent_iff {p : KVEventProvider F} {event : Event} {kvEvent : KVEvent}
    (h : event.decode T = some kvEvent) : KnowsEvent T p event ↔ p.Knows kvEvent := by
  constructor
  · exact fun hknows => hknows kvEvent h
  · intro hknows other hother
    rw [h] at hother
    cases hother
    exact hknows

namespace Observed

variable {backendID generation : String} {sequence : Nat} {o o' : Observed F} {event : Event}
  {events : List Event} {now : Time}

/-- The entries of the index are what the record makes of them, and it has seen no other event. -/
structure Sound (T : Type) [PyFloat T] (backendID : String) (o : Observed F) : Prop where
  indexed : o.provider.Indexed
  replayed : o.provider.entries.view = replay T o.provider.max o.taken
  current : ∀ event ∈ o.taken, event.backendID = backendID ∧
    event.generation = o.provider.generation backendID ∧ event.generation ≠ ""
  numbered : ∀ event ∈ o.left ++ o.taken, ∃ number, event.engineEventID =
    VLLMEventAdapter.engineEventID event.generation event.sequence number
  seen : ∀ eventKey ∈ o.provider.seenEvents, ∃ event ∈ o.left ++ o.taken,
    eventKey = backendKey backendID event.engineEventID
  unnamed : o.provider.generation backendID = "" → o.provider.hasSequence backendID = false

/-- A new generation is entered with nothing. -/
theorem Sound.enter (h : o.Sound T backendID) (hbackend : event.backendID = backendID)
    (hgeneration : event.generation ≠ "") :
    (o.enter event).Sound T backendID ∧
      (o.enter event).provider.generation backendID = event.generation := by
  subst hbackend
  by_cases hcurrent : o.provider.generation event.backendID = event.generation
  · unfold Observed.enter
    rw [if_pos hcurrent]
    exact ⟨h, hcurrent⟩
  unfold Observed.enter
  rw [if_neg hcurrent]
  obtain ⟨hindexed, hview⟩ :=
    KVEventProvider.enterGeneration_spec h.indexed event.backendID event.generation
  have hentered := KVEventProvider.enterGeneration_generation o.provider event.backendID hgeneration
  refine ⟨⟨hindexed, ?_, List.forall_mem_nil _, ?_, ?_, fun hnone => ?_⟩, hentered⟩
  · rw [hview]
    split
    · refine List.filter_eq_nil_iff.mpr fun entry hentry => ?_
      rw [h.replayed] at hentry
      obtain ⟨key, hkey⟩ := mem_replay (fun event hevent => (h.current event hevent).1) hentry
      rw [hkey, hasPrefix_self]
      exact Bool.false_ne_true
    · rename_i hsame
      have hunnamed : o.provider.generation event.backendID = "" := by
        by_contra hnamed
        exact hsame ⟨hgeneration, hnamed, hcurrent⟩
      have hnothing : o.taken = [] := List.eq_nil_iff_forall_not_mem.mpr fun other hother => by
        obtain ⟨-, hsame, hnamed⟩ := h.current other hother
        exact hnamed (hsame.trans hunnamed)
      rw [h.replayed, hnothing]
      rfl
  · rw [List.append_nil]
    exact h.numbered
  · rw [KVEventProvider.enterGeneration_seenEvents, List.append_nil]
    exact h.seen
  · exact absurd (hentered.symm.trans hnone) hgeneration

/-- An index is not ahead of a new generation. -/
theorem Sound.enter_notAhead (h : o.Sound T event.backendID)
    (hcurrent : o.provider.generation event.backendID ≠ event.generation)
    (hgeneration : event.generation ≠ "") :
    (o.enter event).provider.hasSequence event.backendID = false := by
  unfold Observed.enter
  rw [if_neg hcurrent]
  dsimp only
  unfold KVEventProvider.enterGeneration
  dsimp only
  rw [if_pos hgeneration]
  by_cases hnamed : o.provider.generation event.backendID = ""
  · rw [if_neg fun hends => hends.2.1 hnamed]
    exact h.unnamed hnamed
  · rw [if_pos ⟨hgeneration, hnamed, hcurrent⟩]
    exact Function.update_self _ _ _

/-- A post enters the generation of its event first. -/
theorem post_enter {a : VLLMEventAdapter T} {header : VLLMEventAdapter.Header T}
    (hstamped : a.Stamped header event) (hnonneg : PyFloat.nonneg header.timestamp = true)
    (hgeneration : event.generation ≠ "") (hpost : o.post T now event = some o') :
    (o.enter event).post T now event = some o' := by
  by_cases hcurrent : o.provider.generation event.backendID = event.generation
  · unfold Observed.enter
    rwa [if_pos hcurrent]
  obtain ⟨provider, hprovider, rfl⟩ := Option.map_eq_some_iff.mp hpost
  obtain ⟨kvEvent, hdecode, hvalid, rfl⟩ := post_ok hprovider
  obtain ⟨hv, -, -, hbackend, hkvgeneration, -, -⟩ :=
    stamped_kvEvent hstamped hnonneg hdecode hvalid now
  have hentered : (o.enter event).provider =
      o.provider.enterGeneration event.backendID event.generation := by
    unfold Observed.enter
    rw [if_neg hcurrent]
  have hagain : (o.enter event).enter event = o.enter event := by
    unfold Observed.enter
    rw [if_neg hcurrent]
    exact if_pos (KVEventProvider.enterGeneration_generation _ _ hgeneration)
  have hobserve : EngineEvents.post T (o.enter event).provider now event =
      some (o.provider.observe now kvEvent) := by
    unfold EngineEvents.post
    rw [hdecode]
    dsimp only
    rw [if_pos hvalid, hentered, ← hbackend, ← hkvgeneration,
      KVEventProvider.observe_enter _ _ hv]
  unfold Observed.post
  rw [hobserve, Option.map_some, hagain]

/-- An event of the current generation changes nothing, or the index takes it. -/
theorem Sound.post {a : VLLMEventAdapter T} {header : VLLMEventAdapter.Header T}
    (h : o.Sound T event.backendID) (hstamped : a.Stamped header event)
    (hnonneg : PyFloat.nonneg header.timestamp = true) (hgeneration : event.generation ≠ "")
    (hcurrent : o.provider.generation event.backendID = event.generation)
    (hpost : o.post T now event = some o') :
    o' = o ∧ (backendKey event.backendID event.engineEventID ∈ o.provider.seenEvents ∨
        o.provider.hasSequence event.backendID = true ∧
          event.sequence < o.provider.lastSequence event.backendID) ∨
      o'.Sound T event.backendID ∧ o'.taken = o.taken ++ [event] ∧ o'.left = o.left ∧
        o'.provider.generation event.backendID = event.generation ∧
        o'.provider.seenEvents ⊆
          insert (backendKey event.backendID event.engineEventID) o.provider.seenEvents ∧
        o'.provider.lastSequence event.backendID = event.sequence := by
  obtain ⟨provider, hprovider, rfl⟩ := Option.map_eq_some_iff.mp hpost
  obtain ⟨kvEvent, hdecode, hvalid, rfl⟩ := post_ok hprovider
  obtain ⟨hv, hdefaults, hsequenced, hbackend, hkvgeneration, hsequence, heventKey⟩ :=
    stamped_kvEvent hstamped hnonneg hdecode hvalid now
  have hin : o.provider.InGeneration kvEvent := .inr (by rw [hbackend, hkvgeneration, hcurrent])
  have hentered : o.enter event = o := if_pos hcurrent
  rw [hentered]
  by_cases hevent : KnowsEvent T o.provider event
  · have hknows := (knowsEvent_iff hdecode).mp hevent
    left
    rw [if_pos hevent, KVEventProvider.observe_known hv.engineEventID hin hknows]
    refine ⟨rfl, hknows.imp (fun hseen => heventKey ▸ hseen) fun hbehind => ?_⟩
    obtain ⟨-, hhas, hlast⟩ := hbehind
    rw [hbackend] at hhas hlast
    exact ⟨hhas, hsequence ▸ hlast⟩
  · have hknows : ¬ o.provider.Knows kvEvent := fun hknows =>
      hevent ((knowsEvent_iff hdecode).mpr hknows)
    right
    rw [if_neg hevent]
    obtain ⟨hindexed, hmax, hview⟩ := KVEventProvider.observe_spec h.indexed now kvEvent
    have hafter : (o.provider.observe now kvEvent).generation event.backendID =
        event.generation := by
      have hafter := KVEventProvider.observe_inGeneration o.provider now hv
      unfold KVEventProvider.InGeneration at hafter
      rw [hbackend, hkvgeneration] at hafter
      exact hafter.resolve_left hgeneration
    have hseen : (o.provider.observe now kvEvent).seenEvents ⊆
        insert (backendKey event.backendID event.engineEventID) o.provider.seenEvents := by
      rw [← heventKey]
      exact KVEventProvider.observe_seenEvents
    have hnumber : ∃ number, event.engineEventID =
        VLLMEventAdapter.engineEventID event.generation event.sequence number := by
      obtain ⟨_, _, _, _, -, hevent⟩ := hstamped
      obtain ⟨_, -, rfl⟩ := VLLMEventAdapter.event_ok hevent
      exact ⟨_, rfl⟩
    have hlast := KVEventProvider.observe_new_lastSequence now hv hin hknows hsequenced
    rw [hbackend, hsequence] at hlast
    refine ⟨⟨hindexed, ?_, ?_, ?_, ?_, ?_⟩, rfl, rfl, hafter, hseen, hlast⟩
    · dsimp only
      rw [hview, hmax, KVEventProvider.live_new hv hin hknows, hdefaults, replay_concat hdecode,
        h.replayed]
    · refine List.forall_mem_append.mpr ⟨fun other hother => ?_, ?_⟩
      · obtain ⟨hother, hsame, hnamed⟩ := h.current other hother
        exact ⟨hother, hsame.trans (hcurrent.trans hafter.symm), hnamed⟩
      · exact List.forall_mem_singleton.mpr ⟨rfl, hafter.symm, hgeneration⟩
    · dsimp only
      rw [← List.append_assoc]
      exact List.forall_mem_append.mpr ⟨h.numbered, List.forall_mem_singleton.mpr hnumber⟩
    · intro eventKey hmem
      dsimp only
      rw [← List.append_assoc]
      rcases Finset.mem_insert.mp (hseen hmem) with hself | hold
      · exact ⟨event, List.mem_append_right _ (List.mem_singleton.mpr rfl), hself⟩
      · obtain ⟨other, hother, hkey⟩ := h.seen eventKey hold
        exact ⟨other, List.mem_append_left _ hother, hkey⟩
    · exact fun hnone => absurd (hafter.symm.trans hnone) hgeneration

/-! ## A batch -/

/-- The events of a batch: an adapter stamps them, and their IDs differ. -/
structure Batch (T : Type) [PyFloat T] (backendID generation : String) (sequence : Nat)
    (events : List Event) : Prop where
  stamped : ∃ (a : VLLMEventAdapter T) (header : VLLMEventAdapter.Header T),
    a.backendID = backendID ∧ header.generation = generation ∧ header.sequence = sequence ∧
      PyFloat.nonneg header.timestamp = true ∧ ∀ event ∈ events, a.Stamped header event
  ids : (events.map (·.engineEventID)).Nodup

theorem Batch.fields (h : Batch T backendID generation sequence events) (hmem : event ∈ events) :
    event.backendID = backendID ∧ event.generation = generation ∧ event.sequence = sequence ∧
      ∃ number, event.engineEventID =
        VLLMEventAdapter.engineEventID generation sequence number := by
  obtain ⟨a, header, rfl, rfl, rfl, -, hstamped⟩ := h.stamped
  obtain ⟨_, _, _, _, -, hevent⟩ := hstamped event hmem
  obtain ⟨_, -, rfl⟩ := VLLMEventAdapter.event_ok hevent
  exact ⟨rfl, rfl, rfl, _, rfl⟩

/-- What the index has seen of a batch is in the record, in its order. -/
def Ordered (backendID : String) (events : List Event) (o : Observed F) : Prop :=
  ∀ k event, events[k]? = some event →
    backendKey backendID event.engineEventID ∈ o.provider.seenEvents →
      (events.take (k + 1)).Sublist o.taken

/-- An index while a batch is delivered, after some of its events. -/
structure Attempt (T : Type) [PyFloat T] (backendID generation : String) (sequence : Nat)
    (events posted : List Event) (o : Observed F) : Prop where
  sound : o.Sound T backendID
  current : o.provider.generation backendID = generation
  notAhead : o.provider.hasSequence backendID = true →
    o.provider.lastSequence backendID ≤ sequence
  ordered : Ordered backendID events o
  posted : posted.Sublist o.taken

/-- The index has taken none but events of a batch. -/
structure Grows (backendID : String) (events : List Event) (o o' : Observed F) : Prop where
  taken : o.taken.Sublist o'.taken
  left : o'.left = o.left
  seen : ∀ eventKey ∈ o'.provider.seenEvents, eventKey ∈ o.provider.seenEvents ∨
    ∃ event ∈ events, eventKey = backendKey backendID event.engineEventID

theorem Grows.refl (backendID : String) (events : List Event) (o : Observed F) :
    Grows backendID events o o where
  taken := .refl _
  left := rfl
  seen _ := .inl

theorem Grows.trans {o'' : Observed F} (h : Grows backendID events o o')
    (h' : Grows backendID events o' o'') : Grows backendID events o o'' where
  taken := h.taken.trans h'.taken
  left := h'.left.trans h.left
  seen eventKey hmem := (h'.seen eventKey hmem).elim (h.seen eventKey) .inr

/-- The next event of a batch. -/
theorem Attempt.post {posted rest : List Event}
    (h : Attempt T backendID generation sequence events posted o)
    (hbatch : Batch T backendID generation sequence events) (hgeneration : generation ≠ "")
    (hevents : events = posted ++ event :: rest) (hpost : o.post T now event = some o') :
    Attempt T backendID generation sequence events (posted ++ [event]) o' ∧
      Grows backendID events o o' := by
  have hmem : event ∈ events := by
    rw [hevents]
    exact List.mem_append_right _ List.mem_cons_self
  have hindex : events[posted.length]? = some event := by
    rw [hevents, List.getElem?_append_right (Nat.le_refl _), Nat.sub_self]
    rfl
  have htake : events.take (posted.length + 1) = posted ++ [event] := by
    rw [hevents, List.append_cons]
    exact List.take_left' (by simp)
  obtain ⟨rfl, rfl, rfl, -⟩ := hbatch.fields hmem
  obtain ⟨a, header, -, -, -, hnonneg, hstamped⟩ := hbatch.stamped
  rcases h.sound.post (hstamped event hmem) hnonneg hgeneration h.current hpost with
    ⟨rfl, hseen | ⟨hhas, hbehind⟩⟩ | ⟨hsound, htaken, hleft, hcurrent, hseen, hlast⟩
  · -- The index has seen the event: an earlier attempt has posted it.
    refine ⟨{ h with posted := ?_ }, .refl _ _ _⟩
    rw [← htake]
    exact h.ordered _ event hindex hseen
  · exact absurd (h.notAhead hhas) (Nat.not_le_of_lt hbehind)
  · have hposted : (posted ++ [event]).Sublist o'.taken := by
      rw [htaken]
      exact h.posted.append_right _
    have hgrows : o.taken.Sublist o'.taken := by
      rw [htaken]
      exact List.sublist_append_left _ _
    refine ⟨⟨hsound, hcurrent, fun _ => hlast.le, fun k other hother hother' => ?_, hposted⟩,
      ⟨hgrows, hleft, fun eventKey hkey => ?_⟩⟩
    · rcases Finset.mem_insert.mp (hseen hother') with hself | hold
      · -- IDs of a batch differ, so it is the event itself.
        have hid := backendKey_right_inj hself
        have hlength : k < (events.map (·.engineEventID)).length := by
          rw [List.length_map]
          exact (List.getElem?_eq_some_iff.mp hother).1
        have hsame : k = posted.length := by
          refine (List.getElem?_inj hlength hbatch.ids).mp ?_
          rw [List.getElem?_map, List.getElem?_map, hother, hindex, Option.map_some,
            Option.map_some, hid]
        rw [hsame, htake]
        exact hposted
      · exact (h.ordered k other hother hold).trans hgrows
    · rcases Finset.mem_insert.mp (hseen hkey) with hself | hold
      · exact .inr ⟨event, hmem, hself⟩
      · exact .inl hold

/-- The next events of a batch. -/
theorem Attempt.postAll (hbatch : Batch T backendID generation sequence events)
    (hgeneration : generation ≠ "") :
    ∀ {next posted rest : List Event} {o : Observed F},
      Attempt T backendID generation sequence events posted o →
      events = posted ++ (next ++ rest) → o.postAll T now next = some o' →
      Attempt T backendID generation sequence events (posted ++ next) o' ∧
        Grows backendID events o o' := by
  intro next
  induction next with
  | nil =>
    intro posted rest o h _ hpost
    cases hpost
    rw [List.append_nil]
    exact ⟨h, .refl _ _ _⟩
  | cons event next ih =>
    intro posted rest o h hevents hpost
    obtain ⟨o₁, hfirst, hrest⟩ := Option.bind_eq_some_iff.mp hpost
    obtain ⟨hattempt, hgrows⟩ := h.post hbatch hgeneration hevents hfirst
    rw [List.cons_append, List.append_cons] at hevents
    obtain ⟨hattempt', hgrows'⟩ := ih hattempt hevents hrest
    rw [List.append_cons]
    exact ⟨hattempt', hgrows.trans hgrows'⟩

/-- The record is in order for every batch of a generation that the index took nothing of before it
left that generation. -/
def InTurn (backendID : String) (contents : Nat → List Event → Prop) (o : Observed F) : Prop :=
  ∀ sequence events, contents sequence events →
    (∀ event ∈ o.left, event.generation = o.provider.generation backendID →
      event.sequence ≠ sequence) →
    Ordered backendID events o

/-- The batches of a generation, one for each sequence. -/
structure Contents (generation : String) (contents : Nat → List Event → Prop) : Prop where
  batch : ∀ {sequence events}, contents sequence events →
    ∀ event ∈ events, ∃ number, event.engineEventID =
      VLLMEventAdapter.engineEventID generation sequence number
  unique : ∀ {sequence events events'}, contents sequence events → contents sequence events' →
    events = events'

/-- In a new generation the index has seen nothing but what it took of that generation before. -/
theorem Sound.enter_inTurn {contents : Nat → List Event → Prop} (h : o.Sound T event.backendID)
    (hcontents : Contents event.generation contents)
    (hgeneration : event.generation ≠ "")
    (hcurrent : o.provider.generation event.backendID ≠ event.generation) :
    InTurn event.backendID contents (o.enter event) := by
  obtain ⟨-, hentered⟩ := h.enter rfl hgeneration
  intro sequence events hevents huntaken k other hother hseen
  unfold Observed.enter at huntaken hseen
  rw [if_neg hcurrent] at huntaken hseen
  dsimp only at huntaken hseen
  rw [KVEventProvider.enterGeneration_seenEvents] at hseen
  rw [KVEventProvider.enterGeneration_generation _ _ hgeneration] at huntaken
  obtain ⟨old, hold, hkey⟩ := h.seen _ hseen
  obtain ⟨number, hnumber⟩ := hcontents.batch hevents other (List.mem_of_getElem? hother)
  obtain ⟨number', hnumber'⟩ := h.numbered old hold
  have hid := backendKey_right_inj hkey
  rw [hnumber, hnumber'] at hid
  obtain ⟨hsame, hsequence, -⟩ := engineEventID_inj hid
  exact absurd hsequence.symm (huntaken old hold hsame.symm)

/-- **The index takes every event of a batch** that it is not ahead of and of which it took nothing
in a generation that it has left. -/
theorem Sound.postAll_batch {contents : Nat → List Event → Prop} {posted rest : List Event}
    (h : o.Sound T backendID) (hbatch : Batch T backendID generation sequence events)
    (hgeneration : generation ≠ "")
    (huntaken : ∀ event ∈ o.left, event.generation = generation → event.sequence ≠ sequence)
    (hnotAhead : o.provider.generation backendID = generation →
      o.provider.hasSequence backendID = true → o.provider.lastSequence backendID ≤ sequence)
    (hcontents : Contents generation contents) (hself : contents sequence events)
    (hturn : o.provider.generation backendID = generation → InTurn backendID contents o)
    (hevents : events = posted ++ rest) (hposted : posted ≠ [])
    (hpost : o.postAll T now posted = some o') :
    o'.Sound T backendID ∧ o'.provider.generation backendID = generation ∧
      posted.Sublist o'.taken ∧ InTurn backendID contents o' := by
  obtain ⟨event, next, rfl⟩ := List.exists_cons_of_ne_nil hposted
  have hmem : event ∈ events := hevents ▸ List.mem_cons_self
  obtain ⟨rfl, rfl, rfl, -⟩ := hbatch.fields hmem
  obtain ⟨a, header, -, -, -, hnonneg, hstamped⟩ := hbatch.stamped
  -- The first post enters the generation.
  have hentered : (o.enter event).postAll T now (event :: next) = some o' := by
    obtain ⟨o₁, hfirst, hrest⟩ := Option.bind_eq_some_iff.mp hpost
    exact Option.bind_eq_some_iff.mpr
      ⟨o₁, post_enter (hstamped event hmem) hnonneg hgeneration hfirst, hrest⟩
  obtain ⟨hsound, hcurrent⟩ := h.enter rfl hgeneration
  have hinTurn : InTurn event.backendID contents (o.enter event) := by
    by_cases hsame : o.provider.generation event.backendID = event.generation
    · rw [show o.enter event = o from if_pos hsame]
      exact hturn hsame
    · exact h.enter_inTurn hcontents hgeneration hsame
  have hleft : ∀ other ∈ (o.enter event).left, other.generation = event.generation →
      other.sequence ≠ event.sequence := by
    by_cases hsame : o.provider.generation event.backendID = event.generation
    · rw [show o.enter event = o from if_pos hsame]
      exact huntaken
    · rw [show (o.enter event).left = o.left ++ o.taken by
        unfold Observed.enter
        rw [if_neg hsame]]
      refine List.forall_mem_append.mpr ⟨huntaken, fun other hother hgen => ?_⟩
      exact absurd ((h.current other hother).2.1.symm.trans hgen) hsame
  have hattempt : Attempt T event.backendID event.generation event.sequence events []
      (o.enter event) := by
    refine ⟨hsound, hcurrent, ?_, hinTurn _ _ hself ?_, List.nil_sublist _⟩
    · by_cases hsame : o.provider.generation event.backendID = event.generation
      · rw [show o.enter event = o from if_pos hsame]
        exact hnotAhead hsame
      · rw [h.enter_notAhead hsame hgeneration]
        exact fun hfalse => absurd hfalse Bool.false_ne_true
    · rw [hcurrent]
      exact hleft
  obtain ⟨hdone, hgrows⟩ := Attempt.postAll hbatch hgeneration hattempt hevents hentered
  refine ⟨hdone.sound, hdone.current, hdone.posted, fun n batch hother huntaken' => ?_⟩
  by_cases hn : n = event.sequence
  · subst hn
    rw [hcontents.unique hother hself]
    exact hdone.ordered
  intro k other hk hseen
  rcases hgrows.seen _ hseen with hold | ⟨mine, hmine, hkey⟩
  · refine (hinTurn n batch hother ?_ k other hk hold).trans hgrows.taken
    rw [hdone.current] at huntaken'
    rw [hcurrent, ← hgrows.left]
    exact huntaken'
  · obtain ⟨number, hnumber⟩ := hcontents.batch hother other (List.mem_of_getElem? hk)
    obtain ⟨-, -, -, number', hnumber'⟩ := hbatch.fields hmine
    have hid := backendKey_right_inj hkey
    rw [hnumber, hnumber'] at hid
    exact absurd (engineEventID_inj hid).2.1 hn

/-- An index that is ahead of a batch in its generation stays as it is. -/
theorem Sound.postAll_behind (h : o.Sound T backendID)
    (hbatch : Batch T backendID generation sequence events) (hgeneration : generation ≠ "")
    (hcurrent : o.provider.generation backendID = generation)
    (hhas : o.provider.hasSequence backendID = true)
    (hlast : sequence < o.provider.lastSequence backendID) :
    ∀ {posted : List Event}, (∀ event ∈ posted, event ∈ events) →
      o.postAll T now posted = some o' → o' = o := by
  intro posted
  induction posted with
  | nil =>
    intro _ hpost
    cases hpost
    rfl
  | cons event posted ih =>
    intro hmem hpost
    obtain ⟨o₁, hfirst, hrest⟩ := Option.bind_eq_some_iff.mp hpost
    have hself := hmem event List.mem_cons_self
    obtain ⟨rfl, rfl, rfl, -⟩ := hbatch.fields hself
    obtain ⟨a, header, -, -, -, hnonneg, hstamped⟩ := hbatch.stamped
    obtain ⟨provider, hprovider, hresult⟩ := Option.map_eq_some_iff.mp hfirst
    obtain ⟨kvEvent, hdecode, hvalid, rfl⟩ := post_ok hprovider
    obtain ⟨hv, -, hsequenced, hbackend, hkvgeneration, hsequence, -⟩ :=
      stamped_kvEvent (hstamped event hself) hnonneg hdecode hvalid now
    have hknows : o.provider.Knows kvEvent :=
      .inr ⟨hsequenced, by rw [hbackend]; exact hhas, by rw [hbackend, hsequence]; exact hlast⟩
    have hsame : o₁ = o := by
      rw [← hresult, show o.enter event = o from if_pos hcurrent,
        if_pos ((knowsEvent_iff hdecode).mpr hknows),
        KVEventProvider.observe_known hv.engineEventID
          (.inr (by rw [hbackend, hkvgeneration, hcurrent])) hknows]
    subst hsame
    exact ih (fun event hevent => hmem event (List.mem_cons_of_mem _ hevent)) hrest

end Observed

end Kavora.EngineEvents
