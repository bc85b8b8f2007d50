import Mathlib.Logic.Equiv.List
import Mathlib.Order.Bounds.Defs
import Kavora.Lib.System
import Kavora.Router.CacheMatch
import Kavora.EngineEvents.Delivery
import Kavora.EngineEvents.Residency

/-!
# Hash alignment from the engine to a match

An engine publishes what it does to its blocks, the adapter turns that into events, the index
observes them, and the resolver hashes the tokens of a request. A match counts the tokens of the
resident blocks that the request starts with.

* `alignment`: the runs of one backend's engine, adapter and index, among the events and the
  matches of all other backends.
* `Aligned`: what holds in them. The keys of the backend are those of the resident blocks once the
  pending events are observed.
* `match_aligned`: what a match says when no event is pending.
-/

namespace Kavora.EngineEvents

open Lib Lib.Go Router BackendState

/-- An adapter and the index that its events reach, with what the engine did. -/
structure AlignmentState (T F H : Type) where
  process : Process T
  provider : KVEventProvider F
  /-- The events of the last batch that are not observed yet. -/
  pending : List Event
  /-- What the engine did in the batches that were processed. -/
  history : List (BlockOperation H)

/-- What happens: a batch of the engine is processed, its next event is observed, an event of
another backend is observed, or a request is matched on some backend. -/
inductive AlignmentMove (T H : Type) where
  | batch (sequence : Nat) (payload : PyValue T) (operations : List (BlockOperation H))
  | observe (now : Time)
  | other (now : Time) (event : KVEvent)
  | query (now : Time) (request : CacheMatchRequest) (backendID : String)

variable {T F H : Type} [PyFloat T]

/-- The payload of a batch with these operations. -/
def Carries (hasher : VLLMBlockHasher H) (payload : PyValue T)
    (operations : List (BlockOperation H)) : Prop :=
  ∃ first raws rest, payload = .list (first :: .list raws :: rest) ∧
    List.Forall₂ (Publishes hasher.utils hasher.blockSize) raws operations

/-- The runs of a backend. Batches come in order and without gaps, the events of a batch have
distinct IDs, the other backends' IDs have no NUL, and the index has room for all keys. -/
def alignment [Float64 F] (hasher : VLLMBlockHasher H) (backendID generation : String) :
    System (AlignmentState T F H) (AlignmentMove T H) where
  init s :=
    Process.start backendID generation none = .ok s.process ∧
      (∃ max ttl lambda, s.provider = .new max ttl lambda) ∧ s.pending = [] ∧ s.history = []
  step s move s' :=
    match move with
    | .batch sequence payload operations =>
      s.pending = [] ∧ (∀ last ∈ s.process.adapter.lastSequence, sequence = last + 1) ∧
        Carries hasher payload operations ∧
        ∃ events adapter file,
          s.process.adapter.process sequence payload s.process.file = .ok (events, adapter, file) ∧
          (events.map (·.engineEventID)).Nodup ∧
          s' =
            { s with
              process := { adapter, file }
              pending := events
              history := s.history ++ operations }
    | .observe now => ∃ event rest kvEvent,
      s.pending = event :: rest ∧ event.decode T = some kvEvent ∧
        (s.provider.live now kvEvent).length ≤ s.provider.max ∧
        s' = { s with provider := s.provider.observe now kvEvent, pending := rest }
    | .other now event =>
      event.backendID ≠ backendID ∧ Plain event.backendID ∧
        (s.provider.live now event).length ≤ s.provider.max ∧
        s' = { s with provider := s.provider.observe now event }
    | .query now request backendID =>
      s' = { s with provider := (s.provider.matchCache now request backendID).2 }

/-! ## What every run keeps -/

/-- The keys of a backend. -/
def keysOf (p : KVEventProvider F) (backendID : String) : Set String :=
  {key | (p.held backendID key).isSome}

/-- An event of the last batch. -/
structure PendingEvent (a : VLLMEventAdapter T) (generation : String) (blockSize : Nat)
    (event : Event) : Prop where
  stamped : ∃ header : VLLMEventAdapter.Header T, header.generation = generation ∧
    a.lastSequence = some header.sequence ∧ PyFloat.nonneg header.timestamp = true ∧
    a.Stamped header event
  keyed : Keyed blockSize event

/-- An ID that the index has seen is of another backend, or of an event of this one that came
before the pending ones. -/
def SeenBefore (backendID generation : String) (s : AlignmentState T F H) (eventKey : String) :
    Prop :=
  (∃ other eventID, Plain other ∧ other ≠ backendID ∧ eventKey = backendKey other eventID) ∨
    ∃ sequence eventIndex last, s.process.adapter.lastSequence = some last ∧ sequence ≤ last ∧
      eventKey =
        backendKey backendID (VLLMEventAdapter.engineEventID generation sequence eventIndex) ∧
      VLLMEventAdapter.engineEventID generation sequence eventIndex ∉
        s.pending.map (·.engineEventID)

/-- With the events in flight the index holds the keys of the blocks that are resident after the
history. -/
structure Aligned (hasher : VLLMBlockHasher H) (backendID generation : String)
    (s : AlignmentState T F H) : Prop where
  backend : s.process.adapter.backendID = backendID
  configured : s.process.adapter.generation = generation
  named : backendID ≠ "" ∧ generation ≠ ""
  indexed : s.provider.Indexed
  current : s.provider.generation backendID = "" ∨ s.provider.generation backendID = generation
  behind : s.provider.hasSequence backendID = true →
    ∃ last, s.process.adapter.lastSequence = some last ∧ s.provider.lastSequence backendID ≤ last
  seen : ∀ eventKey ∈ s.provider.seenEvents, SeenBefore backendID generation s eventKey
  pending : ∀ event ∈ s.pending,
    PendingEvent s.process.adapter generation hasher.blockSize event
  distinct : (s.pending.map (·.engineEventID)).Nodup
  fresh : ∀ key event, s.provider.held backendID key = some event →
    event.matchedTokens = hasher.blockSize ∧ event.quality = .fresh
  content : s.pending.foldl applyKey (keysOf s.provider backendID) =
    hasher.utils.key '' resident s.history

section Invariant

variable {hasher : VLLMBlockHasher H} {backendID generation : String}
  {s s' : AlignmentState T F H}

/-- A change of the index that this backend does not see. -/
theorem Aligned.of_kept (h : Aligned hasher backendID generation s) {provider : KVEventProvider F}
    (hindexed : provider.Indexed) (hkept : s.provider.Kept provider backendID)
    (hseen : ∀ eventKey ∈ provider.seenEvents, SeenBefore backendID generation s eventKey) :
    Aligned hasher backendID generation { s with provider } := by
  obtain ⟨hheld, hgeneration, hhas, hlast⟩ := hkept
  refine ⟨h.backend, h.configured, h.named, hindexed, ?_, ?_, hseen, h.pending, h.distinct, ?_, ?_⟩
  · rw [hgeneration]
    exact h.current
  · rw [hhas, hlast]
    exact h.behind
  · rw [hheld]
    exact h.fresh
  · unfold keysOf
    rw [hheld]
    exact h.content

/-- An event of another backend. -/
theorem Aligned.other (h : Aligned hasher backendID generation s) (hplain : Plain backendID)
    {now : Time} {event : KVEvent} (hne : event.backendID ≠ backendID)
    (hevent : Plain event.backendID)
    (hroom : (s.provider.live now event).length ≤ s.provider.max) :
    Aligned hasher backendID generation
      { s with provider := s.provider.observe now event } := by
  refine h.of_kept (KVEventProvider.observe_spec h.indexed now event).1
    (KVEventProvider.observe_other h.indexed hplain hevent hne hroom) fun eventKey hmem => ?_
  rcases Finset.mem_insert.mp (KVEventProvider.observe_seenEvents hmem) with rfl | hseen
  · exact .inl ⟨event.backendID, event.engineEventID, hevent, hne, rfl⟩
  · exact h.seen eventKey hseen

/-- A match on any backend. -/
theorem Aligned.query [Float64 F] (h : Aligned hasher backendID generation s) (now : Time)
    (request : CacheMatchRequest) (queried : String) :
    Aligned hasher backendID generation
      { s with provider := (s.provider.matchCache now request queried).2 } := by
  obtain ⟨entries, hentries, hwf, hlength, hfind⟩ :=
    KVEventProvider.matchCache_spec h.indexed now request queried
  rw [hentries]
  refine h.of_kept ⟨hwf, hlength.trans_le h.indexed.bound⟩ ⟨?_, rfl, rfl, rfl⟩ h.seen
  funext key
  unfold KVEventProvider.held
  rw [hfind]

/-- A batch that is next comes out of the adapter as the events of its operations. -/
theorem process_next {a a' : VLLMEventAdapter T} {sequence : Nat} {payload : PyValue T}
    {operations : List (BlockOperation H)} {file file' : Option (Checkpoint T)}
    {events : List Event} (hexact : hasher.utils.Exact)
    (hnext : ∀ last ∈ a.lastSequence, sequence = last + 1)
    (hcarries : Carries hasher payload operations)
    (hprocess : a.process sequence payload file = .ok (events, a', file')) :
    a'.backendID = a.backendID ∧ a'.generation = a.generation ∧ a'.lastSequence = some sequence ∧
      (∀ event ∈ events, PendingEvent a' a.generation hasher.blockSize event) ∧
      ∀ residents, events.foldl applyKey (hasher.utils.key '' residents) =
        hasher.utils.key '' operations.foldl BlockOperation.apply residents := by
  unfold VLLMEventAdapter.process at hprocess
  cases hprepare : a.prepare sequence payload with
  | error e =>
    rw [hprepare] at hprocess
    cases hprocess
  | ok prepared =>
    rw [hprepare] at hprocess
    obtain ⟨rfl, hcommit⟩ := Prod.mk.inj (Except.ok.inj hprocess)
    obtain ⟨first, raws, rest, hpayload, -, hsequence, -, hnonneg, has⟩ :=
      VLLMEventAdapter.prepare_ok hprepare
    have hsequence : sequence = prepared.sequence := by exact_mod_cast hsequence
    have hposition : a.position prepared.sequence prepared.timestamp = .next := by
      have hstands := a.position_stands prepared.sequence prepared.timestamp
      generalize a.position prepared.sequence prepared.timestamp = position at hstands
      cases hstands with
      | first => rfl
      | restart hlast =>
        have := hnext _ hlast
        omega
      | duplicate hlast =>
        have := hnext _ hlast
        omega
      | gap hlast =>
        have := hnext _ hlast
        omega
      | next => rfl
    rw [hposition] at has
    obtain ⟨hduplicate, hgeneration, hevents⟩ := has
    obtain ⟨opening, tail, heq, htail, ⟨-, rfl⟩ | ⟨hfalse, -⟩⟩ :=
      VLLMEventAdapter.batchEvents_ok hevents
    swap
    · cases hfalse
    rw [List.nil_append] at heq
    have hstamped := VLLMEventAdapter.prepare_stamped hprepare
    obtain ⟨first', raws', rest', hpayload', hraws⟩ := hcarries
    rw [hpayload] at hpayload'
    cases hpayload'
    obtain ⟨hkeyed, hkeys⟩ := engineEvents_keys hexact hraws htail
    unfold VLLMEventAdapter.commit at hcommit
    rw [if_neg (by rw [hduplicate]; exact Bool.false_ne_true)] at hcommit
    cases hcommit
    refine ⟨rfl, hgeneration, by rw [hsequence], fun event hevent => ?_, ?_⟩
    · exact ⟨⟨VLLMEventAdapter.headerOf prepared, hgeneration, rfl, hnonneg,
        hstamped event hevent⟩, hkeyed event (heq ▸ hevent)⟩
    · rw [heq]
      exact hkeys

/-- The next batch of the backend. -/
theorem Aligned.batch [Float64 F] (h : Aligned hasher backendID generation s)
    (hexact : hasher.utils.Exact) {sequence : Nat} {payload : PyValue T}
    {operations : List (BlockOperation H)}
    (hstep : (alignment hasher backendID generation).step s (.batch sequence payload operations)
      s') : Aligned hasher backendID generation s' := by
  obtain ⟨hnone, hnext, hcarries, events, a, file, hprocess, hdistinct, rfl⟩ := hstep
  obtain ⟨hbackend, hgeneration, hlast, hpending, hkeys⟩ :=
    process_next hexact hnext hcarries hprocess
  refine ⟨hbackend.trans h.backend, hgeneration.trans h.configured, h.named, h.indexed, h.current,
    fun hhas => ?_, fun eventKey hseen => ?_, ?_, hdistinct, h.fresh, ?_⟩
  · obtain ⟨last, hold, hle⟩ := h.behind hhas
    have hsucc := hnext last hold
    exact ⟨sequence, hlast, hle.trans (by omega)⟩
  · obtain hother | ⟨old, eventIndex, last, hold, hle, hkey, -⟩ := h.seen eventKey hseen
    · exact .inl hother
    · have hsucc := hnext last hold
      refine .inr ⟨old, eventIndex, sequence, hlast, by omega, hkey, fun hmem => ?_⟩
      obtain ⟨event, hevent, hid⟩ := List.mem_map.mp hmem
      obtain ⟨⟨header, hheader, hheaderLast, -, _, index, _, _, -, hmade⟩, -⟩ :=
        hpending event hevent
      obtain ⟨_, -, rfl⟩ := VLLMEventAdapter.event_ok hmade
      rw [hlast] at hheaderLast
      have hsame : header.sequence = old := by
        rw [hheader, h.configured] at hid
        exact (engineEventID_inj hid).2.1
      have := Option.some.inj hheaderLast
      omega
  · rw [← h.configured]
    exact hpending
  · have hcontent := h.content
    rw [hnone] at hcontent
    dsimp only
    rw [show keysOf s.provider backendID = _ from hcontent, hkeys]
    unfold resident
    rw [List.foldl_append]

/-- What the index decodes of a pending event. -/
structure DecodedEvent (a : VLLMEventAdapter T) (generation : String) (blockSize : Nat)
    (event : Event) (kvEvent : KVEvent) : Prop where
  valid : kvEvent.Valid
  backend : kvEvent.backendID = a.backendID
  current : kvEvent.generation = generation
  last : a.lastSequence = some kvEvent.sequence
  sequenced : kvEvent.sequenced = true
  eventID : kvEvent.engineEventID = event.engineEventID
  numbered : ∃ eventIndex, event.engineEventID =
    VLLMEventAdapter.engineEventID generation kvEvent.sequence eventIndex
  key : kvEvent.cacheKey = event.cacheKey
  quality : kvEvent.quality = .fresh
  operation : kvEvent.effectiveOperation = event.operation
  operations : event.operation = .store ∧ kvEvent.matchedTokens = blockSize ∨
    event.operation = .remove ∨ event.operation = .clear

theorem PendingEvent.decoded {a : VLLMEventAdapter T} {blockSize : Nat} {event : Event}
    {kvEvent : KVEvent} (h : PendingEvent a generation blockSize event) (hname : a.backendID ≠ "")
    (hdecode : event.decode T = some kvEvent) :
    DecodedEvent a generation blockSize event kvEvent := by
  obtain ⟨⟨header, hgeneration, hlast, -, operation, eventIndex, key, tokens, hoperation, hmade⟩,
    hkeyed⟩ := h
  obtain ⟨text, -, rfl⟩ := VLLMEventAdapter.event_ok hmade
  obtain ⟨observedAt, -, -, rfl⟩ := decode_ok hdecode
  have hset : operation ≠ .unset := by
    rcases hoperation with rfl | rfl | rfl
    · exact nofun
    · exact nofun
    · exact nofun
  exact
    { valid := ⟨hname, hkeyed.key.imp (fun hclear => (if_neg hset).trans hclear) id,
        engineEventID_ne _ _ _⟩
      backend := rfl
      current := hgeneration
      last := hlast
      sequenced := rfl
      eventID := rfl
      numbered := ⟨eventIndex, by rw [← hgeneration]⟩
      key := rfl
      quality := rfl
      operation := if_neg hset
      operations := hoperation.imp_left fun hstore => ⟨hstore, hkeyed.tokens hstore⟩ }

/-- The keys of a backend after an event of its own. -/
theorem keys_heldAfter {event : Event} {kvEvent : KVEvent}
    (hoperation : kvEvent.effectiveOperation = event.operation)
    (hkey : kvEvent.cacheKey = event.cacheKey) (held : String → Option KVEvent) :
    {key | (KVEventProvider.heldAfter kvEvent held key).isSome} =
      applyKey {key | (held key).isSome} event := by
  have hstore : {key | (Function.update held kvEvent.cacheKey (some kvEvent) key).isSome} =
      insert event.cacheKey {key | (held key).isSome} := by
    ext key
    by_cases hsame : key = event.cacheKey
    · simp [hkey, hsame]
    · simp [hkey, hsame, Function.update_of_ne]
  unfold KVEventProvider.heldAfter applyKey
  rw [hoperation]
  cases event.operation with
  | clear => exact Set.eq_empty_of_forall_notMem fun _ hmem => by cases hmem
  | remove =>
    ext key
    by_cases hsame : key = event.cacheKey
    · simp [hkey, hsame]
    · simp [hkey, hsame, Function.update_of_ne]
  | store => exact hstore
  | unset => exact hstore
  | other text => exact hstore

omit [PyFloat T] in
/-- What a backend holds after an event of its own. -/
theorem fresh_heldAfter {a : VLLMEventAdapter T} {blockSize : Nat} {event : Event}
    {kvEvent : KVEvent} (hdecoded : DecodedEvent a generation blockSize event kvEvent) {now : Time}
    {held : String → Option KVEvent}
    (hfresh : ∀ key event, held key = some event →
      event.matchedTokens = blockSize ∧ event.quality = .fresh) :
    ∀ key event, KVEventProvider.heldAfter (kvEvent.withDefaults now) held key = some event →
      event.matchedTokens = blockSize ∧ event.quality = .fresh := by
  intro key holds hholds
  unfold KVEventProvider.heldAfter at hholds
  rw [show (kvEvent.withDefaults now).effectiveOperation = event.operation from
    hdecoded.operation] at hholds
  by_cases hsame : key = (kvEvent.withDefaults now).cacheKey
  · rcases hdecoded.operations with ⟨hstore, htokens⟩ | hremove | hclear
    · rw [hstore] at hholds
      dsimp only at hholds
      rw [hsame, Function.update_self] at hholds
      cases hholds
      refine ⟨htokens, ?_⟩
      show (if kvEvent.quality = .other "" then .fresh else kvEvent.quality) = .fresh
      split
      · rfl
      · exact hdecoded.quality
    · rw [hremove] at hholds
      dsimp only at hholds
      rw [hsame, Function.update_self] at hholds
      cases hholds
    · rw [hclear] at hholds
      cases hholds
  · rcases hdecoded.operations with ⟨hstore, -⟩ | hremove | hclear
    · rw [hstore] at hholds
      dsimp only at hholds
      rw [Function.update_of_ne hsame] at hholds
      exact hfresh key holds hholds
    · rw [hremove] at hholds
      dsimp only at hholds
      rw [Function.update_of_ne hsame] at hholds
      exact hfresh key holds hholds
    · rw [hclear] at hholds
      cases hholds

/-- The index does not know a pending event. -/
theorem Aligned.not_known (h : Aligned hasher backendID generation s) (hplain : Plain backendID)
    {event : Event} (hmem : event ∈ s.pending) {kvEvent : KVEvent}
    (hdecoded : DecodedEvent s.process.adapter generation hasher.blockSize event kvEvent) :
    ¬ s.provider.Knows kvEvent := by
  have hbackend : kvEvent.backendID = backendID := hdecoded.backend.trans h.backend
  rintro (hseen | ⟨-, hhas, hbehind⟩)
  · obtain ⟨other, eventID, hother, hne, hkey⟩ | ⟨sequence, eventIndex, last, -, -, hkey, hnot⟩ :=
      h.seen _ hseen
    · unfold KVEvent.eventKey at hkey
      rw [hbackend] at hkey
      exact hne (backendKey_inj hplain hother hkey).1.symm
    · refine hnot (List.mem_map.mpr ⟨event, hmem, ?_⟩)
      unfold KVEvent.eventKey at hkey
      rw [hbackend, hdecoded.eventID] at hkey
      exact backendKey_right_inj hkey
  · rw [hbackend] at hhas hbehind
    obtain ⟨last, hlast, hle⟩ := h.behind hhas
    have hsame := Option.some.inj (hlast.symm.trans hdecoded.last)
    omega

/-- The next pending event. -/
theorem Aligned.observe (h : Aligned hasher backendID generation s) (hplain : Plain backendID)
    {event : Event} {rest : List Event} (hpending : s.pending = event :: rest) {kvEvent : KVEvent}
    (hdecode : event.decode T = some kvEvent) {now : Time}
    (hroom : (s.provider.live now kvEvent).length ≤ s.provider.max) :
    Aligned hasher backendID generation
      { s with provider := s.provider.observe now kvEvent, pending := rest } := by
  have hmem : event ∈ s.pending := by rw [hpending]; exact List.mem_cons_self
  have hdecoded := (h.pending event hmem).decoded (h.backend ▸ h.named.1) hdecode
  have hbackend : kvEvent.backendID = backendID := hdecoded.backend.trans h.backend
  have hcontinues : s.provider.Continues kvEvent := by
    unfold KVEventProvider.Continues
    rw [hbackend, hdecoded.current]
    exact .inr h.current
  obtain ⟨hheld, hhas, hlast⟩ := KVEventProvider.observe_self h.indexed hdecoded.valid
    hcontinues (h.not_known hplain hmem hdecoded) hroom
  rw [hbackend] at hheld hhas hlast
  rw [hdecoded.sequenced, Bool.true_or] at hhas
  rw [if_pos hdecoded.sequenced] at hlast
  have hdistinct := h.distinct
  rw [hpending, List.map_cons, List.nodup_cons] at hdistinct
  refine ⟨h.backend, h.configured, h.named,
    (KVEventProvider.observe_spec h.indexed now kvEvent).1, .inr ?_, fun _ => ?_, ?_,
    fun other hother => h.pending other ?_, hdistinct.2, ?_, ?_⟩
  · have hin := KVEventProvider.observe_inGeneration s.provider now hdecoded.valid
    unfold KVEventProvider.InGeneration at hin
    rw [hbackend, hdecoded.current] at hin
    exact hin.resolve_left h.named.2
  · exact ⟨kvEvent.sequence, hdecoded.last, hlast.le⟩
  · intro eventKey hseen
    rcases Finset.mem_insert.mp (KVEventProvider.observe_seenEvents hseen) with rfl | hseen
    · obtain ⟨eventIndex, hid⟩ := hdecoded.numbered
      refine .inr ⟨kvEvent.sequence, eventIndex, kvEvent.sequence, hdecoded.last, le_rfl, ?_, ?_⟩
      · unfold KVEvent.eventKey
        rw [hbackend, hdecoded.eventID, hid]
      · rw [← hid]
        exact hdistinct.1
    · obtain hother | ⟨sequence, eventIndex, last, hsome, hle, hkey, hnot⟩ := h.seen eventKey hseen
      · exact .inl hother
      · refine .inr ⟨sequence, eventIndex, last, hsome, hle, hkey, fun hrest => hnot ?_⟩
        rw [hpending]
        exact List.mem_cons_of_mem _ hrest
  · rw [hpending]
    exact List.mem_cons_of_mem _ hother
  · rw [hheld]
    exact fresh_heldAfter hdecoded h.fresh
  · have hcontent := h.content
    rw [hpending, List.foldl_cons] at hcontent
    rw [← hcontent]
    dsimp only
    unfold keysOf
    have hkeys := keys_heldAfter
      (show (kvEvent.withDefaults now).effectiveOperation = event.operation from
        hdecoded.operation)
      (show (kvEvent.withDefaults now).cacheKey = event.cacheKey from hdecoded.key)
      (s.provider.held backendID)
    rw [hheld, hkeys]

/-- Every run is aligned. -/
theorem aligned_inductive [Float64 F] (hexact : hasher.utils.Exact) (hplain : Plain backendID) :
    (alignment (T := T) (F := F) hasher backendID generation).Inductive
      (Aligned hasher backendID generation) where
  init s hs := by
    obtain ⟨hstart, ⟨max, ttl, lambda, hprovider⟩, hpending, hhistory⟩ := hs
    obtain ⟨hnames, hprocess⟩ := Process.start_ok hstart
    have hheld : ∀ key, s.provider.held backendID key = none := by
      intro key
      rw [hprovider]
      rfl
    refine ⟨?_, ?_, hnames, ?_, .inl ?_, fun hhas => ?_, fun eventKey hseen => ?_, ?_, ?_, ?_, ?_⟩
    · rw [hprocess]
      rfl
    · rw [hprocess]
      rfl
    · rw [hprovider]
      exact ⟨LinkedMap.empty_wf, Nat.zero_le _⟩
    · rw [hprovider]
      rfl
    · rw [hprovider] at hhas
      cases hhas
    · rw [hprovider] at hseen
      exact absurd hseen (Finset.notMem_empty _)
    · rw [hpending]
      exact List.forall_mem_nil _
    · rw [hpending]
      exact List.nodup_nil
    · intro key event hsome
      rw [hheld] at hsome
      cases hsome
    · rw [hpending, hhistory]
      show keysOf s.provider backendID = hasher.utils.key '' ∅
      rw [Set.image_empty]
      refine Set.eq_empty_of_forall_notMem fun key hkey => ?_
      have hsome : (s.provider.held backendID key).isSome = true := hkey
      rw [hheld] at hsome
      cases hsome
  step s move s' h hstep := by
    cases move with
    | batch sequence payload operations => exact h.batch hexact hstep
    | observe now =>
      obtain ⟨event, rest, kvEvent, hpending, hdecode, hroom, rfl⟩ := hstep
      exact h.observe hplain hpending hdecode hroom
    | other now event =>
      obtain ⟨hne, hevent, hroom, rfl⟩ := hstep
      exact h.other hplain hne hevent hroom
    | query now request queried =>
      rw [show s' = _ from hstep]
      exact h.query now request queried

/-- Nothing is pending: the backend holds the keys of the resident blocks. -/
theorem Aligned.keysOf_eq (h : Aligned hasher backendID generation s) (hdone : s.pending = []) :
    keysOf s.provider backendID = hasher.utils.key '' resident s.history := by
  have hcontent := h.content
  rw [hdone] at hcontent
  exact hcontent

theorem Aligned.held_key (h : Aligned hasher backendID generation s)
    (hexact : hasher.utils.Exact) (hdone : s.pending = []) (block : Block H) :
    (s.provider.held backendID (hasher.utils.key block)).isSome = true ↔
      block ∈ resident s.history := by
  rw [← hexact.key_injective.mem_set_image, ← h.keysOf_eq hdone]
  rfl

/-- A key that is of no resident block is not held. -/
theorem Aligned.held_none (h : Aligned hasher backendID generation s) (hdone : s.pending = [])
    {key : String} (hkey : ∀ block ∈ resident s.history, key ≠ hasher.utils.key block) :
    s.provider.held backendID key = none := by
  refine Option.not_isSome_iff_eq_none.mp fun hsome => ?_
  have hmem : key ∈ keysOf s.provider backendID := hsome
  rw [h.keysOf_eq hdone] at hmem
  obtain ⟨block, hblock, heq⟩ := hmem
  exact hkey block hblock heq.symm

end Invariant

/-! ## What a match says -/

/-- The longest prefix whose elements all have a property. -/
theorem isGreatest_takeWhile {α : Type*} (p : α → Bool) : ∀ l : List α,
    IsGreatest {k | k ≤ l.length ∧ ∀ x ∈ l.take k, p x = true} (l.takeWhile p).length
  | [] => ⟨⟨le_rfl, nofun⟩, fun _ hk => hk.1⟩
  | x :: l => by
    obtain ⟨⟨hle, hall⟩, hgreatest⟩ := isGreatest_takeWhile p l
    by_cases hx : p x = true
    · rw [List.takeWhile_cons_of_pos hx, List.length_cons]
      refine ⟨⟨Nat.succ_le_succ hle, ?_⟩, fun k hk => ?_⟩
      · show ∀ y ∈ x :: l.take (l.takeWhile p).length, p y = true
        exact List.forall_mem_cons.mpr ⟨hx, hall⟩
      · obtain ⟨hk, hprefix⟩ := hk
        cases k with
        | zero => exact Nat.zero_le _
        | succ k =>
          rw [List.take_succ_cons] at hprefix
          exact Nat.succ_le_succ (hgreatest ⟨Nat.le_of_succ_le_succ hk,
            (List.forall_mem_cons.mp hprefix).2⟩)
    · rw [List.takeWhile_cons_of_neg hx]
      refine ⟨⟨Nat.zero_le _, nofun⟩, fun k hk => ?_⟩
      obtain ⟨-, hprefix⟩ := hk
      cases k with
      | zero => exact le_rfl
      | succ k =>
        rw [List.take_succ_cons] at hprefix
        exact absurd (List.forall_mem_cons.mp hprefix).1 hx

/-- The first `k` full blocks of some tokens are resident. -/
def ResidentPrefix (hasher : VLLMBlockHasher H) (history : List (BlockOperation H))
    (tokens : List Int) (k : Nat) : Prop :=
  k ≤ tokens.length / hasher.blockSize ∧
    ∀ block ∈ (hasher.utils.blocks hasher.blockSize tokens).take k, block ∈ resident history

/-- A match without full blocks finds nothing under a cache key that is not held. -/
theorem matchCache_unkeyed [Float64 F] {p : KVEventProvider F} {request : CacheMatchRequest}
    {backendID : String} (hkeys : request.externalCacheKeys = [])
    (hnone : p.held backendID request.cacheKey = none) (now : Time) :
    (p.matchCache now request backendID).1 = missingCacheEvidence .kvEvents := by
  have hfind : p.entries.find (backendKey backendID request.cacheKey) = none := by
    unfold KVEventProvider.held at hnone
    exact Option.map_eq_none_iff.mp hnone
  unfold KVEventProvider.matchCache
  split
  · rfl
  · rw [if_neg (not_not.mpr hkeys), hfind]

/-- A match with full blocks counts the ones that it starts with. -/
theorem matchExternalPrefix_held [Float64 F] {p : KVEventProvider F} {request : CacheMatchRequest}
    {backendID : String} {now : Time} {blockSize : Nat} (hpositive : 0 < blockSize)
    (hheld : ∀ key event, p.held backendID key = some event →
      event.matchedTokens = blockSize ∧ event.quality = .fresh ∧
        now.sub event.observedAt ≤ p.ttl)
    (hroom : (blockSize * request.externalCacheKeys.length : Int) ≤ request.promptTokens)
    (hprompt : request.promptTokens < 2 ^ 63) {k : Nat}
    (hk : k = (request.externalCacheKeys.takeWhile fun key =>
      (p.held backendID key).isSome).length) :
    (p.matchExternalPrefix now request backendID).1.matchedTokens = blockSize * k ∧
      (k = 0 → (p.matchExternalPrefix now request backendID).1 =
        missingCacheEvidence .kvEvents) := by
  have hmatched := KVEventProvider.matchKeys_matched (Int.natCast_nonneg blockSize) backendID now
    request.externalCacheKeys Time.zero hheld (by omega)
  rw [← hk] at hmatched
  have hle : k ≤ request.externalCacheKeys.length := by
    rw [hk]
    exact (List.takeWhile_prefix _).length_le
  have hcounted : (blockSize * k : Int) ≤ request.promptTokens :=
    (Int.mul_le_mul_of_nonneg_left (Int.ofNat_le.mpr hle) (Int.natCast_nonneg _)).trans hroom
  unfold KVEventProvider.matchExternalPrefix
  dsimp only
  rw [hmatched]
  by_cases hzero : k = 0
  · rw [if_pos (by rw [hzero]; simp)]
    exact ⟨by rw [hzero]; simp [missingCacheEvidence], fun _ => rfl⟩
  · have hne : ¬ (blockSize * k : Int) = 0 := by
      have := Nat.mul_pos hpositive (Nat.pos_of_ne_zero hzero)
      exact_mod_cast this.ne'
    rw [if_neg hne]
    refine ⟨?_, fun h => absurd h hzero⟩
    dsimp only
    rw [if_neg fun hclips : _ ∧ _ => absurd hcounted (not_le.mpr hclips.2)]

/-- **A match counts the tokens of the resident blocks that the request starts with**, whatever the
other backends do. Where the request has no full block, its cache key may not be the key of a
resident block. -/
theorem match_aligned [Float64 F] {hasher : VLLMBlockHasher H} {backendID generation : String}
    (hexact : hasher.utils.Exact) (hplain : Plain backendID) {s : AlignmentState T F H}
    (hs : (alignment hasher backendID generation).Reach s) (hdone : s.pending = [])
    {tokens : List Int} (hlength : tokens.length < 2 ^ 63) {request : CacheMatchRequest}
    (hkeys : request.externalCacheKeys = (hasher.hashTokens tokens).cacheKeys)
    (hprompt : request.promptTokens = tokens.length) {now : Time}
    (hage : ∀ key event, s.provider.held backendID key = some event →
      now.sub event.observedAt ≤ s.provider.ttl)
    (hcacheKey : tokens.length < hasher.blockSize →
      ∀ block ∈ resident s.history, request.cacheKey ≠ hasher.utils.key block) :
    ∃ k, IsGreatest {k | ResidentPrefix hasher s.history tokens k} k ∧
      (s.provider.matchCache now request backendID).1.matchedTokens = hasher.blockSize * k ∧
      (k = 0 → (s.provider.matchCache now request backendID).1 =
        missingCacheEvidence .kvEvents) := by
  have h := (aligned_inductive hexact hplain).reach hs
  have hheld := h.held_key hexact hdone
  have hgreatest := isGreatest_takeWhile
    (fun block => (s.provider.held backendID (hasher.utils.key block)).isSome)
    (hasher.utils.blocks hasher.blockSize tokens)
  simp only [hheld, KVCacheUtils.blocks_length] at hgreatest
  refine ⟨_, hgreatest, ?_⟩
  rw [VLLMBlockHasher.hashTokens_keys] at hkeys
  have hcount : (request.externalCacheKeys.takeWhile fun key =>
      (s.provider.held backendID key).isSome).length =
        ((hasher.utils.blocks hasher.blockSize tokens).takeWhile fun block =>
          (s.provider.held backendID (hasher.utils.key block)).isSome).length := by
    rw [hkeys, List.takeWhile_map, List.length_map]
    rfl
  by_cases hempty : request.externalCacheKeys = []
  · have hshort : tokens.length < hasher.blockSize := by
      rw [hempty] at hkeys
      have hlength := congrArg List.length hkeys
      rw [List.length_map, KVCacheUtils.blocks_length, List.length_nil] at hlength
      exact (Nat.div_eq_zero_iff_lt hasher.positive).mp hlength.symm
    have hmissing := matchCache_unkeyed hempty (h.held_none hdone (hcacheKey hshort)) now
    rw [← hcount, hempty, hmissing]
    exact ⟨by simp [missingCacheEvidence], fun _ => rfl⟩
  · have hmatch : s.provider.matchCache now request backendID =
        s.provider.matchExternalPrefix now request backendID := by
      unfold KVEventProvider.matchCache
      rw [if_neg fun hnone : _ ∧ _ => hempty hnone.2, if_pos hempty]
    rw [hmatch]
    refine matchExternalPrefix_held hasher.positive (fun key event hsome => ?_) ?_ ?_ hcount.symm
    · obtain ⟨htokens, hquality⟩ := h.fresh key event hsome
      exact ⟨htokens, hquality, hage key event hsome⟩
    · rw [hprompt, hkeys, List.length_map, KVCacheUtils.blocks_length]
      exact_mod_cast Nat.mul_div_le tokens.length hasher.blockSize
    · rw [hprompt]
      exact_mod_cast hlength

namespace AlignmentSample

attribute [local instance] PyFloat.wholeSeconds

local instance : Float64 Rat := .rational id

/-- A hash that numbers the blocks. -/
def utils : KVCacheUtils Nat where
  hashBlockTokens parent tokens := Encodable.encode (parent, tokens)
  maybeConvertBlockHash hash := .int hash

theorem utils_exact : utils.Exact where
  injective _ _ h :=
    Encodable.encode_injective (Int.ofNat.inj (ExternalBlockHash.int.inj h))
  uniform := .inr fun block => ⟨utils.hash block, rfl⟩

def hasher : VLLMBlockHasher Nat where
  blockSize := 2
  utils
  positive := Nat.zero_lt_two

/-- The blocks of `[1, 2, 3, 4]`. -/
def stored : List (Block Nat) := utils.blocks 2 [1, 2, 3, 4]

def payload : PyValue Nat :=
  .list
    [.float 1,
      .list
        [.list
          [.str "BlockStored", .list (stored.map fun block => (utils.published block).value), .none,
            .list [], .int 2]]]

def initial : AlignmentState Nat Rat Nat where
  process := DeliverySample.started
  provider := .new 100 300000000000 0
  pending := []
  history := []

def runs : System (AlignmentState Nat Rat Nat) (AlignmentMove Nat Nat) :=
  alignment hasher "backend" "pod-1"

/-- The batch is processed. -/
def processed : Option (AlignmentState Nat Rat Nat) :=
  match initial.process.adapter.process 0 payload none with
  | .ok (events, adapter, file) =>
    some
      { process := { adapter, file }
        provider := initial.provider
        pending := events
        history := [.stored stored] }
  | .error _ => none

/-- The next event is observed. -/
def observeNext (s : AlignmentState Nat Rat Nat) : Option (AlignmentState Nat Rat Nat) :=
  match s.pending with
  | [] => none
  | event :: rest => (event.decode Nat).bind fun kvEvent =>
    if (s.provider.live 0 kvEvent).length ≤ s.provider.max then
      some { s with provider := s.provider.observe 0 kvEvent, pending := rest }
    else none

theorem observeNext_step {s s' : AlignmentState Nat Rat Nat} (h : observeNext s = some s') :
    runs.step s (.observe 0) s' := by
  unfold observeNext at h
  split at h
  · cases h
  · rename_i event rest hpending
    obtain ⟨kvEvent, hdecode, h⟩ := Option.bind_eq_some_iff.mp h
    split at h
    · rename_i hroom
      exact ⟨event, rest, kvEvent, hpending, hdecode, hroom, (Option.some.inj h).symm⟩
    · cases h

/-- Both events are observed. -/
def observed : AlignmentState Nat Rat Nat :=
  ((processed.bind observeNext).bind observeNext).get (by decide +kernel)

theorem processed_reach {s : AlignmentState Nat Rat Nat} (h : processed = some s) :
    runs.Reach s := by
  refine .step (.init ⟨rfl, ⟨_, _, _, rfl⟩, rfl, rfl⟩)
    (i := .batch 0 payload [.stored stored]) (s := initial) ⟨rfl, nofun, ?_, ?_⟩
  · exact ⟨_, _, _, rfl, .cons ⟨_, _, _, _, rfl, rfl⟩ .nil⟩
  · unfold processed at h
    split at h
    · rename_i events adapter file hprocess
      refine ⟨events, adapter, file, hprocess, ?_, (Option.some.inj h).symm⟩
      have hevents : events = ((initial.process.adapter.process 0 payload none).toOption.map
          Prod.fst).getD [] := by rw [hprocess]; rfl
      rw [hevents]
      decide +kernel
    · cases h

theorem observed_reach : runs.Reach observed := by
  have hrun : (processed.bind observeNext).bind observeNext = some observed :=
    (Option.some_get _).symm
  obtain ⟨s', hrun, hsecond⟩ := Option.bind_eq_some_iff.mp hrun
  obtain ⟨s, hprocessed, hfirst⟩ := Option.bind_eq_some_iff.mp hrun
  exact .step (.step (processed_reach hprocessed) (observeNext_step hfirst))
    (observeNext_step hsecond)

theorem observed_age (key : String) (event : KVEvent)
    (h : observed.provider.held "backend" key = some event) :
    (0 : Time).sub event.observedAt ≤ observed.provider.ttl := by
  have hindexed := ((aligned_inductive utils_exact (by decide)).reach observed_reach).indexed
  obtain ⟨⟨element, entry⟩, hfind, rfl⟩ := Option.map_eq_some_iff.mp h
  obtain ⟨hmem, -⟩ := hindexed.wf.find_eq_some.mp hfind
  have hall : ∀ entry ∈ observed.provider.entries.view,
      (0 : Time).sub entry.event.observedAt ≤ observed.provider.ttl := by
    decide +kernel
  exact hall entry (List.mem_map_of_mem (f := Prod.snd) hmem)

/-- Five tokens are two full blocks. -/
def request : CacheMatchRequest where
  requestID := "r1"
  tenantID := ""
  cacheKey := ""
  externalCacheKeys := (hasher.hashTokens [1, 2, 3, 4, 5]).cacheKeys
  promptTokens := 5

theorem match_aligned_two_blocks :
    ∃ k, IsGreatest {k | ResidentPrefix hasher observed.history [1, 2, 3, 4, 5] k} k ∧
      (observed.provider.matchCache 0 request "backend").1.matchedTokens = hasher.blockSize * k ∧
      (k = 0 → (observed.provider.matchCache 0 request "backend").1 =
        missingCacheEvidence .kvEvents) :=
  match_aligned utils_exact (by decide) observed_reach (by decide +kernel) (by decide) rfl rfl
    observed_age (fun hshort => absurd hshort (by decide))

example : (observed.provider.matchCache 0 request "backend").1.matchedTokens = 4 := by
  decide +kernel

/-- One token is no full block; the cache key of the request is that of a resident block. -/
def keyedRequest : CacheMatchRequest where
  requestID := "r2"
  tenantID := ""
  cacheKey := utils.key (none, [1, 2])
  externalCacheKeys := (hasher.hashTokens [1]).cacheKeys
  promptTokens := 1

/-- The match counts the one token, and no number of blocks of two tokens has one. -/
theorem match_counts_cache_key :
    runs.Reach observed ∧ observed.pending = [] ∧
      (∀ key event, observed.provider.held "backend" key = some event →
        (0 : Time).sub event.observedAt ≤ observed.provider.ttl) ∧
      ¬ ∃ k : Nat, (observed.provider.matchCache 0 keyedRequest "backend").1.matchedTokens =
        hasher.blockSize * k := by
  refine ⟨observed_reach, by decide +kernel, observed_age, ?_⟩
  rintro ⟨k, hk⟩
  have hone : (observed.provider.matchCache 0 keyedRequest "backend").1.matchedTokens = 1 := by
    decide +kernel
  have htwo : hasher.blockSize = 2 := rfl
  rw [hone, htwo] at hk
  omega

end AlignmentSample

end Kavora.EngineEvents
