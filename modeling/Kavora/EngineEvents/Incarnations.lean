import Kavora.EngineEvents.Taken

/-!
# Incarnations of an engine

A backend's engine may die and start again. Each incarnation numbers its batches from zero, with
times later than those of all earlier ones. The subscriber sees any of their batches, at any time:
publications get lost, and replays bring some back.

* `incarnations`: the runs of a subscriber and an index with the batches of all incarnations. A batch
  is applied when the index has taken all its events.
* `NoStaleKey`, `NoLostBatch`: what the design promises of them.
* `InOrder`: the arrivals that the adapter and the index tell apart. A batch that is not the first of
  its incarnation follows one of its own (`Follows`), and the index is ready for it in the generation
  that it opens (`Ready`).
* `no_evidence_survives`: in runs with such arrivals both promises hold.
-/

namespace Kavora.EngineEvents

open Lib Lib.Go Router

/-! ## Engines -/

section

variable {T : Type} [PyFloat T]

/-- The time of a batch. -/
def timestampOf : PyValue T → Option T
  | .list (first :: _) => PyFloat.ofValue first
  | _ => none

/-- The comparison of times that are numbers. -/
class OrderedTimes (T : Type) [PyFloat T] : Prop where
  lt_asymm : ∀ {x y : T}, PyFloat.lt x y = true → PyFloat.lt y x = false

variable (T) in
/-- The batches of each incarnation of an engine. -/
structure Engines where
  batch : Nat → Nat → PyValue T
  later : ∀ {i j m n : Nat} {t u : T}, i < j → timestampOf (batch i m) = some t →
    timestampOf (batch j n) = some u → PyFloat.lt t u = true

end

/-! ## Runs -/

/-- The incarnation of the last committed batch, and the first batch that was committed of it. -/
structure Progress where
  incarnation : Nat
  first : Nat

/-- The subscriber's process, the index with its record, and what has come of the batches. -/
structure IncarnationState (T F : Type) where
  process : Process T
  index : Observed F
  /-- `none` before the first commit. -/
  progress : Option Progress
  /-- The incarnation whose events were posted in a generation. -/
  owner : String → Option Nat
  /-- The incarnations with the cache keys that they stored. -/
  stored : List (Nat × String)
  /-- The batches that were delivered without an exception. -/
  delivered : List (Nat × Nat)
  /-- Those of which the index had taken every event, in their order, when they were committed. -/
  applied : List (Nat × Nat)

/-- What happens to the subscriber: a batch of an incarnation is delivered, or fails after some of
its events were posted, or the process starts again. -/
inductive Arrival where
  | deliver (incarnation sequence : Nat) (now : Time)
  | fail (incarnation sequence : Nat) (now : Time) (posted : Nat)
  | restart

variable {T F : Type} [PyFloat T]

/-- The cache keys that some events store. -/
def storedKeys (events : List Event) : List String :=
  (events.filter fun event => event.operation = .store).map (·.cacheKey)

/-- The owners of the generations after an incarnation posted some events. -/
def ownedBy (owner : String → Option Nat) (incarnation : Nat) (generation : String)
    (events : List Event) : String → Option Nat :=
  if events = [] then owner else Function.update owner generation (some incarnation)

/-- The progress after a commit. -/
def Progress.after (progress : Option Progress) (incarnation sequence : Nat) : Progress where
  incarnation
  first :=
    match progress with
    | some progress => if sequence = 0 then 0 else progress.first
    | none => sequence

/-- The state after an arrival; `none` is a batch that raises, where it was not expected to. -/
def next (engines : Engines T) (s : IncarnationState T F) :
    Arrival → Option (IncarnationState T F)
  | .deliver incarnation sequence now => do
    let prepared ←
      (s.process.adapter.prepare sequence (engines.batch incarnation sequence)).toOption
    let index ← s.index.postAll T now prepared.events
    let committed := s.process.adapter.commit prepared s.process.file
    return if prepared.duplicate then
      { s with index, delivered := (incarnation, sequence) :: s.delivered }
    else
      { process := { adapter := committed.1, file := committed.2 }
        index
        progress := some (.after s.progress incarnation sequence)
        owner := ownedBy s.owner incarnation prepared.generation prepared.events
        stored := s.stored ++ (storedKeys prepared.events).map (incarnation, ·)
        delivered := (incarnation, sequence) :: s.delivered
        applied :=
          if prepared.events.Sublist index.taken then (incarnation, sequence) :: s.applied
          else s.applied }
  | .fail incarnation sequence now posted => do
    let prepared ←
      (s.process.adapter.prepare sequence (engines.batch incarnation sequence)).toOption
    let index ← s.index.postAll T now (prepared.events.take posted)
    return { s with
      index
      owner := ownedBy s.owner incarnation prepared.generation (prepared.events.take posted)
      stored := s.stored ++ (storedKeys (prepared.events.take posted)).map (incarnation, ·) }
  | .restart => some { s with process := s.process.restart }

/-- The runs of a subscriber of one backend, with an index that nobody else posts to. -/
def incarnations [Float64 F] (engines : Engines T) (backendID generation : String) :
    System (IncarnationState T F) Arrival where
  init s :=
    Process.start backendID generation none = .ok s.process ∧
      (∃ max ttl lambda, s.index = { provider := .new max ttl lambda, taken := [], left := [] }) ∧
      s.progress = none ∧ s.owner = (fun _ => none) ∧ s.stored = [] ∧ s.delivered = [] ∧
      s.applied = []
  step s arrival s' := next engines s arrival = some s'

/-- Once a batch of an incarnation was delivered, the index holds no key that only earlier
incarnations stored. -/
def NoStaleKey (backendID : String) (s : IncarnationState T F) : Prop :=
  ∀ incarnation sequence, (incarnation, sequence) ∈ s.delivered →
    ∀ key, (s.index.provider.entries.find (backendKey backendID key)).isSome →
      ∃ later, incarnation ≤ later ∧ (later, key) ∈ s.stored

/-- A batch that was delivered without an exception was applied, then or before. -/
def NoLostBatch (s : IncarnationState T F) : Prop := ∀ batch ∈ s.delivered, batch ∈ s.applied

/-- The entries of the index are those that the events that it took in its generation make. -/
def Recorded (s : IncarnationState T F) : Prop :=
  s.index.provider.entries.view = replay T s.index.provider.max s.index.taken

/-! ## Arrivals in order -/

/-- A batch follows what is committed: it is one of the same incarnation, and none before the first
one of it; the first batch of a later incarnation; one behind a gap; or an old one that was
applied. -/
def Follows (s : IncarnationState T F) (incarnation sequence : Nat) : Prop :=
  ∀ progress ∈ s.progress, ∀ last ∈ s.process.adapter.lastSequence,
    incarnation = progress.incarnation ∧ progress.first ≤ sequence ∨
    progress.incarnation < incarnation ∧ sequence = 0 ∨
    last + 1 < sequence ∨
    incarnation < progress.incarnation ∧ sequence ≤ last ∧ (incarnation, sequence) ∈ s.applied

/-- No events of another incarnation were posted in a generation. -/
def Free (owner : String → Option Nat) (incarnation : Nat) (generation : String) : Prop :=
  owner generation = none ∨ owner generation = some incarnation

/-- The generation in which a batch is posted, and whether it restarts the adapter. -/
def opens (engines : Engines T) (s : IncarnationState T F) (incarnation sequence : Nat) :
    Option (String × Bool) :=
  match s.process.adapter.lastSequence with
  | none => some (s.process.adapter.generation, false)
  | some last =>
    if sequence = last + 1 then some (s.process.adapter.generation, false)
    else if sequence = 0 then do
      let timestamp ← timestampOf (engines.batch incarnation sequence)
      let ms ← PyFloat.millis timestamp
      if PyFloat.lt s.process.adapter.lastTimestamp timestamp then
        some ("auto-" ++ toString ms, true)
      else none
    else none

/-- The index is ready for a batch in a generation. -/
structure Ready (engines : Engines T) (s : IncarnationState T F) (incarnation sequence : Nat)
    (generation : String) (restart : Bool) : Prop where
  /-- No events of another incarnation were posted in the generation. -/
  free : Free s.owner incarnation generation
  /-- A restart does not open the configured generation. -/
  opened : restart = true → generation ≠ s.process.adapter.configuredGeneration
  /-- The IDs of the batch differ. -/
  distinct : (batchNumbers restart (engines.batch incarnation sequence)).Nodup
  /-- The index took no event of the batch before it left the generation. -/
  untaken : ∀ event ∈ s.index.left, event.generation = generation → event.sequence ≠ sequence
  /-- In the generation of the batch the index is not ahead of it, unless the batch was applied or
  has no events. -/
  notAhead : s.index.provider.generation s.process.adapter.backendID = generation →
    s.index.provider.hasSequence s.process.adapter.backendID = true →
    s.index.provider.lastSequence s.process.adapter.backendID ≤ sequence ∨
      (incarnation, sequence) ∈ s.applied ∨
      batchNumbers restart (engines.batch incarnation sequence) = []

/-- The arrivals that the adapter and the index tell apart. -/
def InOrder (engines : Engines T) (s : IncarnationState T F) : Arrival → Prop
  | .deliver incarnation sequence _ | .fail incarnation sequence _ _ =>
    Follows s incarnation sequence ∧
      ∀ opened ∈ opens engines s incarnation sequence,
        Ready engines s incarnation sequence opened.1 opened.2
  | .restart => True

section

variable {engines : Engines T} {s : IncarnationState T F} {incarnation sequence : Nat}
  {generation : String} {restart : Bool}

instance : Decidable (Follows s incarnation sequence) :=
  inferInstanceAs (Decidable (∀ progress ∈ s.progress, ∀ last ∈ s.process.adapter.lastSequence, _))

instance {owner : String → Option Nat} : Decidable (Free owner incarnation generation) :=
  inferInstanceAs (Decidable (_ ∨ _))

theorem ready_iff : Ready engines s incarnation sequence generation restart ↔
    Free s.owner incarnation generation ∧
      (restart = true → generation ≠ s.process.adapter.configuredGeneration) ∧
      (batchNumbers restart (engines.batch incarnation sequence)).Nodup ∧
      (∀ event ∈ s.index.left, event.generation = generation → event.sequence ≠ sequence) ∧
      (s.index.provider.generation s.process.adapter.backendID = generation →
        s.index.provider.hasSequence s.process.adapter.backendID = true →
        s.index.provider.lastSequence s.process.adapter.backendID ≤ sequence ∨
          (incarnation, sequence) ∈ s.applied ∨
          batchNumbers restart (engines.batch incarnation sequence) = []) :=
  ⟨fun h => ⟨h.free, h.opened, h.distinct, h.untaken, h.notAhead⟩,
    fun ⟨hfree, hopened, hdistinct, huntaken, hnotAhead⟩ =>
      ⟨hfree, hopened, hdistinct, huntaken, hnotAhead⟩⟩

instance : Decidable (Ready engines s incarnation sequence generation restart) :=
  decidable_of_iff _ ready_iff.symm

instance : ∀ arrival : Arrival, Decidable (InOrder engines s arrival)
  | .deliver _ _ _ => inferInstanceAs (Decidable (_ ∧ _))
  | .fail _ _ _ _ => inferInstanceAs (Decidable (_ ∧ _))
  | .restart => .isTrue trivial

theorem next_deliver {s' : IncarnationState T F} {now : Time}
    (h : next engines s (.deliver incarnation sequence now) = some s') :
    ∃ prepared index,
      s.process.adapter.prepare sequence (engines.batch incarnation sequence) = .ok prepared ∧
      s.index.postAll T now prepared.events = some index ∧
      s' =
        if prepared.duplicate then
          { s with index, delivered := (incarnation, sequence) :: s.delivered }
        else
          { process :=
              { adapter := (s.process.adapter.commit prepared s.process.file).1
                file := (s.process.adapter.commit prepared s.process.file).2 }
            index
            progress := some (.after s.progress incarnation sequence)
            owner := ownedBy s.owner incarnation prepared.generation prepared.events
            stored := s.stored ++ (storedKeys prepared.events).map (incarnation, ·)
            delivered := (incarnation, sequence) :: s.delivered
            applied :=
              if prepared.events.Sublist index.taken then (incarnation, sequence) :: s.applied
              else s.applied } := by
  obtain ⟨prepared, hprepared, h⟩ := Option.bind_eq_some_iff.mp h
  obtain ⟨index, hindex, h⟩ := Option.bind_eq_some_iff.mp h
  exact ⟨prepared, index, toOption_eq_some.mp hprepared, hindex, (Option.some.inj h).symm⟩

theorem next_fail {s' : IncarnationState T F} {now : Time} {posted : Nat}
    (h : next engines s (.fail incarnation sequence now posted) = some s') :
    ∃ prepared index,
      s.process.adapter.prepare sequence (engines.batch incarnation sequence) = .ok prepared ∧
      s.index.postAll T now (prepared.events.take posted) = some index ∧
      s' =
        { s with
          index
          owner := ownedBy s.owner incarnation prepared.generation (prepared.events.take posted)
          stored := s.stored ++
            (storedKeys (prepared.events.take posted)).map (incarnation, ·) } := by
  obtain ⟨prepared, hprepared, h⟩ := Option.bind_eq_some_iff.mp h
  obtain ⟨index, hindex, h⟩ := Option.bind_eq_some_iff.mp h
  exact ⟨prepared, index, toOption_eq_some.mp hprepared, hindex, (Option.some.inj h).symm⟩

end

/-! ## Posts -/

/-- The keys of the index were stored by the incarnation of its generation. -/
structure Owned (backendID : String) (owner : String → Option Nat) (stored : List (Nat × String))
    (p : KVEventProvider F) : Prop where
  indexed : p.Indexed
  entries : ∀ entry ∈ p.entries.view, ∃ key k, entry.key = backendKey backendID key ∧
    owner (p.generation backendID) = some k ∧ (k, key) ∈ stored

section Posts

section

variable {backendID generation : String} {owner : String → Option Nat}
  {stored : List (Nat × String)} {p : KVEventProvider F} {incarnation : Nat}

/-- A generation that gets an owner of its own keeps the other owners. -/
theorem Owned.update (h : Owned backendID owner stored p)
    (hfree : Free owner incarnation generation) (stored' : List (Nat × String)) :
    Owned backendID (Function.update owner generation (some incarnation)) (stored ++ stored')
      p where
  indexed := h.indexed
  entries entry hentry := by
    obtain ⟨key, k, hkey, howner, hstored⟩ := h.entries entry hentry
    refine ⟨key, k, hkey, ?_, List.mem_append_left _ hstored⟩
    by_cases hgeneration : p.generation backendID = generation
    · rw [hgeneration, Function.update_self]
      rw [hgeneration] at howner
      rcases hfree with hnone | hsome
      · rw [hnone] at howner
        cases howner
      · rw [← howner, hsome]
    · rw [Function.update_of_ne hgeneration]
      exact howner

/-- Entering a generation leaves the keys of its owner only. -/
theorem Owned.enter (h : Owned backendID owner stored p) (hempty : owner "" = none)
    (hfree : Free owner incarnation generation) (hgeneration : generation ≠ "") :
    ∀ entry ∈ (p.enterGeneration backendID generation).entries.view,
      ∃ key, entry.key = backendKey backendID key ∧ (incarnation, key) ∈ stored := by
  intro entry hentry
  rw [(KVEventProvider.enterGeneration_spec h.indexed _ _).2] at hentry
  split at hentry
  · obtain ⟨hmem, hprefix⟩ := List.mem_filter.mp hentry
    obtain ⟨key, k, hkey, -, -⟩ := h.entries entry hmem
    rw [hkey, hasPrefix_self] at hprefix
    cases hprefix
  · rename_i hsame
    obtain ⟨key, k, hkey, howner, hstored⟩ := h.entries entry hentry
    have hold : p.generation backendID ≠ "" := by
      intro hnone
      rw [hnone, hempty] at howner
      cases howner
    have hcurrent : p.generation backendID = generation := by
      by_contra hne
      exact hsame ⟨hgeneration, hold, hne⟩
    rw [hcurrent] at howner
    rcases hfree with hnone | hsome
    · rw [hnone] at howner
      cases howner
    · rw [hsome] at howner
      cases howner
      exact ⟨key, hkey, hstored⟩

end

variable {a : VLLMEventAdapter T} {header : VLLMEventAdapter.Header T} {owner : String → Option Nat}
  {stored : List (Nat × String)} {p p' : KVEventProvider F} {incarnation : Nat} {now : Time}

/-- One event of a batch. -/
theorem post_owned (h : Owned a.backendID owner stored p) (hempty : owner "" = none)
    (hfree : Free owner incarnation header.generation) (hgeneration : header.generation ≠ "")
    (hnonneg : PyFloat.nonneg header.timestamp = true) {event : Event}
    (hstamped : a.Stamped header event) (hpost : post T p now event = some p') :
    Owned a.backendID (Function.update owner header.generation (some incarnation))
        (stored ++ (storedKeys [event]).map (incarnation, ·)) p' ∧
      p'.generation a.backendID = header.generation := by
  obtain ⟨kvEvent, hdecode, hvalid, rfl⟩ := post_ok hpost
  obtain ⟨hv, -, hbackend, hkvgeneration⟩ := stamped_decode hstamped hnonneg hdecode hvalid
  have hcurrent : (p.observe now kvEvent).generation a.backendID = header.generation := by
    have hin := KVEventProvider.observe_inGeneration p now hv
    unfold KVEventProvider.InGeneration at hin
    rw [hbackend, hkvgeneration] at hin
    exact hin.resolve_left hgeneration
  obtain ⟨hindexed, -, hview⟩ := KVEventProvider.observe_spec h.indexed now kvEvent
  refine ⟨⟨hindexed, fun entry hentry => ?_⟩, hcurrent⟩
  rw [hcurrent, Function.update_self]
  suffices hkey : ∃ key, entry.key = backendKey a.backendID key ∧
      (incarnation, key) ∈ stored ++ (storedKeys [event]).map (incarnation, ·) by
    obtain ⟨key, hkey, hstored⟩ := hkey
    exact ⟨key, incarnation, hkey, rfl, hstored⟩
  have henter : ∀ entry ∈ (p.enterGeneration a.backendID header.generation).entries.view,
      ∃ key, entry.key = backendKey a.backendID key ∧
        (incarnation, key) ∈ stored ++ (storedKeys [event]).map (incarnation, ·) := by
    intro entry hentry
    obtain ⟨key, hkey, hstored⟩ := h.enter hempty hfree hgeneration entry hentry
    exact ⟨key, hkey, List.mem_append_left _ hstored⟩
  rw [hview] at hentry
  have hlive := List.mem_of_mem_take hentry
  unfold KVEventProvider.live at hlive
  rw [if_neg hv.backendID, if_neg fun hskip => hv.cacheKey.elim hskip.1 fun hkey => hkey hskip.2,
    hbackend, hkvgeneration] at hlive
  dsimp only at hlive
  split at hlive
  · exact henter entry hlive
  unfold KVEventProvider.applied at hlive
  split at hlive
  · exact henter entry (List.mem_filter.mp hlive).1
  · exact henter entry (List.mem_filter.mp hlive).1
  · rename_i hclear hremove
    rcases List.mem_cons.mp hlive with rfl | hlive
    · -- The entry of a store.
      obtain ⟨operation, eventIndex, key, tokens, hoperation, hevent⟩ := hstamped
      obtain ⟨text, -, rfl⟩ := VLLMEventAdapter.event_ok hevent
      obtain ⟨observedAt, -, -, rfl⟩ := decode_ok hdecode
      have hstore : operation = .store := by
        rcases hoperation with rfl | rfl | rfl
        · rfl
        · exact absurd rfl hremove
        · exact absurd rfl hclear
      subst hstore
      refine ⟨key, rfl, List.mem_append_right _ ?_⟩
      exact List.mem_map.mpr ⟨key, List.mem_singleton.mpr rfl, rfl⟩
    · exact henter entry (List.mem_filter.mp hlive).1

/-- The events of a batch, one after the other. -/
theorem postAll_owned (hgeneration : header.generation ≠ "")
    (hnonneg : PyFloat.nonneg header.timestamp = true) :
    ∀ {events : List Event} {owner : String → Option Nat} {stored : List (Nat × String)}
      {p : KVEventProvider F}, Owned a.backendID owner stored p → owner "" = none →
      Free owner incarnation header.generation → (∀ event ∈ events, a.Stamped header event) →
      (delivery T F).postAll now p events = some p' → events ≠ [] →
      Owned a.backendID (Function.update owner header.generation (some incarnation))
          (stored ++ (storedKeys events).map (incarnation, ·)) p' ∧
        p'.generation a.backendID = header.generation := by
  intro events
  induction events with
  | nil => exact fun _ _ _ _ _ hne => absurd rfl hne
  | cons event events ih =>
    intro owner stored p h hempty hfree hstamped hpost _
    obtain ⟨next, hnext, hrest⟩ := Option.bind_eq_some_iff.mp hpost
    obtain ⟨howned, hcurrent⟩ := post_owned h hempty hfree hgeneration hnonneg
      (hstamped event List.mem_cons_self) hnext
    have hkeys : storedKeys (event :: events) = storedKeys [event] ++ storedKeys events := by
      unfold storedKeys
      rw [← List.map_append, ← List.filter_append]
      rfl
    rw [hkeys, List.map_append, ← List.append_assoc]
    cases events with
    | nil =>
      cases hrest
      rw [show storedKeys [] = [] from rfl, List.map_nil, List.append_nil]
      exact ⟨howned, hcurrent⟩
    | cons event' events =>
      have hempty' : Function.update owner header.generation (some incarnation) "" = none := by
        rw [Function.update_of_ne hgeneration.symm]
        exact hempty
      have htail := ih howned hempty' (.inr (Function.update_self _ _ _))
        (fun event hevent => hstamped event (List.mem_cons_of_mem _ hevent)) hrest
        (List.cons_ne_nil _ _)
      rw [Function.update_idem] at htail
      exact htail

end Posts

/-! ## What every run in order keeps -/

section Invariant

variable {engines : Engines T} {backendID : String} {s s' : IncarnationState T F}

/-- The events of a batch of an incarnation in a generation. -/
def Contains (engines : Engines T) (backendID configuredGeneration : String) (incarnation : Nat)
    (generation : String) (sequence : Nat) (events : List Event) : Prop :=
  ∃ (a : VLLMEventAdapter T) (first : PyValue T) (raws rest : List (PyValue T)) (timestamp : T),
    a.backendID = backendID ∧
      engines.batch incarnation sequence = .list (first :: .list raws :: rest) ∧
      PyFloat.ofValue first = some timestamp ∧
      a.batchEvents { sequence, generation, timestamp }
        (decide (sequence = 0 ∧ generation ≠ configuredGeneration)) raws = .ok events

theorem contains_contents (engines : Engines T) (backendID configuredGeneration : String)
    (incarnation : Nat) (generation : String) :
    Observed.Contents generation
      (Contains engines backendID configuredGeneration incarnation generation) where
  batch := by
    rintro sequence events ⟨a, first, raws, rest, timestamp, -, -, -, hevents⟩ event hmem
    obtain ⟨_, _, _, _, -, hevent⟩ := VLLMEventAdapter.batchEvents_stamped hevents event hmem
    obtain ⟨_, -, rfl⟩ := VLLMEventAdapter.event_ok hevent
    exact ⟨_, rfl⟩
  unique := by
    rintro sequence events events' ⟨a, first, raws, rest, timestamp, ha, hbatch, hfirst, hevents⟩
      ⟨a', first', raws', rest', timestamp', ha', hbatch', hfirst', hevents'⟩
    cases hbatch.symm.trans hbatch'
    cases hfirst.symm.trans hfirst'
    rw [VLLMEventAdapter.batchEvents_congr (ha.trans ha'.symm)] at hevents
    exact Except.ok.inj (hevents.symm.trans hevents')

/-- The last committed batch and what it says of the generations. -/
structure Committed (engines : Engines T) (backendID : String) (s : IncarnationState T F)
    (progress : Progress) : Prop where
  last : ∃ last, s.process.adapter.lastSequence = some last ∧
    timestampOf (engines.batch progress.incarnation last) = some s.process.adapter.lastTimestamp ∧
    ∀ n, progress.first ≤ n → n ≤ last → (progress.incarnation, n) ∈ s.applied
  current : ∀ k, s.owner (s.index.provider.generation backendID) = some k →
    progress.incarnation ≤ k
  delivered : ∀ batch ∈ s.delivered, batch.1 ≤ progress.incarnation

/-- The index and its record belong to the incarnation that owns the current generation. -/
structure Kept (engines : Engines T) (backendID configuredGeneration : String)
    (owner : String → Option Nat) (stored : List (Nat × String)) (index : Observed F) : Prop where
  owned : Owned backendID owner stored index.provider
  sound : index.Sound T backendID
  inTurn : ∀ incarnation, owner (index.provider.generation backendID) = some incarnation →
    index.InTurn backendID
      (Contains engines backendID configuredGeneration incarnation
        (index.provider.generation backendID))
  named : index.provider.generation backendID = "" ∨
    ∃ incarnation, owner (index.provider.generation backendID) = some incarnation

/-- The invariant of the runs over the restarts of an engine. -/
structure IncarnationInv (engines : Engines T) (backendID : String)
    (s : IncarnationState T F) : Prop where
  backend : s.process.adapter.backendID = backendID
  named : s.process.adapter.generation ≠ ""
  saved : s.process.adapter.Saved s.process.file
  unnamed : s.owner "" = none
  kept : Kept engines backendID s.process.adapter.configuredGeneration s.owner s.stored s.index
  lossless : NoLostBatch s
  start : s.progress = none → s.process.adapter.lastSequence = none ∧
    s.process.adapter.generation = s.process.adapter.configuredGeneration ∧ s.delivered = [] ∧
    (s.index.provider.generation backendID = "" ∨
      s.index.provider.generation backendID = s.process.adapter.generation)
  committed : ∀ progress, s.progress = some progress → Committed engines backendID s progress

/-- How a batch that is no duplicate follows what is committed. -/
inductive Fresh (s : IncarnationState T F) (incarnation sequence : Nat)
    (prepared : PreparedBatch T) : Prop
  | first (hprogress : s.progress = none)
      (hgeneration : prepared.generation = s.process.adapter.generation)
  | next {progress : Progress} {last : Nat} (hprogress : s.progress = some progress)
      (hlast : s.process.adapter.lastSequence = some last) (hsequence : sequence = last + 1)
      (hincarnation : incarnation = progress.incarnation)
      (hgeneration : prepared.generation = s.process.adapter.generation)
  | restart {progress : Progress} (hprogress : s.progress = some progress) (hsequence : sequence = 0)
      (hincarnation : progress.incarnation ≤ incarnation) (hevents : prepared.events ≠ [])

/-- A batch that is posted, with its events. -/
structure Posts (engines : Engines T) (s : IncarnationState T F) (incarnation sequence : Nat)
    (prepared : PreparedBatch T) (restart : Bool) : Prop where
  ready : Ready engines s incarnation sequence prepared.generation restart
  ids : prepared.events.map (·.engineEventID) =
    (batchNumbers restart (engines.batch incarnation sequence)).map
      (VLLMEventAdapter.engineEventID prepared.generation sequence)
  contains : Contains engines s.process.adapter.backendID s.process.adapter.configuredGeneration
    incarnation prepared.generation sequence prepared.events

/-- With a last sequence a batch was committed. -/
theorem IncarnationInv.progress (h : IncarnationInv engines backendID s) {last : Nat}
    (hlast : s.process.adapter.lastSequence = some last) :
    ∃ progress, s.progress = some progress ∧
      timestampOf (engines.batch progress.incarnation last) =
        some s.process.adapter.lastTimestamp ∧
      ∀ n, progress.first ≤ n → n ≤ last → (progress.incarnation, n) ∈ s.applied := by
  cases hprogress : s.progress with
  | none =>
    rw [(h.start hprogress).1] at hlast
    cases hlast
  | some progress =>
    obtain ⟨⟨last', hlast', htime, happlied⟩, -, -⟩ := h.committed progress hprogress
    obtain rfl := Option.some.inj (hlast.symm.trans hlast')
    exact ⟨progress, rfl, htime, happlied⟩

/-- A batch that arrives in order is a duplicate of one that was applied, or it is fresh and the
index is ready for it. -/
theorem IncarnationInv.arrives [OrderedTimes T] (h : IncarnationInv engines backendID s)
    {incarnation sequence : Nat} (hfollows : Follows s incarnation sequence)
    (hready : ∀ opened ∈ opens engines s incarnation sequence,
      Ready engines s incarnation sequence opened.1 opened.2)
    {prepared : PreparedBatch T}
    (hprepare : s.process.adapter.prepare sequence (engines.batch incarnation sequence) =
      .ok prepared) :
    prepared.sequence = sequence ∧
      timestampOf (engines.batch incarnation sequence) = some prepared.timestamp ∧
      (prepared.duplicate = true ∧ prepared.events = [] ∧ (incarnation, sequence) ∈ s.applied ∧
          (∃ progress, s.progress = some progress ∧ incarnation ≤ progress.incarnation) ∨
        prepared.duplicate = false ∧ prepared.generation ≠ "" ∧
          Fresh s incarnation sequence prepared ∧
          ∃ restart, Posts engines s incarnation sequence prepared restart) := by
  obtain ⟨first, raws, rest, hpayload, hfirst, hsequence, -, -, has⟩ :=
    VLLMEventAdapter.prepare_ok hprepare
  have hsequence : sequence = prepared.sequence := by exact_mod_cast hsequence
  subst hsequence
  have htimestamp : timestampOf (engines.batch incarnation prepared.sequence) =
      some prepared.timestamp := by
    rw [hpayload]
    exact hfirst
  refine ⟨rfl, htimestamp, ?_⟩
  have hposts : ∀ {restart : Bool},
      opens engines s incarnation prepared.sequence = some (prepared.generation, restart) →
      (restart = true ↔ prepared.sequence = 0 ∧
        prepared.generation ≠ s.process.adapter.configuredGeneration) →
      s.process.adapter.batchEvents (VLLMEventAdapter.headerOf prepared) restart raws =
        .ok prepared.events →
      Posts engines s incarnation prepared.sequence prepared restart := by
    intro restart hopens hrestart hevents
    refine ⟨hready _ hopens, ?_, s.process.adapter, first, raws, rest, prepared.timestamp, rfl,
      hpayload, hfirst, ?_⟩
    · rw [hpayload]
      exact VLLMEventAdapter.batchEvents_ids hevents first rest
    · rwa [Bool.eq_iff_iff.mpr (decide_eq_true_iff.trans hrestart.symm)]
  have hstands := s.process.adapter.position_stands prepared.sequence prepared.timestamp
  generalize s.process.adapter.position prepared.sequence prepared.timestamp = position
    at has hstands
  cases hstands with
  | first hnone =>
    obtain ⟨hduplicate, hgeneration, hevents⟩ := has
    have hprogress : s.progress = none := by
      by_contra hsome
      obtain ⟨progress, hprogress⟩ := Option.ne_none_iff_exists'.mp hsome
      obtain ⟨last, hlast, -⟩ := (h.committed progress hprogress).last
      exact absurd (hnone.symm.trans hlast) nofun
    have hconfigured := (h.start hprogress).2.1
    refine .inr ⟨hduplicate, ?_, .first hprogress hgeneration, false, hposts ?_ ?_ hevents⟩
    · rw [hgeneration]
      exact h.named
    · unfold opens
      rw [hnone, hgeneration]
    · rw [hgeneration, hconfigured]
      exact iff_of_false Bool.false_ne_true fun hopen => hopen.2 rfl
  | restart hlast hzero hlater =>
    obtain ⟨progress, hprogress, htime, -⟩ := h.progress hlast
    have hle : progress.incarnation ≤ incarnation := by
      rcases hfollows progress hprogress _ hlast with ⟨heq, -⟩ | ⟨hlt, -⟩ | hgap | ⟨hlt, -, -⟩
      · exact heq.ge
      · exact hlt.le
      · omega
      · rw [OrderedTimes.lt_asymm (engines.later hlt htimestamp htime)] at hlater
        cases hlater
    obtain ⟨hduplicate, ⟨ms, hms, hgeneration⟩, hevents⟩ := has
    have hopens : opens engines s incarnation prepared.sequence =
        some (prepared.generation, true) := by
      unfold opens
      rw [hlast, htimestamp]
      dsimp only
      rw [if_neg (by omega), if_pos hzero, Option.bind_eq_bind, Option.bind_some, hms,
        Option.bind_eq_bind, Option.bind_some, if_pos hlater, hgeneration]
    obtain ⟨opening, tail, heq, -, hopening⟩ := VLLMEventAdapter.batchEvents_ok hevents
    refine .inr ⟨hduplicate, ?_, .restart hprogress hzero hle ?_, true, hposts hopens ?_ hevents⟩
    · rw [hgeneration]
      intro hnil
      have hlength := congrArg String.length hnil
      simp at hlength
    · obtain ⟨hfalse, -⟩ | ⟨-, cleared, rfl, -⟩ := hopening
      · cases hfalse
      · rw [heq]
        exact List.cons_ne_nil _ _
    · exact iff_of_true rfl ⟨hzero, (hready _ hopens).opened rfl⟩
  | duplicate hlast hrestart hold =>
    obtain ⟨progress, hprogress, htime, happlied⟩ := h.progress hlast
    obtain ⟨hduplicate, hevents, -⟩ := has
    refine .inl ⟨hduplicate, hevents, ?_⟩
    rcases hfollows progress hprogress _ hlast with ⟨rfl, hfirst⟩ | ⟨hlt, hzero⟩ | hgap |
      ⟨hlt, -, hmem⟩
    · exact ⟨happlied _ hfirst hold, progress, hprogress, le_rfl⟩
    · exact absurd ⟨hzero, engines.later hlt htime htimestamp⟩ hrestart
    · omega
    · exact ⟨hmem, progress, hprogress, hlt.le⟩
  | gap => exact has.elim
  | next hlast hnext =>
    obtain ⟨progress, hprogress, -, -⟩ := h.progress hlast
    obtain ⟨hduplicate, hgeneration, hevents⟩ := has
    have hincarnation : incarnation = progress.incarnation := by
      rcases hfollows progress hprogress _ hlast with ⟨heq, -⟩ | ⟨-, hzero⟩ | hgap | ⟨-, hle, -⟩
      · exact heq
      · omega
      · omega
      · omega
    refine .inr ⟨hduplicate, ?_, .next hprogress hlast hnext hincarnation hgeneration, false,
      hposts ?_ ?_ hevents⟩
    · rw [hgeneration]
      exact h.named
    · unfold opens
      rw [hlast]
      dsimp only
      rw [if_pos hnext, hgeneration]
    · exact iff_of_false Bool.false_ne_true fun hopen => by omega

/-- What the posts of a fresh batch leave, if there are any: the index is in the generation of the
batch, and the record holds what was posted, or the batch was applied before. -/
theorem IncarnationInv.posted (h : IncarnationInv engines backendID s) {incarnation sequence : Nat}
    {prepared : PreparedBatch T} {restart : Bool}
    (hprepare : s.process.adapter.prepare sequence (engines.batch incarnation sequence) =
      .ok prepared)
    (hsequence : prepared.sequence = sequence) (hgeneration : prepared.generation ≠ "")
    (hposts : Posts engines s incarnation sequence prepared restart)
    {posted rest : List Event} (hevents : prepared.events = posted ++ rest) {now : Time}
    {index : Observed F} (hpost : s.index.postAll T now posted = some index) :
    posted = [] ∧ index = s.index ∨
      posted ≠ [] ∧ index.provider.generation backendID = prepared.generation ∧
        Kept engines backendID s.process.adapter.configuredGeneration
          (Function.update s.owner prepared.generation (some incarnation))
          (s.stored ++ (storedKeys posted).map (incarnation, ·)) index ∧
        (posted.Sublist index.taken ∨ (incarnation, sequence) ∈ s.applied) := by
  by_cases hnone : posted = []
  · subst hnone
    cases hpost
    exact .inl ⟨rfl, rfl⟩
  obtain rfl := h.backend
  obtain ⟨hready, hids, hcontains⟩ := hposts
  have hmem : ∀ event ∈ posted, event ∈ prepared.events := fun event hevent =>
    hevents ▸ List.mem_append_left rest hevent
  have hstamped := VLLMEventAdapter.prepare_stamped hprepare
  have hnonneg := VLLMEventAdapter.prepare_nonneg hprepare
  have hbatch : Observed.Batch T s.process.adapter.backendID prepared.generation sequence
      prepared.events := by
    refine ⟨⟨s.process.adapter, VLLMEventAdapter.headerOf prepared, rfl, rfl, hsequence, hnonneg,
      hstamped⟩, ?_⟩
    rw [hids]
    exact hready.distinct.map fun _ _ hsame => (engineEventID_inj hsame).2.2
  obtain ⟨howned, hcurrent⟩ :=
    postAll_owned (show (VLLMEventAdapter.headerOf prepared).generation ≠ "" from hgeneration)
      hnonneg h.kept.owned h.unnamed hready.free (fun event hevent => hstamped event (hmem event hevent))
      (Observed.postAll_provider hpost) hnone
  have hself : ∀ k, Function.update s.owner prepared.generation (some incarnation)
      (index.provider.generation s.process.adapter.backendID) = some k → k = incarnation := by
    intro k hk
    rw [show index.provider.generation s.process.adapter.backendID = prepared.generation from
      hcurrent, Function.update_self] at hk
    exact (Option.some.inj hk).symm
  have hnamed : index.provider.generation s.process.adapter.backendID = "" ∨
      ∃ k, Function.update s.owner prepared.generation (some incarnation)
        (index.provider.generation s.process.adapter.backendID) = some k := by
    rw [show index.provider.generation s.process.adapter.backendID = prepared.generation from
      hcurrent, Function.update_self]
    exact .inr ⟨incarnation, rfl⟩
  -- The current generation is the one of the incarnation if it is the one of the batch.
  have hturn : s.index.provider.generation s.process.adapter.backendID = prepared.generation →
      s.index.InTurn s.process.adapter.backendID
        (Contains engines s.process.adapter.backendID s.process.adapter.configuredGeneration
          incarnation prepared.generation) := by
    intro hsame
    rcases h.kept.named with hunnamed | ⟨k, hk⟩
    · exact absurd (hsame.symm.trans hunnamed) hgeneration
    · have hturn := h.kept.inTurn k hk
      rw [hsame] at hk hturn
      rcases hready.free with hfree | hfree
      · rw [hfree] at hk
        cases hk
      · rw [hfree] at hk
        cases hk
        exact hturn
  refine .inr ⟨hnone, hcurrent, ?_⟩
  by_cases hbehind : s.index.provider.generation s.process.adapter.backendID = prepared.generation ∧
      s.index.provider.hasSequence s.process.adapter.backendID = true ∧
      sequence < s.index.provider.lastSequence s.process.adapter.backendID
  · obtain ⟨hsame, hhas, hlast⟩ := hbehind
    obtain rfl := h.kept.sound.postAll_behind hbatch hgeneration hsame hhas hlast hmem hpost
    refine ⟨⟨howned, h.kept.sound, fun k hk => ?_, hnamed⟩, ?_⟩
    · rw [hself k hk]
      have hturn := hturn hsame
      rwa [← hsame] at hturn
    · rcases hready.notAhead hsame hhas with hle | happlied | hempty
      · omega
      · exact .inr happlied
      · rw [hempty, List.map_nil, List.map_eq_nil_iff, hevents] at hids
        exact absurd (List.append_eq_nil_iff.mp hids).1 hnone
  · obtain ⟨hsound, -, hsublist, hinTurn⟩ := h.kept.sound.postAll_batch hbatch hgeneration
      hready.untaken
      (fun hsame hhas => Nat.le_of_not_lt fun hlt => hbehind ⟨hsame, hhas, hlt⟩)
      (contains_contents engines _ _ incarnation _) hcontains hturn hevents hnone hpost
    refine ⟨⟨howned, hsound, fun k hk => ?_, hnamed⟩, .inl hsublist⟩
    rw [hself k hk]
    rwa [← show index.provider.generation s.process.adapter.backendID = prepared.generation from
      hcurrent] at hinTurn

omit [PyFloat T] in
/-- The incarnation of a fresh batch is not an earlier one. -/
theorem Fresh.incarnation_le {incarnation sequence : Nat} {prepared : PreparedBatch T}
    (h : Fresh s incarnation sequence prepared) {progress : Progress}
    (hprogress : s.progress = some progress) : progress.incarnation ≤ incarnation := by
  cases h with
  | first hnone =>
    rw [hnone] at hprogress
    cases hprogress
  | next hsome _ _ hincarnation =>
    rw [hsome] at hprogress
    cases hprogress
    exact hincarnation.ge
  | restart hsome _ hle =>
    rw [hsome] at hprogress
    cases hprogress
    exact hle

/-- The batches that are committed since the first one were applied. -/
theorem IncarnationInv.applied_after (h : IncarnationInv engines backendID s)
    {incarnation sequence : Nat} {prepared : PreparedBatch T}
    (hfresh : Fresh s incarnation sequence prepared) {applied : List (Nat × Nat)}
    (hself : (incarnation, sequence) ∈ applied) (hsub : s.applied ⊆ applied) :
    ∀ n, (Progress.after s.progress incarnation sequence).first ≤ n → n ≤ sequence →
      (incarnation, n) ∈ applied := by
  intro n hfirst hn
  unfold Progress.after at hfirst
  cases hfresh with
  | first hprogress =>
    rw [hprogress] at hfirst
    have hsame : n = sequence := le_antisymm hn hfirst
    rw [hsame]
    exact hself
  | @next progress last hprogress hlast hsequence hincarnation =>
    obtain ⟨⟨last', hlast', -, happlied⟩, -, -⟩ := h.committed progress hprogress
    rw [hlast] at hlast'
    cases hlast'
    rw [hprogress] at hfirst
    have hfirst : (if sequence = 0 then 0 else progress.first) ≤ n := hfirst
    rw [if_neg (by omega)] at hfirst
    by_cases hsame : n = sequence
    · rw [hsame]
      exact hself
    · rw [hincarnation]
      exact hsub (happlied n hfirst (by omega))
  | restart _ hsequence =>
    have hsame : n = sequence := by omega
    rw [hsame]
    exact hself

/-- After a commit the generation of the index is not of an earlier incarnation. -/
theorem IncarnationInv.current_after (h : IncarnationInv engines backendID s)
    {incarnation sequence : Nat} {prepared : PreparedBatch T} {restart : Bool}
    (hfresh : Fresh s incarnation sequence prepared)
    (hready : Ready engines s incarnation sequence prepared.generation restart)
    {index : Observed F} {kept : Prop}
    (hposted : prepared.events = [] ∧ index = s.index ∨
      prepared.events ≠ [] ∧ index.provider.generation backendID = prepared.generation ∧ kept) :
    ∀ k, ownedBy s.owner incarnation prepared.generation prepared.events
      (index.provider.generation backendID) = some k → incarnation ≤ k := by
  intro k hk
  unfold ownedBy at hk
  rcases hposted with ⟨hnone, rfl⟩ | ⟨hsome, hcurrent, -⟩
  · rw [if_pos hnone] at hk
    cases hfresh with
    | first hprogress hconfigured =>
      rcases (h.start hprogress).2.2.2 with hunnamed | hcurrent
      · rw [hunnamed, h.unnamed] at hk
        cases hk
      · rw [hcurrent, ← hconfigured] at hk
        rcases hready.free with hfree | hfree
        · rw [hfree] at hk
          cases hk
        · rw [hfree] at hk
          exact (Option.some.inj hk).le
    | @next progress _ hprogress _ _ hincarnation =>
      rw [hincarnation]
      exact (h.committed progress hprogress).current k hk
    | restart _ _ _ hevents => exact absurd hnone hevents
  · rw [if_neg hsome, hcurrent, Function.update_self] at hk
    exact (Option.some.inj hk).le

theorem IncarnationInv.deliver [Float64 F] [OrderedTimes T]
    (h : IncarnationInv engines backendID s) {generation : String} {incarnation sequence : Nat}
    {now : Time} (horder : InOrder engines s (.deliver incarnation sequence now))
    (hstep : (incarnations engines backendID generation).step s
      (.deliver incarnation sequence now) s') : IncarnationInv engines backendID s' := by
  obtain ⟨prepared, index, hprepare, hpost, rfl⟩ := next_deliver hstep
  obtain ⟨hsequence, htimestamp, ⟨hduplicate, hnone, happlied, progress, hprogress, hle⟩ |
    ⟨hduplicate, hgeneration, hfresh, restart, hposts⟩⟩ := h.arrives horder.1 horder.2 hprepare
  · -- A duplicate posts nothing and commits nothing.
    rw [hnone] at hpost
    cases hpost
    rw [if_pos hduplicate]
    refine ⟨h.backend, h.named, h.saved, h.unnamed, h.kept, ?_, ?_, ?_⟩
    · exact List.forall_mem_cons.mpr ⟨happlied, h.lossless⟩
    · intro hstart
      rw [show s.progress = none from hstart] at hprogress
      cases hprogress
    · intro progress' hprogress'
      obtain ⟨hlast, hcurrent, hdelivered⟩ := h.committed progress' hprogress'
      rw [show s.progress = some progress' from hprogress'] at hprogress
      cases hprogress
      exact ⟨hlast, hcurrent, List.forall_mem_cons.mpr ⟨hle, hdelivered⟩⟩
  · have hposted := h.posted hprepare hsequence hgeneration hposts (List.append_nil _).symm hpost
    -- The index has taken the batch, or it was applied before.
    have happlied : (incarnation, sequence) ∈
        (if prepared.events.Sublist index.taken then (incarnation, sequence) :: s.applied
          else s.applied) := by
      by_cases htaken : prepared.events.Sublist index.taken
      · rw [if_pos htaken]
        exact List.mem_cons_self
      · rw [if_neg htaken]
        rcases hposted with ⟨hnone, -⟩ | ⟨-, -, -, htaken' | hbefore⟩
        · exact absurd (hnone ▸ List.nil_sublist _) htaken
        · exact absurd htaken' htaken
        · exact hbefore
    have hsub : s.applied ⊆
        (if prepared.events.Sublist index.taken then (incarnation, sequence) :: s.applied
          else s.applied) := by
      split
      · exact List.subset_cons_self _ _
      · exact List.Subset.refl _
    have hcommit : (s.process.adapter.commit prepared s.process.file).1 =
        { s.process.adapter with
          generation := prepared.generation
          lastSequence := some prepared.sequence
          lastTimestamp := prepared.timestamp } := by
      unfold VLLMEventAdapter.commit
      rw [if_neg (by rw [hduplicate]; exact Bool.false_ne_true)]
    rw [if_neg (by rw [hduplicate]; exact Bool.false_ne_true)]
    have hsaved : (s.process.adapter.commit prepared s.process.file).1.Saved
        (s.process.adapter.commit prepared s.process.file).2 :=
      VLLMEventAdapter.load_commit h.saved
    refine ⟨?_, ?_, hsaved, ?_, ?_, ?_, nofun, ?_⟩
    · dsimp only
      rw [hcommit]
      exact h.backend
    · dsimp only
      rw [hcommit]
      exact hgeneration
    · dsimp only
      unfold ownedBy
      split
      · exact h.unnamed
      · rw [Function.update_of_ne hgeneration.symm]
        exact h.unnamed
    · dsimp only
      rw [hcommit]
      dsimp only
      unfold ownedBy
      rcases hposted with ⟨hnone, rfl⟩ | ⟨hsome, -, hkept, -⟩
      · rw [if_pos hnone, hnone, show storedKeys [] = [] from rfl, List.map_nil, List.append_nil]
        exact h.kept
      · rw [if_neg hsome]
        exact hkept
    · exact List.forall_mem_cons.mpr ⟨happlied, fun batch hbatch => hsub (h.lossless batch hbatch)⟩
    · intro progress' hprogress'
      cases hprogress'
      refine ⟨⟨sequence, ?_, ?_, ?_⟩, ?_, ?_⟩
      · dsimp only
        rw [hcommit, hsequence]
      · dsimp only
        rw [hcommit]
        exact htimestamp
      · exact h.applied_after hfresh happlied hsub
      · exact h.current_after hfresh hposts.ready hposted
      · refine List.forall_mem_cons.mpr ⟨le_rfl, fun batch hbatch => ?_⟩
        cases hprogress : s.progress with
        | none =>
          rw [(h.start hprogress).2.2.1] at hbatch
          cases hbatch
        | some progress =>
          exact ((h.committed progress hprogress).delivered batch hbatch).trans
            (hfresh.incarnation_le hprogress)

theorem IncarnationInv.fail [Float64 F] [OrderedTimes T] (h : IncarnationInv engines backendID s)
    {generation : String} {incarnation sequence : Nat} {now : Time} {posted : Nat}
    (horder : InOrder engines s (.fail incarnation sequence now posted))
    (hstep : (incarnations engines backendID generation).step s
      (.fail incarnation sequence now posted) s') : IncarnationInv engines backendID s' := by
  obtain ⟨prepared, index, hprepare, hpost, rfl⟩ := next_fail hstep
  obtain ⟨hsequence, -, ⟨-, hnone, -⟩ | ⟨-, hgeneration, hfresh, restart, hposts⟩⟩ :=
    h.arrives horder.1 horder.2 hprepare
  · rw [hnone, List.take_nil] at hpost ⊢
    cases hpost
    unfold ownedBy
    rw [if_pos rfl, show storedKeys [] = [] from rfl, List.map_nil, List.append_nil]
    exact h
  · rcases h.posted hprepare hsequence hgeneration hposts (List.take_append_drop posted _).symm
      hpost with ⟨hnone, rfl⟩ | ⟨hsome, hcurrent, hkept, -⟩
    · unfold ownedBy
      rw [hnone, if_pos rfl, show storedKeys [] = [] from rfl, List.map_nil, List.append_nil]
      exact h
    · unfold ownedBy
      rw [if_neg hsome]
      refine ⟨h.backend, h.named, h.saved, ?_, hkept, h.lossless, ?_, ?_⟩
      · dsimp only
        rw [Function.update_of_ne hgeneration.symm]
        exact h.unnamed
      · intro hprogress
        have hprogress : s.progress = none := hprogress
        obtain ⟨hlast, hconfigured, hdelivered, -⟩ := h.start hprogress
        refine ⟨hlast, hconfigured, hdelivered, .inr ?_⟩
        cases hfresh with
        | first _ hsame => exact hcurrent.trans hsame
        | next hsome => rw [hprogress] at hsome; cases hsome
        | restart hsome => rw [hprogress] at hsome; cases hsome
      · intro progress hprogress
        obtain ⟨hlast, -, hdelivered⟩ := h.committed progress hprogress
        refine ⟨hlast, fun k hk => ?_, hdelivered⟩
        dsimp only at hk
        rw [hcurrent, Function.update_self] at hk
        cases hk
        exact hfresh.incarnation_le hprogress

/-- Every run in order keeps the invariant. -/
theorem IncarnationInv.inductive_inv [Float64 F] [OrderedTimes T] {generation : String} :
    ((incarnations (F := F) engines backendID generation).restrict (InOrder engines)).Inductive
      (IncarnationInv engines backendID) where
  init s hs := by
    obtain ⟨hstart, ⟨max, ttl, lambda, hindex⟩, hprogress, howner, hstored, hdelivered,
      happlied⟩ := hs
    obtain ⟨hnames, hprocess⟩ := Process.start_ok hstart
    refine ⟨?_, ?_, ?_, ?_, ?_, ?_, ?_, ?_⟩
    · rw [hprocess]
      rfl
    · rw [hprocess]
      exact hnames.2
    · rw [hprocess]
      rfl
    · rw [howner]
    · rw [hindex]
      refine ⟨⟨⟨LinkedMap.empty_wf, Nat.zero_le _⟩, List.forall_mem_nil _⟩, ?_, ?_, .inl rfl⟩
      · exact ⟨⟨LinkedMap.empty_wf, Nat.zero_le _⟩, rfl, List.forall_mem_nil _,
          List.forall_mem_nil _, fun _ hmem => absurd hmem (Finset.notMem_empty _), fun _ => rfl⟩
      · intro incarnation hsome
        rw [howner] at hsome
        cases hsome
    · unfold NoLostBatch
      rw [hdelivered]
      exact List.forall_mem_nil _
    · intro _
      refine ⟨?_, ?_, hdelivered, .inl ?_⟩
      · rw [hprocess]
        rfl
      · rw [hprocess]
        rfl
      · rw [hindex]
        rfl
    · intro progress hsome
      rw [hprogress] at hsome
      cases hsome
  step s arrival s' h hstep := by
    obtain ⟨hstep, horder⟩ := hstep
    cases arrival with
    | deliver incarnation sequence now => exact h.deliver horder hstep
    | fail incarnation sequence now posted => exact h.fail horder hstep
    | restart =>
      have hsame : s.process.restart = s.process := by
        unfold Process.restart
        rw [h.saved]
      rw [← show _ = s' from Option.some.inj hstep, hsame]
      exact h

end Invariant

/-- **No evidence survives a dead engine and no batch vanishes**, in every run whose batches arrive
in order: the index holds what the events make that it took, and it took all those of every batch
that was delivered without an exception. -/
theorem no_evidence_survives [Float64 F] [OrderedTimes T] {engines : Engines T}
    {backendID generation : String} {s : IncarnationState T F}
    (hs : ((incarnations engines backendID generation).restrict (InOrder engines)).Reach s) :
    NoStaleKey backendID s ∧ NoLostBatch s ∧ Recorded s := by
  have hinductive : ((incarnations (F := F) engines backendID generation).restrict
      (InOrder engines)).Inductive (IncarnationInv engines backendID) :=
    IncarnationInv.inductive_inv
  have h := hinductive.reach hs
  refine ⟨fun incarnation sequence hdelivered key hkey => ?_, h.lossless, h.kept.sound.replayed⟩
  obtain ⟨⟨element, entry⟩, hfind⟩ := Option.isSome_iff_exists.mp hkey
  obtain ⟨hmem, hentry⟩ := h.kept.owned.indexed.wf.find_eq_some.mp hfind
  obtain ⟨key', k, hkey', howner, hstored⟩ :=
    h.kept.owned.entries entry (List.mem_map_of_mem (f := Prod.snd) hmem)
  have hsame : key = key' := backendKey_right_inj (hentry.symm.trans hkey')
  cases hprogress : s.progress with
  | none =>
    rw [(h.start hprogress).2.2.1] at hdelivered
    cases hdelivered
  | some progress =>
    obtain ⟨-, hcurrent, hearlier⟩ := h.committed progress hprogress
    rw [hsame]
    exact ⟨k, (hearlier _ hdelivered).trans (hcurrent k howner), hstored⟩

namespace IncarnationSample

attribute [local instance] PyFloat.wholeSeconds

local instance : Float64 Rat := .rational id

instance : OrderedTimes Nat where
  lt_asymm h := decide_eq_false fun hlt => Nat.lt_asymm (of_decide_eq_true h) hlt

/-- A batch that stores two blocks of 16 tokens. -/
def store (second block : Nat) : PyValue Nat :=
  .list
    [.float second,
      .list
        [.list [.str "BlockStored", .list [.int block, .int (block + 1)], .none, .list [], .int 16]]]

/-- The time and the first block of a batch. Two incarnations publish two batches each. -/
def published : Nat → Nat → Option (Nat × Nat)
  | 0, 0 => some (1, 70)
  | 0, 1 => some (2, 72)
  | 1, 0 => some (3, 80)
  | 1, 1 => some (4, 82)
  | _, _ => none

def batch (incarnation sequence : Nat) : PyValue Nat :=
  match published incarnation sequence with
  | some (second, block) => store second block
  | none => .none

theorem timestampOf_batch {incarnation sequence second : Nat}
    (h : timestampOf (batch incarnation sequence) = some second) :
    incarnation = 0 ∧ second ≤ 2 ∨ incarnation = 1 ∧ 3 ≤ second := by
  unfold batch published at h
  split at h
  · rename_i hpublished
    split at hpublished
    all_goals cases hpublished
    all_goals
      cases h
      decide
  · cases h

def engines : Engines Nat where
  batch
  later hij ht hu := by
    refine decide_eq_true ?_
    have := timestampOf_batch ht
    have := timestampOf_batch hu
    omega

def initial : IncarnationState Nat Rat where
  process := DeliverySample.started
  index := { provider := .new 100 300000000000 0, taken := [], left := [] }
  progress := none
  owner _ := none
  stored := []
  delivered := []
  applied := []

def runs : System (IncarnationState Nat Rat) Arrival := incarnations engines "backend" "pod-1"

theorem initial_init : runs.init initial :=
  ⟨rfl, ⟨_, _, _, rfl⟩, rfl, rfl, rfl, rfl, rfl⟩

/-- A step that is in order. -/
def inOrder (s : IncarnationState Nat Rat) (arrival : Arrival) :
    Option (IncarnationState Nat Rat) :=
  if InOrder engines s arrival then next engines s arrival else none

theorem inOrder_step {s s' : IncarnationState Nat Rat} {arrival : Arrival}
    (h : inOrder s arrival = some s') : (runs.restrict (InOrder engines)).step s arrival s' := by
  unfold inOrder at h
  split at h
  · rename_i horder
    exact ⟨h, horder⟩
  · cases h

/-- The engine dies after its first batch. The first batch of the next incarnation fails after the
clear and one block, the process starts again, and the batch is delivered with the one after it. -/
def redelivered : IncarnationState Nat Rat :=
  ([.deliver 0 0 0, .fail 1 0 0 2, .restart, .deliver 1 0 0, .deliver 1 1 0].foldlM inOrder
    initial).get (by decide +kernel)

theorem no_evidence_survives_restart :
    NoStaleKey "backend" redelivered ∧ NoLostBatch redelivered ∧ Recorded redelivered :=
  no_evidence_survives
    (.foldlM (fun _ _ _ => inOrder_step) _ (.init initial_init) (Option.some_get _).symm)

example : redelivered.delivered = [(1, 1), (1, 0), (0, 0)] ∧ redelivered.index.taken.length = 5 := by
  decide +kernel

/-- Two batches of the first incarnation arrive; then the engine dies, the first batch of the next
incarnation gets lost and its second one arrives. -/
def stale : IncarnationState Nat Rat :=
  ([.deliver 0 0 0, .deliver 0 1 0, .deliver 1 1 0].foldlM (next engines) initial).get
    (by decide +kernel)

/-- The second batch of the next incarnation is dropped as a duplicate of the second batch of the
first one, whose blocks the index keeps. -/
theorem evidence_survives_lost_restart :
    runs.Reach stale ∧ ¬ NoStaleKey "backend" stale ∧ ¬ NoLostBatch stale := by
  have hreach : runs.Reach stale :=
    .foldlM (fun _ _ _ h => h) _ (.init initial_init) (Option.some_get _).symm
  refine ⟨hreach, fun hkeys => ?_, fun hbatches => ?_⟩
  · have hdelivered : (1, 1) ∈ stale.delivered := by decide +kernel
    have hresident :
        (stale.index.provider.entries.find (backendKey "backend" "vllm:block:70")).isSome := by
      decide +kernel
    obtain ⟨later, hlater, hstored⟩ := hkeys 1 1 hdelivered "vllm:block:70" hresident
    have hearlier : ∀ key ∈ stale.stored, key.1 = 0 := by decide +kernel
    have := hearlier _ hstored
    omega
  · have happlied : (1, 1) ∉ stale.applied := by decide +kernel
    exact happlied (hbatches (1, 1) (by decide +kernel))

/-- The second batch fails half-posted before any commit, and a replay delivers the first one. -/
def overtaken : IncarnationState Nat Rat :=
  ([.fail 0 1 0 1, .restart, .deliver 0 0 0].foldlM (next engines) initial).get (by decide +kernel)

/-- The index is ahead of the first batch and drops its blocks, without an exception. -/
theorem overtaken_batch_lost : runs.Reach overtaken ∧ ¬ NoLostBatch overtaken ∧
    overtaken.index.provider.entries.find (backendKey "backend" "vllm:block:70") = none := by
  have hreach : runs.Reach overtaken :=
    .foldlM (fun _ _ _ h => h) _ (.init initial_init) (Option.some_get _).symm
  refine ⟨hreach, fun hbatches => ?_, by decide +kernel⟩
  have happlied : (0, 0) ∉ overtaken.applied := by decide +kernel
  exact happlied (hbatches (0, 0) (by decide +kernel))

end IncarnationSample

end Kavora.EngineEvents
