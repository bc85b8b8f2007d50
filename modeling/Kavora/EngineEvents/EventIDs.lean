import Kavora.Router.CacheIndex
import Kavora.EngineEvents.Delivery

/-!
# The IDs of the events (`engine_event_id`)

An event's ID names the generation, the sequence and one number, `eventIndex * 1000000` plus the
index of the block. The IDs of two positions agree where two batches share the generation and the
sequence, and where the numbers of one event run into those of a later one.

* `emissions`: the runs of an adapter and an index, with any batches of all incarnations.
* `UniqueIDs`, `NothingDropped`: what the design promises of them.
* `NumbersApart`: the batches whose numbers meet no others.
* `uniqueIDs_iff_apart`: the IDs of a run are unique if and only if its numberings are apart.
-/

namespace Kavora.EngineEvents

open Lib Lib.Go Router BackendState

variable {T F : Type} [PyFloat T]

/-! ## Positions -/

/-- The position of an event: the block of an engine event in a batch of an incarnation. -/
structure Place where
  incarnation : Nat
  sequence : Nat
  eventIndex : Nat
  block : Nat
  deriving DecidableEq, Repr

/-- The blocks of an engine event. A clear has one event, as if of one block. -/
def blockCount : PyValue T → Nat
  | .list (.str "BlockStored" :: .list blockHashes :: _) => blockHashes.length
  | .list (.str "BlockRemoved" :: .list blockHashes :: _) => blockHashes.length
  | .list (.str "AllBlocksCleared" :: _) => 1
  | _ => 0

/-- An engine event with its number of blocks. -/
structure Span where
  eventIndex : Nat
  blocks : Nat

/-- The spans of some raw events, the first of which has a number. -/
def spansFrom : Nat → List (PyValue T) → List Span
  | _, [] => []
  | eventIndex, raw :: raws => ⟨eventIndex, blockCount raw⟩ :: spansFrom (eventIndex + 1) raws

/-- The spans of a batch; the clear of a restart comes before the engine's events. -/
def batchSpans (restart : Bool) (raws : List (PyValue T)) : List Span :=
  if restart then ⟨0, 1⟩ :: spansFrom 1 raws else spansFrom 1 raws

/-- What the IDs of a batch are made of. -/
structure Numbering where
  incarnation : Nat
  sequence : Nat
  generation : String
  spans : List Span

namespace Numbering

/-- The places of the blocks of a batch, in order. -/
def places (m : Numbering) : List Place :=
  m.spans.flatMap fun span =>
    (List.range span.blocks).map fun block =>
      { incarnation := m.incarnation, sequence := m.sequence, eventIndex := span.eventIndex, block }

/-- The ID of the event for a place. -/
def idAt (m : Numbering) (place : Place) : String :=
  VLLMEventAdapter.engineEventID m.generation m.sequence (place.eventIndex * 1000000 + place.block)

end Numbering

/-- The numbering of a batch at an adapter, if it is no duplicate. -/
def numberingOf (a : VLLMEventAdapter T) (incarnation sequence : Nat) (payload : PyValue T) :
    Option Numbering :=
  match payload with
  | .list (first :: .list raws :: _) =>
    (PyFloat.ofValue first).bind fun timestamp =>
      match a.position sequence timestamp with
      | .restart => (PyFloat.millis timestamp).map fun ms =>
        { incarnation, sequence, generation := "auto-" ++ toString ms
          spans := batchSpans true raws }
      | .next =>
        some { incarnation, sequence, generation := a.generation, spans := batchSpans false raws }
      | _ => none
  | _ => none

/-- The positions of the events of a batch. -/
def placesOf (numbering : Option Numbering) : List Place :=
  match numbering with
  | some m => m.places
  | none => []

/-! ## Runs -/

/-- An engine's adapter with the gateway that its events reach. -/
structure EmissionState (T F : Type) where
  process : Process T
  provider : KVEventProvider F
  /-- The batch in delivery with its events that are not posted yet. -/
  pending : Option (PreparedBatch T × List (Place × Event))
  /-- The numberings of the prepared batches. -/
  numberings : List Numbering
  /-- The events of the prepared batches with their positions. -/
  emitted : List (Place × Event)
  /-- The positions whose events were posted. -/
  posted : List Place

/-- The steps of `_deliver`, and the end of the process with the start of the next one. -/
inductive DeliveryStep where
  | prepare (incarnation sequence : Nat)
  | post (now : Time)
  | commit
  | restart

/-- The runs of an adapter and an index that knows no event of its backend. An engine has any
incarnations, and their batches arrive in any order and any number of times. -/
def emissions (batch : Nat → Nat → PyValue T) (backendID generation : String) :
    System (EmissionState T F) DeliveryStep where
  init s :=
    (∃ file, Process.start backendID generation file = .ok s.process) ∧
      (∀ eventID, backendKey backendID eventID ∉ s.provider.seenEvents) ∧ s.pending = none ∧
      s.numberings = [] ∧ s.emitted = [] ∧ s.posted = []
  step s label s' :=
    match label with
    | .prepare incarnation sequence => ∃ prepared,
      s.pending = none ∧
        s.process.adapter.prepare sequence (batch incarnation sequence) = .ok prepared ∧
        let numbering :=
          numberingOf s.process.adapter incarnation sequence (batch incarnation sequence)
        let events := (placesOf numbering).zip prepared.events
        s' =
          { s with
            pending := some (prepared, events)
            numberings := s.numberings ++ numbering.toList
            emitted := s.emitted ++ events }
    | .post now => ∃ prepared place event rest provider,
      s.pending = some (prepared, (place, event) :: rest) ∧
        post T s.provider now event = some provider ∧
        s' = { s with provider, pending := some (prepared, rest), posted := place :: s.posted }
    | .commit => ∃ prepared,
      s.pending = some (prepared, []) ∧
        let committed := s.process.adapter.commit prepared s.process.file
        s' =
          { s with process := { adapter := committed.1, file := committed.2 }, pending := none }
    | .restart => s' = { s with process := s.process.restart, pending := none }

/-- Events with one ID have one position. -/
def UniqueIDs (s : EmissionState T F) : Prop :=
  ∀ x ∈ s.emitted, ∀ y ∈ s.emitted, x.2.engineEventID = y.2.engineEventID → x.1 = y.1

/-- The index drops an event as seen only if the event of its position was posted. -/
def NothingDropped (s : EmissionState T F) : Prop :=
  ∀ x ∈ s.emitted, ∀ kvEvent, x.2.decode T = some kvEvent →
    kvEvent.eventKey ∈ s.provider.seenEvents → x.1 ∈ s.posted

/-! ## Numberings apart -/

/-- Two events have a number in common. -/
def Span.Meets (a b : Span) : Prop :=
  0 < a.blocks ∧ 0 < b.blocks ∧ a.eventIndex * 1000000 < b.eventIndex * 1000000 + b.blocks ∧
    b.eventIndex * 1000000 < a.eventIndex * 1000000 + a.blocks

/-- Two batches with one generation and one sequence have no number in common, but at an event
that is the same in both. -/
def Numbering.Apart (m m' : Numbering) : Prop :=
  m.generation = m'.generation → m.sequence = m'.sequence →
    ∀ a ∈ m.spans, ∀ b ∈ m'.spans,
      m.incarnation = m'.incarnation ∧ a.eventIndex = b.eventIndex ∨ ¬ a.Meets b

/-- A batch that is prepared is numbered apart from itself and from the earlier ones. -/
def NumbersApart (batch : Nat → Nat → PyValue T) (s : EmissionState T F) : DeliveryStep → Prop
  | .prepare incarnation sequence =>
    ∀ m ∈ numberingOf s.process.adapter incarnation sequence (batch incarnation sequence),
      m.Apart m ∧ ∀ m' ∈ s.numberings, m.Apart m'
  | _ => True

theorem Span.meets_iff {a b : Span} :
    a.Meets b ↔ ∃ i < a.blocks, ∃ j < b.blocks,
      a.eventIndex * 1000000 + i = b.eventIndex * 1000000 + j := by
  unfold Meets
  constructor
  · rintro ⟨ha, hb, hab, hba⟩
    -- The larger one of the first numbers is in both.
    rcases Nat.le_total (a.eventIndex * 1000000) (b.eventIndex * 1000000) with hle | hle
    · exact ⟨b.eventIndex * 1000000 - a.eventIndex * 1000000, by omega, 0, hb, by omega⟩
    · exact ⟨0, ha, a.eventIndex * 1000000 - b.eventIndex * 1000000, by omega, by omega⟩
  · rintro ⟨i, hi, j, hj, heq⟩
    omega

namespace Numbering

variable {m m' : Numbering} {place : Place}

theorem mem_places :
    place ∈ m.places ↔ place.incarnation = m.incarnation ∧ place.sequence = m.sequence ∧
      ∃ span ∈ m.spans, place.eventIndex = span.eventIndex ∧ place.block < span.blocks := by
  unfold places
  rw [List.mem_flatMap]
  constructor
  · rintro ⟨span, hspan, hplace⟩
    obtain ⟨block, hblock, rfl⟩ := List.mem_map.mp hplace
    exact ⟨rfl, rfl, span, hspan, rfl, List.mem_range.mp hblock⟩
  · rintro ⟨hincarnation, hsequence, span, hspan, heventIndex, hblock⟩
    refine ⟨span, hspan, List.mem_map.mpr ⟨place.block, List.mem_range.mpr hblock, ?_⟩⟩
    rw [← hincarnation, ← hsequence, ← heventIndex]

/-- Batches are apart if and only if their IDs tell their positions. -/
theorem apart_iff :
    m.Apart m' ↔ ∀ x ∈ m.places, ∀ y ∈ m'.places, m.idAt x = m'.idAt y → x = y := by
  constructor
  · intro h x hx y hy hid
    obtain ⟨hgeneration, hsequence, hnumber⟩ := engineEventID_inj hid
    obtain ⟨hxincarnation, hxsequence, a, ha, hxevent, hxblock⟩ := mem_places.mp hx
    obtain ⟨hyincarnation, hysequence, b, hb, hyevent, hyblock⟩ := mem_places.mp hy
    have hmeets : a.Meets b := by
      rw [hxevent, hyevent] at hnumber
      exact Span.meets_iff.mpr ⟨x.block, hxblock, y.block, hyblock, hnumber⟩
    obtain ⟨hincarnation, hevent⟩ :=
      (h hgeneration hsequence a ha b hb).resolve_right (not_not.mpr hmeets)
    have hevents : x.eventIndex = y.eventIndex := by rw [hxevent, hyevent, hevent]
    obtain ⟨xincarnation, xsequence, xevent, xblock⟩ := x
    obtain ⟨yincarnation, ysequence, yevent, yblock⟩ := y
    dsimp only at *
    rw [Place.mk.injEq]
    omega
  · intro h hgeneration hsequence a ha b hb
    refine or_iff_not_imp_right.mpr fun hmeets => ?_
    obtain ⟨i, hi, j, hj, hnumber⟩ := Span.meets_iff.mp (not_not.mp hmeets)
    have hsame := h ⟨m.incarnation, m.sequence, a.eventIndex, i⟩
      (mem_places.mpr ⟨rfl, rfl, a, ha, rfl, hi⟩)
      ⟨m'.incarnation, m'.sequence, b.eventIndex, j⟩ (mem_places.mpr ⟨rfl, rfl, b, hb, rfl, hj⟩)
      (by unfold idAt; rw [hgeneration, hsequence, hnumber])
    rw [Place.mk.injEq] at hsame
    exact ⟨hsame.1, hsame.2.2.1⟩

/-- Up to a million blocks the numbers of an event stop before those of the next one. -/
theorem apart_self (h : ∀ span ∈ m.spans, span.blocks ≤ 1000000) : m.Apart m := by
  intro _ _ a ha b hb
  refine or_iff_not_imp_right.mpr fun hmeets => ⟨rfl, ?_⟩
  obtain ⟨-, -, hab, hba⟩ := not_not.mp hmeets
  have := h a ha
  have := h b hb
  omega

theorem Apart.symm (h : m.Apart m') : m'.Apart m :=
  apart_iff.mpr fun x hx y hy hid => (apart_iff.mp h y hy x hx hid.symm).symm

end Numbering

/-! ## The IDs of a batch -/

section Batch

variable {a : VLLMEventAdapter T} {header : VLLMEventAdapter.Header T} {events : List Event}

/-- The IDs of an engine event. -/
def spanIDs (generation : String) (sequence : Nat) (span : Span) : List String :=
  (List.range span.blocks).map fun block =>
    VLLMEventAdapter.engineEventID generation sequence (span.eventIndex * 1000000 + block)

theorem blockEvents_ids {operation : Operation} {eventIndex : Nat} {tokens : Int} :
    ∀ {blockIndex : Nat} {blockHashes : List (PyValue T)} {events : List Event},
      a.blockEvents header operation eventIndex tokens blockIndex blockHashes = .ok events →
      events.map (·.engineEventID) =
        (List.range' blockIndex blockHashes.length).map fun block =>
          VLLMEventAdapter.engineEventID header.generation header.sequence
            (eventIndex * 1000000 + block) := by
  intro blockIndex blockHashes
  induction blockHashes generalizing blockIndex with
  | nil =>
    intro events h
    cases h
    rfl
  | cons blockHash blockHashes ih =>
    intro events h
    obtain ⟨key, -, h⟩ := bind_ok h
    obtain ⟨first, hfirst, h⟩ := bind_ok h
    obtain ⟨rest, hrest, h⟩ := bind_ok h
    cases h
    obtain ⟨_, -, rfl⟩ := VLLMEventAdapter.event_ok hfirst
    rw [List.length_cons, List.range'_succ, List.map_cons, List.map_cons, ih hrest]

theorem engineEvent_ids {eventIndex : Nat} {raw : PyValue T}
    (h : a.engineEvent header eventIndex raw = .ok events) :
    events.map (·.engineEventID) =
      spanIDs header.generation header.sequence ⟨eventIndex, blockCount raw⟩ := by
  unfold spanIDs
  rw [List.range_eq_range']
  unfold VLLMEventAdapter.engineEvent at h
  split at h
  · split at h
    · split at h
      · cases h
      · split at h
        · cases h
        · exact blockEvents_ids h
    · cases h
  · split at h
    · exact blockEvents_ids h
    · cases h
  · obtain ⟨cleared, hcleared, h⟩ := bind_ok h
    cases h
    obtain ⟨_, -, rfl⟩ := VLLMEventAdapter.event_ok hcleared
    simp only [blockCount, List.range'_one, List.map_cons, List.map_nil, Nat.add_zero]
  · cases h
  · cases h

theorem engineEvents_ids :
    ∀ {eventIndex : Nat} {raws : List (PyValue T)} {events : List Event},
      a.engineEvents header eventIndex raws = .ok events →
      events.map (·.engineEventID) =
        (spansFrom eventIndex raws).flatMap (spanIDs header.generation header.sequence) := by
  intro eventIndex raws
  induction raws generalizing eventIndex with
  | nil =>
    intro events h
    cases h
    rfl
  | cons raw raws ih =>
    intro events h
    obtain ⟨first, hfirst, h⟩ := bind_ok h
    obtain ⟨rest, hrest, h⟩ := bind_ok h
    cases h
    rw [List.map_append, engineEvent_ids hfirst, ih hrest]
    rfl

theorem batchEvents_ids {restart : Bool} {raws : List (PyValue T)}
    (h : a.batchEvents header restart raws = .ok events) :
    events.map (·.engineEventID) =
      (batchSpans restart raws).flatMap (spanIDs header.generation header.sequence) := by
  obtain ⟨opening, rest, rfl, hrest, ⟨rfl, rfl⟩ | ⟨rfl, cleared, rfl, hcleared⟩⟩ :=
    VLLMEventAdapter.batchEvents_ok h
  · exact engineEvents_ids hrest
  · obtain ⟨_, -, rfl⟩ := VLLMEventAdapter.event_ok hcleared
    rw [List.map_append, engineEvents_ids hrest]
    rfl

/-- The IDs of a numbering, position by position. -/
theorem Numbering.map_idAt (m : Numbering) :
    m.places.map m.idAt = m.spans.flatMap (spanIDs m.generation m.sequence) := by
  unfold Numbering.places
  rw [List.map_flatMap]
  refine List.flatMap_congr fun span _ => ?_
  rw [List.map_map]
  rfl

/-- The events of a prepared batch have the IDs of its positions. -/
theorem prepare_ids (incarnation : Nat) {sequence : Nat} {payload : PyValue T}
    {prepared : PreparedBatch T} (h : a.prepare sequence payload = .ok prepared) :
    prepared.events.map (·.engineEventID) =
      match numberingOf a incarnation sequence payload with
      | some m => m.places.map m.idAt
      | none => [] := by
  obtain ⟨first, raws, rest, rfl, htimestamp, hsequence, -, -, has⟩ :=
    VLLMEventAdapter.prepare_ok h
  have hsequence : sequence = prepared.sequence := Int.ofNat.inj hsequence
  unfold numberingOf
  rw [hsequence]
  dsimp only
  rw [htimestamp, Option.bind_some]
  generalize a.position prepared.sequence prepared.timestamp = position at has ⊢
  cases position with
  | next =>
    obtain ⟨-, hgeneration, hevents⟩ := has
    dsimp only
    rw [batchEvents_ids hevents, Numbering.map_idAt, ← hgeneration]
    rfl
  | restart =>
    obtain ⟨-, ⟨ms, hms, hgeneration⟩, hevents⟩ := has
    rw [hms]
    dsimp only [Option.map_some]
    rw [batchEvents_ids hevents, Numbering.map_idAt, ← hgeneration]
    rfl
  | duplicate =>
    rw [has.2.1]
    rfl
  | gap _ => exact has.elim

end Batch

/-! ## What every run keeps -/

/-- The positions of a batch with their IDs. -/
def Numbering.identified (m : Numbering) : List (Place × String) :=
  m.places.map fun place => (place, m.idAt place)

/-- The events of the prepared batches have the IDs of the numberings, and an ID that the index has
seen is of a posted one. -/
structure EmissionInv (backendID : String) (s : EmissionState T F) : Prop where
  backend : s.process.adapter.backendID = backendID
  identified : s.emitted.map (Prod.map id (·.engineEventID)) =
    s.numberings.flatMap Numbering.identified
  emitted : ∀ x ∈ s.emitted, x.2.backendID = backendID
  pending : ∀ batch ∈ s.pending, ∀ x ∈ batch.2, x ∈ s.emitted
  seen : ∀ eventID, backendKey backendID eventID ∈ s.provider.seenEvents →
    ∃ x ∈ s.emitted, x.2.engineEventID = eventID ∧ x.1 ∈ s.posted

section Invariant

variable {batch : Nat → Nat → PyValue T} {backendID generation : String}
  {s s' : EmissionState T F}

/-- The positions and the events of a prepared batch fit together. -/
theorem prepare_identified {a : VLLMEventAdapter T} {incarnation sequence : Nat}
    {payload : PyValue T} {prepared : PreparedBatch T}
    (h : a.prepare sequence payload = .ok prepared) :
    ((placesOf (numberingOf a incarnation sequence payload)).zip prepared.events).map
        (Prod.map id (·.engineEventID)) =
      (numberingOf a incarnation sequence payload).toList.flatMap Numbering.identified := by
  rw [← List.zip_map, List.map_id, prepare_ids incarnation h]
  cases numberingOf a incarnation sequence payload with
  | none => rfl
  | some m =>
    rw [Option.toList_some, List.flatMap_singleton]
    unfold Numbering.identified placesOf
    dsimp only
    rw [← List.zip_map', List.map_id']

theorem prepare_backendID {a : VLLMEventAdapter T} {sequence : Int} {payload : PyValue T}
    {prepared : PreparedBatch T} (h : a.prepare sequence payload = .ok prepared) :
    ∀ event ∈ prepared.events, event.backendID = a.backendID := by
  intro event hevent
  obtain ⟨_, _, _, _, -, hmade⟩ := VLLMEventAdapter.prepare_stamped h event hevent
  obtain ⟨_, -, rfl⟩ := VLLMEventAdapter.event_ok hmade
  rfl

theorem EmissionInv.prepare (h : EmissionInv backendID s) {incarnation sequence : Nat}
    (hstep : (emissions batch backendID generation).step s (.prepare incarnation sequence) s') :
    EmissionInv backendID s' := by
  obtain ⟨prepared, -, hprepare, rfl⟩ := hstep
  refine ⟨h.backend, ?_, ?_, ?_, ?_⟩
  · dsimp only
    rw [List.map_append, List.flatMap_append, h.identified, prepare_identified hprepare]
  · intro x hx
    rcases List.mem_append.mp hx with hx | hx
    · exact h.emitted x hx
    · exact (prepare_backendID hprepare _ (List.of_mem_zip hx).2).trans h.backend
  · intro pending hpending x hx
    cases hpending
    exact List.mem_append_right _ hx
  · intro eventID hseen
    obtain ⟨x, hx, hid, hposted⟩ := h.seen eventID hseen
    exact ⟨x, List.mem_append_left _ hx, hid, hposted⟩

theorem EmissionInv.post (h : EmissionInv backendID s) {now : Time}
    (hstep : (emissions batch backendID generation).step s (.post now) s') :
    EmissionInv backendID s' := by
  obtain ⟨prepared, place, event, rest, provider, hpending, hpost, rfl⟩ := hstep
  have hhead := h.pending _ hpending (place, event) List.mem_cons_self
  refine ⟨h.backend, h.identified, h.emitted, ?_, ?_⟩
  · intro pending hnext x hx
    cases hnext
    exact h.pending _ hpending x (List.mem_cons_of_mem _ hx)
  · intro eventID hseen
    obtain ⟨kvEvent, hdecode, -, rfl⟩ := post_ok hpost
    obtain ⟨_, -, -, rfl⟩ := decode_ok hdecode
    rcases Finset.mem_insert.mp (KVEventProvider.observe_seenEvents hseen) with hkey | hseen
    · refine ⟨_, hhead, ?_, List.mem_cons_self⟩
      have hkey : backendKey backendID eventID = backendKey event.backendID event.engineEventID :=
        hkey
      rw [h.emitted _ hhead] at hkey
      exact (backendKey_right_inj hkey).symm
    · obtain ⟨x, hx, hid, hposted⟩ := h.seen eventID hseen
      exact ⟨x, hx, hid, List.mem_cons_of_mem _ hposted⟩

theorem EmissionInv.inductive_inv :
    (emissions (F := F) batch backendID generation).Inductive (EmissionInv backendID) where
  init s hs := by
    obtain ⟨⟨file, hstart⟩, hseen, hpending, hnumberings, hemitted, -⟩ := hs
    refine ⟨?_, ?_, ?_, ?_, fun eventID hmem => absurd hmem (hseen eventID)⟩
    · rw [(Process.start_ok hstart).2]
      exact VLLMEventAdapter.load_backendID.1
    · rw [hemitted, hnumberings]
      rfl
    · rw [hemitted]
      exact List.forall_mem_nil _
    · rw [hpending]
      intro pending hmem
      cases hmem
  step s label s' h hstep := by
    cases label with
    | prepare incarnation sequence => exact h.prepare hstep
    | post now => exact h.post hstep
    | commit =>
      obtain ⟨prepared, -, rfl⟩ := hstep
      refine ⟨?_, h.identified, h.emitted, nofun, h.seen⟩
      rw [← h.backend]
      unfold VLLMEventAdapter.commit
      dsimp only
      split <;> rfl
    | restart =>
      obtain rfl := hstep
      refine ⟨?_, h.identified, h.emitted, nofun, h.seen⟩
      rw [← h.backend]
      exact VLLMEventAdapter.load_backendID.1

/-! ## Unique IDs -/

omit [PyFloat T] in
/-- The IDs of a run are unique if and only if its numberings are apart. -/
theorem uniqueIDs_iff_apart (h : EmissionInv backendID s) :
    UniqueIDs s ↔ ∀ m ∈ s.numberings, ∀ m' ∈ s.numberings, m.Apart m' := by
  have hsound : ∀ x ∈ s.emitted, ∃ m ∈ s.numberings, x.1 ∈ m.places ∧
      x.2.engineEventID = m.idAt x.1 := by
    intro x hx
    have hmem := List.mem_map_of_mem (f := Prod.map id (·.engineEventID)) hx
    rw [h.identified, List.mem_flatMap] at hmem
    obtain ⟨m, hm, hmem⟩ := hmem
    obtain ⟨place, hplace, heq⟩ := List.mem_map.mp hmem
    obtain ⟨hfirst, hsecond⟩ := Prod.mk.inj heq
    rw [show place = x.1 from hfirst] at hplace hsecond
    exact ⟨m, hm, hplace, hsecond.symm⟩
  have hcomplete : ∀ m ∈ s.numberings, ∀ place ∈ m.places,
      ∃ x ∈ s.emitted, x.1 = place ∧ x.2.engineEventID = m.idAt place := by
    intro m hm place hplace
    have hmem : (place, m.idAt place) ∈ s.numberings.flatMap Numbering.identified :=
      List.mem_flatMap.mpr ⟨m, hm, List.mem_map_of_mem hplace⟩
    rw [← h.identified] at hmem
    obtain ⟨x, hx, heq⟩ := List.mem_map.mp hmem
    obtain ⟨hfirst, hsecond⟩ := Prod.mk.inj heq
    exact ⟨x, hx, hfirst, hsecond⟩
  constructor
  · intro hunique m hm m' hm'
    refine Numbering.apart_iff.mpr fun place hplace place' hplace' hid => ?_
    obtain ⟨x, hx, rfl, hxid⟩ := hcomplete m hm place hplace
    obtain ⟨y, hy, rfl, hyid⟩ := hcomplete m' hm' place' hplace'
    exact hunique x hx y hy (by rw [hxid, hyid, hid])
  · intro hapart x hx y hy hid
    obtain ⟨m, hm, hxplace, hxid⟩ := hsound x hx
    obtain ⟨m', hm', hyplace, hyid⟩ := hsound y hy
    refine Numbering.apart_iff.mp (hapart m hm m' hm') _ hxplace _ hyplace ?_
    rw [← hxid, ← hyid, hid]

/-- Where the IDs are unique, the index drops no event of a position that was not posted. -/
theorem UniqueIDs.nothingDropped (h : EmissionInv backendID s) (hunique : UniqueIDs s) :
    NothingDropped s := by
  intro x hx kvEvent hdecode hseen
  obtain ⟨_, -, -, rfl⟩ := decode_ok hdecode
  have hseen : backendKey x.2.backendID x.2.engineEventID ∈ s.provider.seenEvents := hseen
  rw [h.emitted x hx] at hseen
  obtain ⟨y, hy, hid, hposted⟩ := h.seen _ hseen
  rw [hunique x hx y hy hid.symm]
  exact hposted

/-- A step keeps unique IDs if and only if its batch is numbered apart. -/
theorem uniqueIDs_step (h : EmissionInv backendID s) (hunique : UniqueIDs s)
    {label : DeliveryStep} (hstep : (emissions batch backendID generation).step s label s') :
    UniqueIDs s' ↔ NumbersApart batch s label := by
  cases label with
  | prepare incarnation sequence =>
    have hold := (uniqueIDs_iff_apart h).mp hunique
    rw [uniqueIDs_iff_apart (h.prepare hstep)]
    obtain ⟨prepared, -, -, rfl⟩ := hstep
    dsimp only [NumbersApart]
    cases numberingOf s.process.adapter incarnation sequence (batch incarnation sequence) with
    | none =>
      rw [Option.toList_none, List.append_nil]
      exact iff_of_true hold nofun
    | some m =>
      simp only [Option.toList_some, List.forall_mem_append, List.forall_mem_singleton,
        Option.mem_some_iff, forall_eq']
      constructor
      · rintro ⟨-, hnew⟩
        exact ⟨hnew.2, hnew.1⟩
      · rintro ⟨hself, hearlier⟩
        exact ⟨fun m' hm' => ⟨hold m' hm', (hearlier m' hm').symm⟩, hearlier, hself⟩
  | post now =>
    obtain ⟨_, _, _, _, _, -, -, rfl⟩ := hstep
    exact iff_of_true hunique trivial
  | commit =>
    obtain ⟨_, -, rfl⟩ := hstep
    exact iff_of_true hunique trivial
  | restart =>
    obtain rfl := hstep
    exact iff_of_true hunique trivial

end Invariant

/-- **Unique event IDs, exactly.** In a run whose batches are all numbered apart from themselves and
from the earlier ones, the IDs are unique and the index drops nothing new; and a batch that is not
breaks the uniqueness. -/
theorem event_ids_unique (batch : Nat → Nat → PyValue T) (backendID generation : String) :
    (∀ s : EmissionState T F,
      ((emissions batch backendID generation).restrict (NumbersApart batch)).Reach s →
        UniqueIDs s ∧ NothingDropped s) ∧
    ∀ (s : EmissionState T F) (label : DeliveryStep) (s' : EmissionState T F),
      (emissions batch backendID generation).Reach s → UniqueIDs s →
        (emissions batch backendID generation).step s label s' →
          (UniqueIDs s' ↔ NumbersApart batch s label) := by
  have hinv : (emissions (F := F) batch backendID generation).Inductive (EmissionInv backendID) :=
    EmissionInv.inductive_inv
  refine ⟨fun s hs => ?_, fun s label s' hs hunique hstep =>
    uniqueIDs_step (hinv.reach hs) hunique hstep⟩
  suffices h : EmissionInv backendID s ∧ UniqueIDs s from ⟨h.2, h.2.nothingDropped h.1⟩
  induction hs with
  | @init s hinit =>
    refine ⟨hinv.init s hinit, ?_⟩
    unfold UniqueIDs
    rw [hinit.2.2.2.2.1]
    intro x hx
    cases hx
  | @step s s' label _ hstep ih =>
    exact ⟨hinv.step s label s' ih.1 hstep.1,
      (uniqueIDs_step ih.1 ih.2 hstep.1).mpr hstep.2⟩

namespace EventIDSample

/-- Tenths of a millisecond; only times of the first ten milliseconds of 1970 print. -/
@[reducible]
def tenths : PyFloat Nat where
  zero := 0
  lt x y := x < y
  nonneg _ := true
  millis x := some (x / 10 : Nat)
  rfc3339 x := if x < 100 then some ("1970-01-01T00:00:00.00" ++ toString (x / 10) ++ "Z") else none
  ofValue
    | .float x => some x
    | _ => none
  toInt
    | .int n => some n
    | _ => none
  repr := PyFloat.wholeSeconds.repr
  parseTime text :=
    ((List.range 10).find? fun ms =>
      text = "1970-01-01T00:00:00.00" ++ toString ms ++ "Z").map fun (ms : Nat) => Time.unixMilli ms
  ofValue_float _ := rfl
  toInt_int _ := rfl
  parse_nonzero x text time _ _ hparse := by
    obtain ⟨ms, -, rfl⟩ := Option.map_eq_some_iff.mp hparse
    refine decide_eq_false fun hzero => ?_
    have hzero : (ms : Int) * 1000000 = -62135596800000000000 := hzero
    omega

attribute [local instance] tenths

/-- Three incarnations; the last two start at 5.1 and 5.2 milliseconds. -/
def batch : Nat → Nat → PyValue Nat
  | 0, 0 => .list [.float 10, .list []]
  | 1, 0 => .list [.float 51, .list []]
  | 2, 0 => .list [.float 52, .list []]
  | _, _ => .none

def initial : EmissionState Nat Rat where
  process := { adapter := .load "backend" "pod-1" none, file := none }
  provider := DeliverySample.empty
  pending := none
  numberings := []
  emitted := []
  posted := []

def run : System (EmissionState Nat Rat) DeliveryStep := emissions batch "backend" "pod-1"

theorem initial_init : run.init initial :=
  ⟨⟨none, rfl⟩, fun _ => Finset.notMem_empty _, rfl, rfl, rfl, rfl⟩

/-- The step of a label, where there is one. -/
def deliver (s : EmissionState Nat Rat) : DeliveryStep → Option (EmissionState Nat Rat)
  | .prepare incarnation sequence =>
    match s.pending, s.process.adapter.prepare sequence (batch incarnation sequence) with
    | none, .ok prepared =>
      let numbering :=
        numberingOf s.process.adapter incarnation sequence (batch incarnation sequence)
      let events := (placesOf numbering).zip prepared.events
      some
        { s with
          pending := some (prepared, events)
          numberings := s.numberings ++ numbering.toList
          emitted := s.emitted ++ events }
    | _, _ => none
  | .post now =>
    match s.pending with
    | some (prepared, (place, event) :: rest) =>
      (post Nat s.provider now event).map fun provider =>
        { s with provider, pending := some (prepared, rest), posted := place :: s.posted }
    | _ => none
  | .commit =>
    match s.pending with
    | some (prepared, []) =>
      let committed := s.process.adapter.commit prepared s.process.file
      some
        { s with process := { adapter := committed.1, file := committed.2 }, pending := none }
    | _ => none
  | .restart => some { s with process := s.process.restart, pending := none }

theorem deliver_step (s : EmissionState Nat Rat) (label : DeliveryStep)
    (s' : EmissionState Nat Rat) (h : deliver s label = some s') : run.step s label s' := by
  cases label with
  | prepare incarnation sequence =>
    unfold deliver at h
    dsimp only at h
    split at h
    · rename_i prepared hpending hprepare
      cases h
      exact ⟨prepared, hpending, hprepare, rfl⟩
    · cases h
  | post now =>
    unfold deliver at h
    dsimp only at h
    split at h
    · rename_i prepared place event rest hpending
      obtain ⟨provider, hpost, rfl⟩ := Option.map_eq_some_iff.mp h
      exact ⟨prepared, place, event, rest, provider, hpending, hpost, rfl⟩
    · cases h
  | commit =>
    unfold deliver at h
    dsimp only at h
    split at h
    · rename_i prepared hpending
      cases h
      exact ⟨prepared, hpending, rfl⟩
    · cases h
  | restart => exact (Option.some.inj h).symm

/-- Both restarts are delivered up to the post of the second clear. -/
def restarted : EmissionState Nat Rat :=
  ([.prepare 0 0, .commit, .prepare 1 0, .post 0, .commit, .prepare 2 0].foldlM deliver
    initial).get (by decide +kernel)

theorem restarted_reach : run.Reach restarted :=
  .foldlM deliver_step _ (.init initial_init) (Option.some_get _).symm

/-- Both restarts get the generation `auto-5` and their clears one ID, so the index drops the second
clear. -/
theorem restarts_share_ids :
    run.Reach restarted ∧ ¬ UniqueIDs restarted ∧ ¬ NothingDropped restarted := by
  refine ⟨restarted_reach, ?_, fun hnothing => ?_⟩
  · unfold UniqueIDs
    decide +kernel
  · have hdropped : ∃ x ∈ restarted.emitted, x.1 ∉ restarted.posted ∧
        ∃ kvEvent ∈ x.2.decode Nat, kvEvent.eventKey ∈ restarted.provider.seenEvents := by
      decide +kernel
    obtain ⟨x, hx, hposted, kvEvent, hdecode, hseen⟩ := hdropped
    exact hposted (hnothing x hx kvEvent hdecode hseen)

end EventIDSample

end Kavora.EngineEvents
