import Kavora.EngineEvents.VLLM
import Kavora.Lib.Except

/-!
# What a prepared batch holds

* `VLLMEventAdapter.prepare_ok`: the ways in which `prepare` returns a batch.
* `VLLMEventAdapter.prepare_stamped`: every event of a batch comes from `event` with the batch's
  header, so they share the backend, the generation, the sequence and the time.
* `VLLMEventAdapter.load_commit`: a restart after a commit finds the committed adapter.
-/

namespace Kavora.EngineEvents

open Lib Lib.Go Router BackendState

variable {T : Type} [PyFloat T]

namespace VLLMEventAdapter

variable {a : VLLMEventAdapter T} {header : Header T}

/-- What the events of a batch share. -/
def headerOf (prepared : PreparedBatch T) : Header T where
  sequence := prepared.sequence
  generation := prepared.generation
  timestamp := prepared.timestamp

/-- An event of an adapter under a header. -/
def Stamped (a : VLLMEventAdapter T) (header : Header T) (event : Event) : Prop :=
  ∃ operation eventIndex key tokens,
    (operation = .store ∨ operation = .remove ∨ operation = .clear) ∧
      a.event header operation eventIndex key tokens = .ok event

theorem event_ok {operation : Operation} {eventIndex : Nat} {key : String} {tokens : Int}
    {event : Event} (h : a.event header operation eventIndex key tokens = .ok event) :
    ∃ observedAt, PyFloat.rfc3339 header.timestamp = some observedAt ∧
      event =
        { operation
          backendID := a.backendID
          cacheKey := key
          matchedTokens := tokens
          totalTokens := tokens
          sequence := header.sequence
          hasSequence := true
          generation := header.generation
          engineEventID := engineEventID header.generation header.sequence eventIndex
          observedAt
          quality := .fresh } := by
  unfold VLLMEventAdapter.event at h
  cases hprint : PyFloat.rfc3339 header.timestamp with
  | none => rw [hprint] at h; cases h
  | some observedAt => rw [hprint] at h; cases h; exact ⟨observedAt, rfl, rfl⟩

theorem blockEvents_stamped {operation : Operation} {eventIndex : Nat} {tokens : Int}
    (hop : operation = .store ∨ operation = .remove ∨ operation = .clear) :
    ∀ {blockIndex : Nat} {blockHashes : List (PyValue T)} {events : List Event},
      a.blockEvents header operation eventIndex tokens blockIndex blockHashes = .ok events →
      ∀ event ∈ events, a.Stamped header event := by
  intro blockIndex blockHashes
  induction blockHashes generalizing blockIndex with
  | nil =>
    intro events h event hevent
    cases h
    cases hevent
  | cons blockHash blockHashes ih =>
    intro events h event hevent
    obtain ⟨key, -, h⟩ := bind_ok h
    obtain ⟨first, hfirst, h⟩ := bind_ok h
    obtain ⟨rest, hrest, h⟩ := bind_ok h
    cases h
    rcases List.mem_cons.mp hevent with rfl | hevent
    · exact ⟨operation, _, key, tokens, hop, hfirst⟩
    · exact ih hrest event hevent

theorem engineEvent_stamped {eventIndex : Nat} {raw : PyValue T} {events : List Event}
    (h : a.engineEvent header eventIndex raw = .ok events) :
    ∀ event ∈ events, a.Stamped header event := by
  unfold engineEvent at h
  split at h
  · split at h
    · split at h
      · cases h
      · split at h
        · cases h
        · exact blockEvents_stamped (.inl rfl) h
    · cases h
  · split at h
    · exact blockEvents_stamped (.inr (.inl rfl)) h
    · cases h
  · obtain ⟨cleared, hcleared, h⟩ := bind_ok h
    cases h
    intro event hevent
    obtain rfl := List.mem_singleton.mp hevent
    exact ⟨.clear, _, "", 0, .inr (.inr rfl), hcleared⟩
  · cases h
  · cases h

theorem engineEvents_stamped :
    ∀ {eventIndex : Nat} {raws : List (PyValue T)} {events : List Event},
      a.engineEvents header eventIndex raws = .ok events →
      ∀ event ∈ events, a.Stamped header event := by
  intro eventIndex raws
  induction raws generalizing eventIndex with
  | nil =>
    intro events h event hevent
    cases h
    cases hevent
  | cons raw raws ih =>
    intro events h event hevent
    obtain ⟨first, hfirst, h⟩ := bind_ok h
    obtain ⟨rest, hrest, h⟩ := bind_ok h
    cases h
    rcases List.mem_append.mp hevent with hevent | hevent
    · exact engineEvent_stamped hfirst event hevent
    · exact ih hrest event hevent

/-- A batch is the opening clear of a restart and the events of the engine. -/
theorem batchEvents_ok {restart : Bool} {raws : List (PyValue T)} {events : List Event}
    (h : a.batchEvents header restart raws = .ok events) :
    ∃ opening rest, events = opening ++ rest ∧ a.engineEvents header 1 raws = .ok rest ∧
      (restart = false ∧ opening = [] ∨
        restart = true ∧ ∃ cleared, opening = [cleared] ∧
          a.event header .clear 0 "" 0 = .ok cleared) := by
  cases restart with
  | false =>
    have h : (a.engineEvents header 1 raws >>= fun rest => pure ([] ++ rest)) = .ok events := h
    obtain ⟨rest, hrest, h⟩ := bind_ok h
    cases h
    exact ⟨[], rest, rfl, hrest, .inl ⟨rfl, rfl⟩⟩
  | true =>
    have h : ((a.event header .clear 0 "" 0).map ([·]) >>= fun opening =>
        a.engineEvents header 1 raws >>= fun rest => pure (opening ++ rest)) = .ok events := h
    obtain ⟨opening, hopening, h⟩ := bind_ok h
    obtain ⟨rest, hrest, h⟩ := bind_ok h
    cases h
    cases hcleared : a.event header .clear 0 "" 0 with
    | error e => rw [hcleared] at hopening; cases hopening
    | ok cleared =>
      rw [hcleared] at hopening
      cases hopening
      exact ⟨[cleared], rest, rfl, hrest, .inr ⟨rfl, cleared, rfl, rfl⟩⟩

theorem batchEvents_stamped {restart : Bool} {raws : List (PyValue T)} {events : List Event}
    (h : a.batchEvents header restart raws = .ok events) :
    ∀ event ∈ events, a.Stamped header event := by
  obtain ⟨opening, rest, rfl, hrest, hopening⟩ := batchEvents_ok h
  intro event hevent
  rcases List.mem_append.mp hevent with hevent | hevent
  · obtain ⟨-, rfl⟩ | ⟨-, cleared, rfl, hcleared⟩ := hopening
    · cases hevent
    · obtain rfl := List.mem_singleton.mp hevent
      exact ⟨.clear, _, "", 0, .inr (.inr rfl), hcleared⟩
  · exact engineEvents_stamped hrest event hevent

/-! ## Inversion of `prepare` -/

/-- Where a batch stands after the last one that was committed. -/
inductive Stands (a : VLLMEventAdapter T) (sequence : Nat) (timestamp : T) : Position → Prop
  | first : a.lastSequence = none → Stands a sequence timestamp .next
  | restart {last : Nat} : a.lastSequence = some last → sequence = 0 →
    PyFloat.lt a.lastTimestamp timestamp = true → Stands a sequence timestamp .restart
  | duplicate {last : Nat} : a.lastSequence = some last →
    ¬ (sequence = 0 ∧ PyFloat.lt a.lastTimestamp timestamp = true) → sequence ≤ last →
    Stands a sequence timestamp .duplicate
  | gap {last : Nat} : a.lastSequence = some last → last + 1 < sequence →
    Stands a sequence timestamp (.gap (last + 1))
  | next {last : Nat} : a.lastSequence = some last → sequence = last + 1 →
    Stands a sequence timestamp .next

theorem position_stands (a : VLLMEventAdapter T) (sequence : Nat) (timestamp : T) :
    Stands a sequence timestamp (a.position sequence timestamp) := by
  unfold position
  cases hlast : a.lastSequence with
  | none => exact .first hlast
  | some last =>
    dsimp only
    by_cases hrestart : sequence = 0 ∧ PyFloat.lt a.lastTimestamp timestamp = true
    · rw [if_pos hrestart]
      exact .restart hlast hrestart.1 hrestart.2
    rw [if_neg hrestart]
    by_cases hold : sequence ≤ last
    · rw [if_pos hold]
      exact .duplicate hlast hrestart hold
    rw [if_neg hold]
    by_cases hnext : sequence = last + 1
    · rw [if_neg (not_not.mpr hnext)]
      exact .next hlast hnext
    · rw [if_pos hnext]
      exact .gap hlast (by omega)

/-- How a batch of a position is made of the engine's events. -/
def PreparedAs (a : VLLMEventAdapter T) (prepared : PreparedBatch T) (raws : List (PyValue T)) :
    Position → Prop
  | .duplicate =>
    prepared.duplicate = true ∧ prepared.events = [] ∧ prepared.generation = a.generation
  | .gap _ => False
  | .restart =>
    prepared.duplicate = false ∧
      (∃ ms, PyFloat.millis prepared.timestamp = some ms ∧
        prepared.generation = "auto-" ++ toString ms) ∧
      a.batchEvents (headerOf prepared) true raws = .ok prepared.events
  | .next =>
    prepared.duplicate = false ∧ prepared.generation = a.generation ∧
      a.batchEvents (headerOf prepared) false raws = .ok prepared.events

theorem prepare_ok {sequence : Int} {payload : PyValue T} {prepared : PreparedBatch T}
    (h : a.prepare sequence payload = .ok prepared) :
    ∃ first raws rest, payload = .list (first :: .list raws :: rest) ∧
      PyFloat.ofValue first = some prepared.timestamp ∧ sequence = prepared.sequence ∧
      prepared.sequence < 2 ^ 64 ∧ PyFloat.nonneg prepared.timestamp = true ∧
      a.PreparedAs prepared raws (a.position prepared.sequence prepared.timestamp) := by
  unfold prepare at h
  split at h
  · rename_i first raws rest
    refine ⟨first, raws, rest, rfl, ?_⟩
    cases hfirst : PyFloat.ofValue first with
    | none => rw [hfirst] at h; cases h
    | some timestamp =>
      simp only [hfirst] at h
      split at h
      · cases h
      · rename_i hvalid
        obtain ⟨⟨hlow, hhigh⟩, hnonneg⟩ : (0 ≤ sequence ∧ sequence < 2 ^ 64) ∧
            ¬ PyFloat.nonneg timestamp = false := by
          simpa only [not_or, Decidable.not_not] using hvalid
        have hseq : sequence = (sequence.toNat : Int) := (Int.toNat_of_nonneg hlow).symm
        have hbound : sequence.toNat < 2 ^ 64 := by omega
        simp only [Bool.not_eq_false] at hnonneg
        split at h
        · rename_i hpos
          cases h
          exact ⟨rfl, hseq, hbound, hnonneg, by simp [PreparedAs, hpos]⟩
        · cases h
        · rename_i hpos
          split at h
          · cases h
          · rename_i ms hms
            cases hevents : a.batchEvents
                { sequence := sequence.toNat, generation := "auto-" ++ toString ms, timestamp }
                true raws with
            | error e => rw [hevents] at h; cases h
            | ok events =>
              rw [hevents] at h
              cases h
              refine ⟨rfl, hseq, hbound, hnonneg, ?_⟩
              rw [hpos]
              exact ⟨rfl, ⟨ms, hms, rfl⟩, hevents⟩
        · rename_i hpos
          cases hevents : a.batchEvents
              { sequence := sequence.toNat, generation := a.generation, timestamp } false raws with
          | error e => rw [hevents] at h; cases h
          | ok events =>
            rw [hevents] at h
            cases h
            refine ⟨rfl, hseq, hbound, hnonneg, ?_⟩
            rw [hpos]
            exact ⟨rfl, rfl, hevents⟩
  · cases h

theorem prepare_stamped {sequence : Int} {payload : PyValue T} {prepared : PreparedBatch T}
    (h : a.prepare sequence payload = .ok prepared) :
    ∀ event ∈ prepared.events, a.Stamped (headerOf prepared) event := by
  obtain ⟨_, raws, _, -, -, -, -, -, has⟩ := prepare_ok h
  intro event hevent
  generalize a.position prepared.sequence prepared.timestamp = position at has
  cases position with
  | next => exact batchEvents_stamped has.2.2 event hevent
  | restart => exact batchEvents_stamped has.2.2 event hevent
  | duplicate => rw [has.2.1] at hevent; cases hevent
  | gap _ => exact has.elim

theorem prepare_nonneg {sequence : Int} {payload : PyValue T} {prepared : PreparedBatch T}
    (h : a.prepare sequence payload = .ok prepared) :
    PyFloat.nonneg prepared.timestamp = true := by
  obtain ⟨_, _, _, -, -, -, -, hnonneg, -⟩ := prepare_ok h
  exact hnonneg

/-! ## The checkpoint -/

/-- A restart from the file gives this adapter. -/
def Saved (a : VLLMEventAdapter T) (file : Option (Checkpoint T)) : Prop :=
  load a.backendID a.configuredGeneration file = a

theorem load_backendID {backendID configuredGeneration : String} {file : Option (Checkpoint T)} :
    (load backendID configuredGeneration file).backendID = backendID ∧
      (load backendID configuredGeneration file).configuredGeneration = configuredGeneration := by
  unfold load
  split
  · split
    · exact ⟨rfl, rfl⟩
    · exact ⟨rfl, rfl⟩
  · exact ⟨rfl, rfl⟩

theorem load_saved {backendID configuredGeneration : String} {file : Option (Checkpoint T)} :
    (load backendID configuredGeneration file).Saved file := by
  unfold Saved
  rw [load_backendID.1, load_backendID.2]

theorem load_commit {file : Option (Checkpoint T)} {prepared : PreparedBatch T} (h : a.Saved file) :
    (a.commit prepared file).1.Saved (a.commit prepared file).2 := by
  unfold commit
  split
  · exact h
  · simp [Saved, load]

end VLLMEventAdapter

end Kavora.EngineEvents
