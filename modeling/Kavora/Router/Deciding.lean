import Kavora.Lib.System
import Kavora.Router.UsableQueues

/-!
# Snapshots in memory (`Controller.snapshot` and `Controller.Decide`)

`snapshot()` copies the map of the states, but the signals of a snapshot are a map of their own,
which the copy shares with the stored snapshot. `Decide` turns the signals of old snapshots stale
in its copy, and so in the store.

* `StoredController`: the controller with its snapshots in memory; `StoredController.view` is the
  controller that they make up.
* `StoredController.decide`, `preferredIDs`, `plan`, `setState`: the calls.
* `StoredController.decide_keeps_iff`: when a call of `Decide` leaves the snapshots alone.
* `decide_reads_only`: the runs in which all do.
-/

namespace Kavora.Router

open Lib Lib.Go BackendState

/-! ## Memory -/

/-- A snapshot whose signals are at an address. -/
structure StoredSnapshot where
  schemaVersion : String
  backendID : String
  backend : String
  model : String
  instanceName : String
  modelGroup : String
  observedAtUnixMillis : Int
  signals : Nat
  snapshotHash : String

/-- The signal maps at their addresses. -/
abbrev Memory (F : Type) := Nat → Map String (Signal F)

section

variable {F : Type}

/-- A snapshot, with its signals from the memory. -/
def StoredSnapshot.load (memory : Memory F) (stored : StoredSnapshot) : Snapshot F where
  schemaVersion := stored.schemaVersion
  backendID := stored.backendID
  backend := stored.backend
  model := stored.model
  instanceName := stored.instanceName
  modelGroup := stored.modelGroup
  observedAtUnixMillis := stored.observedAtUnixMillis
  signals := memory stored.signals
  snapshotHash := stored.snapshotHash

/-- The snapshot with its signals at an address. -/
def StoredSnapshot.store (snapshot : Snapshot F) (address : Nat) : StoredSnapshot where
  schemaVersion := snapshot.schemaVersion
  backendID := snapshot.backendID
  backend := snapshot.backend
  model := snapshot.model
  instanceName := snapshot.instanceName
  modelGroup := snapshot.modelGroup
  observedAtUnixMillis := snapshot.observedAtUnixMillis
  signals := address
  snapshotHash := snapshot.snapshotHash

/-- A controller whose snapshots are in memory; the states of its settings are not used. -/
structure StoredController (F : Type) where
  settings : Controller F
  stored : Map String StoredSnapshot
  memory : Memory F

namespace StoredController

/-- The states that the memory holds. -/
def states (m : StoredController F) : Map String (Snapshot F) :=
  m.stored.mapValues (·.load m.memory)

/-- The controller, with the snapshots that it stores. -/
def view (m : StoredController F) : Controller F := { m.settings with states := m.states }

/-- The loop of `Decide` over the copied snapshots, which writes the signals that these share with
the stored ones. -/
def ageSignals (c : Controller F) (now : Time) : List StoredSnapshot → Memory F → Memory F
  | [], memory => memory
  | stored :: rest, memory =>
    if c.OverAge now (stored.load memory) then
      ageSignals c now rest
        (Function.update memory stored.signals ((memory stored.signals).mapValues markStale))
    else ageSignals c now rest memory

/-- The memory after that loop, over a copy of all snapshots. -/
def agedMemory (m : StoredController F) (now : Time) : Memory F :=
  ageSignals m.settings now (m.stored.entries.map (·.2)) m.memory

/-- `SetState` of a snapshot whose signals are at an address. -/
def setState (quote : String → String) (m : StoredController F) (snapshot : Snapshot F)
    (address : Nat) : StoredController F :=
  match validate quote snapshot with
  | .error _ => m
  | .ok () =>
    { m with
      stored := m.stored.insert snapshot.backendID (.store snapshot address)
      memory := Function.update m.memory address snapshot.signals }

variable [Float64 F]

/-- `Decide`: the snapshots share their signals with the stored ones. -/
def decide (sorting : SortSlice) (m : StoredController F) (now clock : Time)
    (requestID tenantID : String) : Decision F × StoredController F :=
  let memory := m.agedMemory now
  let states := m.stored.mapValues (·.load memory)
  (m.settings.decideOn sorting now clock requestID tenantID states, { m with memory })

/-- `PreferredIDs`. -/
def preferredIDs (sorting : SortSlice) (m : StoredController F) (now clock : Time)
    (requestID tenantID cacheKey : String) : List String × StoredController F :=
  let (decision, m) := m.decide sorting now clock requestID tenantID
  let (ids, settings) := m.settings.preferredIDsForDecision decision cacheKey
  (ids, { m with settings })

/-- `Plan`. -/
def plan (env : Externals F) (m : StoredController F) (now : Time) (clock : Nat → Time)
    (request : RoutingRequest F) (backends : List BackendDescriptor) :
    Decision F × StoredController F :=
  let (decision, c) := m.view.plan env now clock request backends
  (decision, { m with settings := { m.settings with cache := c.cache } })

end StoredController

end

/-! ## What a call writes -/

section

variable {F : Type}

theorem markStale_idem (signal : Signal F) : markStale (markStale signal) = markStale signal := by
  unfold markStale
  split
  · rfl
  · rfl

theorem markStale_eq_self {signal : Signal F} (h : signal.quality ≠ .fresh) :
    markStale signal = signal := if_neg h

theorem markStale_not_fresh (signal : Signal F) : (markStale signal).quality ≠ .fresh := by
  unfold markStale
  split
  · nofun
  · assumption

namespace StoredController

/-- The signals at an address become stale when one of the old snapshots has them, in whatever order
the snapshots are read. -/
theorem ageSignals_eq (c : Controller F) (now : Time) (snapshots : List StoredSnapshot)
    (memory : Memory F) (address : Nat) :
    ageSignals c now snapshots memory address =
      if ∃ stored ∈ snapshots, c.OverAge now (stored.load memory) ∧ stored.signals = address then
        (memory address).mapValues markStale
      else memory address := by
  induction snapshots generalizing memory with
  | nil => rw [ageSignals, if_neg fun ⟨_, hmem, _⟩ => absurd hmem List.not_mem_nil]
  | cons stored rest ih =>
    -- the age of a snapshot does not depend on the memory
    have hage : ∀ (memory' : Memory F) (other : StoredSnapshot),
        c.OverAge now (other.load memory') ↔ c.OverAge now (other.load memory) :=
      fun _ _ => Iff.rfl
    rw [ageSignals]
    by_cases hover : c.OverAge now (stored.load memory)
    · rw [if_pos hover, ih]
      simp only [hage]
      by_cases hsame : address = stored.signals
      · subst hsame
        have hhead : ∃ other ∈ stored :: rest,
            c.OverAge now (other.load memory) ∧ other.signals = stored.signals :=
          ⟨stored, List.mem_cons_self, hover, rfl⟩
        rw [Function.update_self, Map.mapValues_mapValues]
        simp only [markStale_idem, ite_self]
        exact (if_pos hhead).symm
      · rw [Function.update_of_ne hsame]
        have hrest : (∃ other ∈ stored :: rest,
            c.OverAge now (other.load memory) ∧ other.signals = address) ↔
            ∃ other ∈ rest, c.OverAge now (other.load memory) ∧ other.signals = address := by
          simp [Ne.symm hsame]
        simp only [hrest]
    · rw [if_neg hover, ih]
      have hrest : (∃ other ∈ stored :: rest,
          c.OverAge now (other.load memory) ∧ other.signals = address) ↔
          ∃ other ∈ rest, c.OverAge now (other.load memory) ∧ other.signals = address := by
        simp [hover]
      simp only [hrest]

/-- No snapshot over the maximum age has a fresh signal. -/
def NothingToAge (m : StoredController F) (now : Time) : Prop :=
  ∀ id stored, m.stored.lookup id = some stored → m.settings.OverAge now (stored.load m.memory) →
    ∀ name signal, (m.memory stored.signals).lookup name = some signal → signal.quality ≠ .fresh

variable {m : StoredController F} {now : Time}

theorem agedMemory_of_lookup {id : String} {stored : StoredSnapshot}
    (hstored : m.stored.lookup id = some stored)
    (hover : m.settings.OverAge now (stored.load m.memory)) :
    m.agedMemory now stored.signals = (m.memory stored.signals).mapValues markStale := by
  unfold agedMemory
  rw [ageSignals_eq, if_pos]
  exact ⟨stored, List.mem_map.mpr ⟨_, List.of_mem_dlookup hstored, rfl⟩, hover, rfl⟩

theorem agedMemory_eq_self (h : m.NothingToAge now) : m.agedMemory now = m.memory := by
  funext address
  unfold agedMemory
  rw [ageSignals_eq]
  split
  · rename_i hold
    obtain ⟨stored, hmem, hover, rfl⟩ := hold
    obtain ⟨entry, hentry, rfl⟩ := List.mem_map.mp hmem
    have hlookup := List.mem_dlookup m.stored.nodupKeys hentry
    rw [Map.mapValues_congr fun name signal hsignal =>
      markStale_eq_self (h _ _ hlookup hover name signal hsignal)]
    exact Map.mapValues_id _
  · rfl

/-- Snapshots that share no signals with others are aged one by one. -/
theorem loaded_eq_agedStates (m : StoredController F) (now : Time)
    (hown : ∀ id id' stored stored', m.stored.lookup id = some stored →
      m.stored.lookup id' = some stored' → stored.signals = stored'.signals → id = id') :
    m.stored.mapValues (·.load (m.agedMemory now)) = m.view.agedStates now := by
  show _ = (m.stored.mapValues fun stored => stored.load m.memory).mapValues (m.view.aged now)
  rw [Map.mapValues_mapValues]
  refine Map.mapValues_congr fun id stored hstored => ?_
  unfold Controller.aged
  by_cases hover : m.view.OverAge now (stored.load m.memory)
  · rw [if_pos hover]
    unfold StoredSnapshot.load
    rw [agedMemory_of_lookup hstored hover]
  · rw [if_neg hover]
    unfold StoredSnapshot.load agedMemory
    rw [ageSignals_eq, if_neg]
    rintro ⟨other, hmem, hover', hsame⟩
    obtain ⟨entry, hentry, rfl⟩ := List.mem_map.mp hmem
    have hother := List.mem_dlookup m.stored.nodupKeys hentry
    obtain rfl := hown _ _ _ _ hother hstored hsame
    obtain rfl := Option.some.inj (hother.symm.trans hstored)
    exact hover hover'

variable [Float64 F]

theorem decide_snd (h : m.NothingToAge now) (sorting : SortSlice) (clock : Time)
    (requestID tenantID : String) : (m.decide sorting now clock requestID tenantID).2 = m := by
  show { m with memory := m.agedMemory now } = m
  rw [agedMemory_eq_self h]

/-- A call of `Decide` leaves the snapshots alone exactly when there is nothing to age. -/
theorem decide_keeps_iff (sorting : SortSlice) (clock : Time) (requestID tenantID : String) :
    (m.decide sorting now clock requestID tenantID).2.states = m.states ↔ m.NothingToAge now := by
  constructor
  · intro h id stored hstored hover name signal hsignal hfresh
    have hlookup := congrArg (AList.lookup id) h
    unfold states at hlookup
    rw [Map.lookup_mapValues, Map.lookup_mapValues] at hlookup
    have hloaded : stored.load (m.agedMemory now) = stored.load m.memory := by
      have hmap : (m.stored.lookup id).map (·.load (m.agedMemory now)) =
          (m.stored.lookup id).map (·.load m.memory) := hlookup
      rw [hstored] at hmap
      exact Option.some.inj hmap
    have hsignals : m.agedMemory now stored.signals = m.memory stored.signals :=
      congrArg Snapshot.signals hloaded
    rw [agedMemory_of_lookup hstored hover] at hsignals
    have hstale := congrArg (AList.lookup name) hsignals
    rw [Map.lookup_mapValues, hsignal] at hstale
    have hsame : markStale signal = signal := Option.some.inj hstale
    exact markStale_not_fresh signal (hsame.symm ▸ hfresh)
  · intro h
    rw [decide_snd h]

end StoredController

end

/-! ## Runs -/

/-- The calls of a controller. -/
inductive Call (F : Type) where
  | setState (snapshot : Snapshot F) (address : Nat)
  | decide (now clock : Time) (requestID tenantID cacheKey : String)
  | preferredIDs (now clock : Time) (requestID tenantID cacheKey : String)
  | plan (now : Time) (clock : Nat → Time) (request : RoutingRequest F)
    (backends : List BackendDescriptor)

/-- The time at which a call ages the snapshots. -/
def Call.agesAt {F : Type} : Call F → Option Time
  | .decide now _ _ _ _ => some now
  | .preferredIDs now _ _ _ _ => some now
  | _ => none

/-- A controller and the snapshots as `SetState` left them. -/
structure StoredRun (F : Type) where
  controller : StoredController F
  left : Map String (Snapshot F)

namespace StoredRun

variable {F : Type} [Float64 F]

/-- The controller after a call. -/
def after (env : Externals F) (quote : String → String) (m : StoredController F) :
    Call F → StoredController F
  | .setState snapshot address => m.setState quote snapshot address
  | .decide now clock requestID tenantID _ =>
    (m.decide env.sorting now clock requestID tenantID).2
  | .preferredIDs now clock requestID tenantID cacheKey =>
    (m.preferredIDs env.sorting now clock requestID tenantID cacheKey).2
  | .plan now clock request backends => (m.plan env now clock request backends).2

/-- What `SetState` leaves. -/
def leave (quote : String → String) (left : Map String (Snapshot F)) :
    Call F → Map String (Snapshot F)
  | .setState snapshot _ =>
    match validate quote snapshot with
    | .error _ => left
    | .ok () => left.insert snapshot.backendID snapshot
  | _ => left

/-- The signals of a snapshot can be at an address: it is free, or they are there. -/
def Holds (m : StoredController F) (snapshot : Snapshot F) (address : Nat) : Prop :=
  ∀ id stored, m.stored.lookup id = some stored → stored.signals = address →
    m.memory address = snapshot.signals

/-- The runs of a controller, from any state of it. -/
def system (env : Externals F) (quote : String → String) : System (StoredRun F) (Call F) where
  init s := ∀ id, s.controller.states.lookup id = s.left.lookup id
  step s call s' :=
    (∀ snapshot address, call = .setState snapshot address → Holds s.controller snapshot address) ∧
      s' = { controller := after env quote s.controller call, left := leave quote s.left call }

/-- The call finds nothing to age. -/
def Keeps (s : StoredRun F) (call : Call F) : Prop :=
  ∀ now, call.agesAt = some now → s.controller.NothingToAge now

variable {env : Externals F} {quote : String → String}

omit [Float64 F] in
theorem setState_lookup {m : StoredController F} {left : Map String (Snapshot F)}
    {snapshot : Snapshot F} {address : Nat} (hholds : Holds m snapshot address)
    (h : ∀ id, m.states.lookup id = left.lookup id) (id : String) :
    (m.setState quote snapshot address).states.lookup id =
      (leave quote left (.setState snapshot address)).lookup id := by
  unfold StoredController.setState leave
  dsimp only
  cases validate quote snapshot with
  | error e => exact h id
  | ok u =>
    unfold StoredController.states at h ⊢
    dsimp only
    rw [Map.lookup_mapValues]
    by_cases hid : id = snapshot.backendID
    · subst hid
      rw [AList.lookup_insert, AList.lookup_insert, Option.map_some]
      unfold StoredSnapshot.load StoredSnapshot.store
      rw [Function.update_self]
    · rw [AList.lookup_insert_ne hid, AList.lookup_insert_ne hid, ← h, Map.lookup_mapValues]
      cases hstored : m.stored.lookup id with
      | none => rfl
      | some stored =>
        -- a snapshot at the same address has the same signals
        have hmemory : Function.update m.memory address snapshot.signals stored.signals =
            m.memory stored.signals := by
          by_cases hsame : stored.signals = address
          · rw [hsame, Function.update_self, hholds id stored hstored hsame]
          · rw [Function.update_of_ne hsame]
        rw [Option.map_some, Option.map_some]
        unfold StoredSnapshot.load
        rw [hmemory]

theorem step_keeps {s s' : StoredRun F} {call : Call F}
    (h : ∀ id, s.controller.states.lookup id = s.left.lookup id)
    (hstep : ((system env quote).restrict Keeps).step s call s') (id : String) :
    s'.controller.states.lookup id = s'.left.lookup id := by
  obtain ⟨⟨hholds, rfl⟩, hkeeps⟩ := hstep
  cases call with
  | setState snapshot address => exact setState_lookup (hholds snapshot address rfl) h id
  | decide now clock requestID tenantID cacheKey =>
    show ((s.controller.decide env.sorting now clock requestID tenantID).2).states.lookup id = _
    rw [StoredController.decide_snd (hkeeps now rfl)]
    exact h id
  | preferredIDs now clock requestID tenantID cacheKey =>
    have hmemory := StoredController.agedMemory_eq_self (hkeeps now rfl)
    show AList.lookup id (s.controller.stored.mapValues
      (·.load (s.controller.agedMemory now))) = _
    rw [hmemory]
    exact h id
  | plan now clock request backends => exact h id

/-- **In every run whose calls of `Decide` and `PreferredIDs` find nothing to age the stored
snapshots are those that `SetState` left**, and any number of such calls of `Decide` leaves the
controller as it is, so that later calls give the same. -/
theorem decide_reads_only {s : StoredRun F} (hs : ((system env quote).restrict Keeps).Reach s) :
    (∀ id, s.controller.states.lookup id = s.left.lookup id) ∧
      ∀ decides : List (Time × Time × String × String),
        (∀ call ∈ decides, s.controller.NothingToAge call.1) →
        decides.foldl
          (fun m call => (m.decide env.sorting call.1 call.2.1 call.2.2.1 call.2.2.2).2)
          s.controller = s.controller := by
  constructor
  · have hinv : ((system env quote).restrict Keeps).Inductive fun s =>
        ∀ id, s.controller.states.lookup id = s.left.lookup id :=
      { init := fun _ hinit => hinit
        step := fun _ _ _ h hstep => step_keeps h hstep }
    exact hinv.reach hs
  · intro decides hdecides
    induction decides with
    | nil => rfl
    | cons call decides ih =>
      rw [List.foldl_cons,
        StoredController.decide_snd (hdecides call List.mem_cons_self)]
      exact ih fun call hcall => hdecides call (List.mem_cons_of_mem _ hcall)

end StoredRun

namespace StoredSample

local instance : Float64 Rat := .rational fun _ => 1

open SelectionSample (env request now)
open QueueSample (snapshot)

/-- A controller with a maximum age of one second and the snapshot of one backend. -/
def run : StoredRun Rat where
  controller := StoredController.setState id
    { settings := QueueSample.empty, stored := ∅, memory := fun _ => ∅ } (snapshot .fresh) 0
  left := (∅ : Map String (Snapshot Rat)).insert "a" (snapshot .fresh)

def later : Time := Time.unixMilli 3000

/-- The controller after a call of `Decide` two seconds later. -/
def decided : StoredController Rat :=
  (run.controller.decide env.sorting later later "r1" "").2

theorem run_init : (StoredRun.system env id).init run := by
  have hempty : ∀ id, (StoredController.states
      { settings := QueueSample.empty, stored := ∅, memory := fun _ => ∅ }).lookup id =
        (∅ : Map String (Snapshot Rat)).lookup id := fun _ => rfl
  exact StoredRun.setState_lookup (fun _ _ hstored => nomatch hstored) hempty

theorem nothing_to_age : run.controller.NothingToAge now := by
  intro id stored hstored hover
  by_cases hid : id = "a"
  · subst hid
    obtain rfl : StoredSnapshot.store (snapshot .fresh) 0 = stored := Option.some.inj hstored
    exact absurd hover (by decide +kernel)
  · have hnone : run.controller.stored.lookup id = none := AList.lookup_insert_ne hid
    rw [hnone] at hstored
    cases hstored

theorem decide_reads_only_in_age :
    (run.controller.decide env.sorting now now "r1" "").2.states.lookup "a" =
      some (snapshot .fresh) := by
  have hreach : ((StoredRun.system env id).restrict StoredRun.Keeps).Reach
      { controller := (run.controller.decide env.sorting now now "r1" "").2, left := run.left } := by
    refine .step (i := .decide now now "r1" "" "") (.init run_init) ⟨⟨nofun, rfl⟩, ?_⟩
    rintro _ ⟨⟩
    exact nothing_to_age
  exact (StoredRun.decide_reads_only hreach).1 "a"

/-- The stored queue depth is stale afterwards, and the next plan no longer counts it. -/
theorem decide_writes :
    (StoredRun.system env id).Reach { controller := decided, left := run.left } ∧
    decided.states.lookup "a" ≠ run.left.lookup "a" ∧
    (run.controller.plan env later (fun _ => later) request [⟨"a", ∅⟩]).1.candidates.map
      (·.queueDepth) = [1] ∧
    (decided.plan env later (fun _ => later) request [⟨"a", ∅⟩]).1.candidates.map
      (·.queueDepth) = [0] := by
  refine ⟨.step (i := .decide later later "r1" "" "") (.init run_init) ⟨nofun, rfl⟩, fun h => ?_,
    by decide +kernel, by decide +kernel⟩
  have hquality := congrArg (fun state : Option (Snapshot Rat) =>
    (state.bind fun state => state.signals.lookup "queue_depth").map (·.quality)) h
  exact absurd hquality (by decide +kernel)

end StoredSample

end Kavora.Router
