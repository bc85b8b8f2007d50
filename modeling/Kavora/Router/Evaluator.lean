import Kavora.Router.Controller

/-!
# Deciding without a request (`kvaware.go` and `Controller.Decide`)

`Decide` looks at the stored states only. It marks the fresh signals of snapshots that are over the
maximum age as stale and ranks the backends by one signal, which a backend without a usable value
of it is excluded from.

* `Controller.setState`: a snapshot comes in and replaces the one of its backend.
* `evaluate`: the ranking by one signal; `Evaluator.shadow` and `Evaluator.loadAware` are its two
  uses.
* `Controller.decideOn`: `Decide` on the states that it sees. `Controller.agedStates` are these
  states when no two snapshots share their signals.
-/

namespace Kavora.Router

open Lib Lib.Go BackendState
open Float64 (ofInt)

/-! ## Snapshots -/

section

variable {F : Type}

namespace Controller

/-- `SetState`; `quote` is `%q`. -/
def setState (quote : String → String) (c : Controller F) (snapshot : Snapshot F) :
    Except String (Controller F) :=
  match validate quote snapshot with
  | .error e => .error e
  | .ok () => .ok { c with states := c.states.insert snapshot.backendID snapshot }

/-- Every stored snapshot passed the validation. -/
def Validated (c : Controller F) : Prop :=
  ∀ id state, c.states.lookup id = some state → BackendState.Validated state

theorem setState_validated {quote : String → String} {c c' : Controller F} {snapshot : Snapshot F}
    (hc : c.Validated) (h : c.setState quote snapshot = .ok c') : c'.Validated := by
  unfold setState at h
  cases hvalid : validate quote snapshot with
  | error e =>
    rw [hvalid] at h
    cases h
  | ok u =>
    rw [hvalid] at h
    obtain rfl := Except.ok.inj h
    intro id state hlookup
    by_cases hid : id = snapshot.backendID
    · subst hid
      rw [AList.lookup_insert] at hlookup
      obtain rfl := Option.some.inj hlookup
      exact validate_ok hvalid
    · rw [AList.lookup_insert_ne hid] at hlookup
      exact hc id state hlookup

/-- The snapshot is over the maximum age, if there is one. -/
def OverAge (c : Controller F) (now : Time) (state : Snapshot F) : Prop :=
  c.maxStateAge > 0 ∧ now.sub (Time.unixMilli state.observedAtUnixMillis) > c.maxStateAge

instance (c : Controller F) (now : Time) (state : Snapshot F) : Decidable (c.OverAge now state) :=
  inferInstanceAs (Decidable (_ ∧ _))

end Controller

/-- A fresh signal becomes stale. -/
def markStale (signal : Signal F) : Signal F :=
  if signal.quality = .fresh then { signal with quality := .stale } else signal

namespace Controller

/-- A state whose signals are stale if it is too old. -/
def aged (c : Controller F) (now : Time) (state : Snapshot F) : Snapshot F :=
  if c.OverAge now state then { state with signals := state.signals.mapValues markStale } else state

/-- The states that `Decide` sees. -/
def agedStates (c : Controller F) (now : Time) : Map String (Snapshot F) :=
  c.states.mapValues (c.aged now)

end Controller

/-- The value of a signal that is not stale. -/
def usableValue (snapshot : Snapshot F) (name : String) : Option F :=
  match value snapshot name with
  | none => none
  | some v =>
    if (snapshot.signals.lookup name).map (·.quality) = some .stale then none else some v

end

/-! ## The evaluator -/

section Evaluate

variable {F : Type} [Float64 F]

/-- The zero value with an ID; `none` and `missing` stand for the empty texts of the cache source
and quality. -/
def Candidate.zero (backendID : String) : Candidate F :=
  { (Candidate.new backendID : Candidate F) with eligible := false, reason := "" }

/-- The candidate of one backend. -/
def evaluateOne (name : String) (score : F → F) (excluded reason : String) (id : String)
    (snapshot : Snapshot F) : Candidate F :=
  match usableValue snapshot name with
  | none => { (Candidate.zero id : Candidate F) with reason := excluded }
  | some v =>
    { (Candidate.zero id : Candidate F) with eligible := true, score := score v, reason }

/-- The candidates and the choice of `Shadow` and `LoadAware`. -/
def evaluate (sorting : SortSlice) (name : String) (score : F → F)
    (excluded reason chosen : String) (decision : Decision F) (states : Map String (Snapshot F)) :
    Decision F :=
  let candidates := sortCandidates sorting
    (states.entries.map fun entry => evaluateOne name score excluded reason entry.1 entry.2)
  let decision := { decision with candidates }
  match candidates with
  | [] => decision
  | candidate :: _ =>
    if candidate.reason = reason then
      { decision with selected := candidate.backendID, fallback := false, reason := chosen }
    else decision

namespace Evaluator

/-- `Shadow`: the backend with the greatest residency. -/
def shadow (sorting : SortSlice) (now : Time) (requestID tenantID : String)
    (states : Map String (Snapshot F)) : Decision F :=
  evaluate sorting "cold_free_perc" (fun score => ofInt 1 - score) "missing_or_stale_cold_free"
    "cold_free_inverse" "highest_kv_residency_score"
    { (Decision.zero : Decision F) with
      requestID
      tenantID
      mode := .shadow
      fallback := true
      reason := "no_usable_backend_state"
      occurredAt := now }
    states

/-- `LoadAware`: the backend with the shortest queue. -/
def loadAware (sorting : SortSlice) (now : Time) (requestID tenantID : String)
    (states : Map String (Snapshot F)) : Decision F :=
  evaluate sorting "queue_depth" (fun queueDepth => -queueDepth) "missing_or_stale_queue_depth"
    "queue_depth_inverse" "lowest_queue_depth"
    { (Decision.zero : Decision F) with
      requestID
      tenantID
      mode := .loadAware
      fallback := true
      reason := "no_usable_queue_state"
      occurredAt := now }
    states

end Evaluator

/-- `Decide` on the states that it sees; the evaluator reads the clock again. -/
def Controller.decideOn (sorting : SortSlice) (c : Controller F) (now clock : Time)
    (requestID tenantID : String) (states : Map String (Snapshot F)) : Decision F :=
  if c.mode = .static then
    { (Decision.zero : Decision F) with
      requestID
      tenantID
      policyVersion := "routing-v1"
      mode := c.mode
      stage := c.mode.text
      fallback := false
      reason := "static_round_robin"
      occurredAt := now }
  else
    let decision :=
      if c.mode = .loadAware then Evaluator.loadAware sorting clock requestID tenantID states
      else Evaluator.shadow sorting clock requestID tenantID states
    { decision with
      mode := c.mode
      stage := c.mode.text
      policyVersion := "routing-v1"
      enforced := c.mode.enforcing }

/-! ## Usable backends -/

/-- The decision finds the backend eligible. -/
def Decision.Usable (decision : Decision F) (backendID : String) : Prop :=
  ∃ candidate ∈ decision.candidates, candidate.backendID = backendID ∧ candidate.eligible = true

theorem evaluateOne_eq (name : String) (score : F → F) (excluded reason : String) (id : String)
    (snapshot : Snapshot F) :
    (evaluateOne name score excluded reason id snapshot).backendID = id ∧
      ((evaluateOne name score excluded reason id snapshot).eligible = true ↔
        (usableValue snapshot name).isSome = true) := by
  unfold evaluateOne
  cases usableValue snapshot name with
  | none => simp [Candidate.zero, Candidate.new]
  | some v => simp [Candidate.zero, Candidate.new]

theorem evaluate_candidates (sorting : SortSlice) (name : String) (score : F → F)
    (excluded reason chosen : String) (decision : Decision F) (states : Map String (Snapshot F)) :
    (evaluate sorting name score excluded reason chosen decision states).candidates =
      sortCandidates sorting
        (states.entries.map fun entry => evaluateOne name score excluded reason entry.1 entry.2) := by
  unfold evaluate
  dsimp only
  split
  · rename_i h
    rw [h]
  · rename_i h
    split
    · rw [h]
    · rw [h]

/-- The usable backends are those with a usable value of the signal. -/
theorem evaluate_usable_iff (sorting : SortSlice) {name : String} {score : F → F}
    {excluded reason chosen : String} {decision : Decision F} {states : Map String (Snapshot F)}
    {id : String} :
    (evaluate sorting name score excluded reason chosen decision states).Usable id ↔
      ∃ state, states.lookup id = some state ∧ (usableValue state name).isSome = true := by
  unfold Decision.Usable
  rw [evaluate_candidates]
  constructor
  · rintro ⟨candidate, hmem, hid, heligible⟩
    have hmem := (sorting.perm _ _).mem_iff.mp hmem
    obtain ⟨⟨key, state⟩, hentry, rfl⟩ := List.mem_map.mp hmem
    obtain ⟨hkey, hsome⟩ := evaluateOne_eq name score excluded reason key state
    refine ⟨state, ?_, hsome.mp heligible⟩
    rw [← hid, hkey]
    exact List.mem_dlookup states.nodupKeys hentry
  · rintro ⟨state, hlookup, hsome⟩
    obtain ⟨hkey, heligible⟩ := evaluateOne_eq name score excluded reason id state
    refine ⟨evaluateOne name score excluded reason id state, ?_, hkey, heligible.mpr hsome⟩
    refine (sorting.perm _ _).mem_iff.mpr (List.mem_map.mpr ⟨⟨id, state⟩, ?_, rfl⟩)
    exact List.of_mem_dlookup hlookup

omit [Float64 F] in
/-- A usable value of an aged snapshot is a fresh one of a snapshot inside the maximum age. -/
theorem usableValue_aged (c : Controller F) (now : Time) {state : Snapshot F}
    (hvalid : BackendState.Validated state) (name : String) :
    (usableValue (c.aged now state) name).isSome = true ↔
      ¬ c.OverAge now state ∧ ∃ signal, state.signals.lookup name = some signal ∧
        signal.quality = .fresh := by
  unfold usableValue value Controller.aged
  by_cases hage : c.OverAge now state
  · rw [if_pos hage]
    dsimp only
    rw [Map.lookup_mapValues]
    cases hlookup : state.signals.lookup name with
    | none => simp [hage]
    | some signal =>
      have hquality := (hvalid.signals name signal hlookup).quality
      simp only [Option.map_some]
      unfold markStale
      grind
  · rw [if_neg hage]
    cases hlookup : state.signals.lookup name with
    | none => simp
    | some signal =>
      have hquality := (hvalid.signals name signal hlookup).quality
      have hvalue := (hvalid.signals name signal hlookup).hasValue
      simp only [Option.map_some]
      grind

end Evaluate

end Kavora.Router
