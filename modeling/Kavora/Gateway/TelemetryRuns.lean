import Mathlib.Algebra.BigOperators.Group.Multiset.Basic
import Mathlib.Tactic.Abel
import Mathlib.Tactic.IntervalCases
import Kavora.Gateway.ServeHTTP

/-!
# The telemetry of all requests

Requests run at once, and the updates of their telemetry interleave in any way.

* `serving`: the runs.
* `Balanced`: what the metrics and the audit log say while requests run.
* `Exact`: what they say when none runs.
* `telemetry_accounts`: both hold in every run.
-/

namespace Kavora.Gateway

open Lib Telemetry Pool

/-- No metrics and no audit. -/
def newSink : Sink := { metrics := newMetrics, audit := [] }

/-- Requests that act on one sink, in any interleaving. -/
def serving : System (Pool Visit.trace Sink) (Pool.Label Visit Effect) :=
  Pool.system Visit.trace Effect.apply newSink

/-! ## Requests that run -/

section

variable (p : Process Visit.trace)

/-- The request is counted as in flight. -/
def InFlight : Prop := .inflight 1 ∈ p.done ∧ .inflight (-1) ∉ p.done

/-- The request waits for a backend. -/
def Calling (id : String) : Prop := p.done.getLast? = some (.backend id "attempt")

/-- The request is counted and not yet observed. -/
def Observing (path outcome : String) : Prop :=
  .request path outcome ∈ p.done ∧ .bucket path outcome durationBuckets.length ∉ p.done

/-- The request has written its line. -/
def Logged : Prop := p.rest = []

instance : Decidable (InFlight p) := inferInstanceAs (Decidable (_ ∧ _))

instance (id : String) : Decidable (Calling p id) := inferInstanceAs (Decidable (_ = _))

instance (path outcome : String) : Decidable (Observing p path outcome) :=
  inferInstanceAs (Decidable (_ ∧ _))

instance : Decidable (Logged p) := inferInstanceAs (Decidable (_ = _))

end

/-- A duration is in a bucket. -/
def reaches (duration : Int) (index : Nat) : Bool :=
  match durationBuckets[index]? with
  | some bound => duration ≤ bound
  | none => true

/-- The request is counted under a path and an outcome. -/
def Visit.Counts (visit : Visit) (path outcome : String) : Prop :=
  visit.path = path ∧ visit.outcome = outcome

instance (visit : Visit) (path outcome : String) : Decidable (visit.Counts path outcome) :=
  inferInstanceAs (Decidable (_ ∧ _))

/-- The counter of a path with an outcome. -/
def requestCount (metrics : Metrics) (path outcome : String) : UInt64 :=
  metrics.requests.index (key path outcome) 0

/-- The counter of a backend with an outcome. -/
def backendCount (metrics : Metrics) (id outcome : String) : UInt64 :=
  metrics.backends.index (key id outcome) 0

/-- What the telemetry says of the requests, in the arithmetic of its counters. -/
structure Balanced (s : Pool Visit.trace Sink) : Prop where
  inflight : s.shared.metrics.inflight = .ofNat (s.live.countP fun p => InFlight p)
  attempts : ∀ id, backendCount s.shared.metrics id "attempt" =
    backendCount s.shared.metrics id "success" + backendCount s.shared.metrics id "failure" +
      .ofNat (s.live.countP fun p => Calling p id)
  observed : ∀ path outcome, '\x00' ∉ outcome.toList →
    requestCount s.shared.metrics path outcome =
      s.shared.metrics.bucket path outcome durationBuckets.length +
        .ofNat (s.live.countP fun p => Observing p path outcome)
  /-- As long as no bucket can have wrapped around. -/
  buckets : s.finished.length + s.live.length < 2 ^ 64 →
    ∀ path outcome, '\x00' ∉ outcome.toList → ∀ index < durationBuckets.length,
      (s.shared.metrics.bucket path outcome index).toNat ≤
        (s.shared.metrics.bucket path outcome (index + 1)).toNat +
          s.live.countP fun p => Observing p path outcome
  audit : s.shared.audit.Perm (s.finished.map Visit.auditEvent ++
    (s.live.filter fun p => Logged p).map fun p => p.program.auditEvent)

/-- What the telemetry says of the requests that are completed. The counters hold the numbers modulo
`2 ^ 64`, and the numbers themselves up to that. -/
structure Exact (s : Pool Visit.trace Sink) : Prop where
  inflight : s.shared.metrics.inflight = 0
  attempts : ∀ id, backendCount s.shared.metrics id "attempt" =
    backendCount s.shared.metrics id "success" + backendCount s.shared.metrics id "failure"
  requests : ∀ path outcome, '\x00' ∉ outcome.toList →
    requestCount s.shared.metrics path outcome =
      .ofNat (s.finished.countP fun visit => visit.Counts path outcome)
  buckets : ∀ path outcome, '\x00' ∉ outcome.toList → ∀ index ≤ durationBuckets.length,
    s.shared.metrics.bucket path outcome index =
      .ofNat (s.finished.countP fun visit =>
        visit.Counts path outcome ∧ reaches visit.duration index)
  audit : s.shared.audit.Perm (s.finished.map Visit.auditEvent)

/-! ## Updates of one request -/

theorem outcome_plain (visit : Visit) : '\x00' ∉ visit.outcome.toList := by
  unfold Visit.outcome
  split
  · decide
  · split <;> decide

theorem key_visit {visit : Visit} {path outcome : String} (h : '\x00' ∉ outcome.toList) :
    key path outcome = key visit.path visit.outcome ↔ visit.Counts path outcome := by
  constructor
  · intro heq
    obtain ⟨hpath, houtcome⟩ := key_injective h (outcome_plain visit) heq
    exact ⟨hpath.symm, houtcome.symm⟩
  · rintro ⟨rfl, rfl⟩
    rfl

/-- An update before the deferred function. -/
def Early (effect : Effect) : Prop :=
  (∃ decision, effect = .policy decision) ∨
    ∃ id outcome, effect = .backend id outcome ∧ outcome ∈ ["attempt", "success", "failure"]

theorem callBackends_early (attempts : String → Attempt) (candidates : List Backends.Backend)
    (actualBackend : String) : ∀ e ∈ (callBackends attempts candidates actualBackend).1, Early e := by
  induction candidates generalizing actualBackend with
  | nil => exact List.forall_mem_nil _
  | cons candidate candidates ih =>
    have hcall : ∀ outcome ∈ ["attempt", "success", "failure"],
        Early (.backend candidate.id outcome) :=
      fun outcome houtcome => .inr ⟨_, _, rfl, houtcome⟩
    rcases callBackends_cons attempts candidate candidates actualBackend with
      ⟨statusCode, -, -, heq⟩ | ⟨-, heq⟩
    · rw [heq]
      simp [hcall]
    · rw [heq]
      exact List.forall_mem_cons.mpr ⟨hcall "attempt" (by decide),
        List.forall_mem_cons.mpr ⟨hcall "failure" (by decide), ih candidate.id⟩⟩

/-- The updates before the deferred function: a decision of the policy and the calls of backends. -/
theorem handle_effects (visit : Visit) :
    ∃ policies calls, visit.handle.effects = policies ++ calls ∧
      (∀ e ∈ policies, ∃ decision, e = Effect.policy decision) ∧
      (calls = [] ∨ calls = (callBackends visit.attempts visit.candidates "").1) := by
  have hforward : ∀ failMode handled, ∃ calls, (visit.forward failMode handled).effects =
      handled.effects ++ calls ∧
      (calls = [] ∨ calls = (callBackends visit.attempts visit.candidates "").1) := by
    intro failMode handled
    unfold Visit.forward
    dsimp only
    split
    · exact ⟨[], (List.append_nil _).symm, .inl rfl⟩
    · split
      · exact ⟨[], (List.append_nil _).symm, .inl rfl⟩
      · split <;> exact ⟨_, rfl, .inr rfl⟩
  have hadmitted : ∀ failMode handled, handled.effects = [] → ∃ policies calls,
      (visit.admitted failMode handled).effects = policies ++ calls ∧
      (∀ e ∈ policies, ∃ decision, e = Effect.policy decision) ∧
      (calls = [] ∨ calls = (callBackends visit.attempts visit.candidates "").1) := by
    intro failMode handled hempty
    unfold Visit.admitted
    split
    · exact ⟨[], [], by simp [hempty], List.forall_mem_nil _, .inl rfl⟩
    · dsimp only
      cases hresult : visit.result with
      | none =>
        split
        · exact ⟨[], [], by simp [hempty], List.forall_mem_nil _, .inl rfl⟩
        · obtain ⟨calls, heffects, hcalls⟩ := hforward failMode { handled with isStream := _ }
          exact ⟨[], calls, by rw [heffects, hempty], List.forall_mem_nil _, hcalls⟩
      | some result =>
        have hpolicy : ∀ e ∈ [Effect.policy (decisionName result.decision)],
            ∃ decision, e = Effect.policy decision := by simp
        split
        · exact ⟨_, [], by simp [hempty], hpolicy, .inl rfl⟩
        · obtain ⟨calls, heffects, hcalls⟩ := hforward failMode
            { handled with
              isStream := _
              policyDecision := decisionName result.decision
              effects := handled.effects ++ [.policy (decisionName result.decision)] }
          exact ⟨_, calls, by rw [heffects, hempty]; rfl, hpolicy, hcalls⟩
  unfold Visit.handle
  dsimp only
  split
  · exact ⟨[], [], rfl, List.forall_mem_nil _, .inl rfl⟩
  split
  · exact ⟨[], [], rfl, List.forall_mem_nil _, .inl rfl⟩
  split
  · exact ⟨[], [], rfl, List.forall_mem_nil _, .inl rfl⟩
  · exact ⟨[], [], rfl, List.forall_mem_nil _, .inl rfl⟩
  · exact hadmitted _ _ rfl
  · exact hadmitted _ _ rfl

theorem handle_early (visit : Visit) : ∀ e ∈ visit.handle.effects, Early e := by
  obtain ⟨policies, calls, heffects, hpolicies, hcalls⟩ := handle_effects visit
  rw [heffects]
  refine List.forall_mem_append.mpr ⟨fun e he => .inl (hpolicies e he), ?_⟩
  rcases hcalls with rfl | rfl
  · exact List.forall_mem_nil _
  · exact callBackends_early _ _ _

/-! ## In flight -/

/-- What an effect adds to the gauge. -/
def inflightWeight : Effect → Int
  | .inflight delta => delta.toInt
  | _ => 0

theorem inflight_apply (e : Effect) (sink : Sink) :
    (e.apply sink).metrics.inflight.toUInt64 =
      sink.metrics.inflight.toUInt64 + uint64OfInt (inflightWeight e) := by
  cases e with
  | inflight delta =>
    show (sink.metrics.inflight + delta).toUInt64 = _
    rw [Int64.toUInt64_add, inflightWeight, uint64OfInt_toInt]
  | _ => exact (add_zero _).symm

theorem early_weight {weight : Effect → M} [Zero M] (hpolicy : ∀ d, weight (.policy d) = 0)
    (hbackend : ∀ id outcome, weight (.backend id outcome) = 0) {e : Effect} (h : Early e) :
    weight e = 0 := by
  rcases h with ⟨decision, rfl⟩ | ⟨id, outcome, rfl, -⟩
  · exact hpolicy _
  · exact hbackend _ _

/-- The updates of an observation. -/
theorem mem_bucketsFrom {path outcome : String} {duration : Int} {index : Nat} {bounds : List Int}
    {e : Effect} (h : e ∈ bucketsFrom path outcome duration index bounds) :
    ∃ index', e = .bucket path outcome index' := by
  induction bounds generalizing index with
  | nil => exact ⟨index, List.mem_singleton.mp h⟩
  | cons bound bounds ih =>
    unfold bucketsFrom at h
    split at h
    · rcases List.mem_cons.mp h with rfl | h
      · exact ⟨index, rfl⟩
      · exact ih h
    · exact ih h

theorem total_inflight (p : Process Visit.trace) :
    total inflightWeight p.done = if InFlight p then 1 else 0 := by
  have hpost : ∀ e ∈ Effect.request p.program.path p.program.outcome ::
      (observe p.program.path p.program.outcome p.program.duration ++
        [.audit p.program.auditEvent]), inflightWeight e = 0 := by
    refine List.forall_mem_cons.mpr ⟨rfl, List.forall_mem_append.mpr ⟨fun e he => ?_, by simp [inflightWeight]⟩⟩
    obtain ⟨index, rfl⟩ := mem_bucketsFrom he
    rfl
  have hmid : ∀ e ∈ p.program.handle.effects, inflightWeight e = 0 := fun e he =>
    early_weight (fun _ => rfl) (fun _ _ => rfl) (handle_early _ e he)
  exact total_bracket (List.forall_mem_nil _) hmid hpost rfl rfl p.done_prefix

/-! ## Calls of backends -/

/-- What an effect adds to the calls of a backend that have not ended. -/
def callWeight (id : String) : Effect → Int
  | .backend id' outcome =>
    (if key id "attempt" = key id' outcome then 1 else 0) -
      (if key id "success" = key id' outcome then 1 else 0) -
      if key id "failure" = key id' outcome then 1 else 0
  | _ => 0

/-- The calls of a backend that have not ended. -/
def calls (id : String) (sink : Sink) : UInt64 :=
  backendCount sink.metrics id "attempt" - backendCount sink.metrics id "success" -
    backendCount sink.metrics id "failure"

theorem calls_apply (id : String) (e : Effect) (sink : Sink) :
    calls id (e.apply sink) = calls id sink + uint64OfInt (callWeight id e) := by
  cases e with
  | backend id' outcome =>
    simp only [calls, callWeight, backendCount, Effect.apply, Metrics.incBackend, index_increment,
      map_sub, uint64OfInt_ite]
    abel
  | _ => exact (add_zero _).symm

theorem callWeight_backend (id id' : String) :
    callWeight id (.backend id' "attempt") = (if id = id' then 1 else 0) ∧
      callWeight id (.backend id' "success") = -(if id = id' then 1 else 0) ∧
      callWeight id (.backend id' "failure") = -(if id = id' then 1 else 0) := by
  have hplain : '\x00' ∉ "attempt".toList ∧ '\x00' ∉ "success".toList ∧
      '\x00' ∉ "failure".toList := by decide
  have hkey : ∀ {a b : String}, '\x00' ∉ a.toList → '\x00' ∉ b.toList →
      (key id a = key id' b ↔ id = id' ∧ a = b) := fun ha hb =>
    ⟨key_injective ha hb, fun h => by rw [h.1, h.2]⟩
  have hne : ("attempt" ≠ "success" ∧ "attempt" ≠ "failure") ∧ "success" ≠ "failure" := by decide
  simp [callWeight, hkey hplain.1 hplain.1, hkey hplain.2.1 hplain.1, hkey hplain.2.2 hplain.1,
    hkey hplain.1 hplain.2.1, hkey hplain.2.1 hplain.2.1, hkey hplain.2.2 hplain.2.1,
    hkey hplain.1 hplain.2.2, hkey hplain.2.1 hplain.2.2, hkey hplain.2.2 hplain.2.2]

/-- Every beginning of some updates accounts for the call that its last update makes. -/
def Tracks (id : String) (effects : List Effect) : Prop :=
  ∀ done, done <+: effects → total (callWeight id) done =
    if done.getLast? = some (.backend id "attempt") then 1 else 0

theorem Tracks.nil (id : String) : Tracks id [] := by
  intro done hdone
  rw [List.prefix_nil.mp hdone]
  rfl

theorem Tracks.plain {id : String} {e : Effect} {effects : List Effect} (h : Tracks id effects)
    (hweight : callWeight id e = 0) (hne : e ≠ .backend id "attempt") : Tracks id (e :: effects) := by
  intro done hdone
  cases done with
  | nil => rfl
  | cons e' done =>
    obtain ⟨rfl, hrest⟩ := List.cons_prefix_cons.mp hdone
    rw [total_cons, hweight, zero_add, h done hrest]
    cases done with
    | nil => simp [hne]
    | cons e'' done => rw [List.getLast?_cons_cons]

theorem Tracks.plain_append {id : String} {before effects : List Effect} (h : Tracks id effects)
    (hbefore : ∀ e ∈ before, callWeight id e = 0 ∧ e ≠ .backend id "attempt") :
    Tracks id (before ++ effects) := by
  induction before with
  | nil => exact h
  | cons e before ih =>
    obtain ⟨he, hrest⟩ := List.forall_mem_cons.mp hbefore
    exact (ih hrest).plain he.1 he.2

/-- A call and what comes of it. -/
theorem Tracks.call {id id' outcome : String} {effects : List Effect} (h : Tracks id effects)
    (houtcome : outcome = "success" ∨ outcome = "failure") :
    Tracks id (.backend id' "attempt" :: .backend id' outcome :: effects) := by
  have hweights := callWeight_backend id id'
  have hanswer : callWeight id (.backend id' outcome) = -(if id = id' then 1 else 0) := by
    rcases houtcome with rfl | rfl
    · exact hweights.2.1
    · exact hweights.2.2
  have hattempt : outcome ≠ "attempt" := by
    rcases houtcome with rfl | rfl <;> decide
  intro done hdone
  cases done with
  | nil => rfl
  | cons e done =>
    obtain ⟨rfl, hrest⟩ := List.cons_prefix_cons.mp hdone
    cases done with
    | nil => simp [hweights, eq_comm]
    | cons e done =>
      obtain ⟨rfl, hrest'⟩ := List.cons_prefix_cons.mp hrest
      rw [total_cons, total_cons, hweights.1, hanswer, h done hrest']
      cases done with
      | nil => simp [hattempt]
      | cons e' done =>
        rw [List.getLast?_cons_cons, List.getLast?_cons_cons, add_neg_cancel_left]

theorem Tracks.callBackends {id : String} {effects : List Effect} (h : Tracks id effects)
    (attempts : String → Attempt) (candidates : List Backends.Backend) (actualBackend : String) :
    Tracks id ((callBackends attempts candidates actualBackend).1 ++ effects) := by
  induction candidates generalizing actualBackend with
  | nil => exact h
  | cons candidate candidates ih =>
    rcases callBackends_cons attempts candidate candidates actualBackend with
      ⟨statusCode, -, -, heq⟩ | ⟨-, heq⟩
    · rw [heq]
      exact h.call (.inl rfl)
    · rw [heq]
      exact (ih candidate.id).call (.inr rfl)

theorem completed_calls (visit : Visit) (id : String) :
    ∀ e ∈ visit.completed, callWeight id e = 0 ∧ e ≠ .backend id "attempt" := by
  unfold Visit.completed
  simp only [List.mem_cons, List.mem_append, List.not_mem_nil, or_false]
  rintro e (rfl | rfl | he | rfl)
  · exact ⟨rfl, by simp⟩
  · exact ⟨rfl, by simp⟩
  · obtain ⟨index, rfl⟩ := mem_bucketsFrom he
    exact ⟨rfl, by simp⟩
  · exact ⟨rfl, by simp⟩

theorem tracks_trace (visit : Visit) (id : String) : Tracks id visit.trace := by
  have hcompleted : Tracks id (visit.completed ++ []) :=
    (Tracks.nil id).plain_append (completed_calls visit id)
  rw [List.append_nil] at hcompleted
  obtain ⟨policies, called, heffects, hpolicies, hcalls⟩ := handle_effects visit
  have hplain : ∀ e ∈ policies, callWeight id e = 0 ∧ e ≠ .backend id "attempt" := by
    intro e he
    obtain ⟨decision, rfl⟩ := hpolicies e he
    exact ⟨rfl, by simp⟩
  unfold Visit.trace
  rw [heffects, List.append_assoc]
  refine Tracks.plain (Tracks.plain_append ?_ hplain) rfl (by simp)
  rcases hcalls with rfl | rfl
  · exact hcompleted
  · exact hcompleted.callBackends _ _ _

theorem total_calls (p : Process Visit.trace) (id : String) :
    total (callWeight id) p.done = if Calling p id then 1 else 0 :=
  tracks_trace p.program id p.done p.done_prefix

/-! ## Observations -/

/-- The updates of a request up to its counter. -/
def counting (visit : Visit) : List Effect :=
  .inflight 1 :: (visit.handle.effects ++ [.inflight (-1)])

theorem trace_counting (visit : Visit) :
    visit.trace = counting visit ++ .request visit.path visit.outcome ::
      (observe visit.path visit.outcome visit.duration ++ [.audit visit.auditEvent]) := by
  simp [Visit.trace, counting, Visit.completed]

/-- The last update of an observation is that of the last bucket. -/
theorem bucketsFrom_split (path outcome : String) (duration : Int) (index : Nat)
    (bounds : List Int) : ∃ first, bucketsFrom path outcome duration index bounds =
      first ++ [.bucket path outcome (index + bounds.length)] ∧
      ∀ e ∈ first, ∃ index' < index + bounds.length, e = .bucket path outcome index' := by
  induction bounds generalizing index with
  | nil => exact ⟨[], rfl, List.forall_mem_nil _⟩
  | cons bound bounds ih =>
    obtain ⟨first, hsplit, hfirst⟩ := ih (index + 1)
    have hindex : index + 1 + bounds.length = index + (bounds.length + 1) := by omega
    rw [hindex] at hsplit hfirst
    rw [bucketsFrom, hsplit]
    split
    · refine ⟨.bucket path outcome index :: first, rfl, List.forall_mem_cons.mpr ⟨?_, hfirst⟩⟩
      exact ⟨index, by rw [List.length_cons]; omega, rfl⟩
    · exact ⟨first, rfl, hfirst⟩

section

variable (path outcome : String)

/-- What an effect adds to a counter of requests. -/
def requestWeight : Effect → Nat
  | .request path' outcome' => if key path outcome = key path' outcome' then 1 else 0
  | _ => 0

/-- What an effect adds to a bucket. -/
def bucketWeight (index : Nat) : Effect → Nat
  | .bucket path' outcome' index' =>
    if key path outcome = key path' outcome' ∧ index = index' then 1 else 0
  | _ => 0

theorem requestCount_apply (e : Effect) (sink : Sink) :
    requestCount (e.apply sink).metrics path outcome =
      requestCount sink.metrics path outcome + uint64OfNat (requestWeight path outcome e) := by
  cases e with
  | request path' outcome' =>
    rw [requestWeight, uint64OfNat_ite]
    exact index_increment ..
  | _ => exact (add_zero _).symm

theorem bucket_apply {index : Nat} (hindex : index ≤ durationBuckets.length) (e : Effect)
    (sink : Sink) : (e.apply sink).metrics.bucket path outcome index =
      sink.metrics.bucket path outcome index +
        uint64OfNat (bucketWeight path outcome index e) := by
  cases e with
  | bucket path' outcome' index' =>
    rw [bucketWeight, uint64OfNat_ite]
    exact Metrics.bucket_addBucket _ _ _ _ _ hindex _
  | _ => exact (add_zero _).symm

variable {path outcome}

theorem counting_weights (path outcome : String) (visit : Visit) : ∀ e ∈ counting visit,
    requestWeight path outcome e = 0 ∧ ∀ index, bucketWeight path outcome index e = 0 := by
  intro e he
  simp only [counting, List.mem_cons, List.mem_append, List.not_mem_nil, or_false] at he
  rcases he with rfl | he | rfl
  · exact ⟨rfl, fun _ => rfl⟩
  · have hearly := handle_early visit e he
    exact ⟨early_weight (fun _ => rfl) (fun _ _ => rfl) hearly,
      fun index => early_weight (fun _ => rfl) (fun _ _ => rfl) hearly⟩
  · exact ⟨rfl, fun _ => rfl⟩

theorem total_request (hplain : '\x00' ∉ outcome.toList) (visit : Visit) :
    total (requestWeight path outcome) visit.trace = if visit.Counts path outcome then 1 else 0 := by
  have hobserve : total (requestWeight path outcome)
      (observe visit.path visit.outcome visit.duration) = 0 := by
    refine total_eq_zero fun e he => ?_
    obtain ⟨index, rfl⟩ := mem_bucketsFrom he
    rfl
  rw [trace_counting, total_append, total_eq_zero fun e he => (counting_weights path outcome visit e he).1,
    total_cons, total_append, hobserve]
  simp only [requestWeight, key_visit hplain]
  simp [requestWeight]

theorem reaches_succ (duration : Int) {index : Nat} (hindex : index < durationBuckets.length)
    (h : reaches duration index = true) : reaches duration (index + 1) = true := by
  have hlength : durationBuckets.length = 10 := rfl
  rw [hlength] at hindex
  interval_cases index <;> simp [reaches, durationBuckets] at h ⊢ <;> omega

/-- The updates of an observation, from an index on. -/
theorem total_bucketsFrom (visit : Visit) (hplain : '\x00' ∉ outcome.toList) (index from' : Nat)
    (bounds : List Int) :
    total (bucketWeight path outcome index)
      (bucketsFrom visit.path visit.outcome visit.duration from' bounds) =
      if visit.Counts path outcome ∧ from' ≤ index ∧ index ≤ from' + bounds.length ∧
        (∀ bound ∈ bounds[index - from']?, visit.duration ≤ bound) then 1 else 0 := by
  induction bounds generalizing from' with
  | nil =>
    simp only [bucketsFrom, total_cons, total_nil, bucketWeight, key_visit hplain]
    grind
  | cons bound bounds ih =>
    have htotal : total (bucketWeight path outcome index)
        (bucketsFrom visit.path visit.outcome visit.duration from' (bound :: bounds)) =
        (if visit.Counts path outcome ∧ index = from' ∧ visit.duration ≤ bound then 1 else 0) +
          total (bucketWeight path outcome index)
            (bucketsFrom visit.path visit.outcome visit.duration (from' + 1) bounds) := by
      rw [bucketsFrom]
      split
      · rename_i hle
        simp [bucketWeight, key_visit hplain, hle]
      · rename_i hgt
        simp [hgt]
    rw [htotal, ih, List.length_cons]
    rcases Nat.lt_trichotomy index from' with hlt | rfl | hgt
    · rw [if_neg (by omega), if_neg (by omega), if_neg (by omega)]
    · rw [Nat.sub_self, List.getElem?_cons_zero, if_neg (c := _ ∧ index + 1 ≤ index ∧ _) (by omega)]
      simp
    · obtain ⟨n, rfl⟩ : ∃ n, index = from' + 1 + n := ⟨index - (from' + 1), by omega⟩
      have hfrom : from' + 1 + n - from' = n + 1 := by omega
      have hnext : from' + 1 + n - (from' + 1) = n := by omega
      rw [hfrom, hnext, List.getElem?_cons_succ, if_neg (by omega), Nat.zero_add]
      have hiff : (from' + 1 ≤ from' + 1 + n ∧ from' + 1 + n ≤ from' + 1 + bounds.length) ↔
          (from' ≤ from' + 1 + n ∧ from' + 1 + n ≤ from' + (bounds.length + 1)) := by omega
      grind

theorem total_observe (visit : Visit) (hplain : '\x00' ∉ outcome.toList) {index : Nat}
    (hindex : index ≤ durationBuckets.length) :
    total (bucketWeight path outcome index)
      (observe visit.path visit.outcome visit.duration) =
      if visit.Counts path outcome ∧ reaches visit.duration index then 1 else 0 := by
  have hreaches : (∀ bound ∈ durationBuckets[index]?, visit.duration ≤ bound) ↔
      reaches visit.duration index = true := by
    unfold reaches
    cases durationBuckets[index]? with
    | none => simp
    | some bound => simp
  rw [observe, total_bucketsFrom visit hplain, Nat.sub_zero]
  simp only [hreaches]
  simp [hindex]

theorem total_bucket (visit : Visit) (hplain : '\x00' ∉ outcome.toList) {index : Nat}
    (hindex : index ≤ durationBuckets.length) :
    total (bucketWeight path outcome index) visit.trace =
      if visit.Counts path outcome ∧ reaches visit.duration index then 1 else 0 := by
  rw [trace_counting, total_append, total_eq_zero fun e he => (counting_weights path outcome visit e he).2 index,
    total_cons, total_append, total_observe visit hplain hindex]
  simp [bucketWeight]

theorem total_prefix_le (weight : Effect → Nat) {done effects : List Effect}
    (h : done <+: effects) : total weight done ≤ total weight effects := by
  obtain ⟨rest, rfl⟩ := h
  rw [total_append]
  exact Nat.le_add_right _ _

/-- The bracket of an observation: the counter and the last bucket. -/
def observeWeight (path outcome : String) (e : Effect) : Int :=
  requestWeight path outcome e - bucketWeight path outcome durationBuckets.length e

theorem total_observing (hplain : '\x00' ∉ outcome.toList) (p : Process Visit.trace) :
    total (observeWeight path outcome) p.done = if Observing p path outcome then 1 else 0 := by
  have hprefix := p.done_prefix
  rw [trace_counting] at hprefix
  have hcounting : ∀ e ∈ counting p.program, observeWeight path outcome e = 0 := fun e he => by
    have hweights := counting_weights path outcome p.program e he
    simp [observeWeight, hweights]
  obtain ⟨first, hsplit, hfirst⟩ :=
    bucketsFrom_split p.program.path p.program.outcome p.program.duration 0 durationBuckets
  rw [Nat.zero_add] at hsplit hfirst
  rw [observe, hsplit, List.append_assoc, List.singleton_append] at hprefix
  by_cases hcounts : p.program.Counts path outcome
  · obtain ⟨rfl, rfl⟩ := hcounts
    refine total_bracket hcounting (fun e he => ?_) (by simp [observeWeight, requestWeight,
      bucketWeight]) (by simp [observeWeight, requestWeight, bucketWeight])
      (by simp [observeWeight, requestWeight, bucketWeight]) hprefix
    obtain ⟨index, hindex, rfl⟩ := hfirst e he
    simp [observeWeight, requestWeight, bucketWeight, Nat.ne_of_gt hindex]
  · have hkey : key path outcome ≠ key p.program.path p.program.outcome :=
      fun h => hcounts ((key_visit hplain).mp h)
    have hnone : ∀ e ∈ p.program.trace, observeWeight path outcome e = 0 ∧
        e ≠ .request path outcome := by
      intro e he
      rw [trace_counting] at he
      rcases List.mem_append.mp he with he | he
      · refine ⟨hcounting e he, ?_⟩
        rintro rfl
        have hweights := (counting_weights path outcome p.program _ he).1
        simp [requestWeight] at hweights
      · simp only [List.mem_cons, List.mem_append, List.not_mem_nil, or_false] at he
        rcases he with rfl | he | rfl
        · refine ⟨by simp [observeWeight, requestWeight, bucketWeight, hkey], ?_⟩
          intro heq
          cases heq
          exact hkey rfl
        · obtain ⟨index, rfl⟩ := mem_bucketsFrom he
          exact ⟨by simp [observeWeight, requestWeight, bucketWeight, hkey], by simp⟩
        · exact ⟨rfl, by simp⟩
    rw [if_neg fun h => (hnone _ (p.done_prefix.subset h.1)).2 rfl]
    exact total_prefix_zero (fun e he => (hnone e he).1) p.done_prefix

/-- An observation that has reached its last bucket is whole. -/
theorem observe_prefix {visit : Visit} {done more : List Effect} (hpath : visit.path = path)
    (houtcome : visit.outcome = outcome)
    (hdone : done = counting visit ++ .request visit.path visit.outcome :: more)
    (hlast : .bucket path outcome durationBuckets.length ∈ done)
    (hmore : more <+: observe visit.path visit.outcome visit.duration ++ [.audit visit.auditEvent]) :
    ∃ rest, more = observe visit.path visit.outcome visit.duration ++ rest ∧
      rest <+: [.audit visit.auditEvent] := by
  rcases prefix_append_cases hmore with hshort | ⟨rest, rfl, hrest⟩
  · obtain ⟨first, hsplit, hfirst⟩ :=
      bucketsFrom_split visit.path visit.outcome visit.duration 0 durationBuckets
    rw [Nat.zero_add] at hsplit hfirst
    have hmem : .bucket path outcome durationBuckets.length ∈ more := by
      rw [hdone] at hlast
      rcases List.mem_append.mp hlast with hmem | hmem
      · have hweight := (counting_weights path outcome visit _ hmem).2
          durationBuckets.length
        simp [bucketWeight] at hweight
      · rcases List.mem_cons.mp hmem with heq | hmem
        · cases heq
        · exact hmem
    refine ⟨[], ?_, List.nil_prefix⟩
    rw [List.append_nil]
    have hobserve : observe visit.path visit.outcome visit.duration = _ := hsplit
    rw [hobserve] at hshort ⊢
    rcases prefix_append_cases hshort with hshort | ⟨rest, rfl, hrest⟩
    · obtain ⟨index, hindex, heq⟩ := hfirst _ (hshort.subset hmem)
      cases heq
      omega
    · cases rest with
      | nil =>
        rw [List.append_nil] at hmem
        obtain ⟨index, hindex, heq⟩ := hfirst _ hmem
        cases heq
        omega
      | cons e rest =>
        obtain ⟨rfl, hnil⟩ := List.cons_prefix_cons.mp hrest
        rw [List.prefix_nil.mp hnil]
  · exact ⟨rest, rfl, hrest⟩

/-- A request adds to a bucket once at most. -/
theorem total_bucket_le_one (hplain : '\x00' ∉ outcome.toList) (p : Process Visit.trace)
    {index : Nat} (hindex : index ≤ durationBuckets.length) :
    total (bucketWeight path outcome index) p.done ≤ 1 := by
  refine Nat.le_trans (total_prefix_le _ p.done_prefix) ?_
  rw [total_bucket _ hplain hindex]
  split <;> omega

/-- A bucket may be ahead of the next one by the observations under way. -/
theorem total_bucket_le (hplain : '\x00' ∉ outcome.toList) (p : Process Visit.trace) {index : Nat}
    (hindex : index < durationBuckets.length) :
    total (bucketWeight path outcome index) p.done ≤
      total (bucketWeight path outcome (index + 1)) p.done +
        if Observing p path outcome then 1 else 0 := by
  have hone : total (bucketWeight path outcome index) p.done ≤ 1 :=
    total_bucket_le_one hplain p hindex.le
  by_cases hobserving : Observing p path outcome
  · rw [if_pos hobserving]
    omega
  · rw [if_neg hobserving, Nat.add_zero]
    have hprefix := p.done_prefix
    rw [trace_counting] at hprefix
    rcases prefix_append_cases hprefix with hshort | ⟨more, hdone, hmore⟩
    · rw [total_eq_zero fun e he => (counting_weights path outcome p.program e (hshort.subset he)).2 index]
      exact Nat.zero_le _
    · cases more with
      | nil =>
        rw [List.append_nil] at hdone
        rw [hdone, total_eq_zero fun e he => (counting_weights path outcome p.program e he).2 index]
        exact Nat.zero_le _
      | cons e more =>
        obtain ⟨rfl, hrest⟩ := List.cons_prefix_cons.mp hmore
        have htotal : ∀ index', total (bucketWeight path outcome index') p.done =
            total (bucketWeight path outcome index') more := fun index' => by
          rw [hdone, total_append,
            total_eq_zero fun e he => (counting_weights path outcome p.program e he).2 index', total_cons]
          simp [bucketWeight]
        rw [htotal, htotal]
        by_cases hcounts : p.program.Counts path outcome
        · obtain ⟨hpath, houtcome⟩ := hcounts
          have hrequest : Effect.request path outcome ∈ p.done := by
            rw [hdone, ← hpath, ← houtcome]
            simp
          have hlast : Effect.bucket path outcome durationBuckets.length ∈ p.done := by
            by_contra hnot
            exact hobserving ⟨hrequest, hnot⟩
          obtain ⟨rest, rfl, hrest'⟩ := observe_prefix hpath houtcome hdone hlast hrest
          have haudit : ∀ index', total (bucketWeight path outcome index') rest = 0 :=
            fun index' => total_eq_zero fun e he => by
              obtain rfl := List.mem_singleton.mp (hrest'.subset he)
              rfl
          rw [total_append, total_append, haudit, haudit, total_observe _ hplain (by omega),
            total_observe _ hplain (by omega)]
          have hnext := reaches_succ p.program.duration hindex
          split
          · rename_i hreaches
            rw [if_pos ⟨hreaches.1, hnext hreaches.2⟩]
          · exact Nat.zero_le _
        · have hzero := total_prefix_le (bucketWeight path outcome index) p.done_prefix
          rw [total_bucket _ hplain (by omega), if_neg fun h => hcounts h.1, htotal] at hzero
          omega

end

/-! ## The audit log -/

/-- The event that an effect adds to the audit. -/
def auditWeight : Effect → Multiset AuditEvent
  | .audit event => {event}
  | _ => 0

theorem audit_apply (e : Effect) (sink : Sink) :
    ((e.apply sink).audit : Multiset AuditEvent) = sink.audit + auditWeight e := by
  cases e with
  | audit event => exact (Multiset.coe_add sink.audit [event]).symm
  | _ => exact (add_zero _).symm

theorem total_audit (p : Process Visit.trace) :
    total auditWeight p.done = if Logged p then {p.program.auditEvent} else 0 := by
  have hplain : ∀ e ∈ counting p.program ++ .request p.program.path p.program.outcome ::
      observe p.program.path p.program.outcome p.program.duration, auditWeight e = 0 := by
    refine List.forall_mem_append.mpr ⟨fun e he => ?_, List.forall_mem_cons.mpr ⟨rfl, fun e he => ?_⟩⟩
    · simp only [counting, List.mem_cons, List.mem_append, List.not_mem_nil, or_false] at he
      rcases he with rfl | he | rfl
      · rfl
      · exact early_weight (fun _ => rfl) (fun _ _ => rfl) (handle_early _ e he)
      · rfl
    · obtain ⟨index, rfl⟩ := mem_bucketsFrom he
      rfl
  have htrace : p.program.trace = (counting p.program ++
      .request p.program.path p.program.outcome ::
        observe p.program.path p.program.outcome p.program.duration) ++
      [.audit p.program.auditEvent] := by
    rw [trace_counting, List.append_assoc, List.cons_append]
  by_cases hlogged : Logged p
  · rw [if_pos hlogged, Process.done_eq hlogged, htrace, total_append, total_eq_zero hplain]
    simp [auditWeight]
  · rw [if_neg hlogged]
    have hprefix := p.done_prefix
    rw [htrace] at hprefix
    rcases prefix_append_cases hprefix with hshort | ⟨more, hdone, hmore⟩
    · exact total_eq_zero fun e he => hplain e (hshort.subset he)
    · cases more with
      | nil =>
        rw [List.append_nil] at hdone
        rw [hdone]
        exact total_eq_zero hplain
      | cons e more =>
        obtain ⟨rfl, hnil⟩ := List.cons_prefix_cons.mp hmore
        have hsplit := p.split
        rw [hdone, List.prefix_nil.mp hnil, htrace] at hsplit
        exact absurd (List.append_right_eq_self.mp hsplit) hlogged

theorem sum_singletons {α β : Type} (f : α → β) (l : List α) :
    (l.map fun a => ({f a} : Multiset β)).sum = (l.map f : List β) := by
  induction l with
  | nil => rfl
  | cons a l ih =>
    rw [List.map_cons, List.sum_cons, ih, List.map_cons]
    rfl

theorem sum_filtered {α β : Type} (keep : α → Prop) [DecidablePred keep] (f : α → β) (l : List α) :
    (l.map fun a => if keep a then ({f a} : Multiset β) else 0).sum =
      ((l.filter fun a => keep a).map f : List β) := by
  induction l with
  | nil => rfl
  | cons a l ih =>
    rw [List.map_cons, List.sum_cons, ih]
    by_cases h : keep a
    · rw [if_pos h, List.filter_cons_of_pos (by simpa using h)]
      rfl
    · rw [if_neg h, List.filter_cons_of_neg (by simpa using h), zero_add]

theorem sum_counts {α : Type} (p : α → Prop) [DecidablePred p] (l : List α) :
    (l.map fun a => if p a then 1 else 0).sum = l.countP fun a => p a := by
  induction l with
  | nil => rfl
  | cons a l ih =>
    rw [List.map_cons, List.sum_cons, ih, List.countP_cons, Nat.add_comm]
    by_cases h : p a <;> simp [h]

/-! ## Runs -/

theorem trace_last (visit : Visit) : visit.trace.getLast? = some (.audit visit.auditEvent) := by
  have hlast : visit.trace = (counting visit ++ .request visit.path visit.outcome ::
      observe visit.path visit.outcome visit.duration) ++ [.audit visit.auditEvent] := by
    rw [trace_counting, List.append_assoc, List.cons_append]
  rw [hlast, List.getLast?_concat]

/-- What a request has opened is closed at its end. -/
theorem whole_closed (visit : Visit) : ¬ InFlight (.whole Visit.trace visit) ∧
    (∀ id, ¬ Calling (.whole Visit.trace visit) id) ∧
    ∀ path outcome, ¬ Observing (.whole Visit.trace visit) path outcome := by
  refine ⟨fun h => h.2 ?_, fun id h => ?_, fun path outcome h => h.2 ?_⟩
  · show _ ∈ visit.trace
    simp [Visit.trace, Visit.completed]
  · have hlast : visit.trace.getLast? = some (.backend id "attempt") := h
    rw [trace_last] at hlast
    cases hlast
  · obtain ⟨first, hsplit, -⟩ :=
      bucketsFrom_split visit.path visit.outcome visit.duration 0 durationBuckets
    rw [Nat.zero_add] at hsplit
    have hrequest : Effect.request path outcome ∈ visit.trace := h.1
    have hsame : visit.path = path ∧ visit.outcome = outcome := by
      rw [trace_counting] at hrequest
      simp only [counting, List.mem_cons, List.mem_append, List.not_mem_nil, or_false,
        reduceCtorEq, false_or] at hrequest
      rcases hrequest with he | heq | he
      · rcases handle_early visit _ he with ⟨decision, heq⟩ | ⟨id, outcome, heq, -⟩ <;> cases heq
      · cases heq
        exact ⟨rfl, rfl⟩
      · obtain ⟨index, heq⟩ := mem_bucketsFrom he
        cases heq
    obtain ⟨rfl, rfl⟩ := hsame
    show _ ∈ visit.trace
    rw [trace_counting, observe, hsplit]
    simp

/-- A bucket that cannot have wrapped around. -/
theorem bucket_toNat {s : Pool Visit.trace Sink} (hs : serving.Reach s)
    (hsmall : s.finished.length + s.live.length < 2 ^ 64) {path outcome : String}
    (hplain : '\x00' ∉ outcome.toList) {index : Nat} (hindex : index ≤ durationBuckets.length) :
    (s.shared.metrics.bucket path outcome index).toNat =
      (s.finished.map fun v => total (bucketWeight path outcome index) v.trace).sum +
        (s.live.map fun p => total (bucketWeight path outcome index) p.done).sum := by
  have hvalue := value_map uint64OfNat
    (fun sink : Sink => sink.metrics.bucket path outcome index) _
    (bucket_apply path outcome hindex) hs
  have hfinished : (s.finished.map fun v => total (bucketWeight path outcome index) v.trace).sum ≤
      s.finished.length := by
    refine (List.sum_le_card_nsmul _ 1 fun n hn => ?_).trans (by simp)
    obtain ⟨v, -, rfl⟩ := List.mem_map.mp hn
    exact total_bucket_le_one hplain (.whole Visit.trace v) hindex
  have hlive : (s.live.map fun p => total (bucketWeight path outcome index) p.done).sum ≤
      s.live.length := by
    refine (List.sum_le_card_nsmul _ 1 fun n hn => ?_).trans (by simp)
    obtain ⟨p, -, rfl⟩ := List.mem_map.mp hn
    exact total_bucket_le_one hplain p hindex
  rw [hvalue, show newSink.metrics.bucket path outcome index = 0 from rfl, zero_add]
  refine (UInt64.toNat_ofNat').trans (Nat.mod_eq_of_lt ?_)
  omega

theorem Balanced.of_reach {s : Pool Visit.trace Sink} (hs : serving.Reach s) : Balanced s where
  inflight := by
    refine int64_eq_ofNat ?_
    rw [balanced_map uint64OfInt (fun sink : Sink => sink.metrics.inflight.toUInt64) _
      inflight_apply (fun v => ?_) hs]
    · simp only [total_inflight, sum_map_ite]
      rw [uint64OfInt_natCast]
      exact zero_add _
    · have htotal := total_inflight (.whole Visit.trace v)
      rwa [if_neg (whole_closed v).1] at htotal
  attempts id := by
    have hcalls := balanced_map uint64OfInt (calls id) _ (calls_apply id) (fun v => ?_) hs
    · simp only [total_calls, sum_map_ite] at hcalls
      have hzero : calls id newSink = 0 := by
        show (0 : UInt64) - 0 - 0 = 0
        rw [sub_zero, sub_zero]
      rw [uint64OfInt_natCast, hzero, zero_add] at hcalls
      rw [← hcalls, calls]
      abel
    · have htotal := total_calls (.whole Visit.trace v) id
      rwa [if_neg ((whole_closed v).2.1 id)] at htotal
  observed path outcome hplain := by
    have hobserved := balanced_map uint64OfInt
      (fun sink : Sink => requestCount sink.metrics path outcome -
        sink.metrics.bucket path outcome durationBuckets.length) (observeWeight path outcome)
      (fun e sink => ?_) (fun v => ?_) hs
    · simp only [total_observing hplain, sum_map_ite] at hobserved
      have hzero : requestCount newSink.metrics path outcome -
          newSink.metrics.bucket path outcome durationBuckets.length = 0 := sub_self 0
      rw [uint64OfInt_natCast, hzero, zero_add] at hobserved
      rw [← hobserved]
      abel
    · rw [requestCount_apply, bucket_apply _ _ (Nat.le_refl _), observeWeight, map_sub,
        uint64OfInt_natCast, uint64OfInt_natCast]
      show _ + UInt64.ofNat _ - (_ + UInt64.ofNat _) = _
      abel
    · refine (total_observing hplain (.whole Visit.trace v)).trans ?_
      exact if_neg ((whole_closed v).2.2 path outcome)
  buckets hsmall path outcome hplain index hindex := by
    rw [bucket_toNat hs hsmall hplain (by omega), bucket_toNat hs hsmall hplain (by omega),
      Nat.add_assoc, ← sum_counts,
      ← List.sum_map_add]
    refine Nat.add_le_add (List.sum_le_sum fun v _ => ?_) (List.sum_le_sum fun p _ => ?_)
    · refine (total_bucket_le hplain (.whole Visit.trace v) hindex).trans ?_
      rw [if_neg ((whole_closed v).2.2 path outcome)]
      exact Nat.le_refl _
    · exact total_bucket_le hplain p hindex
  audit := by
    have haudit := value_eq (fun sink : Sink => (sink.audit : Multiset AuditEvent))
      audit_apply hs
    have hfinished : ∀ v : Visit, total auditWeight v.trace = {v.auditEvent} := fun v => by
      have hlogged : Logged (.whole Visit.trace v) := rfl
      exact (total_audit (.whole Visit.trace v)).trans (if_pos hlogged)
    have hempty : (newSink.audit : Multiset AuditEvent) = 0 := rfl
    simp only [hfinished, total_audit, sum_singletons, sum_filtered] at haudit
    rw [hempty, zero_add, Multiset.coe_add] at haudit
    exact Multiset.coe_eq_coe.mp haudit

theorem Exact.of_reach {s : Pool Visit.trace Sink} (hs : serving.Reach s) (hidle : s.live = []) :
    Exact s where
  inflight := by
    have h := (Balanced.of_reach hs).inflight
    rw [h, hidle]
    rfl
  attempts id := by
    have h := (Balanced.of_reach hs).attempts id
    rw [h, hidle]
    exact add_zero _
  requests path outcome hplain := by
    have hzero : requestCount newSink.metrics path outcome = 0 := rfl
    have hvalue := value_map uint64OfNat (fun sink : Sink => requestCount sink.metrics path outcome)
      _ (requestCount_apply path outcome) hs
    simp only [hzero, hidle, total_request hplain, sum_counts, List.map_nil, List.sum_nil, add_zero,
      zero_add] at hvalue
    exact hvalue
  buckets path outcome hplain index hindex := by
    have hzero : newSink.metrics.bucket path outcome index = 0 := rfl
    have hvalue := value_map uint64OfNat
      (fun sink : Sink => sink.metrics.bucket path outcome index) _
      (bucket_apply path outcome hindex) hs
    simp only [hzero, hidle, total_bucket _ hplain hindex, sum_counts, List.map_nil, List.sum_nil,
      add_zero, zero_add] at hvalue
    exact hvalue
  audit := by
    have h := (Balanced.of_reach hs).audit
    rw [hidle] at h
    simpa using h

/-- **The telemetry accounts for every request**, however the requests interleave: while they run up to
those that are under way, and exactly when none runs. -/
theorem telemetry_accounts {s : Pool Visit.trace Sink} (hs : serving.Reach s) :
    Balanced s ∧ (s.live = [] → Exact s) :=
  ⟨.of_reach hs, .of_reach hs⟩

/-! ## Two requests -/

namespace TelemetrySample

def backend (id : String) : Backends.Backend where
  id
  url := { scheme := "http", host := id, text := "http://" ++ id }
  weight := 1
  models := ∅
  healthPath := "/health"
  attributes := ∅

/-- A request whose first backend fails. -/
def chat : Visit where
  method := "POST"
  path := "/v1/chat/completions"
  requestID := some "req_1"
  access := .acquired "tenant" .open
  parsed := .ok false
  result := none
  err := false
  flusher := true
  opening := .absent
  candidates := [backend "a", backend "b"]
  attempts id := if id = "a" then .answered 503 else .answered 200
  sent _ := some 200
  duration := 30000000
  durationMS := 30

/-- A request for another path. -/
def lost : Visit := { chat with method := "GET", path := "/status", duration := 2000000, durationMS := 2 }

def empty : Pool Visit.trace Sink := { shared := newSink, live := [], finished := [] }

/-- The first request has called its second backend, and the other one is being observed. -/
def busy : Pool Visit.trace Sink :=
  ([.start chat, .go 0, .start lost, .go 1, .go 0, .go 0, .go 0, .go 1, .go 1, .go 1].foldlM
    (Pool.turn Effect.apply) empty).get (by decide +kernel)

/-- Both are completed, the second one first. -/
def idle : Pool Visit.trace Sink :=
  ((List.replicate 11 (Pool.Turn.go 1) ++ List.replicate 12 (Pool.Turn.go 0)).foldlM
    (Pool.turn Effect.apply) busy).get (by decide +kernel)

end TelemetrySample

open TelemetrySample in
/-- While the requests run, one of them waits for a backend and the other one is ahead of its
histogram; at the end all is exact. -/
theorem telemetry_accounts_sample :
    (Balanced busy ∧ busy.shared.metrics.inflight = 1 ∧
        backendCount busy.shared.metrics "b" "attempt" = 1 ∧
        requestCount busy.shared.metrics "/status" "rejected" = 1 ∧
        busy.shared.metrics.bucket "/status" "rejected" durationBuckets.length = 0) ∧
      Exact idle ∧ backendCount idle.shared.metrics "b" "success" = 1 ∧
        idle.shared.audit = [lost.auditEvent, chat.auditEvent] := by
  have hbusy : serving.Reach busy := Pool.turns_reach _ (.init rfl) (Option.some_get _).symm
  have hidle : serving.Reach idle := Pool.turns_reach _ hbusy (Option.some_get _).symm
  exact ⟨⟨(telemetry_accounts hbusy).1, by decide +kernel⟩,
    (telemetry_accounts hidle).2 (List.length_eq_zero_iff.mp (by decide +kernel)),
    by decide +kernel⟩

end Kavora.Gateway
