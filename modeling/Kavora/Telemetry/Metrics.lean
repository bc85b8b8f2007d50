import Mathlib.Data.UInt
import Kavora.Lib.Go
import Kavora.Lib.Interleaving

/-!
# The metrics of the gateway (`gateway/internal/telemetry/telemetry.go`)

The counters, histograms and the gauge are updated by one atomic addition after another, and wrap
around as `atomic.Uint64` and `atomic.Int64` do. An observation adds to every bucket whose bound it
does not exceed, in order, and to the last one.

* `Effect`: an atomic update, or a line of the audit log.
* `observe`: the updates of `ObserveRequest`.
* `key_injective`: the counter of an endpoint and an outcome is that of no others.
-/

namespace Kavora.Telemetry

open Lib Lib.Go

/-- In nanoseconds. -/
def durationBuckets : List Int :=
  [1000000, 5000000, 10000000, 25000000, 50000000, 100000000, 250000000, 500000000, 1000000000,
    5000000000]

/-- The key of a counter with two labels. -/
def key (name outcome : String) : String := name ++ "\x00" ++ outcome

/-- A histogram: how many observations each bucket has. -/
structure DurationHistogram where
  buckets : List UInt64
  length_eq : buckets.length = durationBuckets.length + 1

namespace DurationHistogram

/-- A histogram of nothing. -/
def empty : DurationHistogram where
  buckets := List.replicate (durationBuckets.length + 1) 0
  length_eq := List.length_replicate

/-- One more duration in a bucket. -/
def add (histogram : DurationHistogram) (index : Nat) : DurationHistogram where
  buckets := histogram.buckets.modify index (· + 1)
  length_eq := by rw [List.length_modify, histogram.length_eq]

/-- The observations of a bucket. -/
def bucket (histogram : DurationHistogram) (index : Nat) : UInt64 := histogram.buckets.getD index 0

end DurationHistogram

/-- The counters of the gateway, which wrap as its atomics do. -/
structure Metrics where
  requests : Map String UInt64
  policies : Map String UInt64
  backends : Map String UInt64
  durations : Map String DurationHistogram
  inflight : Int64

/-- `NewMetrics`. -/
def newMetrics : Metrics where
  requests := ∅
  policies := ∅
  backends := ∅
  durations := ∅
  inflight := 0

/-- `AuditEvent` with the fields that the gateway sets, except for the time. -/
structure AuditEvent where
  event : String
  requestID : String
  tenantID : String
  policy : String
  outcome : String
  stream : Bool
  durationMS : Int
  deriving DecidableEq

/-- A counter is created when it is first used. -/
def increment (store : Map String UInt64) (key : String) : Map String UInt64 :=
  store.insert key (store.index key 0 + 1)

namespace Metrics

/-- `IncRequest`. -/
def incRequest (metrics : Metrics) (endpoint outcome : String) : Metrics :=
  { metrics with requests := increment metrics.requests (key endpoint outcome) }

/-- `IncPolicy`. -/
def incPolicy (metrics : Metrics) (decision : String) : Metrics :=
  { metrics with policies := increment metrics.policies decision }

/-- `IncBackend`. -/
def incBackend (metrics : Metrics) (backendID outcome : String) : Metrics :=
  { metrics with backends := increment metrics.backends (key backendID outcome) }

/-- One addition of `ObserveRequest`. -/
def addBucket (metrics : Metrics) (endpoint outcome : String) (index : Nat) : Metrics :=
  let histogram := (metrics.durations.lookup (key endpoint outcome)).getD .empty
  { metrics with
    durations := metrics.durations.insert (key endpoint outcome) (histogram.add index) }

/-- A change of the gauge. -/
def inflightAdd (metrics : Metrics) (delta : Int64) : Metrics :=
  { metrics with inflight := metrics.inflight + delta }

/-- A bucket of the histogram of an endpoint and an outcome. -/
def bucket (metrics : Metrics) (endpoint outcome : String) (index : Nat) : UInt64 :=
  ((metrics.durations.lookup (key endpoint outcome)).map (·.bucket index)).getD 0

end Metrics

/-- What the handlers share. -/
structure Sink where
  metrics : Metrics
  /-- The lines of the audit log. -/
  audit : List AuditEvent

/-- An atomic update. -/
inductive Effect where
  | inflight (delta : Int64)
  | request (endpoint outcome : String)
  | policy (decision : String)
  | backend (backendID outcome : String)
  | bucket (endpoint outcome : String) (index : Nat)
  | audit (event : AuditEvent)
  deriving DecidableEq

/-- The sink after an effect. -/
def Effect.apply (effect : Effect) (sink : Sink) : Sink :=
  match effect with
  | .inflight delta => { sink with metrics := sink.metrics.inflightAdd delta }
  | .request endpoint outcome =>
    { sink with metrics := sink.metrics.incRequest endpoint outcome }
  | .policy decision => { sink with metrics := sink.metrics.incPolicy decision }
  | .backend backendID outcome =>
    { sink with metrics := sink.metrics.incBackend backendID outcome }
  | .bucket endpoint outcome index =>
    { sink with metrics := sink.metrics.addBucket endpoint outcome index }
  | .audit event => { sink with audit := sink.audit ++ [event] }

/-- The buckets of an observation, from an index on. -/
def bucketsFrom (endpoint outcome : String) (duration : Int) : Nat → List Int → List Effect
  | index, [] => [.bucket endpoint outcome index]
  | index, bound :: bounds =>
    if duration ≤ bound then
      .bucket endpoint outcome index :: bucketsFrom endpoint outcome duration (index + 1) bounds
    else bucketsFrom endpoint outcome duration (index + 1) bounds

/-- `ObserveRequest` -/
def observe (endpoint outcome : String) (duration : Int) : List Effect :=
  bucketsFrom endpoint outcome duration 0 durationBuckets

/-! ## Keys -/

/-- An outcome ends behind the last NUL of its key. -/
theorem key_injective {name name' outcome outcome' : String} (h : '\x00' ∉ outcome.toList)
    (h' : '\x00' ∉ outcome'.toList) (heq : key name outcome = key name' outcome') :
    name = name' ∧ outcome = outcome' := by
  have hlist := congrArg String.toList heq
  have hnul : "\x00".toList = ['\x00'] := rfl
  simp only [key, String.toList_append, hnul] at hlist
  obtain ⟨hname, houtcome⟩ := separator_append_inj h h' (by simpa using hlist)
  exact ⟨String.toList_inj.mp hname, String.toList_inj.mp houtcome⟩

/-! ## Values -/

theorem index_increment (store : Map String UInt64) (key key' : String) :
    (increment store key').index key 0 = store.index key 0 + if key = key' then 1 else 0 := by
  unfold increment Map.index
  split
  · rename_i heq
    rw [heq, AList.lookup_insert, Option.getD_some]
  · rename_i hne
    rw [AList.lookup_insert_ne hne, UInt64.add_zero]

theorem DurationHistogram.bucket_add (histogram : DurationHistogram) {index : Nat}
    (hindex : index ≤ durationBuckets.length) (index' : Nat) :
    (histogram.add index').bucket index =
      histogram.bucket index + if index = index' then 1 else 0 := by
  have hlt : index < histogram.buckets.length := by
    rw [histogram.length_eq]
    omega
  unfold bucket add
  rw [List.getD_eq_getElem?_getD, List.getD_eq_getElem?_getD, List.getElem?_modify,
    List.getElem?_eq_getElem hlt]
  by_cases h : index = index'
  · simp [h]
  · simp [h, Ne.symm h]

theorem DurationHistogram.bucket_empty (index : Nat) : empty.bucket index = 0 := by
  unfold bucket empty
  rw [List.getD_eq_getElem?_getD, List.getElem?_replicate]
  split <;> rfl

theorem Metrics.bucket_addBucket (metrics : Metrics) (endpoint outcome endpoint' outcome' : String)
    {index : Nat} (hindex : index ≤ durationBuckets.length) (index' : Nat) :
    (metrics.addBucket endpoint' outcome' index').bucket endpoint outcome index =
      metrics.bucket endpoint outcome index +
        if key endpoint outcome = key endpoint' outcome' ∧ index = index' then 1 else 0 := by
  unfold addBucket bucket
  by_cases hkey : key endpoint outcome = key endpoint' outcome'
  · rw [hkey, AList.lookup_insert, Option.map_some, Option.getD_some,
      DurationHistogram.bucket_add _ hindex]
    cases metrics.durations.lookup (key endpoint' outcome') with
    | none => simp [DurationHistogram.bucket_empty]
    | some histogram => simp
  · rw [AList.lookup_insert_ne hkey, if_neg fun h => hkey h.1, UInt64.add_zero]

end Kavora.Telemetry
