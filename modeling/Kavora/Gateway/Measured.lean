import Mathlib.Data.Rat.Floor
import Kavora.Gateway.Answers
import Kavora.Gateway.ServeHTTP
import Kavora.Ledger.DecisionLedger
import Kavora.Lib.Quantile

/-!
# What the gateway measures of a request (`observedWriter`, `requestOutcomeObservation`)

The handler writes through a writer that keeps the status and the times of the writes. The deferred
function of `ServeHTTP` makes the outcome for the ledger of it, together with what `forward` has noted
of the backend and of the headers of its answer.

* `ObservedWriter.run`: the writer after some calls.
* `TimedVisit`: a request with its clock; `TimedVisit.outcome` is what the ledger is given.
* `outcome_measured`: the numbers of an outcome are those of the clock.
-/

namespace Kavora.Gateway

open Lib Policy Backends
open Lib.Go hiding Field
open Float64 (ofInt)
open Ledger (DecisionOutcome)

/-! ## The writer -/

/-- A call of the writer. `Write` reads the clock up to two times. -/
inductive WriterCall where
  | writeHeader (status : Nat)
  | write (length : Nat) (first now : Time)
  | flush

/-- A response writer that notes its status and the times of its writes. -/
structure ObservedWriter where
  status : Nat
  firstWriteAt : Time
  writeTimes : List Time

namespace ObservedWriter

/-- A writer before the first call. -/
def new : ObservedWriter := { status := 0, firstWriteAt := .zero, writeTimes := [] }

/-- The first status counts. -/
def writeHeader (writer : ObservedWriter) (status : Nat) : ObservedWriter :=
  if writer.status ≠ 0 then writer else { writer with status }

/-- A write of some bytes; `first` and `now` are the two readings of the clock. -/
def write (writer : ObservedWriter) (length : Nat) (first now : Time) : ObservedWriter :=
  let writer := if writer.status = 0 then writer.writeHeader 200 else writer
  let writer :=
    if length > 0 ∧ writer.firstWriteAt.isZero then { writer with firstWriteAt := first } else writer
  if length > 0 then { writer with writeTimes := writer.writeTimes ++ [now] } else writer

/-- `Flush` of `observedFlusher`. -/
def flush (writer : ObservedWriter) : ObservedWriter :=
  if writer.status = 0 then writer.writeHeader 200 else writer

/-- The writer after a call. -/
def after (writer : ObservedWriter) : WriterCall → ObservedWriter
  | .writeHeader status => writer.writeHeader status
  | .write length first now => writer.write length first now
  | .flush => writer.flush

/-- The writer after some calls. -/
def run (calls : List WriterCall) : ObservedWriter := calls.foldl after new

/-- The status that was sent. -/
def sent (writer : ObservedWriter) : Option Nat :=
  if writer.status = 0 then none else some writer.status

end ObservedWriter

/-! ## The headers of an answer -/

section

variable {F : Type} [Float64 F] [FloatText F]

/-- `strconv.Atoi`. -/
def parseAtoi (text : String) : Option Int64 :=
  match text.toList with
  | '+' :: digits => ((parseDigits digits).filter (· < 2 ^ 63)).map fun n => .ofNat n
  | text => parseInt64 text

/-- A header with a number from zero to one. -/
def optionalHeaderFloat (header : String) : Option F :=
  (FloatText.parseFloat header.toList).filter fun value =>
    FloatText.isFinite value && !(Float64.lt value (ofInt 0)) && !(Float64.lt (ofInt 1) value)

/-- A header with a positive number. -/
def optionalHeaderPositiveFloat (header : String) : Option F :=
  (FloatText.parseFloat header.toList).filter fun value =>
    FloatText.isFinite value && !(Float64.le value (ofInt 0))

/-- A header with a number that is not negative. -/
def optionalHeaderInt (header : String) : Option Int64 := (parseAtoi header).filter (0 ≤ ·)

/-- That number, or zero. -/
def optionalHeaderIntValue (header : String) : Int64 := (optionalHeaderInt header).getD 0

end

/-! ## The observation -/

/-- What `ServeHTTP` gathers for the outcome of a request. -/
structure RequestOutcomeObservation (F : Type) where
  routed : Bool
  actualBackend : String
  promptTokens : Int64
  outputTokens : Int64
  model : String
  gpuType : String
  backendEngine : String
  backendVersion : String
  ttftMS : Option F
  cacheHitRatio : Option F
  matchedTokens : Option Int64

/-- `d.Microseconds()` as milliseconds. -/
def milliseconds (F : Type) [Float64 F] (d : Duration) : F := ofInt (d.tdiv 1000) / ofInt 1000

section

variable {F : Type} [Float64 F]

/-- The time from each write to the next. -/
def intervalsOf (F : Type) [Float64 F] (writeTimes : List Time) : List F :=
  List.zipWith (fun earlier later => milliseconds F (later.sub earlier)) writeTimes writeTimes.tail

namespace RequestOutcomeObservation

/-- The time for each output token after the first write. -/
def tpotMS (observation : RequestOutcomeObservation F) (writer : ObservedWriter) : Option F :=
  match writer.writeTimes.head?, writer.writeTimes.getLast? with
  | some first, some last =>
    if writer.writeTimes.length < 2 ∨ observation.outputTokens ≤ 1 then none
    else
      let value := milliseconds F (last.sub first) / ofInt (observation.outputTokens.toInt - 1)
      if Float64.lt value (ofInt 0) then none else some value
  | _, _ => none

end RequestOutcomeObservation

variable [Rounding F]

/-- The interpolation of `streamGapP95MS`; `none` if an index is out of range. -/
def gapP95 (intervals : List F) : Option F :=
  let intervals := sortFloat64s intervals
  let position := ofInt 95 / ofInt 100 * ofInt (intervals.length - 1)
  -- `int(position)`: the position is not negative
  let lower := (Rounding.floor position).toNat
  let upper := if lower < intervals.length - 1 then lower + 1 else lower
  intervals[lower]?.bind fun value =>
    if upper ≠ lower then
      intervals[upper]?.map fun high => value + (high - value) * (position - ofInt lower)
    else some value

/-- The 95th percentile of the times between the writes. -/
def streamGapP95MS (writer : ObservedWriter) : Option F :=
  if writer.writeTimes.length < 2 then none else gapP95 (intervalsOf F writer.writeTimes)

end

/-! ## The request -/

/-- The backend that the loop of `forward` calls last. -/
def lastCalled (attempts : String → Attempt) : List Backend → Option Backend
  | [] => none
  | candidate :: candidates =>
    if (attempts candidate.id).success then some candidate
    else some ((lastCalled attempts candidates).getD candidate)

/-- The status of the answer that is passed on. -/
def Visit.served (visit : Visit) : Option Nat :=
  if visit.handle.routed then (callBackends visit.attempts visit.candidates "").2.2 else none

/-- A request with its clock, and what passing an answer on does to the writer. -/
structure TimedVisit where
  visit : Visit
  started : Time
  passed : Nat → List WriterCall
  sent_eq : ∀ statusCode, visit.sent statusCode = (ObservedWriter.run (passed statusCode)).sent
  /-- The length of the gateway's own answer, and the clock when it is written. -/
  refusal : Nat × Time × Time
  refusal_pos : 0 < refusal.1
  model : String
  /-- The token count of the hash service, if it has resolved the request. -/
  resolved : Option Int64
  /-- The headers of the answer. -/
  header : String → String
  /-- What `forwardBuffered` has read of the answer; `none` if it has sent an error instead. -/
  responseBody : Option Bytes
  /-- The clock when the outcome is made. -/
  observed : Time
  completedAt : Time

namespace TimedVisit

variable (e : TimedVisit)

/-- The calls of the writer. -/
def calls : List WriterCall :=
  match e.visit.served with
  | some statusCode => e.passed statusCode
  | none => [.writeHeader e.visit.status, .write e.refusal.1 e.refusal.2.1 e.refusal.2.2]

/-- The writer when the request ends. -/
def writer : ObservedWriter := .run e.calls

/-- The prompt tokens that the outcome reports. -/
def promptTokens : Int64 :=
  let promptTokens : Int64 :=
    match e.visit.result with
    | none => 0
    | some result =>
      -- the result of a failed policy is dropped
      if result.decision = .allow ∧ result.estimatedTokens ≤ 2 ^ 63 - 1 then
        .ofNat result.estimatedTokens
      else 0
  match e.resolved with
  | none => promptTokens
  | some tokenCount => if tokenCount > 0 then tokenCount else promptTokens

variable (F : Type) [Float64 F] [FloatText F]

/-- The ratio of an answer that gives the matched tokens only. -/
def matchedRatio (promptTokens matchedTokens : Int64) : F :=
  let ratio : F := ofInt matchedTokens.toInt / ofInt promptTokens.toInt
  if Float64.lt ratio (ofInt 1) then ratio else ofInt 1

/-- What `forward` notes. -/
def realized : RequestOutcomeObservation F :=
  let backend := lastCalled e.visit.attempts e.visit.candidates
  let attributeOf (name : String) : String :=
    (backend.map fun backend => backend.attributes.index name "").getD ""
  let called : RequestOutcomeObservation F :=
    { routed := e.visit.handle.routed
      actualBackend := (backend.map (·.id)).getD ""
      promptTokens := e.promptTokens
      outputTokens := 0
      model := e.model
      gpuType := attributeOf "gpu_type"
      backendEngine := attributeOf "engine"
      backendVersion := attributeOf "engine_version"
      ttftMS := none
      cacheHitRatio := none
      matchedTokens := none }
  if e.visit.served.isNone then called
  else
    let matchedTokens := optionalHeaderInt (e.header "X-Kavora-Matched-Tokens")
    let cacheHitRatio : Option F :=
      match optionalHeaderFloat (e.header "X-Kavora-Cache-Hit-Ratio"), matchedTokens with
      | none, some matchedTokens =>
        if e.promptTokens > 0 then some (matchedRatio F e.promptTokens matchedTokens) else none
      | cacheHitRatio, _ => cacheHitRatio
    { called with
      ttftMS := optionalHeaderPositiveFloat (e.header "X-Kavora-TTFT-MS")
      cacheHitRatio
      matchedTokens
      outputTokens :=
        if e.visit.handle.isStream then optionalHeaderIntValue (e.header "X-Kavora-Output-Tokens")
        else (e.responseBody.map completionTokens).getD 0 }

/-- The time to the first token: that of the backend, or of the first write of a stream. -/
def ttftMS : F :=
  match (e.realized F).ttftMS with
  | some ttftMS => ttftMS
  | none =>
    if e.visit.handle.isStream ∧ e.writer.firstWriteAt.isZero = false then
      milliseconds F (e.writer.firstWriteAt.sub e.started)
    else ofInt 0

variable [Rounding F]

/-- What `RecordOutcome` is given, if the request was routed. -/
def outcome : Option (DecisionOutcome F) :=
  let realized := e.realized F
  let status := if e.writer.status = 0 then 200 else e.writer.status
  if e.visit.handle.requestID ≠ "" ∧ realized.routed then
    some
      { requestID := e.visit.handle.requestID
        actualBackend := realized.actualBackend
        ttftMS := e.ttftMS F
        e2eMS := milliseconds F (e.observed.sub e.started)
        success := 200 ≤ status && status < 300
        statusCode := .ofNat status
        promptTokens := realized.promptTokens
        outputTokens := realized.outputTokens
        model := realized.model
        gpuType := realized.gpuType
        backendEngine := realized.backendEngine
        backendVersion := realized.backendVersion
        observedCacheHitRatio := realized.cacheHitRatio
        observedMatchedTokens := realized.matchedTokens
        tpotMS := realized.tpotMS e.writer
        streamGapP95MS := streamGapP95MS e.writer
        streamChunkCount := .ofNat e.writer.writeTimes.length
        completedAt := e.completedAt }
  else none

end TimedVisit

/-! ## The clock -/

namespace WriterCall

/-- The time of a write that writes something. -/
def written : WriterCall → Option Time
  | .write length _ now => if length > 0 then some now else none
  | _ => none

/-- The reading before it. -/
def opened : WriterCall → Option Time
  | .write length first _ => if length > 0 then some first else none
  | _ => none

/-- The readings of the clock, each not before the one ahead of it. -/
def Chronological (ended : Time) : Time → List WriterCall → Prop
  | now, [] => now ≤ ended
  | now, .write _ first next :: calls => now ≤ first ∧ first ≤ next ∧ Chronological ended next calls
  | now, _ :: calls => Chronological ended now calls

instance (ended : Time) : ∀ now calls, Decidable (Chronological ended now calls)
  | now, [] => inferInstanceAs (Decidable (now ≤ ended))
  | now, .write _ first next :: calls =>
    have := instDecidableChronological ended next calls
    inferInstanceAs (Decidable (now ≤ first ∧ first ≤ next ∧ _))
  | now, .writeHeader _ :: calls => instDecidableChronological ended now calls
  | now, .flush :: calls => instDecidableChronological ended now calls

theorem Chronological.le {ended now : Time} {calls : List WriterCall}
    (h : Chronological ended now calls) : now ≤ ended := by
  induction calls generalizing now with
  | nil => exact h
  | cons call calls ih =>
    cases call with
    | writeHeader | flush => exact ih h
    | write length first next => exact h.1.trans (h.2.1.trans (ih h.2.2))

/-- The writes are after one another. -/
theorem Chronological.written {ended now : Time} {calls : List WriterCall}
    (h : Chronological ended now calls) :
    (calls.filterMap written).Pairwise (· ≤ ·) ∧
      ∀ time ∈ calls.filterMap WriterCall.written, now ≤ time ∧ time ≤ ended := by
  induction calls generalizing now with
  | nil => exact ⟨.nil, fun time htime => by cases htime⟩
  | cons call calls ih =>
    cases call with
    | writeHeader | flush => exact ih h
    | write length first next =>
      obtain ⟨hfirst, hnext, hrest⟩ := h
      obtain ⟨hsorted, hbounds⟩ := ih hrest
      have hwiden : ∀ time ∈ calls.filterMap WriterCall.written, now ≤ time ∧ time ≤ ended :=
        fun time htime => ⟨hfirst.trans (hnext.trans (hbounds time htime).1), (hbounds time htime).2⟩
      by_cases hlength : length > 0
      · have hwritten : (write length first next).written = some next := if_pos hlength
        rw [List.filterMap_cons_some hwritten]
        refine ⟨List.pairwise_cons.mpr ⟨fun time htime => (hbounds time htime).1, hsorted⟩, ?_⟩
        intro time htime
        rcases List.mem_cons.mp htime with rfl | htime
        · exact ⟨hfirst.trans hnext, hrest.le⟩
        · exact hwiden time htime
      · have hwritten : (write length first next).written = none := if_neg hlength
        rw [List.filterMap_cons_none hwritten]
        exact ⟨hsorted, hwiden⟩

theorem Chronological.opened {ended now : Time} {calls : List WriterCall}
    (h : Chronological ended now calls) :
    ∀ time ∈ calls.filterMap WriterCall.opened, now ≤ time ∧ time ≤ ended := by
  induction calls generalizing now with
  | nil =>
    intro time htime
    cases htime
  | cons call calls ih =>
    cases call with
    | writeHeader | flush => exact ih h
    | write length first next =>
      obtain ⟨hfirst, hnext, hrest⟩ := h
      intro time htime
      obtain ⟨call, hmem, hopened⟩ := List.mem_filterMap.mp htime
      rcases List.mem_cons.mp hmem with rfl | hmem
      · obtain ⟨-, heq⟩ := Option.ite_none_right_eq_some.mp hopened
        cases heq
        exact ⟨hfirst, hnext.trans hrest.le⟩
      · obtain ⟨hlow, hhigh⟩ := ih hrest time (List.mem_filterMap.mpr ⟨call, hmem, hopened⟩)
        exact ⟨hfirst.trans (hnext.trans hlow), hhigh⟩

end WriterCall

namespace ObservedWriter

variable (writer : ObservedWriter)

@[simp]
theorem writeHeader_writeTimes (status : Nat) :
    (writer.writeHeader status).writeTimes = writer.writeTimes := by
  unfold writeHeader
  split <;> rfl

@[simp]
theorem writeHeader_firstWriteAt (status : Nat) :
    (writer.writeHeader status).firstWriteAt = writer.firstWriteAt := by
  unfold writeHeader
  split <;> rfl

theorem after_writeTimes (call : WriterCall) :
    (writer.after call).writeTimes = writer.writeTimes ++ call.written.toList := by
  cases call with
  | writeHeader status => simp [after, WriterCall.written]
  | flush =>
    show writer.flush.writeTimes = writer.writeTimes ++ []
    unfold flush
    split <;> simp
  | write length first now =>
    unfold after write WriterCall.written
    dsimp only
    by_cases hlength : length > 0
    · rw [if_pos hlength, if_pos hlength]
      split_ifs <;> simp
    · rw [if_neg hlength, if_neg hlength]
      split_ifs <;> simp_all

/-- The first reading stays. -/
theorem after_firstWriteAt (call : WriterCall) :
    (writer.after call).firstWriteAt =
      if writer.firstWriteAt.isZero then call.opened.getD writer.firstWriteAt
      else writer.firstWriteAt := by
  cases call with
  | writeHeader status => simp [after, WriterCall.opened]
  | flush =>
    show writer.flush.firstWriteAt =
      if writer.firstWriteAt.isZero then writer.firstWriteAt else writer.firstWriteAt
    rw [ite_self]
    unfold flush
    split <;> simp
  | write length first now =>
    unfold after write WriterCall.opened
    dsimp only
    by_cases hlength : length > 0
    · rw [if_pos hlength, if_pos hlength]
      split_ifs <;> simp_all
    · rw [if_neg hlength, if_neg hlength]
      split_ifs <;> simp_all

theorem write_status (hne : writer.status ≠ 0) (length : Nat) (first now : Time) :
    (writer.write length first now).status = writer.status := by
  unfold write
  dsimp only
  rw [if_neg hne]
  split_ifs <;> rfl

theorem writeTimes_foldl (calls : List WriterCall) :
    (calls.foldl after writer).writeTimes =
      writer.writeTimes ++ calls.filterMap WriterCall.written := by
  induction calls generalizing writer with
  | nil => exact (List.append_nil _).symm
  | cons call calls ih =>
    rw [List.foldl_cons, ih, after_writeTimes, List.append_assoc]
    cases hwritten : call.written with
    | none => rw [List.filterMap_cons_none hwritten, Option.toList_none, List.nil_append]
    | some time => rw [List.filterMap_cons_some hwritten, Option.toList_some, List.singleton_append]

/-- The times of the writes. -/
theorem writeTimes_run (calls : List WriterCall) :
    (run calls).writeTimes = calls.filterMap WriterCall.written :=
  (writeTimes_foldl new calls).trans (List.nil_append _)

theorem firstWriteAt_foldl (calls : List WriterCall) :
    (calls.foldl after writer).firstWriteAt = writer.firstWriteAt ∨
      (calls.foldl after writer).firstWriteAt ∈ calls.filterMap WriterCall.opened := by
  induction calls generalizing writer with
  | nil => exact .inl rfl
  | cons call calls ih =>
    rw [List.foldl_cons]
    rcases ih (writer.after call) with heq | hmem
    · rw [heq, after_firstWriteAt]
      cases hopened : call.opened with
      | none => exact .inl (ite_self _)
      | some time =>
        rw [List.filterMap_cons_some hopened]
        split
        · exact .inr List.mem_cons_self
        · exact .inl rfl
    · refine .inr ?_
      cases hopened : call.opened with
      | none => rwa [List.filterMap_cons_none hopened]
      | some time =>
        rw [List.filterMap_cons_some hopened]
        exact List.mem_cons_of_mem _ hmem

end ObservedWriter

/-! ## The numbers -/

section

variable {K : Type} [Field K] [LinearOrder K] [IsStrictOrderedRing K] [FloorRing K]
  [Float64.Exact K] [FloatText K] [Rounding K] [Rounding.Lawful K]

attribute [local instance] Float64.Exact.float64

omit [FloorRing K] [FloatText K] [Rounding K] [Rounding.Lawful K] in
theorem milliseconds_mono {d d' : Duration} (hle : d ≤ d') :
    milliseconds K d ≤ milliseconds K d' := by
  have hdiv : d.tdiv 1000 ≤ d'.tdiv 1000 := Int.tdiv_le_tdiv (by decide) hle
  have hcast : ((d.tdiv 1000 : Int) : K) ≤ ((d'.tdiv 1000 : Int) : K) := by exact_mod_cast hdiv
  have hpos : (0 : K) ≤ ((1000 : Int) : K) := by exact_mod_cast (by decide : (0 : Int) ≤ 1000)
  exact div_le_div_of_nonneg_right hcast hpos

omit [FloorRing K] [FloatText K] [Rounding K] [Rounding.Lawful K] in
theorem milliseconds_nonneg {d : Duration} (h : 0 ≤ d) : 0 ≤ milliseconds K d := by
  have hzero : milliseconds K 0 = 0 := by
    show ((0 : Int) : K) / _ = 0
    rw [Int.cast_zero, zero_div]
  exact hzero ▸ milliseconds_mono h

theorem elapsed_nonneg {t u : Int} (h : t ≤ u) : 0 ≤ Time.sub u t :=
  le_max_of_le_right (le_min (by decide) (Int.sub_nonneg_of_le h))

theorem elapsed_mono {t u started ended : Int} (hstarted : started ≤ t) (hended : u ≤ ended) :
    Time.sub u t ≤ Time.sub ended started :=
  max_le_max le_rfl (min_le_min le_rfl (Int.sub_le_sub hended hstarted))

/-- Between two times of the request. -/
structure Within (started ended t : Time) : Prop where
  after : started ≤ t
  before : t ≤ ended

omit [FloorRing K] [FloatText K] [Rounding K] [Rounding.Lawful K] in
/-- The time between two readings is not negative and not longer than the request. -/
theorem milliseconds_within {started ended t u : Time} (ht : Within started ended t)
    (hu : Within started ended u) (hle : t ≤ u) :
    0 ≤ milliseconds K (u.sub t) ∧ milliseconds K (u.sub t) ≤ milliseconds K (ended.sub started) :=
  ⟨milliseconds_nonneg (elapsed_nonneg hle), milliseconds_mono (elapsed_mono ht.after hu.before)⟩

omit [FloorRing K] [FloatText K] [Rounding K] [Rounding.Lawful K] in
/-- The intervals of writes that are after one another. -/
theorem intervals_within {started ended : Time} {times : List Time}
    (hsorted : times.Pairwise (· ≤ ·)) (hwithin : ∀ t ∈ times, Within started ended t) :
    ∀ interval ∈ intervalsOf K times,
      0 ≤ interval ∧ interval ≤ milliseconds K (ended.sub started) := by
  unfold intervalsOf
  intro interval hinterval
  obtain ⟨i, hi, rfl⟩ := List.getElem_of_mem hinterval
  have hlength : i + 1 < times.length := by
    rw [List.length_zipWith, List.length_tail] at hi
    omega
  have hle : times[i] ≤ times[i + 1] :=
    List.pairwise_iff_getElem.mp hsorted i (i + 1) (by omega) hlength (Nat.lt_succ_self i)
  rw [List.getElem_zipWith, List.getElem_tail]
  exact milliseconds_within (hwithin _ (List.getElem_mem _)) (hwithin _ (List.getElem_mem _)) hle

omit [FloatText K] in
/-- The gap is the interpolated 95th percentile of the intervals; no index is out of range. -/
theorem gapP95_interpolated {intervals : List K} (hne : intervals ≠ []) :
    ∃ gap, gapP95 intervals = some gap ∧ Interpolated (95 / 100) intervals gap := by
  have hperm := sortFloat64s_perm intervals
  have hsorted := sortFloat64s_pairwise intervals
  have hpos : 0 < (sortFloat64s intervals).length := by
    rw [hperm.length_eq]
    exact List.length_pos_of_ne_nil hne
  unfold gapP95
  generalize sortFloat64s intervals = sorted at hperm hsorted hpos
  have hposition : ofInt 95 / ofInt 100 * ofInt ((sorted.length : Int) - 1) =
      (95 / 100 : K) * ((sorted.length : K) - 1) := by
    show ((95 : Int) : K) / ((100 : Int) : K) * (((sorted.length : Int) - 1 : Int) : K) = _
    norm_num
  have hlength : (1 : K) ≤ sorted.length := by exact_mod_cast hpos
  have hnonneg : (0 : K) ≤ (95 / 100 : K) * ((sorted.length : K) - 1) :=
    mul_nonneg (by norm_num) (sub_nonneg.mpr hlength)
  dsimp only
  rw [hposition, Rounding.Lawful.floor_eq]
  -- the position is before the last number
  obtain ⟨i, hi⟩ : ∃ i : Nat, ⌊(95 / 100 : K) * ((sorted.length : K) - 1)⌋ = i :=
    Int.eq_ofNat_of_zero_le (Int.floor_nonneg.mpr hnonneg)
  have hfloor : (i : K) ≤ (95 / 100 : K) * ((sorted.length : K) - 1) ∧
      (95 / 100 : K) * ((sorted.length : K) - 1) < (i : K) + 1 := by
    have hiff := Int.floor_eq_iff.mp hi
    rwa [Int.cast_natCast] at hiff
  have hlt : i < sorted.length := by
    have hcast : (i : K) < sorted.length := by linarith [hfloor.1]
    exact_mod_cast hcast
  have hcast : ofInt (i : Int) = (i : K) := Int.cast_natCast i
  rw [hi, Int.toNat_natCast, hcast, List.getElem?_eq_getElem hlt, Option.bind_some]
  rw [hperm.length_eq] at hfloor
  by_cases hlast : i < sorted.length - 1
  · have hnext : i + 1 < sorted.length := by omega
    rw [if_pos hlast, if_pos (Nat.succ_ne_self i), List.getElem?_eq_getElem hnext, Option.map_some]
    refine ⟨_, rfl, ⟨sorted, i, i + 1, hlt, hnext, ⟨hperm, hsorted⟩, hfloor, .inl rfl, ?_⟩⟩
    rw [hperm.length_eq]
  · rw [if_neg hlast, if_neg (by simp)]
    refine ⟨_, rfl, ⟨sorted, i, i, hlt, hlt, ⟨hperm, hsorted⟩, hfloor, .inr ⟨rfl, by omega⟩, ?_⟩⟩
    rw [sub_self, zero_mul, add_zero]

/-! ## The headers -/

omit [IsStrictOrderedRing K] [FloorRing K] [Rounding K] [Rounding.Lawful K] in
theorem optionalHeaderFloat_bounds {header : String} {value : K}
    (h : optionalHeaderFloat header = some value) : 0 ≤ value ∧ value ≤ 1 := by
  obtain ⟨-, hkeep⟩ := Option.filter_eq_some_iff.mp h
  rw [Bool.and_eq_true, Bool.and_eq_true, Bool.not_eq_true', Bool.not_eq_true'] at hkeep
  have hlow : ¬ value < ((0 : Int) : K) := of_decide_eq_false hkeep.1.2
  have hhigh : ¬ ((1 : Int) : K) < value := of_decide_eq_false hkeep.2
  rw [Int.cast_zero, not_lt] at hlow
  rw [Int.cast_one, not_lt] at hhigh
  exact ⟨hlow, hhigh⟩

omit [IsStrictOrderedRing K] [FloorRing K] [Rounding K] [Rounding.Lawful K] in
theorem optionalHeaderPositiveFloat_pos {header : String} {value : K}
    (h : optionalHeaderPositiveFloat header = some value) : 0 < value := by
  obtain ⟨-, hkeep⟩ := Option.filter_eq_some_iff.mp h
  rw [Bool.and_eq_true, Bool.not_eq_true', Float64.le, Bool.or_eq_false_iff] at hkeep
  have hlt : ¬ value < ((0 : Int) : K) := of_decide_eq_false hkeep.2.1
  have heq : ¬ value = ((0 : Int) : K) := of_decide_eq_false hkeep.2.2
  rw [Int.cast_zero] at hlt heq
  exact lt_of_le_of_ne (not_lt.mp hlt) (Ne.symm heq)

theorem optionalHeaderInt_nonneg {header : String} {value : Int64}
    (h : optionalHeaderInt header = some value) : 0 ≤ value :=
  of_decide_eq_true (Option.filter_eq_some_iff.mp h).2

theorem optionalHeaderIntValue_nonneg (header : String) : 0 ≤ optionalHeaderIntValue header := by
  unfold optionalHeaderIntValue
  cases h : optionalHeaderInt header with
  | none => decide
  | some value => exact optionalHeaderInt_nonneg h

theorem completionTokens_nonneg (data : Bytes) : 0 ≤ completionTokens data := by
  unfold completionTokens
  split
  · decide
  · split
    · decide
    · rename_i hneg
      exact Int64.not_lt.mp hneg

omit [FloorRing K] [FloatText K] [Rounding K] [Rounding.Lawful K] in
theorem matchedRatio_bounds {promptTokens matchedTokens : Int64} (hprompt : 0 < promptTokens)
    (hmatched : 0 ≤ matchedTokens) :
    0 ≤ TimedVisit.matchedRatio K promptTokens matchedTokens ∧
      TimedVisit.matchedRatio K promptTokens matchedTokens ≤ 1 := by
  have hone : ofInt 1 = (1 : K) := Int.cast_one
  unfold TimedVisit.matchedRatio
  dsimp only
  rw [hone]
  split
  · rename_i hlt
    have hratio : (matchedTokens.toInt : K) / (promptTokens.toInt : K) < 1 := of_decide_eq_true hlt
    refine ⟨?_, hratio.le⟩
    have hn : (0 : Int) ≤ matchedTokens.toInt := Int64.le_iff_toInt_le.mp hmatched
    have hd : (0 : Int) ≤ promptTokens.toInt := (Int64.lt_iff_toInt_lt.mp hprompt).le
    have hnumerator : (0 : K) ≤ (matchedTokens.toInt : K) := by exact_mod_cast hn
    have hdenominator : (0 : K) ≤ (promptTokens.toInt : K) := by exact_mod_cast hd
    exact div_nonneg hnumerator hdenominator
  · exact ⟨zero_le_one, le_refl _⟩

/-! ## The backend and the status -/

/-- The answer that is passed on is that of the backend called last. -/
theorem lastCalled_served {attempts : String → Attempt} {candidates : List Backend}
    {actualBackend : String} {statusCode : Nat}
    (h : (callBackends attempts candidates actualBackend).2.2 = some statusCode) :
    ∃ backend ∈ candidates, lastCalled attempts candidates = some backend ∧
      attempts backend.id = .answered statusCode ∧ 200 ≤ statusCode ∧ statusCode < 300 := by
  induction candidates generalizing actualBackend with
  | nil => cases h
  | cons candidate candidates ih =>
    rcases callBackends_cons attempts candidate candidates actualBackend with
      ⟨code, hattempt, hcode, heq⟩ | ⟨hfailed, heq⟩
    · rw [heq] at h
      cases h
      have hsuccess : (attempts candidate.id).success = true := by
        rw [hattempt]
        simpa [Attempt.success] using hcode
      exact ⟨candidate, List.mem_cons_self, if_pos hsuccess, hattempt, hcode⟩
    · rw [heq] at h
      obtain ⟨backend, hmem, hlast, hattempt, hcode⟩ := ih h
      refine ⟨backend, List.mem_cons_of_mem _ hmem, ?_, hattempt, hcode⟩
      rw [lastCalled, if_neg (by simp [hfailed]), hlast]
      rfl

/-- A routed request ends with the status of an answer, or with an error. -/
theorem forward_status (visit : Visit) (failMode : Policy.FailMode) {handled : Handled}
    (hnew : handled.routed = false) (hrouted : (visit.forward failMode handled).routed = true) :
    (visit.forward failMode handled).status =
        (callBackends visit.attempts visit.candidates "").2.2.bind visit.sent ∧
        (callBackends visit.attempts visit.candidates "").2.2.isSome = true ∨
      (callBackends visit.attempts visit.candidates "").2.2 = none ∧
        ∃ status, (visit.forward failMode handled).status = some status ∧ 400 ≤ status := by
  unfold Visit.forward at hrouted ⊢
  dsimp only at hrouted ⊢
  split at hrouted
  · rw [hnew] at hrouted
    cases hrouted
  · by_cases hempty : visit.candidates = []
    · rw [if_pos hempty, hempty]
      exact .inr ⟨rfl, 503, rfl, by decide⟩
    · rw [if_neg hempty]
      cases hanswer : (callBackends visit.attempts visit.candidates "").2.2 with
      | none => exact .inr ⟨rfl, 502, rfl, by decide⟩
      | some statusCode => exact .inl ⟨rfl, rfl⟩

theorem admitted_status (visit : Visit) (failMode : Policy.FailMode) {handled : Handled}
    (hnew : handled.routed = false) (hrouted : (visit.admitted failMode handled).routed = true) :
    (visit.admitted failMode handled).status =
        (callBackends visit.attempts visit.candidates "").2.2.bind visit.sent ∧
        (callBackends visit.attempts visit.candidates "").2.2.isSome = true ∨
      (callBackends visit.attempts visit.candidates "").2.2 = none ∧
        ∃ status, (visit.admitted failMode handled).status = some status ∧ 400 ≤ status := by
  unfold Visit.admitted at hrouted ⊢
  cases hparsed : visit.parsed with
  | error err =>
    rw [hparsed] at hrouted
    cases hnew.symm.trans hrouted
  | ok stream =>
    rw [hparsed] at hrouted
    dsimp only at hrouted ⊢
    cases hadmission : admission failMode visit.result visit.err .null with
    | error refused =>
      rw [hadmission] at hrouted
      cases hresult : visit.result <;> rw [hresult] at hrouted <;> cases hnew.symm.trans hrouted
    | ok _ =>
      rw [hadmission] at hrouted
      refine forward_status visit failMode ?_ hrouted
      cases visit.result <;> exact hnew

/-- What the client gets of a routed request. -/
theorem handle_status (visit : Visit) (hrouted : visit.handle.routed = true) :
    visit.handle.status = visit.served.bind visit.sent ∧ visit.served.isSome = true ∨
      visit.served = none ∧ ∃ status, visit.handle.status = some status ∧ 400 ≤ status := by
  have hserved : visit.served = (callBackends visit.attempts visit.candidates "").2.2 :=
    if_pos hrouted
  rw [hserved]
  unfold Visit.handle at hrouted ⊢
  dsimp only at hrouted ⊢
  split at hrouted
  · cases hrouted
  · rename_i hpost
    rw [if_neg hpost]
    cases hrequestID : visit.requestID with
    | none =>
      rw [hrequestID] at hrouted
      cases hrouted
    | some requestID =>
      rw [hrequestID] at hrouted
      dsimp only at hrouted ⊢
      cases haccess : visit.access with
      | refused | limited =>
        rw [haccess] at hrouted
        cases hrouted
      | «open» =>
        rw [haccess] at hrouted
        exact admitted_status visit .closed rfl hrouted
      | acquired tenantID failMode =>
        rw [haccess] at hrouted
        exact admitted_status visit failMode rfl hrouted

namespace TimedVisit

variable {e : TimedVisit}

/-- The status of the writer is the one of the request. -/
theorem status_writer (hrouted : e.visit.handle.routed = true) :
    (if e.writer.status = 0 then 200 else e.writer.status) = e.visit.status := by
  unfold writer calls
  rcases handle_status e.visit hrouted with ⟨hstatus, hserved⟩ | ⟨hserved, status, hstatus, hle⟩
  · obtain ⟨statusCode, hcode⟩ := Option.isSome_iff_exists.mp hserved
    unfold Visit.status
    rw [hstatus, hcode, Option.bind_some, e.sent_eq, ObservedWriter.sent]
    dsimp only
    split <;> rfl
  · have hvisit : e.visit.status = status := by
      unfold Visit.status
      rw [hstatus, Option.getD_some]
    have hne : status ≠ 0 := by omega
    have hrun : (ObservedWriter.run [.writeHeader status,
        .write e.refusal.1 e.refusal.2.1 e.refusal.2.2]).status = status :=
      ObservedWriter.write_status (ObservedWriter.new.writeHeader status) hne _ _ _
    rw [hserved, hvisit]
    dsimp only
    rw [hrun, if_neg hne]

/-- The clock does not go back from the start of the request to its outcome. -/
structure Clock (e : TimedVisit) : Prop where
  positive : Time.zero < e.started
  order : WriterCall.Chronological e.observed e.started e.calls

/-- The times of the writes. -/
theorem Clock.writes (h : e.Clock) : e.writer.writeTimes.Pairwise (· ≤ ·) ∧
    ∀ t ∈ e.writer.writeTimes, Within e.started e.observed t := by
  unfold writer
  rw [ObservedWriter.writeTimes_run]
  obtain ⟨hsorted, hbounds⟩ := h.order.written
  exact ⟨hsorted, fun t ht => ⟨(hbounds t ht).1, (hbounds t ht).2⟩⟩

/-- The time of the first write. -/
theorem Clock.first (h : e.Clock) (hwritten : e.writer.firstWriteAt.isZero = false) :
    Within e.started e.observed e.writer.firstWriteAt := by
  rcases ObservedWriter.firstWriteAt_foldl .new e.calls with hnew | hmem
  · have hzero : e.writer.firstWriteAt = .zero := hnew
    rw [hzero] at hwritten
    exact absurd hwritten (by decide)
  · obtain ⟨hlow, hhigh⟩ := h.order.opened _ hmem
    exact ⟨hlow, hhigh⟩

/-- What an outcome says, with exact numbers. -/
structure Measured (e : TimedVisit) (o : DecisionOutcome K) : Prop where
  /-- The client's status. -/
  statusCode : o.statusCode = .ofNat e.visit.status
  /-- A success is a 2xx answer of the named backend. -/
  success : o.success = true → ∃ statusCode, e.visit.attempts o.actualBackend =
    .answered statusCode ∧ 200 ≤ statusCode ∧ statusCode < 300
  chunks : o.streamChunkCount = .ofNat (e.calls.filterMap WriterCall.written).length
  ttft_nonneg : 0 ≤ o.ttftMS
  /-- Without a time of the backend. -/
  ttft_le : optionalHeaderPositiveFloat (F := K) (e.header "X-Kavora-TTFT-MS") = none →
    o.ttftMS ≤ o.e2eMS
  gap_isSome : o.streamGapP95MS.isSome ↔ 2 ≤ (e.calls.filterMap WriterCall.written).length
  gap : ∀ gap ∈ o.streamGapP95MS, (0 ≤ gap ∧ gap ≤ o.e2eMS) ∧
    Interpolated (95 / 100) (intervalsOf K (e.calls.filterMap WriterCall.written)) gap
  tpot_isSome : o.tpotMS.isSome ↔
    2 ≤ (e.calls.filterMap WriterCall.written).length ∧ 1 < o.outputTokens
  /-- The tokens after the first one, at this rate, take from the first write to the last. -/
  tpot : ∀ tpot ∈ o.tpotMS, 0 ≤ tpot ∧
    ∃ first ∈ (e.calls.filterMap WriterCall.written).head?,
      ∃ last ∈ (e.calls.filterMap WriterCall.written).getLast?,
        tpot * ((o.outputTokens.toInt : K) - 1) = milliseconds K (last.sub first) ∧
          milliseconds K (last.sub first) ≤ o.e2eMS
  ratio : ∀ ratio ∈ o.observedCacheHitRatio, 0 ≤ ratio ∧ ratio ≤ 1
  matched : ∀ matched ∈ o.observedMatchedTokens, 0 ≤ matched
  outputTokens : 0 ≤ o.outputTokens

section

omit [IsStrictOrderedRing K] [FloorRing K] [Rounding K] [Rounding.Lawful K]

theorem realized_routed : (e.realized K).routed = e.visit.handle.routed := by
  unfold realized
  dsimp only
  split <;> rfl

theorem realized_backend {statusCode : Nat} (hserved : e.visit.served = some statusCode) :
    e.visit.attempts (e.realized K).actualBackend = .answered statusCode ∧
      200 ≤ statusCode ∧ statusCode < 300 := by
  have hrouted : e.visit.handle.routed = true := by
    by_contra hrouted
    rw [Visit.served, if_neg hrouted] at hserved
    cases hserved
  rw [Visit.served, if_pos hrouted] at hserved
  obtain ⟨backend, -, hlast, hattempt, hcode⟩ := lastCalled_served hserved
  have hactual : (e.realized K).actualBackend = backend.id := by
    unfold realized
    dsimp only
    rw [hlast]
    split <;> rfl
  rw [hactual]
  exact ⟨hattempt, hcode⟩

/-- The time to the first token that the backend gives. -/
theorem realized_ttft {ttft : K} (h : (e.realized K).ttftMS = some ttft) :
    optionalHeaderPositiveFloat (e.header "X-Kavora-TTFT-MS") = some ttft := by
  unfold realized at h
  dsimp only at h
  split at h
  · cases h
  · exact h

theorem realized_matched {matched : Int64} (h : (e.realized K).matchedTokens = some matched) :
    0 ≤ matched := by
  unfold realized at h
  dsimp only at h
  split at h
  · cases h
  · exact optionalHeaderInt_nonneg h

theorem realized_outputTokens : 0 ≤ (e.realized K).outputTokens := by
  unfold realized
  dsimp only
  split
  · exact Int64.le_refl 0
  · dsimp only
    split
    · exact optionalHeaderIntValue_nonneg _
    · cases e.responseBody with
      | none => decide
      | some body => exact completionTokens_nonneg body

end

omit [FloorRing K] [Rounding K] [Rounding.Lawful K] in
/-- The hit ratio is that of the backend, or made of the tokens that it has matched. -/
theorem realized_ratio {ratio : K} (h : (e.realized K).cacheHitRatio = some ratio) :
    0 ≤ ratio ∧ ratio ≤ 1 := by
  unfold realized at h
  dsimp only at h
  split at h
  · cases h
  · dsimp only at h
    split at h
    · rename_i matchedTokens _ hmatched
      split at h
      · rename_i hprompt
        cases h
        exact matchedRatio_bounds hprompt (optionalHeaderInt_nonneg hmatched)
      · cases h
    · exact optionalHeaderFloat_bounds h

section

variable {writer : ObservedWriter} {started ended : Time}
  (hsorted : writer.writeTimes.Pairwise (· ≤ ·))
  (hwithin : ∀ t ∈ writer.writeTimes, Within started ended t)

include hsorted hwithin

omit [FloatText K] in
theorem streamGapP95MS_measured (hlength : 2 ≤ writer.writeTimes.length) :
    ∃ gap, streamGapP95MS (F := K) writer = some gap ∧
      (0 ≤ gap ∧ gap ≤ milliseconds K (ended.sub started)) ∧
      Interpolated (95 / 100) (intervalsOf K writer.writeTimes) gap := by
  have hne : intervalsOf K writer.writeTimes ≠ [] := by
    refine List.ne_nil_of_length_pos ?_
    unfold intervalsOf
    rw [List.length_zipWith, List.length_tail]
    omega
  obtain ⟨gap, hgap, hinterpolated⟩ := gapP95_interpolated hne
  have hquantile := hinterpolated.isQuantile ⟨by norm_num, by norm_num⟩
  have hbounds := intervals_within (K := K) hsorted hwithin
  obtain ⟨low, hlow, hlowle⟩ := hquantile.low
  obtain ⟨high, hhigh, hlehigh⟩ := hquantile.high
  refine ⟨gap, ?_, ⟨(hbounds low hlow).1.trans hlowle, hlehigh.trans (hbounds high hhigh).2⟩,
    hinterpolated⟩
  unfold streamGapP95MS
  rw [if_neg (by omega), hgap]

omit [FloorRing K] [FloatText K] [Rounding K] [Rounding.Lawful K] in
theorem tpotMS_measured (observation : RequestOutcomeObservation K)
    (hlength : 2 ≤ writer.writeTimes.length) (htokens : 1 < observation.outputTokens) :
    ∃ tpot, observation.tpotMS writer = some tpot ∧ 0 ≤ tpot ∧
      ∃ first ∈ writer.writeTimes.head?, ∃ last ∈ writer.writeTimes.getLast?,
        tpot * ((observation.outputTokens.toInt : K) - 1) = milliseconds K (last.sub first) ∧
          milliseconds K (last.sub first) ≤ milliseconds K (ended.sub started) := by
  have hpos : 0 < writer.writeTimes.length := by omega
  have hlast : writer.writeTimes.length - 1 < writer.writeTimes.length := by omega
  have hle := List.pairwise_iff_getElem.mp hsorted 0 (writer.writeTimes.length - 1) hpos hlast
    (by omega)
  obtain ⟨hnonneg, hlehigh⟩ := milliseconds_within (K := K) (hwithin _ (List.getElem_mem hpos))
    (hwithin _ (List.getElem_mem hlast)) hle
  have hone : (1 : Int) < observation.outputTokens.toInt := Int64.lt_iff_toInt_lt.mp htokens
  have hdivisor : ofInt (observation.outputTokens.toInt - 1) =
      (observation.outputTokens.toInt : K) - 1 := by
    show ((observation.outputTokens.toInt - 1 : Int) : K) = _
    rw [Int.cast_sub, Int.cast_one]
  have hdivisorPos : (0 : K) < (observation.outputTokens.toInt : K) - 1 := by
    have hcast : ((1 : Int) : K) < observation.outputTokens.toInt := by exact_mod_cast hone
    rw [Int.cast_one] at hcast
    exact sub_pos.mpr hcast
  have hguard : ¬ (writer.writeTimes.length < 2 ∨ observation.outputTokens ≤ 1) := by
    rintro (hshort | hfew)
    · omega
    · exact Int64.not_lt.mpr hfew htokens
  have htpot : (0 : K) ≤ milliseconds K
      (writer.writeTimes[writer.writeTimes.length - 1].sub writer.writeTimes[0]) /
        ((observation.outputTokens.toInt : K) - 1) := div_nonneg hnonneg hdivisorPos.le
  have hfirst : writer.writeTimes.head? = some writer.writeTimes[0] := by
    rw [List.head?_eq_getElem?, List.getElem?_eq_getElem hpos]
  have hend : writer.writeTimes.getLast? = some writer.writeTimes[writer.writeTimes.length - 1] := by
    rw [List.getLast?_eq_getElem?, List.getElem?_eq_getElem hlast]
  refine ⟨_, ?_, htpot, _, hfirst, _, hend, div_mul_cancel₀ _ hdivisorPos.ne', hlehigh⟩
  · unfold RequestOutcomeObservation.tpotMS
    rw [hfirst, hend]
    dsimp only
    rw [if_neg hguard, hdivisor, if_neg]
    intro hlt
    have hnegative := of_decide_eq_true hlt
    rw [show (ofInt 0 : K) = 0 from Int.cast_zero] at hnegative
    exact absurd htpot (not_le.mpr hnegative)

end

omit [FloorRing K] [Rounding K] [Rounding.Lawful K] in
theorem ttftMS_measured (h : e.Clock) : 0 ≤ e.ttftMS K ∧
    (optionalHeaderPositiveFloat (F := K) (e.header "X-Kavora-TTFT-MS") = none →
      e.ttftMS K ≤ milliseconds K (e.observed.sub e.started)) := by
  have hstarted : Within e.started e.observed e.started := ⟨le_refl _, h.order.le⟩
  unfold ttftMS
  cases hheader : (e.realized K).ttftMS with
  | some ttft =>
    refine ⟨(optionalHeaderPositiveFloat_pos (realized_ttft hheader)).le, fun hnone => ?_⟩
    rw [realized_ttft hheader] at hnone
    cases hnone
  | none =>
    dsimp only
    split
    · rename_i hstream
      have hfirst := h.first hstream.2
      obtain ⟨hnonneg, hle⟩ := milliseconds_within (K := K) hstarted hfirst hfirst.after
      exact ⟨hnonneg, fun _ => hle⟩
    · rw [show (ofInt 0 : K) = 0 from Int.cast_zero]
      exact ⟨le_refl _, fun _ => milliseconds_nonneg (elapsed_nonneg h.order.le)⟩

omit [IsStrictOrderedRing K] [FloorRing K] [FloatText K] [Rounding K] [Rounding.Lawful K] in
theorem tpotMS_none {writer : ObservedWriter} {observation : RequestOutcomeObservation K}
    (h : writer.writeTimes.length < 2 ∨ observation.outputTokens ≤ 1) :
    observation.tpotMS writer = none := by
  unfold RequestOutcomeObservation.tpotMS
  split
  · exact if_pos h
  · rfl

theorem tpot_missing {n : Nat} {tokens : Int64} (h : ¬ (2 ≤ n ∧ 1 < tokens)) :
    n < 2 ∨ tokens ≤ 1 := by
  rcases not_and_or.mp h with hshort | hfew
  · exact .inl (by omega)
  · exact .inr (Int64.not_lt.mp hfew)

/-- **The numbers of an outcome are those of the clock** and of the headers of the backend that it
names, whatever the handler does to its writer. -/
theorem outcome_measured (h : e.Clock) {o : DecisionOutcome K} (ho : e.outcome K = some o) :
    Measured e o := by
  obtain ⟨hmade, heq⟩ := Option.ite_none_right_eq_some.mp ho
  have hrouted : e.visit.handle.routed = true := realized_routed (K := K) ▸ hmade.2
  have hstatus := status_writer hrouted
  obtain ⟨hsorted, hwithin⟩ := h.writes
  have htimes : e.writer.writeTimes = e.calls.filterMap WriterCall.written :=
    ObservedWriter.writeTimes_run e.calls
  cases heq
  constructor
  all_goals dsimp only
  case statusCode => rw [hstatus]
  case success =>
    intro hsuccess
    rw [hstatus, Bool.and_eq_true, decide_eq_true_eq, decide_eq_true_eq] at hsuccess
    rcases handle_status e.visit hrouted with ⟨-, hserved⟩ | ⟨-, status, herror, hle⟩
    · obtain ⟨statusCode, hcode⟩ := Option.isSome_iff_exists.mp hserved
      exact ⟨statusCode, realized_backend hcode⟩
    · have hvisit : e.visit.status = status := by
        unfold Visit.status
        rw [herror, Option.getD_some]
      omega
  case chunks => rw [htimes]
  case ttft_nonneg => exact (ttftMS_measured h).1
  case ttft_le => exact (ttftMS_measured h).2
  case gap_isSome =>
    rw [← htimes]
    by_cases hlength : 2 ≤ e.writer.writeTimes.length
    · obtain ⟨gap, hgap, -⟩ := streamGapP95MS_measured (K := K) hsorted hwithin hlength
      simp [hgap, hlength]
    · rw [streamGapP95MS, if_pos (by omega)]
      simp [hlength]
  case gap =>
    intro gap hgap
    rw [← htimes]
    by_cases hlength : 2 ≤ e.writer.writeTimes.length
    · obtain ⟨gap', hgap', hmeasured⟩ :=
        streamGapP95MS_measured (K := K) hsorted hwithin hlength
      obtain rfl := Option.some.inj (hgap'.symm.trans hgap)
      exact hmeasured
    · rw [streamGapP95MS, if_pos (by omega)] at hgap
      cases hgap
  case tpot_isSome =>
    rw [← htimes]
    by_cases hmeasured : 2 ≤ e.writer.writeTimes.length ∧ 1 < (e.realized K).outputTokens
    · obtain ⟨tpot, htpot, -⟩ := tpotMS_measured hsorted hwithin _ hmeasured.1 hmeasured.2
      simp [htpot, hmeasured]
    · rw [tpotMS_none (tpot_missing hmeasured)]
      simpa using fun hlength => Int64.not_lt.mp fun htokens => hmeasured ⟨hlength, htokens⟩
  case tpot =>
    intro tpot htpot
    rw [← htimes]
    by_cases hmeasured : 2 ≤ e.writer.writeTimes.length ∧ 1 < (e.realized K).outputTokens
    · obtain ⟨tpot', htpot', hbounds⟩ := tpotMS_measured hsorted hwithin _ hmeasured.1 hmeasured.2
      obtain rfl := Option.some.inj (htpot'.symm.trans htpot)
      exact hbounds
    · rw [tpotMS_none (tpot_missing hmeasured)] at htpot
      cases htpot
  case ratio => exact fun ratio hratio => realized_ratio hratio
  case matched => exact fun matched hmatched => realized_matched hmatched
  case outputTokens => exact realized_outputTokens

end TimedVisit

end

/-! ## A stream of three chunks -/

namespace MeasuredSample

attribute [local instance] Float64.Exact.float64

local instance : Float64.Exact Rat := ⟨fun _ => 1, fun x => (x + 1 / 2).floor⟩
local instance : FloatText Rat := integerText
local instance : Rounding Rat := ⟨Int.floor, Int.ceil, fun x => x⟩
local instance : Rounding.Lawful Rat := ⟨fun _ => rfl, fun _ => rfl⟩

def backend : Backend where
  id := "backend"
  url := { scheme := "http", host := "backend", text := "http://backend" }
  weight := 1
  models := ∅
  healthPath := "/health"
  attributes := ∅

/-- Three chunks with their times. -/
def chunks : List WriterCall :=
  [.writeHeader 200, .write 10 1000000000 1000000000, .flush, .write 10 1200000000 1200000000, .flush,
    .write 10 1500000000 1500000000, .flush]

def visit : Visit where
  method := "POST"
  path := "/v1/chat/completions"
  requestID := some "req_1"
  access := .acquired "tenant" .open
  parsed := .ok true
  result := none
  err := false
  flusher := true
  opening := .absent
  candidates := [backend]
  attempts _ := .answered 200
  sent _ := some 200
  duration := 2000000000
  durationMS := 2000

def streamed : TimedVisit where
  visit := visit
  started := 0
  passed _ := chunks
  sent_eq _ := rfl
  refusal := (1, 0, 0)
  refusal_pos := by decide
  model := "model"
  resolved := none
  header name := if name = "X-Kavora-Output-Tokens" then "6" else ""
  responseBody := none
  observed := 2000000000
  completedAt := 2000000000

/-- The outcome has the gaps of 200 and 300 ms and five tokens in 500 ms. -/
theorem outcome_measured_streamed :
    (streamed.outcome Rat).map (fun o => (o.ttftMS, o.streamGapP95MS, o.tpotMS)) =
        some (1000, some 295, some 100) ∧
      ∀ o, streamed.outcome Rat = some o → TimedVisit.Measured streamed o := by
  have hclock : streamed.Clock := ⟨by decide, by decide +kernel⟩
  exact ⟨by decide +kernel, fun o ho => TimedVisit.outcome_measured hclock ho⟩

end MeasuredSample

end Kavora.Gateway
