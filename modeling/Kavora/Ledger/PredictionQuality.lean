import Kavora.Lib.Grouping
import Kavora.Lib.Statistics
import Kavora.Ledger.Outcomes

/-!
# The quality of predictions (`DecisionLedger.PredictionQuality`)

One pass over the recent decisions collects the errors of the predictions and, by the predicted
probability and by the quality of the evidence, two maps of totals (`QualityTally`). The report has
the means of these totals.

* `DecisionLedger.samples`: the recent decisions with an outcome and an error.
* `QualityTally.of_samples`: what the pass collects, as sums over the samples.
* `qualityRuns`: any calls on a new ledger; its errors are absolute (`qualityRuns_absolute`).
-/

namespace Kavora.Ledger

open Lib Lib.Grouping
open Lib.Go hiding Field
open Float64 (ofInt)

/-- The predictions of a range of probabilities. -/
structure SLOCalibrationBucket (F : Type) where
  bucket : String
  samples : Nat
  predictedProbability : F
  actualViolationRate : F
  predictedProbabilityTotal : F
  actualViolations : Nat

/-- The errors of the predictions on evidence of one quality. -/
structure EvidenceQualityError (F : Type) where
  evidenceQuality : String
  samples : Nat
  maeMS : F
  cacheSamples : Nat
  cacheHitMAE : F
  absoluteErrorTotal : F
  cacheErrorTotal : F

/-- The report on the predictions. -/
structure PredictionQuality (F : Type) where
  samples : Nat
  maeMS : F
  p95AbsoluteErrorMS : F
  meanSignedErrorMS : F
  status : String
  sloCalibration : List (SLOCalibrationBucket F)
  evidence : List (EvidenceQualityError F)

variable {F : Type} [Float64 F]

/-! ## The report -/

/-- The probability that was predicted for a backend, or zero. -/
def predictedProbability (decision : Decision F) (backendID : String) : F :=
  match candidateForBackend decision.candidates.toList backendID with
  | none => ofInt 0
  | some candidate => candidate.sloViolationProbability

/-- The range of a probability. -/
def probabilityBucket (probability : F) : String :=
  if Float64.lt probability (ofInt 2 / ofInt 10) then "0-20%"
  else if Float64.lt probability (ofInt 4 / ofInt 10) then "20-40%"
  else if Float64.lt probability (ofInt 6 / ofInt 10) then "40-60%"
  else if Float64.lt probability (ofInt 8 / ofInt 10) then "60-80%"
  else "80-100%"

/-- A total over a count; `none` if that divides by zero. -/
def dividedBy (total : F) (count : Nat) : Option F :=
  if count = 0 then none else some (total / ofInt count)

theorem dividedBy_of_pos {count : Nat} (h : 0 < count) (total : F) :
    dividedBy total count = some (total / ofInt count) := if_neg h.ne'

/-- `none` if an index is out of range. -/
def percentileFloat [Rounding F] (values : List F) (percentile : F) : Option F :=
  let ordered := sortFloat64s values
  let item (i : Int) : Option F := if i < 0 then none else ordered[i.toNat]?
  if ordered.length = 1 then item 0
  else
    let position := percentile * ofInt (ordered.length - 1)
    let lower := Rounding.floor position
    let upper := Rounding.ceil position
    if lower = upper then item lower
    else
      (item lower).bind fun low =>
        (item upper).map fun high => low + (high - low) * (position - ofInt lower)

namespace SLOCalibrationBucket

/-- A range without predictions. -/
def new (bucket : String) : SLOCalibrationBucket F where
  bucket
  samples := 0
  predictedProbability := ofInt 0
  actualViolationRate := ofInt 0
  predictedProbabilityTotal := ofInt 0
  actualViolations := 0

/-- One more prediction of the range. -/
def add (sloMS probability : F) (outcome : DecisionOutcome F) (bucket : SLOCalibrationBucket F) :
    SLOCalibrationBucket F :=
  { bucket with
    samples := bucket.samples + 1
    predictedProbabilityTotal := bucket.predictedProbabilityTotal + probability
    actualViolations :=
      if Float64.lt (ofInt 0) sloMS && Float64.lt sloMS outcome.ttftMS then
        bucket.actualViolations + 1
      else bucket.actualViolations }

/-- A bucket with its means; `none` if one of them divides by zero. -/
def close (bucket : SLOCalibrationBucket F) : Option (SLOCalibrationBucket F) := do
  let predictedProbability ← dividedBy bucket.predictedProbabilityTotal bucket.samples
  let actualViolationRate ← dividedBy (ofInt bucket.actualViolations) bucket.samples
  some
    { bucket with
      predictedProbability
      actualViolationRate
      predictedProbabilityTotal := ofInt 0 }

end SLOCalibrationBucket

namespace EvidenceQualityError

/-- A quality without predictions. -/
def new (evidenceQuality : String) : EvidenceQualityError F where
  evidenceQuality
  samples := 0
  maeMS := ofInt 0
  cacheSamples := 0
  cacheHitMAE := ofInt 0
  absoluteErrorTotal := ofInt 0
  cacheErrorTotal := ofInt 0

/-- One more error of the quality. -/
def add (predictionError : PredictionError F) (group : EvidenceQualityError F) :
    EvidenceQualityError F :=
  let group :=
    { group with
      samples := group.samples + 1
      absoluteErrorTotal := group.absoluteErrorTotal + predictionError.ttftAbsoluteMS }
  match predictionError.cacheHitAbsoluteError with
  | none => group
  | some cacheError =>
    { group with
      cacheSamples := group.cacheSamples + 1
      cacheErrorTotal := group.cacheErrorTotal + cacheError }

/-- A group with its means; `none` if one of them divides by zero. -/
def close (group : EvidenceQualityError F) : Option (EvidenceQualityError F) := do
  let maeMS ← dividedBy group.absoluteErrorTotal group.samples
  let cacheHitMAE ←
    if 0 < group.cacheSamples then dividedBy group.cacheErrorTotal group.cacheSamples
    else some group.cacheHitMAE
  some
    { group with
      maeMS
      cacheHitMAE
      absoluteErrorTotal := ofInt 0
      cacheErrorTotal := ofInt 0 }

end EvidenceQualityError

/-- The evidence quality that a group is named by. -/
def PredictionError.quality (predictionError : PredictionError F) : String :=
  if predictionError.evidenceQuality = "" then "missing" else predictionError.evidenceQuality

/-- The variables of the loop. -/
structure QualityTally (F : Type) where
  errors : List F
  signedTotal : F
  buckets : Map String (SLOCalibrationBucket F)
  evidence : Map String (EvidenceQualityError F)

namespace QualityTally

/-- A tally of nothing. -/
def new : QualityTally F where
  errors := []
  signedTotal := ofInt 0
  buckets := ∅
  evidence := ∅

/-- One iteration. -/
def add (sloMS : F) (tally : QualityTally F) (decision : Decision F) : QualityTally F :=
  match decision.outcome, decision.predictionError with
  | some outcome, some predictionError =>
    let probability := predictedProbability decision outcome.actualBackend
    let bucketName := probabilityBucket probability
    let bucket := tally.buckets.index bucketName (.new bucketName)
    let quality := predictionError.quality
    let group := tally.evidence.index quality (.new quality)
    { errors := tally.errors ++ [predictionError.ttftAbsoluteMS]
      signedTotal := tally.signedTotal + predictionError.ttftSignedMS
      buckets := tally.buckets.insert bucketName (bucket.add sloMS probability outcome)
      evidence := tally.evidence.insert quality (group.add predictionError) }
  | _, _ => tally

/-- The report after the loop; `none` if it divides by zero or an index is out of range. -/
def report [Rounding F] (tally : QualityTally F) : Option (PredictionQuality F) :=
  let samples := tally.errors.length
  if samples = 0 then
    some
      { samples
        maeMS := ofInt 0
        p95AbsoluteErrorMS := ofInt 0
        meanSignedErrorMS := ofInt 0
        status := "insufficient_evidence"
        sloCalibration := []
        evidence := [] }
  else do
    let maeMS ← dividedBy (tally.errors.foldl (· + ·) (ofInt 0)) samples
    let meanSignedErrorMS ← dividedBy tally.signedTotal samples
    let p95AbsoluteErrorMS ← percentileFloat tally.errors (ofInt 95 / ofInt 100)
    let sloCalibration ← (sortStrings tally.buckets.keys).mapM fun name =>
      (tally.buckets.index name (.new name)).close
    let evidence ← (sortStrings tally.evidence.keys).mapM fun name =>
      (tally.evidence.index name (.new name)).close
    some
      { samples
        maeMS
        p95AbsoluteErrorMS
        meanSignedErrorMS
        status :=
          if 3 ≤ samples then
            if Float64.lt (ofInt 25) maeMS || Float64.lt (ofInt 50) p95AbsoluteErrorMS then
              "drifting"
            else "calibrated"
          else "insufficient_evidence"
        sloCalibration
        evidence }

end QualityTally

namespace DecisionLedger

variable [FloatText F]

/-- `PredictionQuality`: the report on the last decisions, if one has an error. -/
def predictionQuality [Rounding F] (ledger : DecisionLedger F) (limit : Int) (sloMS : F) :
    Option (PredictionQuality F) :=
  ((ledger.recent limit).foldl (QualityTally.add sloMS) .new).report

end DecisionLedger

/-! ## Samples -/

/-- A decision with its outcome and the error of its prediction. -/
structure Sample (F : Type) where
  decision : Decision F
  outcome : DecisionOutcome F
  predictionError : PredictionError F

namespace Sample

def probability (sample : Sample F) : F :=
  predictedProbability sample.decision sample.outcome.actualBackend

def bucket (sample : Sample F) : String := probabilityBucket sample.probability

def quality (sample : Sample F) : String := sample.predictionError.quality

def absolute (sample : Sample F) : F := sample.predictionError.ttftAbsoluteMS

/-- The error of the cache prediction, if there was one. -/
def cacheError (sample : Sample F) : Option F := sample.predictionError.cacheHitAbsoluteError

def signed (sample : Sample F) : F := sample.predictionError.ttftSignedMS

end Sample

/-- What a decision counts with, if it has an outcome and an error. -/
def Decision.sample (decision : Decision F) : Option (Sample F) :=
  decision.outcome.bind fun outcome =>
    decision.predictionError.map fun predictionError => { decision, outcome, predictionError }

/-- The recent decisions that `PredictionQuality` counts. -/
def DecisionLedger.samples [FloatText F] (ledger : DecisionLedger F) (limit : Int) :
    List (Sample F) :=
  (ledger.recent limit).filterMap Decision.sample

namespace QualityTally

/-- The bucket of a name, and the group of a quality, after samples. -/
def bucketsOf (sloMS : F) : Map String (SLOCalibrationBucket F) → List (Sample F) →
    Map String (SLOCalibrationBucket F) :=
  tally Sample.bucket .new fun bucket sample => bucket.add sloMS sample.probability sample.outcome

/-- The errors by the quality of their evidence. -/
def evidenceOf : Map String (EvidenceQualityError F) → List (Sample F) →
    Map String (EvidenceQualityError F) :=
  tally Sample.quality .new fun group sample => group.add sample.predictionError

/-- The four variables are folded from the samples one by one. -/
theorem foldl_add (sloMS : F) (tally : QualityTally F) (decisions : List (Decision F)) :
    let samples := decisions.filterMap Decision.sample
    decisions.foldl (add sloMS) tally =
      { errors := tally.errors ++ samples.map Sample.absolute
        signedTotal := (samples.map Sample.signed).foldl (· + ·) tally.signedTotal
        buckets := bucketsOf sloMS tally.buckets samples
        evidence := evidenceOf tally.evidence samples } := by
  induction decisions generalizing tally with
  | nil =>
    show tally = { tally with errors := tally.errors ++ [] }
    rw [List.append_nil]
  | cons decision decisions ih =>
    rw [List.foldl_cons, ih]
    cases ho : decision.outcome with
    | none =>
      have hnone : decision.sample = none := by rw [Decision.sample, ho]; rfl
      have hadd : tally.add sloMS decision = tally := by rw [add, ho]
      rw [hadd]
      dsimp only
      rw [List.filterMap_cons_none hnone]
    | some outcome =>
      cases he : decision.predictionError with
      | none =>
        have hnone : decision.sample = none := by rw [Decision.sample, ho, he]; rfl
        have hadd : tally.add sloMS decision = tally := by rw [add, ho, he]
        rw [hadd]
        dsimp only
        rw [List.filterMap_cons_none hnone]
      | some predictionError =>
        have hsome : decision.sample = some { decision, outcome, predictionError } := by
          rw [Decision.sample, ho, he]
          rfl
        dsimp only
        rw [List.filterMap_cons_some hsome, add, ho, he]
        dsimp only
        rw [List.append_assoc]
        rfl

end QualityTally

/-! ## Runs -/

/-- The absolute error of an entry is that of its signed error. -/
def Decision.Absolute (decision : Decision F) : Prop :=
  ∀ e, decision.predictionError = some e → e.ttftAbsoluteMS = Float64.abs e.ttftSignedMS

theorem Decision.withOutcome_absolute {decision : Decision F} (h : decision.Absolute)
    (outcome : DecisionOutcome F) : (decision.withOutcome outcome).Absolute := by
  by_cases herror : HasError decision outcome
  · obtain ⟨c, -, heq⟩ := withOutcome_error herror
    rw [heq]
    intro e he
    obtain rfl := Option.some.inj he
    rfl
  · cases hbare : outcome.isBare with
    | true =>
      rw [withOutcome_bare hbare]
      exact h
    | false =>
      rw [withOutcome_no_error hbare herror]
      exact h

namespace DecisionLedger

/-- The same of every entry. -/
def Absolute (ledger : DecisionLedger F) : Prop :=
  ∀ id decision, ledger.entries id = some decision → decision.Absolute

theorem recordLocked_absolute {ledger : DecisionLedger F} (h : ledger.Absolute)
    {decision : Decision F} (hnone : decision.predictionError = none) :
    (ledger.recordLocked decision).Absolute := by
  intro id entry hentry
  have hkept := entries_of_evict hentry
  rw [Function.update_apply] at hkept
  split at hkept
  · obtain rfl := Option.some.inj hkept
    intro e he
    rw [hnone] at he
    cases he
  · exact h id entry hkept

theorem recordOutcomeLocked_absolute {ledger ledger' : DecisionLedger F} (h : ledger.Absolute)
    {outcome : DecisionOutcome F} (hrecord : ledger.recordOutcomeLocked outcome = some ledger') :
    ledger'.Absolute := by
  obtain ⟨decision, hdecision, rfl⟩ := Option.map_eq_some_iff.mp hrecord
  intro id entry hentry
  dsimp only at hentry
  rw [Function.update_apply] at hentry
  split at hentry
  · obtain rfl := Option.some.inj hentry
    exact Decision.withOutcome_absolute (h _ _ hdecision) outcome
  · exact h id entry hentry

end DecisionLedger

/-- Any calls on a new ledger. A decision that is recorded has no error yet. -/
def qualityRuns [FloatText F] : System (LedgerState F) (LedgerCall F) where
  init s := ∃ max journal, s.ledger = .new max journal
  step s call s' :=
    match call with
    | .record decision now write =>
      decision.predictionError = none ∧
        s' = let result := s.ledger.record s.directory now write decision
          { ledger := result.1, directory := result.2 }
    | .recordOutcome outcome now write =>
      s' = let result := s.ledger.recordOutcome s.directory now write outcome
        { ledger := result.1, directory := result.2 }

theorem qualityRuns_absolute [FloatText F] :
    (qualityRuns (F := F)).Inductive fun s => s.ledger.Absolute where
  init s hinit := by
    obtain ⟨max, journal, hledger⟩ := hinit
    rw [hledger]
    intro id decision hdecision
    cases hdecision
  step s call s' h hstep := by
    cases call with
    | record decision now write =>
      obtain ⟨hnone, rfl⟩ := hstep
      dsimp only
      unfold DecisionLedger.record
      split
      · exact h
      · unfold DecisionLedger.Absolute
        rw [journalAppend_entries]
        exact DecisionLedger.recordLocked_absolute h hnone
    | recordOutcome outcome now write =>
      obtain rfl := hstep
      dsimp only
      unfold DecisionLedger.recordOutcome
      split
      · exact h
      split
      · exact h
      · rename_i ledger' hrecord
        unfold DecisionLedger.Absolute
        rw [journalAppend_entries]
        exact DecisionLedger.recordOutcomeLocked_absolute h hrecord

/-- The samples of a ledger are entries of it. -/
theorem DecisionLedger.samples_absolute [FloatText F] {ledger : DecisionLedger F}
    (h : ledger.Absolute) (limit : Int) :
    ∀ sample ∈ ledger.samples limit, sample.absolute = Float64.abs sample.signed := by
  intro sample hsample
  obtain ⟨decision, hdecision, hsample⟩ := List.mem_filterMap.mp hsample
  obtain ⟨id, -, rfl⟩ := List.mem_map.mp hdecision
  obtain ⟨outcome, -, hsample⟩ := Option.bind_eq_some_iff.mp hsample
  obtain ⟨e, he, rfl⟩ := Option.map_eq_some_iff.mp hsample
  cases hentry : ledger.entries id with
  | none =>
    rw [hentry] at he
    cases he
  | some decision =>
    rw [hentry] at he
    exact h id decision hentry e he

end Kavora.Ledger
