import Kavora.Planner.Records

/-!
# The prediction drift of an experiment

The ledger computes the error of a prediction when the outcome comes, after it has journaled the
decision. The evaluation looks for the error in the journaled decision.

* `realizedErrors`: the errors of the predictions of some records.
* `drift_caught_iff`: the gate fails on a drift if and only if the errors that the decisions
  carried when they were recorded exceed its limit.
-/

namespace Kavora.Planner

open Lib Lib.Go Ledger
open Float64 (ofInt)

variable {F : Type} [Float64 F]

/-- The error of the prediction for the candidate that answered, if it succeeded with a positive
time to the first token. -/
def realizedError (r : Record F) : Option F :=
  if r.2.success && Float64.lt (ofInt 0) r.2.ttftMS then
    (candidateForBackend r.1.candidates.toList r.2.actualBackend).map fun candidate =>
      Float64.abs (r.2.ttftMS - candidate.predictedTTFTMS)
  else none

/-- The errors of the predictions of some records. -/
def realizedErrors (records : List (Record F)) : List F := records.filterMap realizedError

variable [FloatText F] [Statistics F]

/-- The treatment records of an experiment in a journal. -/
def treatmentRecords (settings : Settings F) (s : CrashState F) : List (Record F) :=
  armRecords settings.treatmentPolicy (joinedRecords settings.experimentID
    (inFileOrder s.directory "decisions" s.decisions)
    (inFileOrder s.directory "outcomes" s.outcomes))

/-- `guardrails.get("max_prediction_mae_ms", math.inf)`. -/
def Settings.maxPredictionMAE (settings : Settings F) : F :=
  settings.guardrails.maxPredictionMAEMS.getD Statistics.inf

/-- The mean of the errors exceeds the guardrail. -/
def Exceeds (settings : Settings F) (errors : List F) : Prop :=
  ∃ mean ∈ meanOf errors, Float64.lt settings.maxPredictionMAE mean = true

/-- The report fails the gate, and does not promote the treatment, if the realized errors exceed
the guardrail. -/
def DriftCaught (settings : Settings F) (s : CrashState F) (report : Report F) : Prop :=
  Exceeds settings (realizedErrors (treatmentRecords settings s)) →
    report.safety.predictionDrift = false ∧ report.promotionEligible = false

variable [LawfulFloatText F]

/-- The gate compares the mean of the recorded errors. -/
theorem predictionDrift_eq {random : Random} {settings : Settings F} {s : CrashState F}
    (hs : (crashRuns.restrict AppendsAll).Reach s) {report : Report F}
    (h : evaluateJournal random settings s = some report) :
    report.safety.predictionDrift =
      Float64.le (orZero (meanOf (recordedErrors (treatmentRecords settings s))))
        settings.maxPredictionMAE := by
  obtain ⟨rows, hrel, -, h⟩ := evaluateJournal_some hs h
  obtain ⟨-, htreatment, hsafety, -, -⟩ := reportOf_some h
  obtain ⟨errors, herrors, hmae⟩ := armMetrics_predictionMAE htreatment
  rw [predictionErrors_records (armRows_records settings.treatmentPolicy hrel)] at herrors
  cases herrors
  rw [hsafety]
  unfold safety
  rw [hmae]
  rfl

/-- **A drift is caught** if and only if the errors that the treatment decisions carried when they
were recorded exceed the guardrail, too. -/
theorem drift_caught_iff {random : Random} {settings : Settings F} {s : CrashState F}
    (hs : (crashRuns.restrict AppendsAll).Reach s) {report : Report F}
    (h : evaluateJournal random settings s = some report) :
    DriftCaught settings s report ↔
      (Exceeds settings (realizedErrors (treatmentRecords settings s)) →
        Float64.le (orZero (meanOf (recordedErrors (treatmentRecords settings s))))
          settings.maxPredictionMAE = false) := by
  have hdrift := predictionDrift_eq hs h
  have hpromotion : report.promotionEligible = true → report.safety.predictionDrift = true := by
    obtain ⟨rows, -, -, h⟩ := evaluateJournal_some hs h
    exact (reportOf_some h).2.2.2.2
  unfold DriftCaught
  rw [← hdrift]
  constructor
  · exact fun hcaught hexceeds => (hcaught hexceeds).1
  · intro hcaught hexceeds
    have hfails := hcaught hexceeds
    refine ⟨hfails, Bool.eq_false_iff.mpr fun heligible => ?_⟩
    rw [hpromotion heligible] at hfails
    cases hfails

namespace DriftSample

open JournalSample (lastDay)
open CrashSample (down up step_start)

attribute [local instance] JournalSample.number integerText

local instance : LawfulFloatText Rat := integerText_lawful

@[reducible]
def statistics : Statistics Rat where
  mean values := values.sum / values.length
  floor x := x.floor
  ceil x := x.ceil
  inf := 2 ^ 1024

attribute [local instance] statistics

/-- Every choice is the first item. -/
def first : Random where
  State := Unit
  seed _ := ()
  choice _ _ := (0, ())

/-- A decision for one candidate, for which no time is predicted. -/
def planned (id policy : String) : Decision Rat :=
  { Decision.zero with
    requestID := id
    experimentID := "e"
    assignedPolicy := policy
    assignmentProbability := 1
    experimentWindow := policy
    candidates := .of [{ Candidate.zero with backendID := "b" }] }

def answered (id : String) (ttft : Rat) : DecisionOutcome Rat :=
  { DecisionOutcome.zero with
    requestID := id
    actualBackend := "b"
    ttftMS := ttft
    success := true }

/-- A request of each arm is planned. -/
def bothPlanned : CrashState Rat :=
  (up.record lastDay (planned "c" "control")).record lastDay (planned "t" "treatment")

/-- They are answered, the treatment's after 100 ms. -/
def journal : CrashState Rat :=
  (bothPlanned.recordOutcome lastDay (answered "c" 200)).recordOutcome lastDay (answered "t" 100)

theorem reach_journal : (crashRuns.restrict AppendsAll).Reach journal := by
  have hdown : (crashRuns.restrict AppendsAll).Reach down := .init rfl
  have hup : (crashRuns.restrict AppendsAll).Reach up := hdown.step ⟨step_start, trivial⟩
  have hcontrol : (crashRuns.restrict AppendsAll).Reach
      (up.record lastDay (planned "c" "control")) :=
    CrashState.reach_record hup fun _ _ _ => appendsWhole _
  have hplanned : (crashRuns.restrict AppendsAll).Reach bothPlanned :=
    CrashState.reach_record hcontrol fun _ _ _ => appendsWhole _
  have hfirst : (crashRuns.restrict AppendsAll).Reach
      (bothPlanned.recordOutcome lastDay (answered "c" 200)) :=
    CrashState.reach_recordOutcome hplanned fun _ _ _ => appendsWhole _
  exact CrashState.reach_recordOutcome hfirst fun _ _ _ => appendsWhole _

/-- Errors of more than 10 ms are too large. -/
def settings : Settings Rat where
  experimentID := "e"
  controlPolicy := "control"
  treatmentPolicy := "treatment"
  sloMS := 500
  minRequests := 1
  bootstrapSamples := 1
  seed := 0
  guardrails :=
    { maxErrorRate := none
      maxFallbackRate := none
      maxP95TTFTMS := none
      maxPredictionMAEMS := some 10 }

/-- What the evaluation finds in the journal. One evaluation shows it all: the journal is long. -/
theorem journal_evaluated :
    ((∀ d ∈ inFileOrder journal.directory "decisions" journal.decisions, UnbrokenRecord d) ∧
      ∀ o ∈ inFileOrder journal.directory "outcomes" journal.outcomes, UnbrokenRecord o) ∧
    ((List.mapM rowOf (joinedRecords settings.experimentID
      (inFileOrder journal.directory "decisions" journal.decisions)
      (inFileOrder journal.directory "outcomes" journal.outcomes))).bind
        (reportOf first settings)).map
          (fun report => (report.safety.predictionDrift, report.promotionEligible)) =
      some (true, true) ∧
    100 ∈ meanOf (realizedErrors (treatmentRecords settings journal)) := by
  decide +kernel

/-- The evaluation of an unbroken journal is that of the rows of its records. -/
theorem evaluateJournal_unbroken {s : CrashState Rat} (hs : (crashRuns.restrict AppendsAll).Reach s)
    (hunbroken : (∀ d ∈ inFileOrder s.directory "decisions" s.decisions, UnbrokenRecord d) ∧
      ∀ o ∈ inFileOrder s.directory "outcomes" s.outcomes, UnbrokenRecord o) :
    evaluateJournal first settings s =
      (List.mapM rowOf (joinedRecords settings.experimentID
        (inFileOrder s.directory "decisions" s.decisions)
        (inFileOrder s.directory "outcomes" s.outcomes))).bind (reportOf first settings) := by
  obtain ⟨rows, hrows, heq⟩ := joinedJournal_rows hs settings
  rw [mapM_rowOf hrows, evaluateJournal_eq, heq, if_pos hunbroken]

/-- The evaluation returns a report that passes. -/
theorem report_passes : (evaluateJournal first settings journal).map
    (fun report => (report.safety.predictionDrift, report.promotionEligible)) =
      some (true, true) := by
  rw [evaluateJournal_unbroken reach_journal journal_evaluated.1]
  exact journal_evaluated.2.1

/-- The error of 100 ms passes the gate, and the treatment may be promoted. -/
theorem drift_missed :
    (crashRuns.restrict AppendsAll).Reach journal ∧
      Exceeds settings (realizedErrors (treatmentRecords settings journal)) ∧
      ∃ report ∈ evaluateJournal first settings journal,
        report.safety.predictionDrift = true ∧ report.promotionEligible = true := by
  obtain ⟨report, hreport, hpasses⟩ := Option.map_eq_some_iff.mp report_passes
  refine ⟨reach_journal, ⟨100, journal_evaluated.2.2, by decide +kernel⟩, report, hreport, ?_, ?_⟩
  · exact congrArg Prod.fst hpasses
  · exact congrArg Prod.snd hpasses

/-- A treatment decision that carries the error of its prediction when it is recorded. -/
def carrying (id : String) (ttft : Rat) : Decision Rat :=
  { planned id "treatment" with
    predictionError :=
      some (predictionErrorOf { Candidate.zero with backendID := "b" } (answered id ttft)) }

/-- One request of the control arm and two of the treatment. -/
def carried : CrashState Rat :=
  ((up.record lastDay (planned "c" "control")).record lastDay (carrying "t" 100)).record lastDay
    (carrying "u" 40)

def answeredCarried : CrashState Rat :=
  ((carried.recordOutcome lastDay (answered "c" 200)).recordOutcome lastDay
    (answered "t" 100)).recordOutcome lastDay (answered "u" 40)

theorem reach_carried : (crashRuns.restrict AppendsAll).Reach answeredCarried := by
  have hdown : (crashRuns.restrict AppendsAll).Reach down := .init rfl
  have hup : (crashRuns.restrict AppendsAll).Reach up := hdown.step ⟨step_start, trivial⟩
  have hcontrol : (crashRuns.restrict AppendsAll).Reach
      (up.record lastDay (planned "c" "control")) :=
    CrashState.reach_record hup fun _ _ _ => appendsWhole _
  have hfirst : (crashRuns.restrict AppendsAll).Reach
      ((up.record lastDay (planned "c" "control")).record lastDay (carrying "t" 100)) :=
    CrashState.reach_record hcontrol fun _ _ _ => appendsWhole _
  have hcarried : (crashRuns.restrict AppendsAll).Reach carried :=
    CrashState.reach_record hfirst fun _ _ _ => appendsWhole _
  have hcontrol : (crashRuns.restrict AppendsAll).Reach
      (carried.recordOutcome lastDay (answered "c" 200)) :=
    CrashState.reach_recordOutcome hcarried fun _ _ _ => appendsWhole _
  have hfirst : (crashRuns.restrict AppendsAll).Reach
      ((carried.recordOutcome lastDay (answered "c" 200)).recordOutcome lastDay
        (answered "t" 100)) :=
    CrashState.reach_recordOutcome hcontrol fun _ _ _ => appendsWhole _
  exact CrashState.reach_recordOutcome hfirst fun _ _ _ => appendsWhole _

theorem carried_evaluated :
    ((∀ d ∈ inFileOrder answeredCarried.directory "decisions" answeredCarried.decisions,
        UnbrokenRecord d) ∧
      ∀ o ∈ inFileOrder answeredCarried.directory "outcomes" answeredCarried.outcomes,
        UnbrokenRecord o) ∧
    ((List.mapM rowOf (joinedRecords settings.experimentID
      (inFileOrder answeredCarried.directory "decisions" answeredCarried.decisions)
      (inFileOrder answeredCarried.directory "outcomes" answeredCarried.outcomes))).bind
        (reportOf first settings)).isSome = true ∧
    70 ∈ meanOf (realizedErrors (treatmentRecords settings answeredCarried)) ∧
    Float64.le (orZero (meanOf (recordedErrors (treatmentRecords settings answeredCarried))))
      settings.maxPredictionMAE = false := by
  decide +kernel

/-- The errors of 100 and 40 ms were recorded with the decisions, and the drift is caught. -/
theorem drift_caught_of_carried :
    Exceeds settings (realizedErrors (treatmentRecords settings answeredCarried)) ∧
      ∃ report ∈ evaluateJournal first settings answeredCarried,
        DriftCaught settings answeredCarried report := by
  obtain ⟨hunbroken, hreport, hmean, hrecorded⟩ := carried_evaluated
  rw [← evaluateJournal_unbroken reach_carried hunbroken] at hreport
  obtain ⟨report, hreport⟩ := Option.isSome_iff_exists.mp hreport
  exact ⟨⟨70, hmean, by decide +kernel⟩, report, hreport,
    (drift_caught_iff reach_carried hreport).mpr fun _ => hrecorded⟩

end DriftSample

end Kavora.Planner
