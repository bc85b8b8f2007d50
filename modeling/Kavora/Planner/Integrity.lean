import Kavora.Lib.GoFloat
import Kavora.Ledger.Planned
import Kavora.Planner.Drift

/-!
# The integrity of an experiment

The evaluation checks what the gateway promises: that each request was assigned to an arm with the
probability of the design, and that no window has requests of both arms.

* `PlansUnder`: the steps of a gateway that plans under one experiment.
* `Sound`: what a report on the journal of an experiment says.
* `experiment_integrity`: every report says it, whatever the lifecycle does.
-/

namespace Kavora.Planner

open Lib Lib.Go Ledger
open Float64 (ofInt)

variable {F : Type} [Float64 F] [FloatText F]

/-- The gateway records what it plans under the experiment, and its writes reach their files. -/
def PlansUnder (env : Router.Externals F) (experiment : Experiment.Controller F)
    (s : CrashState F) (event : CrashEvent F) : Prop :=
  AppendsAll s event ∧
    match event with
    | .record decision _ _ => ∃ call : PlanCall experiment, decision = call.decision env
    | _ => True

/-- The settings are those of the experiment. -/
structure Settings.For (settings : Settings F) (experiment : Experiment.Controller F) : Prop where
  experimentID : settings.experimentID = experiment.config.id
  control : settings.controlPolicy = experiment.config.control.policy
  treatment : settings.treatmentPolicy = experiment.config.treatment.policy

/-- What a report says of an experiment. -/
structure Sound [Statistics F] (env : Router.Externals F) (experiment : Experiment.Controller F)
    (settings : Settings F) (joined : List Row) (report : Report F) : Prop where
  /-- No window has rows of both arms. -/
  contaminated : report.integrity.contaminatedWindows = []
  /-- Every row was assigned to an arm with a probability in `(0, 1]`. -/
  assignment : ∀ row ∈ joined,
    assignmentCheck F settings.controlPolicy settings.treatmentPolicy row = some true
  control : armMetrics (armRows settings.controlPolicy (eligibleRows F joined)) settings.sloMS =
    some report.control
  treatment : armMetrics (armRows settings.treatmentPolicy (eligibleRows F joined))
    settings.sloMS = some report.treatment
  /-- No arm has the row of a call without enforcement. -/
  excluded : ∀ call : PlanCall experiment, call.Unenforced →
    ∀ row, Marshal.marshal (call.decision env) = some row.decision →
      row ∉ armRows settings.controlPolicy (eligibleRows F joined) ∧
        row ∉ armRows settings.treatmentPolicy (eligibleRows F joined)

/-! ## Runs -/

theorem mem_addTo {α : Type} {values : String → List α} {p q : String} {a b : α}
    (h : b ∈ addTo values p a q) : b = a ∨ b ∈ values q := by
  unfold addTo at h
  by_cases hq : q = p
  · subst hq
    rw [Function.update_self] at h
    rcases List.mem_append.mp h with h | h
    · exact .inr h
    · exact .inl (List.mem_singleton.mp h)
  · rw [Function.update_of_ne hq] at h
    exact .inr h

/-- Every decision of the journal was planned. -/
def AllPlanned (env : Router.Externals F) (experiment : Experiment.Controller F)
    (s : CrashState F) : Prop :=
  ∀ p, ∀ d ∈ s.decisions p, ∃ call : PlanCall experiment, d = call.decision env

theorem AllPlanned.inductive_inv (env : Router.Externals F)
    (experiment : Experiment.Controller F) :
    (crashRuns.restrict (PlansUnder env experiment)).Inductive (AllPlanned env experiment) where
  init s hs := by
    obtain rfl : s = _ := hs
    intro p d hd
    exact absurd hd List.not_mem_nil
  step s event s' h hstep := by
    obtain ⟨hstep, -, hplanned⟩ := hstep
    cases event with
    | record decision now n =>
      obtain ⟨ledger, -, rfl⟩ := hstep
      intro p d hd
      dsimp only at hd
      split at hd
      · rcases mem_addTo hd with rfl | hd
        · exact hplanned
        · exact h p d hd
      · exact h p d hd
    | recordOutcome outcome now n =>
      obtain ⟨ledger, -, rfl⟩ := hstep
      exact h
    | crash =>
      rw [show s' = _ from hstep]
      exact h
    | start max =>
      obtain ⟨ledger, -, rfl⟩ := hstep
      exact h

/-! ## Rows -/

section

variable {sha64 : String → Nat} {experiment : Experiment.Controller F} {rows : List Row}

/-- The rows are documents of decisions that were assigned to arms. -/
def AssignedRows (sha64 : String → Nat) (experiment : Experiment.Controller F)
    (rows : List Row) : Prop :=
  ∀ row ∈ rows, ∃ d, Assigned sha64 experiment d ∧ Marshal.marshal d = some row.decision

/-- All policies of a window are those of its arm. -/
theorem contaminatedWindows_eq_nil (h : AssignedRows sha64 experiment rows) :
    contaminatedWindows (eligibleRows F rows) = [] := by
  unfold contaminatedWindows
  rw [List.map_eq_nil_iff, List.filter_eq_nil_iff]
  rintro ⟨window, group⟩ hgroup
  dsimp only
  rw [Bool.and_eq_true, decide_eq_true_iff, decide_eq_true_iff]
  rintro ⟨hpool, hseveral⟩
  have hpolicy : ∀ policy ∈ (group.map policyOf).dedup,
      policy = armPolicy sha64 experiment window := by
    intro policy hmem
    obtain ⟨row, hrow, rfl⟩ := List.mem_map.mp (List.mem_dedup.mp hmem)
    obtain ⟨hwindow, heligible⟩ := mem_groups hgroup row hrow
    obtain ⟨hjoined, hunguarded⟩ := List.mem_filter.mp heligible
    obtain ⟨d, hd, hdoc⟩ := h row hjoined
    have hwindow : d.experimentWindow = window := (decision_window hdoc).symm.trans hwindow
    have hguard : d.carryoverGuard = false := by
      unfold isGuarded at hunguarded
      rw [decision_carryoverGuard hdoc, Bool.not_eq_true', Bool.or_eq_false_iff] at hunguarded
      exact hunguarded.2
    have hpolicy : policyOf row = d.assignedPolicy := decision_policyText hdoc
    rw [hpolicy]
    rcases hd.window with hcarryover | hisolated | harm
    · rw [hguard] at hcarryover
      cases hcarryover
    · exact absurd (hwindow.symm.trans hisolated) hpool
    · rw [harm, hwindow]
  have hnodup : (group.map policyOf).dedup.Nodup := List.nodup_dedup _
  cases hdedup : (group.map policyOf).dedup with
  | nil =>
    rw [hdedup] at hseveral
    cases hseveral
  | cons policy policies =>
    cases policies with
    | nil =>
      rw [hdedup] at hseveral
      exact absurd hseveral (lt_irrefl 1)
    | cons policy' policies =>
      rw [hdedup] at hpolicy hnodup
      have hfirst := hpolicy policy List.mem_cons_self
      have hsecond := hpolicy policy' (List.mem_cons_of_mem _ List.mem_cons_self)
      exact (List.nodup_cons.mp hnodup).1 (by rw [hfirst, hsecond]; exact List.mem_cons_self)

/-- No arm has the row of a guarded decision. -/
theorem guarded_not_mem {d : Decision F} (hguard : d.carryoverGuard = true) {row : Row}
    (hdoc : Marshal.marshal d = some row.decision) (policy : String) :
    row ∉ armRows policy (eligibleRows F rows) := by
  intro hmem
  obtain ⟨heligible, -⟩ := List.mem_filter.mp hmem
  obtain ⟨-, hunguarded⟩ := List.mem_filter.mp heligible
  unfold isGuarded at hunguarded
  rw [decision_carryoverGuard hdoc, hguard, Bool.or_true] at hunguarded
  cases hunguarded

variable [Float64.Lawful F] [Float64.Complement F]

omit [FloatText F] in
/-- A finite probability of an accepted experiment is in `(0, 1]`. -/
theorem probability_mem {d : Decision F} (hd : Assigned sha64 experiment d)
    (hzero : Float64.le experiment.config.design.treatmentProbability (ofInt 0) = false)
    (hone : Float64.le (ofInt 1) experiment.config.design.treatmentProbability = false)
    (hfinite : Float64.isNaN d.assignmentProbability = false) :
    Float64.lt (ofInt 0) d.assignmentProbability = true ∧
      Float64.le d.assignmentProbability (ofInt 1) = true := by
  have hbetween : Float64.isNaN experiment.config.design.treatmentProbability = false →
      Float64.lt (ofInt 0) experiment.config.design.treatmentProbability = true ∧
        Float64.lt experiment.config.design.treatmentProbability (ofInt 1) = true := by
    intro hnan
    exact ⟨Float64.Lawful.lt_of_not_le hnan (Float64.Lawful.ofInt_not_nan 0) hzero,
      Float64.Lawful.lt_of_not_le (Float64.Lawful.ofInt_not_nan 1) hnan hone⟩
  rcases hd.probability with h | h | h
  · rw [h]
    exact ⟨Float64.Complement.zero_lt_one, Float64.one_le_one⟩
  · rw [h] at hfinite ⊢
    obtain ⟨hpos, hlt⟩ := hbetween hfinite
    unfold Float64.le
    rw [hlt]
    exact ⟨hpos, rfl⟩
  · rw [h] at hfinite ⊢
    have hnan : Float64.isNaN experiment.config.design.treatmentProbability = false := by
      by_contra hnan
      rw [Float64.Complement.sub_nan (Bool.eq_true_of_not_eq_false hnan)] at hfinite
      cases hfinite
    obtain ⟨hpos, hlt⟩ := hbetween hnan
    exact Float64.Complement.one_sub hpos hlt

variable [LawfulFloatText F] [FiniteFloatText F] [Float64.Irrefl F]

/-- A row passes the check of its assignment. -/
theorem assignmentCheck_assigned {settings : Settings F} (hsettings : settings.For experiment)
    (hpolicies : experiment.config.control.policy ≠ "" ∧ experiment.config.treatment.policy ≠ "")
    (hzero : Float64.le experiment.config.design.treatmentProbability (ofInt 0) = false)
    (hone : Float64.le (ofInt 1) experiment.config.design.treatmentProbability = false)
    {d : Decision F} (hd : Assigned sha64 experiment d) {row : Row}
    (hdoc : Marshal.marshal d = some row.decision) :
    assignmentCheck F settings.controlPolicy settings.treatmentPolicy row = some true := by
  obtain ⟨hread, hwritten⟩ := decision_probability hdoc
  -- A probability that is no number is not written, and with it the whole decision.
  have hnan : Float64.isNaN d.assignmentProbability = false := by
    rcases hwritten with hwritten | hfinite
    · by_contra hnan
      rw [Float64.Complement.not_eq_nan (Bool.eq_true_of_not_eq_false hnan)] at hwritten
      cases hwritten
    · unfold Float64.isNaN
      rw [FiniteFloatText.eq_self hfinite]
      rfl
  obtain ⟨hpos, hle⟩ := probability_mem hd hzero hone hnan
  have hnormal : d.normal.assignmentProbability = d.assignmentProbability := by
    show (if Float64.eq d.assignmentProbability (ofInt 0) = true then ofInt 0
      else d.assignmentProbability) = _
    rw [Float64.eq_zero_of_pos hpos]
    exact if_neg Bool.false_ne_true
  have hpolicy : (!d.assignedPolicy.isEmpty && d.assignedPolicy = settings.controlPolicy ||
      (!d.assignedPolicy.isEmpty && d.assignedPolicy = settings.treatmentPolicy)) = true := by
    rw [hsettings.control, hsettings.treatment]
    rcases hd.policy with h | h
    · rw [h]
      simp [hpolicies.1]
    · rw [h]
      simp [hpolicies.2]
  unfold assignmentCheck
  rw [hread, hnormal, decision_assignedPolicy hdoc, decision_assignedPolicy hdoc, Option.map_some,
    hpos, hle, hpolicy]
  rfl

/-- **An experiment is sound by construction**: every report on the journal of a gateway that plans
under one accepted experiment has no contaminated window, only sound assignments, and no request in
an arm that was planned without enforcement. -/
theorem experiment_integrity [Statistics F] {parse : String → Option Duration}
    {config : Experiment.Config F} (hnew : Experiment.Controller.new parse config = .ok experiment)
    {env : Router.Externals F} {s : CrashState F}
    (hs : (crashRuns.restrict (PlansUnder env experiment)).Reach s) {random : Random}
    {settings : Settings F} (hsettings : settings.For experiment) {report : Report F}
    (hreport : evaluateJournal random settings s = some report) :
    ∃ joined, joinedJournal settings s = some joined ∧
      Sound env experiment settings joined report := by
  obtain ⟨hid, hcontrol, htreatment, hzero, hone⟩ := Experiment.Controller.new_ok hnew
  have hplanned := (AllPlanned.inductive_inv env experiment).reach hs
  have happends : (crashRuns.restrict AppendsAll).Reach s := hs.restrict_mono fun _ _ h => h.1
  obtain ⟨joined, hrel, hjoined, hreport⟩ := evaluateJournal_some happends hreport
  obtain ⟨hcontrolArm, htreatmentArm, -, hcontaminated, -⟩ := reportOf_some hreport
  have hassigned : AssignedRows env.sha64 experiment joined := by
    intro row hrow
    obtain ⟨r, hr, hdoc, -⟩ := exists_record hrel hrow
    obtain ⟨p, -, hp⟩ := List.mem_flatMap.mp (mem_joinedRecords hr)
    obtain ⟨call, hcall⟩ := hplanned p r.1 hp
    exact ⟨r.1, hcall ▸ call.assigned env hid, hdoc⟩
  refine ⟨joined, hjoined, ?_, fun row hrow => ?_, hcontrolArm, htreatmentArm, ?_⟩
  · rw [hcontaminated]
    exact contaminatedWindows_eq_nil hassigned
  · obtain ⟨d, hd, hdoc⟩ := hassigned row hrow
    exact assignmentCheck_assigned hsettings ⟨hcontrol, htreatment⟩ hzero hone hd hdoc
  · intro call hcall row hdoc
    have hguard := call.guarded_of_unenforced env hid hcall
    exact ⟨guarded_not_mem hguard hdoc _, guarded_not_mem hguard hdoc _⟩

end

namespace IntegritySample

open CrashSample (down up)
open DriftSample (statistics first answered)

/-- Texts of the integers and of one half. -/
@[reducible]
def halfText : FloatText Rat where
  isFinite x := x.den = 1 || x = 1 / 2
  format x := if x.den = 1 then intText x.num else "0.5".toList
  parseFloat text :=
    match parseInt text with
    | some n => some (Rat.ofInt n)
    | none => if text = "0.5".toList then some (1 / 2) else none

attribute [local instance] JournalSample.number halfText statistics

local instance : LawfulFloatText Rat where
  isNumber_format {x} _ := by
    show Json.isNumber (if x.den = 1 then intText x.num else "0.5".toList) = true
    split
    · exact isNumber_intText x.num
    · decide +kernel
  parseFloat_format {x} hx := by
    by_cases hden : x.den = 1
    · show halfText.parseFloat (if x.den = 1 then intText x.num else "0.5".toList) = some x
      rw [if_pos hden]
      show (match parseInt (intText x.num) with
        | some n => some (Rat.ofInt n)
        | none => _) = some x
      rw [parseInt_intText]
      exact congrArg some (Rat.coe_int_num_of_den_eq_one hden)
    · have hx : (decide (x.den = 1) || decide (x = 1 / 2)) = true := hx
      rw [decide_eq_false hden, Bool.false_or] at hx
      obtain rfl := of_decide_eq_true hx
      decide +kernel

local instance : FiniteFloatText Rat where
  eq_self _ := decide_eq_true rfl

local instance : Float64.Lawful Rat := Float64.rational_lawful _

local instance : Float64.Irrefl Rat := Float64.rational_irrefl _

local instance : Float64.Complement Rat := Float64.rational_complement _

def env : Router.Externals Rat where
  sorting := .insertion
  sha64 text := if text = "s\x00window-000000" then 0 else 2 ^ 64 - 1
  fixed _ _ := ""

/-- Windows of an hour, the first of them for the treatment. -/
def config : Experiment.Config Rat where
  id := "e"
  control := { policy := "static", backendPool := [] }
  treatment := { policy := "load-aware", backendPool := [] }
  design :=
    { type := "switchback"
      window := "1h"
      warmup := ""
      cooldown := ""
      seed := "s"
      treatmentProbability := 0
      startAt := Time.zero }
  maxDuration := ""

def parse (text : String) : Option Duration := if text = "1h" then some 3600000000000 else none

def experiment : Experiment.Controller Rat where
  config := Experiment.Controller.withProbability config
  window := 3600000000000
  warmup := 0
  cooldown := 0
  maxDuration := 0
  isolated := by decide +kernel

theorem accepted : Experiment.Controller.new parse config = .ok experiment := by
  have hdurations : Experiment.designDurations parse
      (Experiment.Controller.withProbability config).design = .ok (3600000000000, 0, 0) := by
    decide +kernel
  have hstop : Experiment.stopDuration parse
      (Experiment.Controller.withProbability config) = .ok 0 := by
    decide +kernel
  have hpools : Experiment.designPools (Experiment.Controller.withProbability config) = .ok () := by
    decide +kernel
  unfold Experiment.Controller.new
  rw [if_neg (by decide +kernel), if_neg (by decide +kernel)]
  dsimp only
  rw [if_neg (by decide +kernel), hdurations]
  dsimp only
  split
  · rename_i e he
    rw [hpools] at he
    cases he
  · rw [hstop]
    rfl

def call (id : String) (now : Time) : PlanCall experiment where
  controller :=
    { mode := .static
      states := ∅
      cache := { affinity := none, provider := .noCache }
      predictor := .default
      lifecycle := none
      experiment := some experiment
      maxStateAge := 0
      stateLambda := 0 }
  assigns := rfl
  reads := none
  now := now
  clock _ := now
  request :=
    { requestID := id
      tenantID := ""
      model := ""
      cacheKey := ""
      externalCacheKeys := []
      promptTokens := 0
      requirements := ∅
      ttftSloMS := 0 }
  backends := [{ id := "b", attributes := ∅ }]

/-- A request is planned in each of the first two windows. -/
def bothPlanned : CrashState Rat :=
  (up.record 0 ((call "t" 0).decision env)).record 0 ((call "c" 3600000000000).decision env)

def journal : CrashState Rat :=
  (bothPlanned.recordOutcome 0 (answered "t" 100)).recordOutcome 0 (answered "c" 200)

theorem reach_journal : (crashRuns.restrict (PlansUnder env experiment)).Reach journal := by
  have hdown : (crashRuns.restrict (PlansUnder env experiment)).Reach down := .init rfl
  have hup : (crashRuns.restrict (PlansUnder env experiment)).Reach up :=
    hdown.step (i := .start 0) ⟨⟨.new 0 true, rfl, rfl⟩, trivial, trivial⟩
  have htreatment : (crashRuns.restrict (PlansUnder env experiment)).Reach
      (up.record 0 ((call "t" 0).decision env)) :=
    CrashState.reach_record hup ⟨fun _ _ _ => appendsWhole _, _, rfl⟩
  have hplanned : (crashRuns.restrict (PlansUnder env experiment)).Reach bothPlanned :=
    CrashState.reach_record htreatment ⟨fun _ _ _ => appendsWhole _, _, rfl⟩
  have hfirst : (crashRuns.restrict (PlansUnder env experiment)).Reach
      (bothPlanned.recordOutcome 0 (answered "t" 100)) :=
    CrashState.reach_recordOutcome hplanned ⟨fun _ _ _ => appendsWhole _, trivial⟩
  exact CrashState.reach_recordOutcome hfirst ⟨fun _ _ _ => appendsWhole _, trivial⟩

def settings : Settings Rat where
  experimentID := "e"
  controlPolicy := "static"
  treatmentPolicy := "load-aware"
  sloMS := 500
  minRequests := 1
  bootstrapSamples := 1
  seed := 0
  guardrails :=
    { maxErrorRate := none
      maxFallbackRate := none
      maxP95TTFTMS := none
      maxPredictionMAEMS := none }

theorem report_isSome : (evaluateJournal first settings journal).isSome = true := by
  have happends : (crashRuns.restrict AppendsAll).Reach journal :=
    reach_journal.restrict_mono fun _ _ h => h.1
  obtain ⟨rows, hrows, heq⟩ := joinedJournal_rows happends settings
  -- One evaluation shows both: the journal is long.
  obtain ⟨hunbroken, hreport⟩ :
      ((∀ d ∈ inFileOrder journal.directory "decisions" journal.decisions, UnbrokenRecord d) ∧
        ∀ o ∈ inFileOrder journal.directory "outcomes" journal.outcomes, UnbrokenRecord o) ∧
      ((List.mapM rowOf (joinedRecords settings.experimentID
        (inFileOrder journal.directory "decisions" journal.decisions)
        (inFileOrder journal.directory "outcomes" journal.outcomes))).bind
          (reportOf first settings)).isSome = true := by
    decide +kernel
  rw [mapM_rowOf hrows] at hreport
  rw [evaluateJournal_eq, heq, if_pos hunbroken]
  exact hreport

/-- A report on one request in each of two windows. -/
theorem experiment_integrity_two_windows :
    ∃ report ∈ evaluateJournal first settings journal,
      ∃ joined, joinedJournal settings journal = some joined ∧
        Sound env experiment settings joined report := by
  obtain ⟨report, hreport⟩ := Option.isSome_iff_exists.mp report_isSome
  exact ⟨report, hreport, experiment_integrity accepted reach_journal ⟨rfl, rfl, rfl⟩ hreport⟩

end IntegritySample

end Kavora.Planner
