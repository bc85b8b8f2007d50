import Kavora.Lib.Go

/-!
# Experiments (`gateway/internal/experiment/controller.go`)

An experiment assigns each request to its control or its treatment arm: by time windows
(`switchback`), or by request with a backend pool for each arm (`isolated-pool`). `Controller.new`
accepts a configuration; the pools of an isolated-pool experiment are then not empty and disjoint.
-/

namespace Kavora.Experiment

open Lib Lib.Go

/-- A policy with the backends that it may use. -/
structure Arm where
  policy : String
  backendPool : List String
  deriving DecidableEq, Repr

/-- How requests are assigned to the arms. -/
structure Design (F : Type) where
  type : String
  window : String
  warmup : String
  cooldown : String
  seed : String
  treatmentProbability : F
  startAt : Time

/-- An experiment. -/
structure Config (F : Type) where
  id : String
  control : Arm
  treatment : Arm
  design : Design F
  /-- `stop.max_duration`. -/
  maxDuration : String

/-- The arm of a request, with what led to it. -/
structure Assignment (F : Type) where
  experimentID : String
  assignedPolicy : String
  assignmentUnit : String
  assignmentProbability : F
  assignmentSeed : String
  experimentWindow : String
  warmup : Bool
  carryoverGuard : Bool
  backendPool : List String
  experimentActive : Bool
  stopReason : String

/-- The zero value. -/
def Assignment.zero {F : Type} [Float64 F] : Assignment F where
  experimentID := ""
  assignedPolicy := ""
  assignmentUnit := ""
  assignmentProbability := Float64.ofInt 0
  assignmentSeed := ""
  experimentWindow := ""
  warmup := false
  carryoverGuard := false
  backendPool := []
  experimentActive := false
  stopReason := ""

/-! ## Accepting a configuration -/

/-- The name is that of a policy. -/
def validPolicy (policy : String) : Bool :=
  policy = "static" || policy = "load-aware" || policy = "kv-v1" || policy = "kv-v2"

/-- The loop over the IDs of the control pool. -/
def checkControl (seen : List String) : List String → Except String (List String)
  | [] => .ok seen
  | backendID :: ids =>
    if trimSpace backendID = "" ∨ backendID ∈ seen then
      .error "isolated-pool backend IDs must be nonempty and unique"
    else checkControl (backendID :: seen) ids

/-- The loop over the IDs of the treatment pool. -/
def checkTreatment (seen treatmentSeen : List String) : List String → Except String Unit
  | [] => .ok ()
  | backendID :: ids =>
    if trimSpace backendID = "" ∨ backendID ∈ treatmentSeen then
      .error "isolated-pool backend IDs must be nonempty and unique"
    else if backendID ∈ seen then .error "isolated-pool backend pools must be disjoint"
    else checkTreatment seen (backendID :: treatmentSeen) ids

/-- The pools of the arms are not empty and have no backend in common. -/
def checkPools (control treatment : List String) : Except String Unit :=
  if control = [] ∨ treatment = [] then
    .error "isolated-pool experiments require both backend pools"
  else
    match checkControl [] control with
    | .error e => .error e
    | .ok seen => checkTreatment seen [] treatment

theorem checkControl_ok {ids seen seen' : List String} (h : checkControl seen ids = .ok seen') :
    ∀ id, id ∈ seen' ↔ id ∈ seen ∨ id ∈ ids := by
  induction ids generalizing seen with
  | nil =>
    cases h
    simp
  | cons backendID ids ih =>
    rw [checkControl] at h
    split at h
    · cases h
    · intro id
      rw [ih h id, List.mem_cons, List.mem_cons, or_assoc, or_left_comm]

theorem checkTreatment_ok {ids seen treatmentSeen : List String}
    (h : checkTreatment seen treatmentSeen ids = .ok ()) : ∀ id ∈ ids, id ∉ seen := by
  induction ids generalizing treatmentSeen with
  | nil => simp
  | cons backendID ids ih =>
    rw [checkTreatment] at h
    split at h
    · cases h
    split at h
    · cases h
    rename_i hseen
    intro id hid
    rcases List.mem_cons.mp hid with rfl | hid
    · exact hseen
    · exact ih h id hid

/-- Accepted pools are not empty and disjoint. -/
theorem checkPools_ok {control treatment : List String}
    (h : checkPools control treatment = .ok ()) :
    control ≠ [] ∧ treatment ≠ [] ∧ ∀ id ∈ control, id ∉ treatment := by
  unfold checkPools at h
  split at h
  · cases h
  rename_i hne
  split at h
  · cases h
  rename_i seen hseen
  refine ⟨fun hnil => hne (.inl hnil), fun hnil => hne (.inr hnil), fun id hid hid' => ?_⟩
  have hmem : id ∈ seen := (checkControl_ok hseen id).mpr (.inr hid)
  exact checkTreatment_ok h id hid' hmem

variable {F : Type} [Float64 F]

/-- `parse` is `time.ParseDuration`. -/
def optionalDuration (parse : String → Option Duration) (value : String) : Option Duration :=
  if value = "" then some 0 else parse value

/-- The window, the warmup and the cooldown of the design. -/
def designDurations (parse : String → Option Duration) (design : Design F) :
    Except String (Duration × Duration × Duration) :=
  if design.type = "switchback" then
    match parse design.window with
    | none => .error "switchback window must be a positive duration"
    | some window =>
      if window ≤ 0 then .error "switchback window must be a positive duration"
      else match optionalDuration parse design.warmup with
        | none => .error "warmup must be a non-negative duration"
        | some warmup =>
          if warmup < 0 then .error "warmup must be a non-negative duration"
          else match optionalDuration parse design.cooldown with
            | none => .error "warmup plus cooldown must be shorter than the switchback window"
            | some cooldown =>
              if cooldown < 0 ∨ wrap64 (warmup + cooldown) ≥ window then
                .error "warmup plus cooldown must be shorter than the switchback window"
              else .ok (window, warmup, cooldown)
  else if design.type = "isolated-pool" then .ok (0, 0, 0)
  else .error "experiment design must be switchback or isolated-pool"

/-- The pools of a design that isolates them are checked. -/
def designPools (config : Config F) : Except String Unit :=
  if config.design.type = "isolated-pool" then
    checkPools config.control.backendPool config.treatment.backendPool
  else .ok ()

/-- How long the experiment runs; zero is without an end. -/
def stopDuration (parse : String → Option Duration) (config : Config F) : Except String Duration :=
  if config.maxDuration = "" then .ok 0
  else if config.design.startAt.isZero then .error "max_duration requires design.start_at"
  else match parse config.maxDuration with
    | none => .error "max_duration must be a positive duration"
    | some maxDuration =>
      if maxDuration ≤ 0 then .error "max_duration must be a positive duration"
      else .ok maxDuration

/-- An accepted experiment. -/
structure Controller (F : Type) where
  config : Config F
  window : Duration
  warmup : Duration
  cooldown : Duration
  maxDuration : Duration
  isolated : config.design.type = "isolated-pool" →
    config.control.backendPool ≠ [] ∧ config.treatment.backendPool ≠ [] ∧
      ∀ id ∈ config.control.backendPool, id ∉ config.treatment.backendPool

namespace Controller

/-- The probability with its default. -/
def withProbability (config : Config F) : Config F :=
  if Float64.eq config.design.treatmentProbability (Float64.ofInt 0) then
    { config with
      design := { config.design with
        treatmentProbability := Float64.ofInt 1 / Float64.ofInt 2 } }
  else config

/-- `New` checks an experiment. -/
def new (parse : String → Option Duration) (config : Config F) : Except String (Controller F) :=
  if config.id = "" ∨ config.control.policy = "" ∨ config.treatment.policy = "" ∨
      config.design.seed = "" then
    .error "experiment id, policies, and design seed are required"
  else if ¬ validPolicy config.control.policy ∨ ¬ validPolicy config.treatment.policy then
    .error "experiment policies must be static, load-aware, kv-v1, or kv-v2"
  else
    let config := withProbability config
    let probability := config.design.treatmentProbability
    if Float64.le probability (Float64.ofInt 0) ∨ Float64.le (Float64.ofInt 1) probability then
      .error "treatment_probability must be in (0,1)"
    else
      match designDurations parse config.design with
      | .error e => .error e
      | .ok (window, warmup, cooldown) =>
        match hpools : designPools config with
        | .error e => .error e
        | .ok () =>
          match stopDuration parse config with
          | .error e => .error e
          | .ok maxDuration =>
            .ok
              { config, window, warmup, cooldown, maxDuration
                isolated := fun htype => checkPools_ok (by rwa [designPools, if_pos htype] at hpools) }

/-! ## Assignments -/

/-- `fmt.Sprintf("%06d", n)`. -/
def padded (n : Int) : String :=
  .ofList (List.replicate (6 - (toString n).length) '0') ++ toString n

/-- `sample`; `sha64` is the first eight bytes of the SHA-256 of a text as a number. -/
def sample (sha64 : String → Nat) (seed unit : String) : F :=
  Float64.ofInt (sha64 (seed ++ "\x00" ++ unit)) / Float64.ofInt (2 ^ 64 - 1)

/-- The control arm, outside the experiment. -/
def inactiveAssignment (controller : Controller F) (assignment : Assignment F) (reason : String) :
    Assignment F :=
  { assignment with
    assignedPolicy := controller.config.control.policy
    assignmentUnit := "experiment_stop"
    assignmentProbability := Float64.ofInt 1
    experimentWindow := "inactive"
    carryoverGuard := true
    backendPool := controller.config.control.backendPool
    experimentActive := false
    stopReason := reason }

/-- The assignment to one of the arms. -/
def armAssignment (controller : Controller F) (assignment : Assignment F) (useTreatment : Bool) :
    Assignment F :=
  let probability := controller.config.design.treatmentProbability
  let arm := if useTreatment then controller.config.treatment else controller.config.control
  { assignment with
    assignmentProbability := if useTreatment then probability else Float64.ofInt 1 - probability
    assignedPolicy := arm.policy
    backendPool := arm.backendPool }

/-- `Assign`: the arm of a request at a time. -/
def assign (sha64 : String → Nat) (controller : Controller F) (requestID : String) (now : Time) :
    Assignment F :=
  let probability := controller.config.design.treatmentProbability
  let seed := controller.config.design.seed
  let assignment : Assignment F :=
    { (Assignment.zero : Assignment F) with
      experimentID := controller.config.id
      assignmentProbability := probability
      assignmentSeed := seed
      experimentActive := true }
  let start := controller.config.design.startAt
  if ¬ start.isZero ∧ now.before start then
    controller.inactiveAssignment assignment "not_started"
  else if controller.maxDuration > 0 ∧ ¬ start.isZero ∧ now.sub start ≥ controller.maxDuration then
    controller.inactiveAssignment assignment "max_duration_reached"
  else if controller.config.design.type = "switchback" then
    let start := if start.isZero then 0 else start
    let elapsed := if now.sub start < 0 then 0 else now.sub start
    let windowIndex := elapsed.tdiv controller.window
    let offset := elapsed.tmod controller.window
    let warmup : Bool := offset < controller.warmup
    let assignment :=
      { assignment with
        assignmentUnit := "time_window"
        experimentWindow := "window-" ++ padded windowIndex
        warmup
        carryoverGuard := warmup || controller.window - offset ≤ controller.cooldown }
    controller.armAssignment assignment
      (Float64.lt (sample (F := F) sha64 seed assignment.experimentWindow) probability)
  else
    let assignment :=
      { assignment with assignmentUnit := "request", experimentWindow := "isolated-pool" }
    controller.armAssignment assignment (Float64.lt (sample (F := F) sha64 seed requestID) probability)

/-- `ControlAssignment`: the control arm, with the reason for it. -/
def controlAssignment (controller : Controller F) (reason : String) : Assignment F :=
  controller.inactiveAssignment
    { (Assignment.zero : Assignment F) with
      experimentID := controller.config.id
      assignmentSeed := controller.config.design.seed }
    reason

/-- An assignment is to the pool of one of the arms. -/
theorem assign_backendPool (controller : Controller F) (sha64 : String → Nat) (requestID : String)
    (now : Time) :
    (controller.assign sha64 requestID now).backendPool = controller.config.control.backendPool ∨
      (controller.assign sha64 requestID now).backendPool =
        controller.config.treatment.backendPool := by
  have harm : ∀ (assignment : Assignment F) (useTreatment : Bool),
      (controller.armAssignment assignment useTreatment).backendPool =
          controller.config.control.backendPool ∨
        (controller.armAssignment assignment useTreatment).backendPool =
          controller.config.treatment.backendPool := by
    intro assignment useTreatment
    cases useTreatment with
    | false => exact .inl rfl
    | true => exact .inr rfl
  unfold assign
  dsimp only
  split
  · exact .inl rfl
  split
  · exact .inl rfl
  split
  · exact harm _ _
  · exact harm _ _

/-- The experiment has not started, or has run for its maximal duration. -/
def Inactive (controller : Controller F) (now : Time) : Prop :=
  let start := controller.config.design.startAt
  (¬ start.isZero ∧ now.before start) ∨
    (controller.maxDuration > 0 ∧ ¬ start.isZero ∧ now.sub start ≥ controller.maxDuration)

/-- The arm of a unit, which is a window or a request. -/
def usesTreatment (controller : Controller F) (sha64 : String → Nat) (unit : String) : Bool :=
  Float64.lt (sample (F := F) sha64 controller.config.design.seed unit)
    controller.config.design.treatmentProbability

/-- An assignment is inactive, or to the arm of its window or of its request. -/
theorem assign_cases (controller : Controller F) (sha64 : String → Nat) (requestID : String)
    (now : Time) :
    (controller.Inactive now ∧ ∃ assignment reason,
      assignment.experimentID = controller.config.id ∧
      controller.assign sha64 requestID now = controller.inactiveAssignment assignment reason) ∨
    (¬ controller.Inactive now ∧ ∃ assignment unit,
      assignment.experimentID = controller.config.id ∧
      (assignment.experimentWindow = unit ∨ assignment.experimentWindow = "isolated-pool") ∧
      controller.assign sha64 requestID now =
        controller.armAssignment assignment (controller.usesTreatment sha64 unit)) := by
  unfold assign Inactive
  dsimp only
  by_cases hstarted : ¬ controller.config.design.startAt.isZero ∧
      now.before controller.config.design.startAt
  · rw [if_pos hstarted]
    exact .inl ⟨.inl hstarted, _, _, rfl, rfl⟩
  rw [if_neg hstarted]
  by_cases hover : controller.maxDuration > 0 ∧ ¬ controller.config.design.startAt.isZero ∧
      now.sub controller.config.design.startAt ≥ controller.maxDuration
  · rw [if_pos hover]
    exact .inl ⟨.inr hover, _, _, rfl, rfl⟩
  rw [if_neg hover]
  refine .inr ⟨not_or.mpr ⟨hstarted, hover⟩, ?_⟩
  by_cases hdesign : controller.config.design.type = "switchback"
  · rw [if_pos hdesign]
    exact ⟨_, _, rfl, .inl rfl, rfl⟩
  · rw [if_neg hdesign]
    exact ⟨_, requestID, rfl, .inr rfl, rfl⟩

/-- An accepted configuration has an ID and policies, and its probability is not outside of
`(0, 1)`, though it may be no number. -/
theorem new_ok {parse : String → Option Duration} {config : Config F} {controller : Controller F}
    (h : new parse config = .ok controller) :
    controller.config.id ≠ "" ∧ controller.config.control.policy ≠ "" ∧
      controller.config.treatment.policy ≠ "" ∧
      Float64.le controller.config.design.treatmentProbability (Float64.ofInt 0) = false ∧
      Float64.le (Float64.ofInt 1) controller.config.design.treatmentProbability = false := by
  have hdefault : (withProbability config).id = config.id ∧
      (withProbability config).control = config.control ∧
      (withProbability config).treatment = config.treatment := by
    unfold withProbability
    split <;> exact ⟨rfl, rfl, rfl⟩
  unfold new at h
  split at h
  · cases h
  rename_i hfilled
  rw [not_or, not_or, not_or] at hfilled
  split at h
  · cases h
  dsimp only at h
  split at h
  · cases h
  rename_i hprobability
  rw [not_or, Bool.not_eq_true, Bool.not_eq_true] at hprobability
  split at h
  · cases h
  split at h
  · cases h
  split at h
  · cases h
  cases h
  refine ⟨?_, ?_, ?_, hprobability⟩
  · rw [hdefault.1]
    exact hfilled.1
  · rw [hdefault.2.1]
    exact hfilled.2.1
  · rw [hdefault.2.2]
    exact hfilled.2.2.1

end Controller

end Kavora.Experiment
