import Kavora.Experiment.Controller

/-!
# The windows of a switchback experiment

`Assign` guards the requests at the two ends of a window: the `warmup` after its begin, and the
`cooldown` before its end. `New` compares the sum of the two with the window, so something of each
window is left (`switchback_guards`), unless the sum wraps around. An experiment that has run for
its `max_duration` guards all requests.
-/

namespace Kavora.Experiment

open Lib Lib.Go

variable {F : Type}

theorem designDurations_ok {parse : String → Option Duration} {design : Design F}
    {window warmup cooldown : Duration} (htype : design.type = "switchback")
    (h : designDurations parse design = .ok (window, warmup, cooldown)) :
    0 < window ∧ 0 ≤ warmup ∧ 0 ≤ cooldown ∧ wrap64 (warmup + cooldown) < window := by
  unfold designDurations at h
  rw [if_pos htype] at h
  split at h
  · cases h
  split at h
  · cases h
  rename_i hwindow
  split at h
  · cases h
  split at h
  · cases h
  rename_i hwarmup
  split at h
  · cases h
  split at h
  · cases h
  rename_i hcooldown
  cases h
  rw [not_or] at hcooldown
  exact ⟨Int.not_le.mp hwindow, Int.not_lt.mp hwarmup, Int.not_lt.mp hcooldown.1,
    Int.not_le.mp hcooldown.2⟩

namespace Controller

/-! ## Windows and offsets -/

/-- The windows begin here. An experiment without a start counts from 1970. -/
def windowStart (controller : Controller F) : Time :=
  if controller.config.design.startAt.isZero then 0 else controller.config.design.startAt

/-- Where in its window a time is. -/
def offsetAt (controller : Controller F) (now : Time) : Duration :=
  (now.sub controller.windowStart).tmod controller.window

/-- The experiment has run for its `max_duration`. -/
def MaxDurationReached (controller : Controller F) (now : Time) : Prop :=
  controller.maxDuration > 0 ∧ ¬ controller.config.design.startAt.isZero ∧
    now.sub controller.config.design.startAt ≥ controller.maxDuration

/-- In the warmup or in the cooldown of a window. -/
def GuardZone (controller : Controller F) (offset : Duration) : Prop :=
  offset < controller.warmup ∨ controller.window - controller.cooldown ≤ offset

variable {controller : Controller F} {now : Time}

theorem sub_nonneg_of_le {start : Time} (h : start ≤ now) : 0 ≤ now.sub start := by
  have hclamp : ∀ elapsed : Int, 0 ≤ elapsed → 0 ≤ max (-2 ^ 63) (min (2 ^ 63 - 1) elapsed) := by
    omega
  exact hclamp _ (Int.sub_nonneg.mpr h)

theorem sub_of_fits {start : Time} {elapsed : Duration} (hlow : 0 ≤ elapsed)
    (hhigh : elapsed < 2 ^ 63) : Time.sub (start + elapsed) start = elapsed := by
  have hclamp : ∀ elapsed : Int, 0 ≤ elapsed → elapsed < 2 ^ 63 →
      max (-2 ^ 63) (min (2 ^ 63 - 1) elapsed) = elapsed := by
    omega
  have hdiff : (start + elapsed : Int) - start = elapsed := by
    rw [Int.add_comm, Int.add_sub_cancel]
  unfold Time.sub
  rw [hdiff]
  exact hclamp elapsed hlow hhigh

theorem offsetAt_bounds (hwindow : 0 < controller.window) (h : controller.windowStart ≤ now) :
    0 ≤ controller.offsetAt now ∧ controller.offsetAt now < controller.window :=
  ⟨Int.tmod_nonneg _ (sub_nonneg_of_le h), Int.tmod_lt_of_pos _ hwindow⟩

/-- Each window that a duration reaches has every offset. -/
theorem offsetAt_add {offset : Duration} {k : Nat} (hlow : 0 ≤ offset)
    (hhigh : offset < controller.window) (hfits : k * controller.window + offset < 2 ^ 63) :
    controller.offsetAt (controller.windowStart + (k * controller.window + offset)) = offset := by
  have hnonneg : 0 ≤ k * controller.window + offset :=
    Int.add_nonneg
      (Int.mul_nonneg (Int.natCast_nonneg k) (Int.le_of_lt (Int.lt_of_le_of_lt hlow hhigh))) hlow
  unfold offsetAt
  rw [sub_of_fits hnonneg hfits, Int.tmod_eq_emod_of_nonneg hnonneg, Int.add_comm,
    Int.add_mul_emod_self_right, Int.emod_eq_of_lt hlow hhigh]

/-! ## What `New` accepts -/

variable [Float64 F]

theorem withProbability_type (config : Config F) :
    (withProbability config).design.type = config.design.type := by
  unfold withProbability
  split <;> rfl

theorem new_durations {parse : String → Option Duration} {config : Config F}
    {controller : Controller F} (h : new parse config = .ok controller) :
    controller.config = withProbability config ∧
      designDurations parse controller.config.design =
        .ok (controller.window, controller.warmup, controller.cooldown) := by
  unfold new at h
  split at h
  · cases h
  split at h
  · cases h
  dsimp only at h
  split at h
  · cases h
  split at h
  · cases h
  rename_i hdurations
  split at h
  · cases h
  split at h
  · cases h
  cases h
  exact ⟨rfl, hdurations⟩

theorem new_of_durations {parse : String → Option Duration} {config : Config F}
    {window warmup cooldown maxDuration : Duration}
    (hfilled : ¬ (config.id = "" ∨ config.control.policy = "" ∨ config.treatment.policy = "" ∨
      config.design.seed = ""))
    (hpolicies : ¬ (¬ validPolicy config.control.policy ∨ ¬ validPolicy config.treatment.policy))
    (hprobability : ¬ (Float64.le (withProbability config).design.treatmentProbability
        (Float64.ofInt 0) ∨
      Float64.le (Float64.ofInt 1) (withProbability config).design.treatmentProbability))
    (hdurations : designDurations parse (withProbability config).design =
      .ok (window, warmup, cooldown))
    (hpools : designPools (withProbability config) = .ok ())
    (hstop : stopDuration parse (withProbability config) = .ok maxDuration) :
    ∃ controller, new parse config = .ok controller ∧
      controller.config = withProbability config ∧ controller.window = window ∧
      controller.warmup = warmup ∧ controller.cooldown = cooldown ∧
      controller.maxDuration = maxDuration := by
  unfold new
  rw [if_neg hfilled, if_neg hpolicies]
  dsimp only
  rw [if_neg hprobability, hdurations]
  dsimp only
  split
  · rename_i e he
    rw [hpools] at he
    cases he
  · rw [hstop]
    exact ⟨_, rfl, rfl, rfl, rfl, rfl, rfl⟩

/-! ## Assignments -/

theorem assign_active (htype : controller.config.design.type = "switchback")
    (hstart : controller.windowStart ≤ now) (hactive : ¬ controller.MaxDurationReached now)
    (sha64 : String → Nat) (requestID : String) :
    (controller.assign sha64 requestID now).warmup =
        decide (controller.offsetAt now < controller.warmup) ∧
      (controller.assign sha64 requestID now).carryoverGuard =
        (decide (controller.offsetAt now < controller.warmup) ||
          decide (controller.window - controller.offsetAt now ≤ controller.cooldown)) := by
  have hstarted : ¬ (¬ controller.config.design.startAt.isZero ∧
      now.before controller.config.design.startAt) := by
    rintro ⟨hset, hbefore⟩
    rw [windowStart, if_neg hset] at hstart
    exact absurd (of_decide_eq_true hbefore) (Int.not_lt.mpr hstart)
  have helapsed : ¬ now.sub controller.windowStart < 0 := Int.not_lt.mpr (sub_nonneg_of_le hstart)
  unfold MaxDurationReached at hactive
  unfold assign
  dsimp only
  rw [if_neg hstarted, if_neg hactive, if_pos htype]
  unfold windowStart at helapsed
  rw [if_neg helapsed]
  exact ⟨rfl, rfl⟩

theorem assign_over (hstart : controller.windowStart ≤ now)
    (hover : controller.MaxDurationReached now) (sha64 : String → Nat) (requestID : String) :
    (controller.assign sha64 requestID now).warmup = false ∧
      (controller.assign sha64 requestID now).carryoverGuard = true ∧
      (controller.assign sha64 requestID now).experimentActive = false := by
  have hstarted : ¬ (¬ controller.config.design.startAt.isZero ∧
      now.before controller.config.design.startAt) := by
    rintro ⟨hset, hbefore⟩
    rw [windowStart, if_neg hset] at hstart
    exact absurd (of_decide_eq_true hbefore) (Int.not_lt.mpr hstart)
  unfold MaxDurationReached at hover
  unfold assign
  dsimp only
  rw [if_neg hstarted, if_pos hover]
  exact ⟨rfl, rfl, rfl⟩

/-- **The guards are the two ends of every window**, as long as the experiment runs, and each window
has an offset between them if their sum does not wrap around. -/
theorem switchback_guards {parse : String → Option Duration} {config : Config F}
    (hnew : new parse config = .ok controller) (htype : config.design.type = "switchback")
    (sha64 : String → Nat) (requestID : String) :
    (∀ now, controller.windowStart ≤ now → ¬ controller.MaxDurationReached now →
      0 ≤ controller.offsetAt now ∧ controller.offsetAt now < controller.window ∧
      ((controller.assign sha64 requestID now).warmup = true ↔
        controller.offsetAt now < controller.warmup) ∧
      ((controller.assign sha64 requestID now).carryoverGuard = true ↔
        controller.GuardZone (controller.offsetAt now))) ∧
    (controller.warmup + controller.cooldown < 2 ^ 63 →
      ∃ offset, 0 ≤ offset ∧ offset < controller.window ∧ ¬ controller.GuardZone offset ∧
        ∀ k : Nat, k * controller.window + offset < 2 ^ 63 →
          controller.offsetAt (controller.windowStart + (k * controller.window + offset)) =
            offset) ∧
    (∀ now, controller.windowStart ≤ now → controller.MaxDurationReached now →
      (controller.assign sha64 requestID now).warmup = false ∧
      (controller.assign sha64 requestID now).carryoverGuard = true ∧
      (controller.assign sha64 requestID now).experimentActive = false) := by
  obtain ⟨hconfig, hdurations⟩ := new_durations hnew
  have htype : controller.config.design.type = "switchback" := by
    rw [hconfig, withProbability_type, htype]
  obtain ⟨hwindow, hwarmup, hcooldown, hless⟩ := designDurations_ok htype hdurations
  refine ⟨fun now hstart hactive => ?_, fun hsum => ?_,
    fun now hstart hover => assign_over hstart hover sha64 requestID⟩
  · obtain ⟨hlow, hhigh⟩ := offsetAt_bounds hwindow hstart
    obtain ⟨hw, hg⟩ := assign_active htype hstart hactive sha64 requestID
    refine ⟨hlow, hhigh, by rw [hw, decide_eq_true_iff], ?_⟩
    rw [hg, Bool.or_eq_true, decide_eq_true_iff, decide_eq_true_iff, GuardZone]
    exact or_congr_right ⟨Int.sub_le_of_sub_le, Int.sub_le_of_sub_le⟩
  · have hnonneg : (0 : Int) ≤ controller.warmup + controller.cooldown :=
      Int.add_nonneg hwarmup hcooldown
    rw [wrap64_of_fits (Int.le_trans (by decide) hnonneg) hsum] at hless
    have hfree : controller.warmup < controller.window :=
      Int.lt_of_le_of_lt (Int.le_add_of_nonneg_right hcooldown) hless
    refine ⟨controller.warmup, hwarmup, hfree, ?_, fun k hfits => offsetAt_add hwarmup hfree hfits⟩
    rintro (hlt | hle)
    · exact Int.lt_irrefl _ hlt
    · exact Int.lt_irrefl _ (Int.lt_of_lt_of_le hless (Int.le_add_of_sub_right_le hle))

/-- At every time from the start the guards are the two ends of the window, and each window has an
offset between them. -/
def GuardsPartition (controller : Controller F) (sha64 : String → Nat) : Prop :=
  (∀ requestID now, controller.windowStart ≤ now →
    ((controller.assign sha64 requestID now).warmup = true ↔
      controller.offsetAt now < controller.warmup) ∧
    ((controller.assign sha64 requestID now).carryoverGuard = true ↔
      controller.GuardZone (controller.offsetAt now))) ∧
  ∃ offset, 0 ≤ offset ∧ offset < controller.window ∧ ¬ controller.GuardZone offset

end Controller

namespace WindowSample

local instance : Float64 Rat := .rational fun _ => 1

def parse : String → Option Duration
  | "30s" => some 30000000000
  | "1h" => some 3600000000000
  | "2562047h" => some 9223369200000000000
  | _ => none

/-- Windows of an hour from 1970 on. -/
def config (warmup cooldown maxDuration : String) : Config Rat where
  id := "e"
  control := { policy := "static", backendPool := [] }
  treatment := { policy := "kv-v1", backendPool := [] }
  design :=
    { type := "switchback"
      window := "1h"
      warmup
      cooldown
      seed := "s"
      treatmentProbability := 1 / 2
      startAt := 0 }
  maxDuration

theorem withProbability_config (warmup cooldown maxDuration : String) :
    Controller.withProbability (config warmup cooldown maxDuration) =
      config warmup cooldown maxDuration :=
  if_neg (show ¬ Float64.eq (1 / 2 : Rat) (Float64.ofInt 0) = true by decide +kernel)

theorem new_config (warmup cooldown maxDuration : String) {warm cool limit : Duration}
    (hdurations : designDurations parse (config warmup cooldown maxDuration).design =
      .ok (3600000000000, warm, cool))
    (hstop : stopDuration parse (config warmup cooldown maxDuration) = .ok limit) :
    ∃ controller, Controller.new parse (config warmup cooldown maxDuration) = .ok controller ∧
      controller.windowStart = 0 ∧ controller.config.design.startAt = 0 ∧
      controller.window = 3600000000000 ∧ controller.warmup = warm ∧
      controller.cooldown = cool ∧ controller.maxDuration = limit := by
  have hpools : designPools (config warmup cooldown maxDuration) = .ok () :=
    if_neg (show ¬ "switchback" = "isolated-pool" by decide)
  rw [← withProbability_config] at hdurations hstop hpools
  have hprobability : ¬ (Float64.le (1 / 2 : Rat) (Float64.ofInt 0) = true ∨
      Float64.le (Float64.ofInt 1) (1 / 2 : Rat) = true) := by
    decide +kernel
  obtain ⟨controller, hnew, hconfig, hrest⟩ := Controller.new_of_durations
    (by simp [config]) (by simp [config, validPolicy])
    (by rw [withProbability_config]; exact hprobability) hdurations hpools hstop
  have hstart : controller.config.design.startAt = 0 := by
    rw [hconfig, withProbability_config]
    rfl
  refine ⟨controller, hnew, ?_, hstart, hrest⟩
  rw [Controller.windowStart, hstart]
  rfl

/-- The guards of an accepted experiment are not the ends of its windows: one that is over guards
all requests, and a warmup and a cooldown whose sum wraps around leave nothing of a window. -/
theorem guards_not_partition :
    (∃ controller, Controller.new parse (config "" "" "1h") = .ok controller ∧
      ¬ controller.GuardsPartition fun _ => 0) ∧
    (∃ controller, Controller.new parse (config "2562047h" "2562047h" "") = .ok controller ∧
      ¬ controller.GuardsPartition fun _ => 0) := by
  refine ⟨?_, ?_⟩
  · obtain ⟨controller, hnew, hstart, hstartAt, hwindow, hwarmup, hcooldown, hlimit⟩ :=
      new_config "" "" "1h" rfl rfl
    refine ⟨controller, hnew, fun h => ?_⟩
    have hle : controller.windowStart ≤ 3600000000000 := by
      rw [hstart]
      decide
    have hover : controller.MaxDurationReached 3600000000000 := by
      unfold Controller.MaxDurationReached
      rw [hstartAt, hlimit]
      decide
    have hzone := (h.1 "" 3600000000000 hle).2.mp (Controller.assign_over hle hover _ _).2.1
    unfold Controller.GuardZone Controller.offsetAt at hzone
    rw [hstart, hwindow, hwarmup, hcooldown] at hzone
    exact absurd hzone (by decide)
  · obtain ⟨controller, hnew, -, -, hwindow, hwarmup, -, -⟩ :=
      new_config "2562047h" "2562047h" "" rfl rfl
    refine ⟨controller, hnew, fun h => ?_⟩
    obtain ⟨offset, -, hhigh, hzone⟩ := h.2
    rw [hwindow] at hhigh
    exact hzone (.inl (by rw [hwarmup]; exact Int.lt_trans hhigh (by decide)))

theorem switchback_guards_sample :
    ∃ controller, Controller.new parse (config "30s" "30s" "") = .ok controller ∧
      ∃ offset, 0 ≤ offset ∧ offset < controller.window ∧ ¬ controller.GuardZone offset := by
  obtain ⟨controller, hnew, -, -, -, hwarmup, hcooldown, -⟩ := new_config "30s" "30s" "" rfl rfl
  have hsum : controller.warmup + controller.cooldown < 2 ^ 63 := by
    rw [hwarmup, hcooldown]
    decide
  obtain ⟨offset, hlow, hhigh, hfree, -⟩ :=
    (Controller.switchback_guards hnew rfl (fun _ => 0) "").2.1 hsum
  exact ⟨controller, hnew, offset, hlow, hhigh, hfree⟩

end WindowSample

end Kavora.Experiment
