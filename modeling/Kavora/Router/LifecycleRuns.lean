import Kavora.Lib.GoFloat
import Kavora.Router.Lifecycle

/-!
# Runs of the lifecycle

A run is a list of calls of `Observe` and `Approve`; each holds the lock, so calls do not overlap.

* `Lifecycle.observe_cases`: what one `Observe` can do.
* `Lifecycle.approval_gates`: exposure needs an approval of this rollout, and the stages are passed
  one by one.
* `Lifecycle.cohort_grows`: without a rollback, a request that is enforced stays enforced.
-/

namespace Kavora.Router

open Lib Lib.Go
open Float64 (ofInt)

variable {F : Type} [Float64 F]

namespace Lifecycle

/-- The calls of a lifecycle. -/
inductive Call (F : Type) where
  | observe (observation : LifecycleObservation F)
  | approve (approvedBy : String)

/-- The lifecycle after a call. -/
def call (lifecycle : Lifecycle F) : Call F → Lifecycle F
  | .observe observation => lifecycle.observe observation
  | .approve approvedBy => lifecycle.approve approvedBy

/-- The lifecycle after some calls. -/
def run (lifecycle : Lifecycle F) (calls : List (Call F)) : Lifecycle F :=
  calls.foldl call lifecycle

/-- The call takes the lifecycle back to static. -/
def RollsBack (lifecycle : Lifecycle F) (c : Call F) : Prop :=
  (lifecycle.call c).stage = .static ∧ lifecycle.stage ≠ .static

/-- No call of a run rolls back. -/
def NoRollback (lifecycle : Lifecycle F) : List (Call F) → Prop
  | [] => True
  | c :: calls => ¬ lifecycle.RollsBack c ∧ (lifecycle.call c).NoRollback calls

/-- The place among static, shadow, the canary steps and enforced. -/
def position (lifecycle : Lifecycle F) : Nat :=
  match lifecycle.stage with
  | .static => 0
  | .shadow => 1
  | .canary => lifecycle.step + 2
  | .enforced => lifecycle.config.canarySteps.length + 2

variable {lifecycle : Lifecycle F}

theorem run_concat (calls : List (Call F)) (c : Call F) :
    lifecycle.run (calls ++ [c]) = (lifecycle.run calls).call c := by
  simp [run, List.foldl_append]

theorem run_append (calls more : List (Call F)) :
    lifecycle.run (calls ++ more) = (lifecycle.run calls).run more := by
  simp [run, List.foldl_append]

theorem noRollback_concat (calls : List (Call F)) (c : Call F) :
    lifecycle.NoRollback (calls ++ [c]) ↔
      lifecycle.NoRollback calls ∧ ¬ (lifecycle.run calls).RollsBack c := by
  induction calls generalizing lifecycle with
  | nil => simp [NoRollback, run]
  | cons d calls ih =>
    show _ ∧ NoRollback _ (calls ++ [c]) ↔ _
    rw [ih]
    exact and_assoc.symm

/-! ## One call -/

/-- What one `Observe` can do. -/
theorem observe_cases (lifecycle : Lifecycle F) (observation : LifecycleObservation F) :
    (lifecycle.config.enabled = false ∧
        lifecycle.observe observation =
          { lifecycle with stage := .static, lastReason := "disabled" }) ∨
      (∃ reason, lifecycle.observe observation = lifecycle.rollBack reason) ∨
      (∃ reason, lifecycle.observe observation = { lifecycle with lastReason := reason }) ∨
      (lifecycle.config.enabled = true ∧
        ¬ (lifecycle.stage = .shadow ∧ lifecycle.config.requireHumanApproval ∧
          lifecycle.approved = false) ∧ lifecycle.observe observation = lifecycle.promote) := by
  unfold observe
  split
  · rename_i hdisabled
    exact .inl ⟨hdisabled, rfl⟩
  rename_i henabled
  split
  · exact .inr (.inl ⟨_, rfl⟩)
  split
  · exact .inr (.inr (.inl ⟨_, rfl⟩))
  split
  · exact .inr (.inl ⟨_, rfl⟩)
  split
  · exact .inr (.inl ⟨_, rfl⟩)
  split
  · exact .inr (.inl ⟨_, rfl⟩)
  split
  · exact .inr (.inr (.inl ⟨_, rfl⟩))
  · rename_i hready
    exact .inr (.inr (.inr ⟨by simpa using henabled, hready, rfl⟩))

omit [Float64 F] in
/-- An approval counts in shadow, and changes nothing else. -/
theorem approve_cases (lifecycle : Lifecycle F) (approvedBy : String) :
    (lifecycle.stage = .shadow ∧ approvedBy ≠ "" ∧
        lifecycle.approve approvedBy =
          { lifecycle with approved := true, approvedBy, lastReason := "human_approved" }) ∨
      lifecycle.approve approvedBy = lifecycle := by
  unfold approve
  split
  · rename_i hcounts
    exact .inl ⟨hcounts.2.1, hcounts.2.2, rfl⟩
  · exact .inr rfl

omit [Float64 F] in
/-- What a promotion does: one step on, with the approval kept. -/
theorem promote_cases (lifecycle : Lifecycle F) :
    (lifecycle.stage = .static ∧
        lifecycle.promote =
          { lifecycle with stage := .shadow, lastReason := "quality_gates_passed" }) ∨
      (lifecycle.stage = .shadow ∧
        lifecycle.promote =
          { lifecycle with stage := .canary, step := 0, lastReason := "quality_gates_passed" }) ∨
      (lifecycle.stage = .canary ∧ lifecycle.step + 1 < lifecycle.config.canarySteps.length ∧
        lifecycle.promote =
          { lifecycle with step := lifecycle.step + 1, lastReason := "quality_gates_passed" }) ∨
      (lifecycle.stage = .canary ∧ ¬ lifecycle.step + 1 < lifecycle.config.canarySteps.length ∧
        lifecycle.promote =
          { lifecycle with stage := .enforced, lastReason := "quality_gates_passed" }) ∨
      (lifecycle.stage = .enforced ∧
        lifecycle.promote = { lifecycle with lastReason := "quality_gates_passed" }) := by
  unfold promote
  cases hstage : lifecycle.stage with
  | static => exact .inl ⟨rfl, rfl⟩
  | shadow => exact .inr (.inl ⟨rfl, rfl⟩)
  | canary =>
    by_cases hmore : lifecycle.step + 1 < lifecycle.config.canarySteps.length
    · refine .inr (.inr (.inl ⟨rfl, hmore, ?_⟩))
      simp [hmore]
    · refine .inr (.inr (.inr (.inl ⟨rfl, hmore, ?_⟩)))
      simp [hmore]
  | enforced => exact .inr (.inr (.inr (.inr ⟨rfl, by simp [hstage]⟩)))

/-! ## The stages and the step -/

/-- What every run keeps. -/
structure Inv (config : LifecycleConfig F) (lifecycle : Lifecycle F) : Prop where
  config_eq : lifecycle.config = config
  step_lt : lifecycle.step < config.canarySteps.length
  disabled : config.enabled = false → lifecycle.stage = .static
  unapproved : lifecycle.stage = .static → lifecycle.approved = false
  exposed : config.requireHumanApproval = true →
    lifecycle.stage = .canary ∨ lifecycle.stage = .enforced → lifecycle.approved = true

theorem new_ok {config : LifecycleConfig F} (h : new config = .ok lifecycle) :
    validSteps (ofInt 0) (withDefaults config).canarySteps = true ∧
      lifecycle =
        { config := withDefaults config
          stage := if config.enabled then .shadow else .static
          step := 0
          lastReason := "initialized"
          approved := false
          approvedBy := "" } := by
  unfold new at h
  dsimp only at h
  split at h
  · rename_i hvalid
    exact ⟨hvalid, (Except.ok.inj h).symm⟩
  · cases h

theorem withDefaults_steps_pos (config : LifecycleConfig F) :
    0 < (withDefaults config).canarySteps.length := by
  unfold withDefaults
  dsimp only
  split
  · exact Nat.succ_pos _
  · rename_i hsteps
    exact List.length_pos_of_ne_nil hsteps

theorem Inv.new {config : LifecycleConfig F} (h : new config = .ok lifecycle) :
    Inv (withDefaults config) lifecycle := by
  obtain ⟨-, rfl⟩ := new_ok h
  refine ⟨rfl, withDefaults_steps_pos config, fun hdisabled => ?_, fun _ => rfl, fun _ hstage => ?_⟩
  · have hdisabled : config.enabled = false := hdisabled
    simp [hdisabled]
  · dsimp only at hstage
    split at hstage
    · rcases hstage with h | h <;> cases h
    · rcases hstage with h | h <;> cases h

omit [Float64 F] in
theorem Inv.promote {config : LifecycleConfig F} (h : Inv config lifecycle)
    (henabled : config.enabled = true)
    (hready : ¬ (lifecycle.stage = .shadow ∧ lifecycle.config.requireHumanApproval ∧
      lifecycle.approved = false)) : Inv config lifecycle.promote := by
  have hready : lifecycle.stage = .shadow → config.requireHumanApproval = true →
      lifecycle.approved = true := by
    intro hshadow hrequired
    by_contra hnot
    exact hready ⟨hshadow, by rw [h.config_eq]; exact hrequired, by simpa using hnot⟩
  have hdisabled : ∀ {stage : LifecycleStage}, config.enabled = false → stage = .static := by
    intro stage hdisabled
    rw [henabled] at hdisabled
    cases hdisabled
  obtain ⟨hstage, heq⟩ | ⟨hstage, heq⟩ | ⟨hstage, hmore, heq⟩ | ⟨hstage, -, heq⟩ | ⟨hstage, heq⟩ :=
    promote_cases lifecycle
  · rw [heq]
    refine ⟨h.config_eq, h.step_lt, hdisabled, nofun, fun _ hexposed => ?_⟩
    rcases hexposed with h | h <;> cases h
  · rw [heq]
    exact ⟨h.config_eq, Nat.lt_of_le_of_lt (Nat.zero_le _) h.step_lt, hdisabled,
      nofun, fun hrequired _ => hready hstage hrequired⟩
  · rw [heq]
    refine ⟨h.config_eq, ?_, h.disabled, h.unapproved, h.exposed⟩
    rw [h.config_eq] at hmore
    exact hmore
  · rw [heq]
    exact ⟨h.config_eq, h.step_lt, hdisabled, nofun,
      fun hrequired _ => h.exposed hrequired (.inl hstage)⟩
  · rw [heq]
    exact ⟨h.config_eq, h.step_lt, h.disabled, h.unapproved, h.exposed⟩

theorem Inv.call {config : LifecycleConfig F} (h : Inv config lifecycle) (c : Call F) :
    Inv config (lifecycle.call c) := by
  cases c with
  | observe observation =>
    show Inv config (lifecycle.observe observation)
    obtain ⟨hdisabled, heq⟩ | ⟨reason, heq⟩ | ⟨reason, heq⟩ | ⟨henabled, hready, heq⟩ :=
      observe_cases lifecycle observation
    · have hstatic := h.disabled (by rw [← h.config_eq]; exact hdisabled)
      rw [heq]
      refine ⟨h.config_eq, h.step_lt, fun _ => rfl, fun _ => h.unapproved hstatic, fun _ he => ?_⟩
      rcases he with he | he <;> cases he
    · rw [heq]
      refine ⟨h.config_eq, Nat.lt_of_le_of_lt (Nat.zero_le _) h.step_lt, fun _ => rfl, fun _ => rfl,
        fun _ he => ?_⟩
      rcases he with he | he <;> cases he
    · rw [heq]
      exact ⟨h.config_eq, h.step_lt, h.disabled, h.unapproved, h.exposed⟩
    · rw [heq]
      exact h.promote (by rw [← h.config_eq]; exact henabled) hready
  | approve approvedBy =>
    show Inv config (lifecycle.approve approvedBy)
    obtain ⟨hstage, -, heq⟩ | heq := approve_cases lifecycle approvedBy
    · rw [heq]
      refine ⟨h.config_eq, h.step_lt, h.disabled, fun hstatic => ?_, fun _ _ => rfl⟩
      have hstatic : lifecycle.stage = .static := hstatic
      rw [hstage] at hstatic
      cases hstatic
    · rw [heq]
      exact h

theorem Inv.run {config : LifecycleConfig F} (h : Inv config lifecycle) (calls : List (Call F)) :
    Inv config (lifecycle.run calls) := by
  induction calls generalizing lifecycle with
  | nil => exact h
  | cons c calls ih => exact ih (h.call c)

/-! ## Approvals -/

/-- The recorded approval was given in shadow, and nothing has rolled back since. -/
def ApprovedSince (lifecycle : Lifecycle F) (calls : List (Call F)) : Prop :=
  ∃ before approvedBy after, calls = before ++ .approve approvedBy :: after ∧ approvedBy ≠ "" ∧
    (lifecycle.run before).stage = .shadow ∧
    ((lifecycle.run before).call (.approve approvedBy)).NoRollback after ∧
    (lifecycle.run calls).approved = true ∧ (lifecycle.run calls).approvedBy = approvedBy

/-- A call that does not touch the approval and does not roll back leaves it in force. -/
theorem ApprovedSince.concat {calls : List (Call F)} {c : Call F}
    (h : lifecycle.ApprovedSince calls) (hback : ¬ (lifecycle.run calls).RollsBack c)
    (happroved : ((lifecycle.run calls).call c).approved = (lifecycle.run calls).approved)
    (hby : ((lifecycle.run calls).call c).approvedBy = (lifecycle.run calls).approvedBy) :
    lifecycle.ApprovedSince (calls ++ [c]) := by
  obtain ⟨before, approvedBy, after, rfl, hne, hshadow, hno, hcounts, hrecorded⟩ := h
  refine ⟨before, approvedBy, after ++ [c], by simp, hne, hshadow, ?_, ?_, ?_⟩
  · rw [noRollback_concat]
    refine ⟨hno, ?_⟩
    rw [run_append] at hback
    exact hback
  · rw [run_concat, happroved, hcounts]
  · rw [run_concat, hby, hrecorded]

/-- An approval in force is one of this rollout. -/
theorem approvedSince_run {config : LifecycleConfig F} (hnew : new config = .ok lifecycle)
    (calls : List (Call F)) (h : (lifecycle.run calls).approved = true) :
    lifecycle.ApprovedSince calls := by
  induction calls using List.reverseRecOn with
  | nil =>
    obtain ⟨-, rfl⟩ := new_ok hnew
    cases h
  | append_singleton calls c ih =>
    have hinv := (Inv.new hnew).run calls
    rw [run_concat] at h
    cases c with
    | observe observation =>
      have h : ((lifecycle.run calls).observe observation).approved = true := h
      obtain ⟨hdisabled, heq⟩ | ⟨reason, heq⟩ | ⟨reason, heq⟩ | ⟨-, -, heq⟩ :=
        observe_cases (lifecycle.run calls) observation
      · -- a disabled lifecycle is static and was never approved
        have hstatic := hinv.disabled (by rw [← hinv.config_eq]; exact hdisabled)
        rw [heq] at h
        have hnot := hinv.unapproved hstatic
        rw [show (lifecycle.run calls).approved = true from h] at hnot
        cases hnot
      · rw [heq] at h
        cases h
      · rw [heq] at h
        refine (ih h).concat (fun hback => hback.2 ?_) ?_ ?_
        · have hstage : ((lifecycle.run calls).observe observation).stage = .static := hback.1
          rwa [heq] at hstage
        · show ((lifecycle.run calls).observe observation).approved = _
          rw [heq]
        · show ((lifecycle.run calls).observe observation).approvedBy = _
          rw [heq]
      · have hkeep : (lifecycle.run calls).promote.approved = (lifecycle.run calls).approved ∧
            (lifecycle.run calls).promote.approvedBy = (lifecycle.run calls).approvedBy ∧
            (lifecycle.run calls).promote.stage ≠ .static := by
          obtain ⟨-, hp⟩ | ⟨-, hp⟩ | ⟨hs, -, hp⟩ | ⟨-, -, hp⟩ | ⟨hs, hp⟩ :=
            promote_cases (lifecycle.run calls)
          · rw [hp]; exact ⟨rfl, rfl, nofun⟩
          · rw [hp]; exact ⟨rfl, rfl, nofun⟩
          · rw [hp]; exact ⟨rfl, rfl, fun h => by rw [show _ = _ from hs] at h; cases h⟩
          · rw [hp]; exact ⟨rfl, rfl, nofun⟩
          · rw [hp]; exact ⟨rfl, rfl, fun h => by rw [show _ = _ from hs] at h; cases h⟩
        obtain ⟨happroved, hby, hstage⟩ := hkeep
        rw [heq, happroved] at h
        refine (ih h).concat (fun hback => hstage ?_) ?_ ?_
        · have hback : ((lifecycle.run calls).observe observation).stage = .static := hback.1
          rwa [heq] at hback
        · show ((lifecycle.run calls).observe observation).approved = _
          rw [heq, happroved]
        · show ((lifecycle.run calls).observe observation).approvedBy = _
          rw [heq, hby]
    | approve approvedBy =>
      have h : ((lifecycle.run calls).approve approvedBy).approved = true := h
      obtain ⟨hshadow, hne, heq⟩ | heq := approve_cases (lifecycle.run calls) approvedBy
      · refine ⟨calls, approvedBy, [], by simp, hne, hshadow, trivial, ?_, ?_⟩
        · rw [run_concat]
          exact h
        · rw [run_concat]
          show ((lifecycle.run calls).approve approvedBy).approvedBy = approvedBy
          rw [heq]
      · rw [heq] at h
        have hsame : (lifecycle.run calls).call (.approve approvedBy) = lifecycle.run calls := heq
        refine (ih h).concat (fun hback => hback.2 ?_) (by rw [hsame]) (by rw [hsame])
        have hstage := hback.1
        rwa [hsame] at hstage

/-- What an `Observe` may do to the stage. -/
def Moves (before after : Lifecycle F) : Prop :=
  (after.stage = before.stage ∧ after.step = before.step) ∨
    (after.stage = .static ∧ after.step = 0 ∧ after.approved = false ∧ after.approvedBy = "") ∨
    after.position = before.position + 1

theorem observe_moves {config : LifecycleConfig F} (h : Inv config lifecycle)
    (observation : LifecycleObservation F) :
    lifecycle.Moves (lifecycle.observe observation) := by
  obtain ⟨hdisabled, heq⟩ | ⟨reason, heq⟩ | ⟨reason, heq⟩ | ⟨-, -, heq⟩ :=
    observe_cases lifecycle observation
  · left
    rw [heq, h.disabled (by rw [← h.config_eq]; exact hdisabled)]
    exact ⟨rfl, rfl⟩
  · right; left
    rw [heq]
    exact ⟨rfl, rfl, rfl, rfl⟩
  · left
    rw [heq]
    exact ⟨rfl, rfl⟩
  · rw [heq]
    obtain ⟨hs, hp⟩ | ⟨hs, hp⟩ | ⟨hs, hmore, hp⟩ | ⟨hs, hlast, hp⟩ | ⟨hs, hp⟩ :=
      promote_cases lifecycle
    · right; right
      rw [hp]
      simp [position, hs]
    · right; right
      rw [hp]
      simp [position, hs]
    · right; right
      rw [hp]
      simp only [position, hs]
    · right; right
      have hlt := h.step_lt
      rw [← h.config_eq] at hlt
      rw [hp]
      simp only [position, hs]
      omega
    · left
      rw [hp]
      exact ⟨rfl, rfl⟩

/-- **A person approves every exposure.** In every run of a lifecycle that requires an approval:
the canary and the enforced stage have an approval on record that was given in shadow, with no
rollback since; an `Observe` keeps the stage, rolls back or moves one place on; and the step is an
index of the canary steps. -/
theorem approval_gates {config : LifecycleConfig F} (hnew : new config = .ok lifecycle)
    (hrequired : config.requireHumanApproval = true) (calls : List (Call F)) :
    ((lifecycle.run calls).stage = .canary ∨ (lifecycle.run calls).stage = .enforced →
        lifecycle.ApprovedSince calls) ∧
      (∀ observation, (lifecycle.run calls).Moves ((lifecycle.run calls).observe observation)) ∧
      (lifecycle.run calls).step < (lifecycle.run calls).config.canarySteps.length := by
  have hinv := (Inv.new hnew).run calls
  refine ⟨fun hexposed => ?_, observe_moves hinv, ?_⟩
  · exact approvedSince_run hnew calls (hinv.exposed hrequired hexposed)
  · rw [hinv.config_eq]
    exact hinv.step_lt

/-! ## The cohort -/

/-- A NaN follows on NaNs only. -/
def NaNsLead (steps : List F) : Prop :=
  steps.Pairwise fun a b => Float64.isNaN a = false → Float64.isNaN b = false

/-- An accepted step is not at most the one before it. -/
theorem validSteps_succ {previous : F} {steps : List F} (h : validSteps previous steps = true)
    {i : Nat} {a b : F} (ha : steps[i]? = some a) (hb : steps[i + 1]? = some b) :
    Float64.le b a = false := by
  induction steps generalizing previous i with
  | nil => cases ha
  | cons step steps ih =>
    rw [validSteps, Bool.and_eq_true] at h
    obtain ⟨-, htail⟩ := h
    cases i with
    | zero =>
      obtain rfl := Option.some.inj ha
      cases steps with
      | nil => cases hb
      | cons next steps =>
        obtain rfl := Option.some.inj hb
        rw [validSteps, Bool.and_eq_true, Bool.not_eq_true', Bool.or_eq_false_iff,
          Bool.or_eq_false_iff] at htail
        exact htail.1.1.1
    | succ i => exact ih htail ha hb

variable [Float64.Lawful F]

theorem sample_lt_one (requestID : String) :
    Float64.lt (stableSample requestID : F) (ofInt 1) = true := by
  have hlt : fnv64a (utf8 requestID) % 1000000 < 1000000 := Nat.mod_lt _ (by omega)
  exact Float64.Lawful.div_lt_one (by omega) (by omega) (by omega)

theorem sample_not_neg (requestID : String) :
    Float64.lt (stableSample requestID : F) (ofInt 0) = false :=
  Float64.Lawful.div_not_neg (by omega) (by omega) (by omega)

/-- A request is enforced when it samples below the fraction of the stage. -/
theorem enforces_eq (lifecycle : Lifecycle F) (requestID : String) :
    lifecycle.enforces requestID =
      Float64.lt (stableSample requestID) lifecycle.snapshot.canaryFraction := by
  unfold enforces
  cases hstage : lifecycle.stage with
  | static => simp [snapshot, hstage, sample_not_neg]
  | shadow => simp [snapshot, hstage, sample_not_neg]
  | canary => simp [snapshot, hstage]
  | enforced => simp [snapshot, hstage, sample_lt_one]

/-- A later step enforces what an earlier one does. -/
theorem step_mono {steps : List F} (hvalid : validSteps (ofInt 0) steps = true)
    (hnan : NaNsLead steps) {i : Nat} {a b sample : F} (ha : steps[i]? = some a)
    (hb : steps[i + 1]? = some b) (h : Float64.lt sample a = true) :
    Float64.lt sample b = true := by
  have hnumber : Float64.isNaN a = false := by
    by_contra hnot
    rw [Float64.Lawful.not_lt_nan (by simpa using hnot)] at h
    cases h
  obtain ⟨hi, hia⟩ := List.getElem?_eq_some_iff.mp ha
  obtain ⟨hj, hjb⟩ := List.getElem?_eq_some_iff.mp hb
  have hnumber' : Float64.isNaN b = false := by
    have hpair := List.pairwise_iff_getElem.mp hnan i (i + 1) hi hj (Nat.lt_succ_self i)
    rw [hia, hjb] at hpair
    exact hpair hnumber
  have hlt : Float64.lt a b = true :=
    Float64.Lawful.lt_of_not_le hnumber' hnumber (validSteps_succ hvalid ha hb)
  exact Float64.Lawful.lt_trans h hlt

theorem withDefaults_nansLead {config : LifecycleConfig F} (h : NaNsLead config.canarySteps) :
    NaNsLead (withDefaults config).canarySteps := by
  unfold withDefaults
  dsimp only
  split
  · have hnumber : ∀ m n : Int, 0 < n → n ≤ 2 ^ 53 →
        Float64.isNaN (ofInt m / ofInt n : F) = false :=
      fun m n hpos hle => Float64.Lawful.div_not_nan hpos hle
    refine List.pairwise_iff_forall_sublist.mpr fun {a b} hsub _ => ?_
    have hb : b ∈ [ofInt 5 / ofInt 100, ofInt 25 / ofInt 100, ofInt 5 / ofInt 10, (ofInt 1 : F)] :=
      hsub.subset (by simp)
    simp only [List.mem_cons, List.not_mem_nil, or_false] at hb
    rcases hb with rfl | rfl | rfl | rfl
    · exact hnumber 5 100 (by omega) (by omega)
    · exact hnumber 25 100 (by omega) (by omega)
    · exact hnumber 5 10 (by omega) (by omega)
    · exact Float64.Lawful.ofInt_not_nan 1
  · exact h

/-- A promotion only adds requests. -/
theorem enforces_promote {config : LifecycleConfig F} (h : Inv config lifecycle)
    (hvalid : validSteps (ofInt 0) config.canarySteps = true) (hnan : NaNsLead config.canarySteps)
    {requestID : String} (hin : lifecycle.enforces requestID = true) :
    lifecycle.promote.enforces requestID = true := by
  rw [enforces_eq] at hin ⊢
  obtain ⟨hs, hp⟩ | ⟨hs, hp⟩ | ⟨hs, hmore, hp⟩ | ⟨hs, hlast, hp⟩ | ⟨hs, hp⟩ :=
    promote_cases lifecycle
  · simp only [snapshot, hs, sample_not_neg] at hin
    cases hin
  · simp only [snapshot, hs, sample_not_neg] at hin
    cases hin
  · rw [hp]
    simp only [snapshot, hs] at hin ⊢
    rw [h.config_eq] at hin hmore ⊢
    have ha : config.canarySteps[lifecycle.step]? =
        some (config.canarySteps.getD lifecycle.step (ofInt 0)) := by
      rw [List.getD_eq_getElem?_getD, List.getElem?_eq_getElem h.step_lt, Option.getD_some]
    have hb : config.canarySteps[lifecycle.step + 1]? =
        some (config.canarySteps.getD (lifecycle.step + 1) (ofInt 0)) := by
      rw [List.getD_eq_getElem?_getD, List.getElem?_eq_getElem hmore, Option.getD_some]
    exact step_mono hvalid hnan ha hb hin
  · rw [hp]
    exact sample_lt_one requestID
  · rw [hp]
    simp only [snapshot, hs] at hin ⊢
    exact hin

/-- A call that does not roll back only adds requests. -/
theorem enforces_call {config : LifecycleConfig F} (h : Inv config lifecycle)
    (hvalid : validSteps (ofInt 0) config.canarySteps = true) (hnan : NaNsLead config.canarySteps)
    {c : Call F} (hback : ¬ lifecycle.RollsBack c) {requestID : String}
    (hin : lifecycle.enforces requestID = true) :
    (lifecycle.call c).enforces requestID = true := by
  have hstage : lifecycle.stage ≠ .static := by
    intro hstatic
    rw [enforces_eq] at hin
    simp only [snapshot, hstatic, sample_not_neg] at hin
    cases hin
  cases c with
  | observe observation =>
    have hnot : (lifecycle.observe observation).stage ≠ .static := fun hs => hback ⟨hs, hstage⟩
    show (lifecycle.observe observation).enforces requestID = true
    obtain ⟨-, heq⟩ | ⟨reason, heq⟩ | ⟨reason, heq⟩ | ⟨-, -, heq⟩ :=
      observe_cases lifecycle observation
    · rw [heq] at hnot
      exact absurd rfl hnot
    · rw [heq] at hnot
      exact absurd rfl hnot
    · rw [heq]
      exact hin
    · rw [heq]
      exact enforces_promote h hvalid hnan hin
  | approve approvedBy =>
    show (lifecycle.approve approvedBy).enforces requestID = true
    obtain ⟨-, -, heq⟩ | heq := approve_cases lifecycle approvedBy
    · rw [heq]
      exact hin
    · rw [heq]
      exact hin

theorem enforces_run {config : LifecycleConfig F} (h : Inv config lifecycle)
    (hvalid : validSteps (ofInt 0) config.canarySteps = true) (hnan : NaNsLead config.canarySteps)
    {calls : List (Call F)} (hno : lifecycle.NoRollback calls) {requestID : String}
    (hin : lifecycle.enforces requestID = true) :
    (lifecycle.run calls).enforces requestID = true := by
  induction calls generalizing lifecycle with
  | nil => exact hin
  | cons c calls ih => exact ih (h.call c) hno.2 (enforces_call h hvalid hnan hno.1 hin)

/-- **The cohort only grows.** In every run of a lifecycle whose accepted canary steps have no NaN
after a number: without a rollback an enforced request stays enforced; no request is enforced in
static and shadow, and every one at a fraction of one and in the enforced stage; and whether a
request is enforced depends on the fraction only. -/
theorem cohort_grows {config : LifecycleConfig F} (hnew : new config = .ok lifecycle)
    (hnan : NaNsLead config.canarySteps) (before after : List (Call F)) (requestID : String) :
    ((lifecycle.run before).NoRollback after →
        (lifecycle.run before).enforces requestID = true →
          (lifecycle.run (before ++ after)).enforces requestID = true) ∧
      ((lifecycle.run before).stage = .static ∨ (lifecycle.run before).stage = .shadow →
        (lifecycle.run before).enforces requestID = false) ∧
      (Float64.eq (lifecycle.run before).snapshot.canaryFraction (ofInt 1) = true ∨
          (lifecycle.run before).stage = .enforced →
        (lifecycle.run before).enforces requestID = true) ∧
      (lifecycle.run before).enforces requestID =
        Float64.lt (stableSample requestID) (lifecycle.run before).snapshot.canaryFraction := by
  have hinv := (Inv.new hnew).run before
  have hvalid := (new_ok hnew).1
  refine ⟨fun hno hin => ?_, fun hstage => ?_, fun hfull => ?_, enforces_eq _ _⟩
  · rw [run_append]
    exact enforces_run hinv hvalid (withDefaults_nansLead hnan) hno hin
  · rcases hstage with hstage | hstage
    · simp [enforces, snapshot, hstage]
    · simp [enforces, snapshot, hstage]
  · rcases hfull with hone | hstage
    · rw [enforces_eq]
      exact Float64.Lawful.lt_of_lt_of_eq (sample_lt_one requestID) (Float64.Lawful.eq_symm hone)
    · simp [enforces, snapshot, hstage]

end Lifecycle

/-! ## Sample runs -/

namespace LifecycleSample

open Lifecycle

/-- Rationals and NaN; no run here takes an exponential. -/
@[reducible]
def number : Float64 (Option Rat) := Float64.rationalNaN id

attribute [local instance] number

local instance : Float64.Lawful (Option Rat) := Float64.rationalNaN_lawful id

def gates : LifecycleGates (Option Rat) where
  maxP95RegressionPercent := some 5
  maxErrorDelta := some (1 / 100)
  maxFallbackRate := some (2 / 100)
  maxSLOViolationRate := some (5 / 100)
  maxPredictionMAEMS := some 0
  maxEvidenceErrorRate := some 0
  requireExperimentPromotion := false

def config (requireHumanApproval : Bool) (canarySteps : List (Option Rat)) :
    LifecycleConfig (Option Rat) where
  enabled := true
  requireHumanApproval
  policyVersion := ""
  minRequests := 10
  canarySteps
  gates

def good : LifecycleObservation (Option Rat) where
  requests := 10
  p95RegressionPercent := some 0
  errorDelta := some 0
  fallbackRate := some 0
  sloViolationRate := some 0
  stateHealthy := true
  policyHealthy := true
  predictionMAEMS := some 0
  evidenceErrorRate := some 0
  experimentPromotionEligible := false
  experimentIntegrityHealthy := false

def started (requireHumanApproval : Bool) (canarySteps : List (Option Rat)) :
    Lifecycle (Option Rat) where
  config := withDefaults (config requireHumanApproval canarySteps)
  stage := .shadow
  step := 0
  lastReason := "initialized"
  approved := false
  approvedBy := ""

theorem new_started {requireHumanApproval : Bool} {canarySteps : List (Option Rat)}
    (h : validSteps (some 0) (withDefaults (config requireHumanApproval canarySteps)).canarySteps =
      true) :
    new (config requireHumanApproval canarySteps) =
      .ok (started requireHumanApproval canarySteps) :=
  if_pos h

def approvedRun : List (Call (Option Rat)) := [.observe good, .approve "operator", .observe good]

theorem approval_gates_sample :
    (((started true [some (1 / 2), some 1]).run approvedRun).stage = .canary ∨
        ((started true [some (1 / 2), some 1]).run approvedRun).stage = .enforced →
      (started true [some (1 / 2), some 1]).ApprovedSince approvedRun) ∧
      (∀ observation, ((started true [some (1 / 2), some 1]).run approvedRun).Moves
        (((started true [some (1 / 2), some 1]).run approvedRun).observe observation)) ∧
      ((started true [some (1 / 2), some 1]).run approvedRun).step <
        ((started true [some (1 / 2), some 1]).run approvedRun).config.canarySteps.length :=
  approval_gates (new_started (by decide +kernel)) rfl approvedRun

example : ((started true [some (1 / 2), some 1]).run approvedRun).stage = .canary := by
  decide +kernel

theorem cohort_grows_sample :
    (((started false [some (1 / 2), some 1]).run [.observe good]).NoRollback [.observe good] →
        ((started false [some (1 / 2), some 1]).run [.observe good]).enforces "r2" = true →
          ((started false [some (1 / 2), some 1]).run ([.observe good] ++ [.observe good])).enforces
            "r2" = true) ∧
      (((started false [some (1 / 2), some 1]).run [.observe good]).stage = .static ∨
          ((started false [some (1 / 2), some 1]).run [.observe good]).stage = .shadow →
        ((started false [some (1 / 2), some 1]).run [.observe good]).enforces "r2" = false) ∧
      (Float64.eq
            ((started false [some (1 / 2), some 1]).run [.observe good]).snapshot.canaryFraction
            (ofInt 1) = true ∨
          ((started false [some (1 / 2), some 1]).run [.observe good]).stage = .enforced →
        ((started false [some (1 / 2), some 1]).run [.observe good]).enforces "r2" = true) ∧
      ((started false [some (1 / 2), some 1]).run [.observe good]).enforces "r2" =
        Float64.lt (stableSample "r2")
          ((started false [some (1 / 2), some 1]).run [.observe good]).snapshot.canaryFraction :=
  cohort_grows (new_started (by decide +kernel))
    (by unfold NaNsLead config; decide +kernel) [.observe good] [.observe good] "r2"

/-- A NaN among the canary steps passes the checks; the promotion to it empties the cohort. -/
theorem cohort_shrinks_at_nan :
    new (config false [some (1 / 2), none]) = .ok (started false [some (1 / 2), none]) ∧
      ((started false [some (1 / 2), none]).run [.observe good]).NoRollback [.observe good] ∧
      ((started false [some (1 / 2), none]).run [.observe good]).enforces "r2" = true ∧
      ((started false [some (1 / 2), none]).run ([.observe good] ++ [.observe good])).enforces
        "r2" = false := by
  refine ⟨new_started (by decide +kernel), ⟨fun hback => ?_, trivial⟩, ?_, ?_⟩
  · have hstage : ((started false [some (1 / 2), none]).run [.observe good, .observe good]).stage =
        .canary := by decide +kernel
    have hstatic : ((started false [some (1 / 2), none]).run [.observe good, .observe good]).stage =
        .static := hback.1
    rw [hstage] at hstatic
    cases hstatic
  · decide +kernel
  · decide +kernel

end LifecycleSample

end Kavora.Router
