import Kavora.Lib.System
import Kavora.Router.PlanLemmas
import Kavora.Router.Cohort

/-!
# Plans beside lifecycle changes

`Plan` reads the lifecycle twice, first its snapshot and then whether it enforces the request. Each
read holds the lock, but other requests can change the lifecycle between the two.

* `Controller.planWith`: a plan from the reads it has made; `Controller.plan_eq` says that it is
  `Controller.plan` when both reads see one state.
* `Controller.coherent_iff`: when a decision agrees with the stage that it records.
* `plans`: the runs of any number of plans beside `Observe` and `Approve` calls.
* `Undisturbed`: no promotion between the two reads of a plan takes its request into the cohort, unless
  a rollback takes it out again before the second read.
* `recorded_coherent`: the runs in which every decision agrees; `recorded_coherent_iff` says of one
  decision that the condition is exact.
-/

namespace Kavora.Router

open Lib Lib.Go BackendState
open Float64 (ofInt)

variable {F : Type} [Float64 F]

/-- What a plan reads of the lifecycle. -/
structure LifecycleReads (F : Type) where
  snapshot : LifecycleSnapshot F
  enforces : Bool

/-- Whether the state of a snapshot enforces a request. -/
def LifecycleSnapshot.enforces (snapshot : LifecycleSnapshot F) (requestID : String) : Bool :=
  snapshot.stage = .enforced ||
    (snapshot.stage = .canary && Float64.lt (stableSample requestID) snapshot.canaryFraction)

namespace Controller

/-- The first half of `rollout`, from the reads. -/
def stageRolloutWith (c : Controller F) (reads : Option (LifecycleReads F)) : Rollout F :=
  match reads with
  | none =>
    { mode := c.mode
      stage := c.mode.text
      fraction := ofInt 1
      enforced := c.mode.enforcing
      version := "routing-v1"
      assignment := .zero }
  | some { snapshot, enforces } =>
    { mode := snapshot.stage.mode
      stage := snapshot.stage.text
      fraction := snapshot.canaryFraction
      enforced := enforces
      version := snapshot.policyVersion
      assignment := .zero }

/-- The rollout of a request, from what `Plan` read of the lifecycle. -/
def rolloutWith (env : Externals F) (c : Controller F) (reads : Option (LifecycleReads F))
    (requestID : String) (now : Time) : Rollout F :=
  let r := c.stageRolloutWith reads
  match c.experiment with
  | none => r
  | some experiment =>
    let assignment :=
      if reads.isSome ∧ ¬ r.enforced then experiment.controlAssignment "lifecycle_not_enforced"
      else experiment.assign env.sha64 requestID now
    let mode := policyMode assignment.assignedPolicy r.mode
    { r with
      mode
      assignment
      enforced := if reads.isSome then r.enforced && mode.enforcing else mode.enforcing }

/-- `Plan`, from what it read of the lifecycle. -/
def planWith (env : Externals F) (c : Controller F) (reads : Option (LifecycleReads F))
    (now : Time) (clock : Nat → Time) (request : RoutingRequest F)
    (backends : List BackendDescriptor) : Decision F × Controller F :=
  let rollout := c.rolloutWith env reads request.requestID now
  let (candidates, cache) := c.planCandidates now clock rollout request 0 backends c.cache
  let candidates :=
    if rollout.assignment.assignedPolicy = "kv-v2" then applyKVV2QueueVeto candidates
    else candidates
  let candidates := sortCandidates env.sorting candidates
  let decision :=
    { newDecision rollout now request with
      candidates
      predictorVersion := predictorVersions candidates }
  (select env rollout.mode decision candidates, { c with cache })

/-- The reads of a plan that nothing interrupts. -/
def readNow (c : Controller F) (requestID : String) : Option (LifecycleReads F) :=
  c.lifecycle.map fun lifecycle =>
    { snapshot := lifecycle.snapshot, enforces := lifecycle.enforces requestID }

theorem rollout_eq (env : Externals F) (c : Controller F) (requestID : String) (now : Time) :
    c.rollout env requestID now = c.rolloutWith env (c.readNow requestID) requestID now := by
  unfold rollout rolloutWith readNow stageRollout stageRolloutWith
  cases c.lifecycle <;> rfl

theorem plan_eq (env : Externals F) (c : Controller F) (now : Time) (clock : Nat → Time)
    (request : RoutingRequest F) (backends : List BackendDescriptor) :
    c.plan env now clock request backends =
      c.planWith env (c.readNow request.requestID) now clock request backends := by
  unfold plan planWith
  rw [rollout_eq]

end Controller

/-! ## What a decision records -/

/-- The selection sets the verdict of a decision and nothing else. -/
theorem select_fields (env : Externals F) (mode : Mode) (decision : Decision F)
    (candidates : List (Candidate F)) :
    ∃ selected predictorVersion fallback reason reasons,
      select env mode decision candidates =
        { decision with selected, predictorVersion, fallback, reason, reasons } := by
  induction candidates with
  | nil => exact ⟨_, _, _, _, _, rfl⟩
  | cons candidate candidates ih =>
    rw [select]
    split
    · exact ih
    split
    · exact ⟨_, _, _, _, _, rfl⟩
    split
    · exact ⟨_, _, _, _, _, rfl⟩
    split
    · exact ⟨_, _, _, _, _, rfl⟩
    · exact ⟨_, _, _, _, _, rfl⟩

/-- A decision is the one of the rollout, with candidates and a verdict. -/
theorem Controller.planWith_fields (env : Externals F) (c : Controller F)
    (reads : Option (LifecycleReads F)) (now : Time) (clock : Nat → Time)
    (request : RoutingRequest F) (backends : List BackendDescriptor) :
    ∃ candidates selected predictorVersion fallback reason reasons,
      (c.planWith env reads now clock request backends).1 =
        { newDecision (c.rolloutWith env reads request.requestID now) now request with
          candidates, selected, predictorVersion, fallback, reason, reasons } := by
  obtain ⟨selected, predictorVersion, fallback, reason, reasons, h⟩ :=
    select_fields env (c.rolloutWith env reads request.requestID now).mode _ _
  exact ⟨_, selected, predictorVersion, fallback, reason, reasons, h⟩

/-- The stage and the fraction of a decision enforce its request, if it is enforced. -/
def Decision.Coherent (decision : Decision F) : Prop :=
  decision.enforced = true →
    decision.stage = "enforced" ∨
      decision.stage = "canary" ∧
        Float64.lt (stableSample decision.requestID) decision.canaryFraction = true

namespace Controller

/-- The policy that an experiment assigns routes by signals. -/
def Routes (env : Externals F) (c : Controller F) (snapshot : LifecycleSnapshot F)
    (requestID : String) (now : Time) : Prop :=
  ∀ experiment, c.experiment = some experiment →
    (policyMode (experiment.assign env.sha64 requestID now).assignedPolicy
      snapshot.stage.mode).enforcing = true

/-- The second read enforces a request that is then routed only if the first one does. -/
def Agrees (env : Externals F) (c : Controller F) (reads : LifecycleReads F) (requestID : String)
    (now : Time) : Prop :=
  reads.enforces = true → c.Routes env reads.snapshot requestID now →
    reads.snapshot.enforces requestID = true

theorem rolloutWith_enforced (env : Externals F) (c : Controller F) (reads : LifecycleReads F)
    (requestID : String) (now : Time) :
    (c.rolloutWith env (some reads) requestID now).enforced = true ↔
      reads.enforces = true ∧ c.Routes env reads.snapshot requestID now := by
  unfold rolloutWith Routes
  cases hexperiment : c.experiment with
  | none => simp [stageRolloutWith]
  | some experiment =>
    cases henforces : reads.enforces with
    | false => simp [stageRolloutWith, henforces]
    | true => simp [stageRolloutWith, henforces]

theorem rolloutWith_stage (env : Externals F) (c : Controller F) (reads : LifecycleReads F)
    (requestID : String) (now : Time) :
    (c.rolloutWith env (some reads) requestID now).stage = reads.snapshot.stage.text ∧
      (c.rolloutWith env (some reads) requestID now).fraction = reads.snapshot.canaryFraction := by
  unfold rolloutWith
  cases c.experiment with
  | none => exact ⟨rfl, rfl⟩
  | some experiment => exact ⟨rfl, rfl⟩

/-- The stage and the fraction of a snapshot enforce what the snapshot enforces. -/
theorem snapshot_enforces_iff (snapshot : LifecycleSnapshot F) (requestID : String) :
    snapshot.enforces requestID = true ↔
      snapshot.stage.text = "enforced" ∨
        snapshot.stage.text = "canary" ∧
          Float64.lt (stableSample requestID) snapshot.canaryFraction = true := by
  unfold LifecycleSnapshot.enforces
  cases snapshot.stage with
  | static => simp [LifecycleStage.text]
  | shadow => simp [LifecycleStage.text]
  | canary => simp [LifecycleStage.text]
  | enforced => simp [LifecycleStage.text]

/-- **A decision is coherent exactly when its two reads agree.** -/
theorem coherent_iff (env : Externals F) (c : Controller F) (reads : LifecycleReads F) (now : Time)
    (clock : Nat → Time) (request : RoutingRequest F) (backends : List BackendDescriptor) :
    (c.planWith env (some reads) now clock request backends).1.Coherent ↔
      c.Agrees env reads request.requestID now := by
  obtain ⟨_, _, _, _, _, _, hdecision⟩ :=
    c.planWith_fields env (some reads) now clock request backends
  obtain ⟨hstage, hfraction⟩ := c.rolloutWith_stage env reads request.requestID now
  have hshape : (c.planWith env (some reads) now clock request backends).1.Coherent ↔
      ((c.rolloutWith env (some reads) request.requestID now).enforced = true →
        reads.snapshot.enforces request.requestID = true) := by
    rw [hdecision, snapshot_enforces_iff, ← hstage, ← hfraction]
    rfl
  rw [hshape, rolloutWith_enforced]
  exact and_imp

/-- A plan that nothing interrupts is coherent. -/
theorem plan_coherent (env : Externals F) (c : Controller F) {lifecycle : Lifecycle F}
    (h : c.lifecycle = some lifecycle) (now : Time) (clock : Nat → Time)
    (request : RoutingRequest F) (backends : List BackendDescriptor) :
    (c.plan env now clock request backends).1.Coherent := by
  rw [plan_eq, readNow, h]
  refine (coherent_iff env c _ now clock request backends).mpr fun henforces _ => ?_
  exact henforces

end Controller

/-! ## Runs -/

/-- The lifecycle that the first read of a plan saw, and the calls until the second one. The plan does
not know them. -/
structure Between (F : Type) where
  lifecycle : Lifecycle F
  calls : List (Lifecycle.Call F)

/-- Where a plan is; it works on the controller that it found at its start. -/
inductive PlanThread (F : Type) where
  | idle
  | started (c : Controller F) (request : RoutingRequest F)
  | read (c : Controller F) (request : RoutingRequest F) (snapshot : LifecycleSnapshot F)
      (between : Between F)
  | ready (c : Controller F) (request : RoutingRequest F) (reads : LifecycleReads F)
      (between : Between F)

/-- A call falls between the reads of the plans that have made the first one. -/
def PlanThread.after (call : Lifecycle.Call F) : PlanThread F → PlanThread F
  | .read c request snapshot between =>
    .read c request snapshot { between with calls := between.calls ++ [call] }
  | thread => thread

/-- The controller's lifecycle, the plans under way and the decisions they recorded. -/
structure PlanState (F : Type) where
  lifecycle : Lifecycle F
  controller : Controller F
  threads : Nat → PlanThread F
  recorded : List (Decision F)

/-- The steps of plans and of what changes between them. -/
inductive PlanStep (F : Type) where
  /-- A call of `Observe` or `Approve` by another request. -/
  | call (call : Lifecycle.Call F)
  /-- Any other change of the controller. -/
  | configure (c : Controller F)
  | start (thread : Nat) (request : RoutingRequest F)
  | snapshot (thread : Nat)
  | enforces (thread : Nat)
  | record (thread : Nat) (now : Time) (clock : Nat → Time) (backends : List BackendDescriptor)

/-- The state with another thread. -/
def PlanState.setThread (s : PlanState F) (thread : Nat) (t : PlanThread F) : PlanState F :=
  { s with threads := Function.update s.threads thread t }

/-- The state after a step, if it is possible. -/
def PlanState.next (env : Externals F) (s : PlanState F) : PlanStep F → Option (PlanState F)
  | .call call =>
    some { s with
      lifecycle := s.lifecycle.call call, threads := fun thread => (s.threads thread).after call }
  | .configure controller => some { s with controller }
  | .start thread request =>
    match s.threads thread with
    | .idle => some (s.setThread thread (.started s.controller request))
    | _ => none
  | .snapshot thread =>
    match s.threads thread with
    | .started c request =>
      some (s.setThread thread
        (.read c request s.lifecycle.snapshot { lifecycle := s.lifecycle, calls := [] }))
    | _ => none
  | .enforces thread =>
    match s.threads thread with
    | .read c request snapshot between =>
      some (s.setThread thread
        (.ready c request { snapshot, enforces := s.lifecycle.enforces request.requestID } between))
    | _ => none
  | .record thread now clock backends =>
    match s.threads thread with
    | .ready c request reads _ =>
      let (decision, c) :=
        { c with cache := s.controller.cache }.planWith env (some reads) now clock request backends
      some
        { s.setThread thread .idle with
          controller := { s.controller with cache := c.cache }
          recorded := s.recorded ++ [decision] }
    | _ => none

/-- Plans beside calls of `Observe` and `Approve`, in any order. -/
def plans (env : Externals F) : System (PlanState F) (PlanStep F) where
  init s := (∀ thread, s.threads thread = .idle) ∧ s.recorded = []
  step s i s' := s.next env i = some s'

/-- Of the plan that is recorded: the calls between its reads did not take the request into the
cohort, or the policy that an experiment assigns does not route by signals. -/
def Undisturbed (env : Externals F) (s : PlanState F) : PlanStep F → Prop
  | .record thread now _ _ =>
    match s.threads thread with
    | .ready c request reads between =>
      between.lifecycle.Overtaken between.calls request.requestID →
        ¬ c.Routes env reads.snapshot request.requestID now
    | _ => True
  | _ => True

/-- What a plan has read is what the lifecycle was at its reads. -/
def PlanThread.Sound (lifecycle : Lifecycle F) : PlanThread F → Prop
  | .idle | .started _ _ => True
  | .read _ _ snapshot between =>
    snapshot = between.lifecycle.snapshot ∧ lifecycle = between.lifecycle.run between.calls
  | .ready _ request reads between =>
    reads.snapshot = between.lifecycle.snapshot ∧
      reads.enforces = (between.lifecycle.run between.calls).enforces request.requestID

theorem PlanThread.Sound.after {lifecycle : Lifecycle F} {thread : PlanThread F}
    (h : thread.Sound lifecycle) (call : Lifecycle.Call F) :
    (thread.after call).Sound (lifecycle.call call) := by
  cases thread with
  | idle => trivial
  | started c request => trivial
  | read c request snapshot between =>
    obtain ⟨hsnapshot, hlifecycle⟩ := h
    exact ⟨hsnapshot, by rw [Lifecycle.run_concat, hlifecycle]⟩
  | ready c request reads between => exact h

/-- Sound plans stay sound when one of them moves. -/
theorem sound_setThread {s : PlanState F} (h : ∀ thread, (s.threads thread).Sound s.lifecycle)
    {thread : Nat} {t : PlanThread F} (ht : t.Sound s.lifecycle) :
    ∀ other, ((s.setThread thread t).threads other).Sound s.lifecycle := by
  intro other
  unfold PlanState.setThread
  dsimp only
  by_cases hother : other = thread
  · rw [hother, Function.update_self]
    exact ht
  · rw [Function.update_of_ne hother]
    exact h other

theorem sound_next {env : Externals F} {s s' : PlanState F} {i : PlanStep F}
    (h : ∀ thread, (s.threads thread).Sound s.lifecycle) (hstep : s.next env i = some s') :
    ∀ thread, (s'.threads thread).Sound s'.lifecycle := by
  cases i with
  | call call =>
    cases hstep
    exact fun thread => (h thread).after call
  | configure c =>
    cases hstep
    exact h
  | start thread request =>
    simp only [PlanState.next] at hstep
    split at hstep
    · cases hstep
      exact sound_setThread h trivial
    · cases hstep
  | snapshot thread =>
    simp only [PlanState.next] at hstep
    split at hstep
    · cases hstep
      exact sound_setThread h ⟨rfl, rfl⟩
    · cases hstep
  | enforces thread =>
    simp only [PlanState.next] at hstep
    split at hstep
    · rename_i hthread
      have hread := h thread
      rw [hthread] at hread
      cases hstep
      exact sound_setThread h ⟨hread.1, by rw [← hread.2]⟩
    · cases hstep
  | record thread now clock backends =>
    simp only [PlanState.next] at hstep
    split at hstep
    · cases hstep
      exact sound_setThread h trivial
    · cases hstep

theorem sound_reach {env : Externals F} {s : PlanState F} (hs : (plans env).Reach s) :
    ∀ thread, (s.threads thread).Sound s.lifecycle := by
  have hinductive : (plans env).Inductive
      fun s => ∀ thread, (s.threads thread).Sound s.lifecycle := by
    refine ⟨?_, fun s i s' h hstep => sound_next h hstep⟩
    rintro s ⟨hidle, -⟩ thread
    rw [hidle]
    trivial
  exact hinductive.reach hs

/-- The two reads of a plan agree exactly when the calls between them did not take its request into
the cohort. -/
theorem agrees_iff {env : Externals F} {c : Controller F} {request : RoutingRequest F}
    {reads : LifecycleReads F} {between : Between F} {now : Time}
    (hsnapshot : reads.snapshot = between.lifecycle.snapshot)
    (henforces : reads.enforces =
      (between.lifecycle.run between.calls).enforces request.requestID) :
    c.Agrees env reads request.requestID now ↔
      (between.lifecycle.Overtaken between.calls request.requestID →
        ¬ c.Routes env reads.snapshot request.requestID now) := by
  have hfirst : reads.snapshot.enforces request.requestID =
      between.lifecycle.enforces request.requestID := by
    rw [hsnapshot]
    rfl
  unfold Controller.Agrees
  rw [Lifecycle.overtaken_iff, henforces, hfirst, ← Bool.not_eq_true]
  tauto

/-- **A recorded decision is coherent exactly when its plan was undisturbed.** -/
theorem recorded_coherent_iff {env : Externals F} {s s' : PlanState F} {thread : Nat} {now : Time}
    {clock : Nat → Time} {backends : List BackendDescriptor} (hs : (plans env).Reach s)
    (hstep : s.next env (.record thread now clock backends) = some s') :
    ∃ decision, s'.recorded = s.recorded ++ [decision] ∧
      (decision.Coherent ↔ Undisturbed env s (.record thread now clock backends)) := by
  simp only [PlanState.next] at hstep
  simp only [Undisturbed]
  split at hstep
  · rename_i c request reads between hthread
    have hsound := sound_reach hs thread
    rw [hthread] at hsound
    cases hstep
    exact ⟨_, rfl, (Controller.coherent_iff env { c with cache := s.controller.cache } reads now
      clock request backends).trans (agrees_iff hsound.1 hsound.2)⟩
  · cases hstep

/-- What a step records. -/
theorem next_recorded {env : Externals F} {s s' : PlanState F} {i : PlanStep F}
    (hstep : s.next env i = some s') :
    s'.recorded = s.recorded ∨ ∃ thread now clock backends, i = .record thread now clock backends := by
  cases i with
  | call call => cases hstep; exact .inl rfl
  | configure c => cases hstep; exact .inl rfl
  | start thread request =>
    simp only [PlanState.next] at hstep
    split at hstep
    · cases hstep; exact .inl rfl
    · cases hstep
  | snapshot thread =>
    simp only [PlanState.next] at hstep
    split at hstep
    · cases hstep; exact .inl rfl
    · cases hstep
  | enforces thread =>
    simp only [PlanState.next] at hstep
    split at hstep
    · cases hstep; exact .inl rfl
    · cases hstep
  | record thread now clock backends => exact .inr ⟨thread, now, clock, backends, rfl⟩

/-- **Recorded decisions are coherent** in every run in which no promotion between the reads of a
plan that is routed takes its request into the cohort and leaves it there. -/
theorem recorded_coherent {env : Externals F} {s : PlanState F}
    (hs : ((plans env).restrict (Undisturbed env)).Reach s) :
    ∀ decision ∈ s.recorded, decision.Coherent := by
  have hinductive : ((plans env).restrict (Undisturbed env)).Inductive fun s =>
      (plans env).Reach s ∧ ∀ decision ∈ s.recorded, decision.Coherent := by
    refine ⟨?_, ?_⟩
    · intro s hs
      refine ⟨.init hs, fun decision hmem => ?_⟩
      rw [hs.2] at hmem
      cases hmem
    · rintro s i s' ⟨hreach, h⟩ ⟨hstep, hcalm⟩
      refine ⟨.step hreach hstep, ?_⟩
      rcases next_recorded hstep with hsame | ⟨thread, now, clock, backends, rfl⟩
      · rw [hsame]
        exact h
      · obtain ⟨decision, hrecorded, hiff⟩ := recorded_coherent_iff hreach hstep
        rw [hrecorded]
        exact List.forall_mem_append.mpr ⟨h, List.forall_mem_singleton.mpr (hiff.mpr hcalm)⟩
  exact (hinductive.reach hs).2

namespace PlanSample

open LifecycleSample

attribute [local instance] number

def env : Externals (Option Rat) where
  sorting := .insertion
  sha64 _ := 0
  fixed _ _ := ""

def controller : Controller (Option Rat) where
  mode := .static
  states := ∅
  cache := { affinity := none, provider := .noCache }
  predictor := .default
  lifecycle := none
  experiment := none
  maxStateAge := 0
  stateLambda := some 0

def request : RoutingRequest (Option Rat) where
  requestID := "r2"
  tenantID := ""
  model := "m"
  cacheKey := ""
  externalCacheKeys := []
  promptTokens := 8
  requirements := ∅
  ttftSloMS := some 0

/-- The rollout has two canary steps, and the request is in both. -/
def initial : PlanState (Option Rat) where
  lifecycle := started false [some (1 / 2), some 1]
  controller
  threads _ := .idle
  recorded := []

/-- An observation that ends the rollout. -/
def bad : LifecycleObservation (Option Rat) := { good with stateHealthy := false }

/-- A step that records no plan whose request was taken into the cohort between its reads. -/
def calm (s : PlanState (Option Rat)) (i : PlanStep (Option Rat)) :
    Option (PlanState (Option Rat)) :=
  match i with
  | .record thread _ _ _ =>
    match s.threads thread with
    | .ready _ request _ between =>
      if between.lifecycle.Overtaken between.calls request.requestID then none else s.next env i
    | _ => none
  | _ => s.next env i

theorem calm_step {s s' : PlanState (Option Rat)} {i : PlanStep (Option Rat)}
    (h : calm s i = some s') : ((plans env).restrict (Undisturbed env)).step s i s' := by
  cases i with
  | record thread now clock backends =>
    simp only [calm] at h
    split at h
    · rename_i c request reads between hthread
      split at h
      · cases h
      · rename_i hcalm
        refine ⟨h, ?_⟩
        simp only [Undisturbed, hthread]
        exact fun hovertaken => absurd hovertaken hcalm
    · cases h
  | call call => exact ⟨h, trivial⟩
  | configure c => exact ⟨h, trivial⟩
  | start thread request => exact ⟨h, trivial⟩
  | snapshot thread => exact ⟨h, trivial⟩
  | enforces thread => exact ⟨h, trivial⟩

/-- Between the reads of the first plan the rollout is promoted to the canary stage and rolled back;
between those of the second one it is promoted from the first canary step to the next. -/
def settled : PlanState (Option Rat) :=
  ([.start 0 request, .snapshot 0, .call (.observe good), .call (.observe bad), .enforces 0,
    .record 0 0 (fun _ => 0) [], .call (.observe good), .call (.observe good), .start 1 request,
    .snapshot 1, .call (.observe good), .enforces 1, .record 1 0 (fun _ => 0) []].foldlM calm
    initial).get (by decide +kernel)

theorem recorded_coherent_sample :
    settled.recorded.map (fun decision => (decision.stage, decision.enforced)) =
        [("shadow", false), ("canary", true)] ∧
      ∀ decision ∈ settled.recorded, decision.Coherent :=
  ⟨by decide +kernel, recorded_coherent
    (.foldlM (fun _ _ _ => calm_step) _ (.init ⟨fun _ => rfl, rfl⟩) (Option.some_get _).symm)⟩

/-- The promotion to canary falls between the two reads. -/
def shadowed : PlanState (Option Rat) :=
  ([.start 0 request, .snapshot 0, .call (.observe good), .enforces 0,
    .record 0 0 (fun _ => 0) []].foldlM (PlanState.next env) initial).get (by decide +kernel)

/-- The decision of this run is enforced in the stage shadow. -/
theorem shadow_decision_enforced :
    ∃ s, (plans env).Reach s ∧
      ∃ decision ∈ s.recorded, decision.enforced = true ∧ decision.stage = "shadow" ∧
        ¬ decision.Coherent := by
  have hreach : (plans env).Reach shadowed :=
    .foldlM (fun _ _ _ h => h) _ (.init ⟨fun _ => rfl, rfl⟩) (Option.some_get _).symm
  have hfound : ∃ decision ∈ shadowed.recorded,
      decision.enforced = true ∧ decision.stage = "shadow" := by decide +kernel
  obtain ⟨decision, hmem, henforced, hstage⟩ := hfound
  refine ⟨_, hreach, decision, hmem, henforced, hstage, fun hcoherent => ?_⟩
  rcases hcoherent henforced with h | ⟨h, -⟩
  · rw [hstage] at h
    exact absurd h (by decide)
  · rw [hstage] at h
    exact absurd h (by decide)

end PlanSample

end Kavora.Router
