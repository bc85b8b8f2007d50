import Kavora.Router.LifecycleRuns

/-!
# How a request enters and leaves the cohort

* `Lifecycle.Promotes`, `Lifecycle.Falls`: the observations that promote by one step, and those that
  end the rollout. `observe_spec` says that an `Observe` does one of the two, or neither.
* `Lifecycle.TakesIn`, `Lifecycle.TakesOut`: the observations that take a request into the cohort, and
  out of it, by the stage, the step and the sample of its ID.
* `Lifecycle.Overtaken`: calls that take a request in, and do not take it out again.
  `overtaken_iff` says that these are the calls after which it is enforced, though it was not before.
-/

namespace Kavora.Router

open Lib Lib.Go
open Float64 (ofInt)

variable {F : Type} [Float64 F]

namespace Lifecycle

/-! ## One observation -/

/-- The observation passes every gate, and the approval that shadow may need is there. -/
structure Promotes (lifecycle : Lifecycle F) (observation : LifecycleObservation F) : Prop where
  enabled : lifecycle.config.enabled = true
  healthy : observation.stateHealthy = true ∧ observation.policyHealthy = true
  requests : lifecycle.config.minRequests ≤ observation.requests
  gates : lifecycle.config.gates.qualityFails observation = false ∧
    lifecycle.config.gates.drifts observation = false ∧
    lifecycle.config.gates.refusesPromotion observation = false
  approved : lifecycle.stage = .shadow → lifecycle.config.requireHumanApproval = true →
    lifecycle.approved = true

/-- The observation ends the rollout, or there is none. -/
def Falls (lifecycle : Lifecycle F) (observation : LifecycleObservation F) : Prop :=
  lifecycle.config.enabled = false ∨
    observation.stateHealthy = false ∨ observation.policyHealthy = false ∨
    lifecycle.config.minRequests ≤ observation.requests ∧
      (lifecycle.config.gates.qualityFails observation = true ∨
        lifecycle.config.gates.drifts observation = true ∨
        lifecycle.config.gates.refusesPromotion observation = true)

/-- What an `Observe` does, by the gates. -/
theorem observe_spec (lifecycle : Lifecycle F) (observation : LifecycleObservation F) :
    (lifecycle.Promotes observation ∧ ¬ lifecycle.Falls observation ∧
        lifecycle.observe observation = lifecycle.promote) ∨
      (¬ lifecycle.Promotes observation ∧ lifecycle.Falls observation ∧
        (lifecycle.observe observation).stage = .static) ∨
      (¬ lifecycle.Promotes observation ∧ ¬ lifecycle.Falls observation ∧
        ∃ reason, lifecycle.observe observation = { lifecycle with lastReason := reason }) := by
  unfold observe
  split
  · rename_i hdisabled
    exact .inr (.inl ⟨fun h => by simp [h.enabled] at hdisabled, .inl hdisabled, rfl⟩)
  rename_i henabled
  split
  · rename_i hsick
    refine .inr (.inl ⟨fun h => ?_, .inr (hsick.imp_right .inl), rfl⟩)
    simp [h.healthy] at hsick
  rename_i hhealthy
  split
  · rename_i hfew
    refine .inr (.inr ⟨fun h => ?_, fun h => ?_, _, rfl⟩)
    · exact absurd h.requests (not_le_of_gt hfew)
    · rcases h with h | h | h | ⟨h, -⟩
      · exact henabled h
      · exact hhealthy (.inl h)
      · exact hhealthy (.inr h)
      · exact absurd h (not_le_of_gt hfew)
  rename_i hmany
  have hmany := not_lt.mp hmany
  split
  · rename_i hfails
    refine .inr (.inl ⟨fun h => ?_, .inr (.inr (.inr ⟨hmany, .inl hfails⟩)), rfl⟩)
    simp [h.gates] at hfails
  rename_i hquality
  split
  · rename_i hdrifts
    refine .inr (.inl ⟨fun h => ?_, .inr (.inr (.inr ⟨hmany, .inr (.inl hdrifts)⟩)), rfl⟩)
    simp [h.gates] at hdrifts
  rename_i hstable
  split
  · rename_i hrefuses
    refine .inr (.inl ⟨fun h => ?_, .inr (.inr (.inr ⟨hmany, .inr (.inr hrefuses)⟩)), rfl⟩)
    simp [h.gates] at hrefuses
  rename_i heligible
  have hstays : ¬ lifecycle.Falls observation := by
    rintro (h | h | h | ⟨-, h | h | h⟩)
    · exact henabled h
    · exact hhealthy (.inl h)
    · exact hhealthy (.inr h)
    · exact hquality h
    · exact hstable h
    · exact heligible h
  split
  · rename_i hwaits
    refine .inr (.inr ⟨fun h => ?_, hstays, _, rfl⟩)
    simp [h.approved hwaits.1 hwaits.2.1] at hwaits
  · rename_i hready
    refine .inl ⟨⟨by simpa using henabled, by simpa using hhealthy, hmany,
      ⟨by simpa using hquality, by simpa using hstable, by simpa using heligible⟩,
      fun hshadow hrequired => ?_⟩, hstays, rfl⟩
    by_contra hnot
    exact hready ⟨hshadow, hrequired, by simpa using hnot⟩

/-! ## The cohort -/

/-- The request samples below a canary step. -/
def Below (lifecycle : Lifecycle F) (step : Nat) (requestID : String) : Prop :=
  Float64.lt (stableSample requestID) (lifecycle.config.canarySteps.getD step (ofInt 0)) = true

instance {lifecycle : Lifecycle F} {step : Nat} {requestID : String} :
    Decidable (lifecycle.Below step requestID) :=
  inferInstanceAs (Decidable (_ = true))

/-- The observation promotes the rollout to a step that takes the request in: the first one, a later
one, or the one after the last, which is everybody. -/
def TakesIn (lifecycle : Lifecycle F) (observation : LifecycleObservation F) (requestID : String) :
    Prop :=
  lifecycle.Promotes observation ∧
    (lifecycle.stage = .shadow ∧ lifecycle.Below 0 requestID ∨
      lifecycle.stage = .canary ∧ ¬ lifecycle.Below lifecycle.step requestID ∧
        (lifecycle.step + 1 < lifecycle.config.canarySteps.length →
          lifecycle.Below (lifecycle.step + 1) requestID))

/-- The observation takes the request out: the rollout ends, or it is promoted to a step that does
not hold the request, which is no number. -/
def TakesOut (lifecycle : Lifecycle F) (observation : LifecycleObservation F) (requestID : String) :
    Prop :=
  lifecycle.Falls observation ∧
      (lifecycle.stage = .enforced ∨
        lifecycle.stage = .canary ∧ lifecycle.Below lifecycle.step requestID) ∨
    lifecycle.Promotes observation ∧ lifecycle.stage = .canary ∧
      lifecycle.Below lifecycle.step requestID ∧
      lifecycle.step + 1 < lifecycle.config.canarySteps.length ∧
      ¬ lifecycle.Below (lifecycle.step + 1) requestID

variable {lifecycle : Lifecycle F} {observation : LifecycleObservation F} {requestID : String}

theorem enforces_iff : lifecycle.enforces requestID = true ↔
    lifecycle.stage = .enforced ∨
      lifecycle.stage = .canary ∧ lifecycle.Below lifecycle.step requestID := by
  unfold enforces Below
  cases hstage : lifecycle.stage with
  | static => simp [snapshot, hstage]
  | shadow => simp [snapshot, hstage]
  | canary => simp [snapshot, hstage]
  | enforced => simp [snapshot, hstage]

/-- Who is in the cohort after a promotion. -/
theorem promote_enforces_iff : lifecycle.promote.enforces requestID = true ↔
    lifecycle.stage = .shadow ∧ lifecycle.Below 0 requestID ∨
      lifecycle.stage = .canary ∧
        (lifecycle.step + 1 < lifecycle.config.canarySteps.length →
          lifecycle.Below (lifecycle.step + 1) requestID) ∨
      lifecycle.stage = .enforced := by
  rw [enforces_iff]
  obtain ⟨hstage, heq⟩ | ⟨hstage, heq⟩ | ⟨hstage, hmore, heq⟩ | ⟨hstage, hlast, heq⟩ |
    ⟨hstage, heq⟩ := promote_cases lifecycle
  · simp [heq, hstage]
  · simp [heq, hstage, Below]
  · simp [heq, hstage, hmore, Below]
  · simp [heq, hstage, hlast]
  · simp [heq, hstage]

theorem takesIn_iff : lifecycle.TakesIn observation requestID ↔
    lifecycle.enforces requestID = false ∧
      (lifecycle.observe observation).enforces requestID = true := by
  unfold TakesIn
  rw [← Bool.not_eq_true, enforces_iff]
  obtain ⟨hpromotes, -, heq⟩ | ⟨hnot, -, hstatic⟩ | ⟨hnot, -, reason, heq⟩ :=
    observe_spec lifecycle observation
  · rw [heq, promote_enforces_iff]
    cases hstage : lifecycle.stage with
    | static => simp
    | shadow => simp [hpromotes]
    | canary => simp [hpromotes]
    | enforced => simp
  · rw [enforces_iff, hstatic]
    exact iff_of_false (fun h => hnot h.1) fun h => by simp at h
  · rw [heq, enforces_iff]
    exact iff_of_false (fun h => hnot h.1) fun h => h.1 h.2

theorem takesOut_iff : lifecycle.TakesOut observation requestID ↔
    lifecycle.enforces requestID = true ∧
      (lifecycle.observe observation).enforces requestID = false := by
  unfold TakesOut
  rw [← Bool.not_eq_true, enforces_iff]
  obtain ⟨hpromotes, hstays, heq⟩ | ⟨hnot, hfalls, hstatic⟩ | ⟨hnot, hstays, reason, heq⟩ :=
    observe_spec lifecycle observation
  · rw [heq, promote_enforces_iff]
    cases hstage : lifecycle.stage with
    | static => simp
    | shadow => simp
    | canary => simp [hpromotes, hstays]
    | enforced => simp [hstays]
  · rw [enforces_iff, hstatic]
    simp [hfalls, hnot]
  · rw [heq, enforces_iff]
    refine iff_of_false ?_ fun h => h.2 h.1
    rintro (h | h)
    · exact hstays h.1
    · exact hnot h.1

/-! ## Calls between two reads -/

/-- A call takes the request out of the cohort; an approval never does. -/
def Expels (lifecycle : Lifecycle F) (requestID : String) : Call F → Prop
  | .observe observation => lifecycle.TakesOut observation requestID
  | .approve _ => False

/-- No call takes the request out of the cohort. -/
def Keeps (requestID : String) : Lifecycle F → List (Call F) → Prop
  | _, [] => True
  | lifecycle, c :: calls => ¬ lifecycle.Expels requestID c ∧ Keeps requestID (lifecycle.call c) calls

/-- A promotion among the calls takes the request in, and no later call takes it out. -/
def Enters (requestID : String) : Lifecycle F → List (Call F) → Prop
  | _, [] => False
  | lifecycle, c :: calls =>
    (∃ observation, c = .observe observation ∧ lifecycle.TakesIn observation requestID) ∧
        Keeps requestID (lifecycle.call c) calls ∨
      Enters requestID (lifecycle.call c) calls

/-- The request is not in the cohort, and the calls take it in. -/
def Overtaken (lifecycle : Lifecycle F) (calls : List (Call F)) (requestID : String) : Prop :=
  lifecycle.enforces requestID = false ∧ lifecycle.Enters requestID calls

theorem approve_enforces (lifecycle : Lifecycle F) (approvedBy requestID : String) :
    (lifecycle.approve approvedBy).enforces requestID = lifecycle.enforces requestID := by
  obtain ⟨-, -, heq⟩ | heq := approve_cases lifecycle approvedBy
  · rw [heq]
    rfl
  · rw [heq]

theorem expels_iff {c : Call F} : lifecycle.Expels requestID c ↔
    lifecycle.enforces requestID = true ∧ (lifecycle.call c).enforces requestID = false := by
  cases c with
  | observe observation => exact takesOut_iff
  | approve approvedBy =>
    have hsame : (lifecycle.call (.approve approvedBy)).enforces requestID =
        lifecycle.enforces requestID := approve_enforces lifecycle approvedBy requestID
    rw [hsame]
    refine iff_of_false id fun h => ?_
    rw [h.1] at h
    exact Bool.false_ne_true h.2.symm

theorem admits_iff {c : Call F} :
    (∃ observation, c = .observe observation ∧ lifecycle.TakesIn observation requestID) ↔
      lifecycle.enforces requestID = false ∧ (lifecycle.call c).enforces requestID = true := by
  cases c with
  | observe observation =>
    rw [show (lifecycle.call (.observe observation)) = lifecycle.observe observation from rfl,
      ← takesIn_iff]
    constructor
    · rintro ⟨_, heq, h⟩
      cases heq
      exact h
    · exact fun h => ⟨observation, rfl, h⟩
  | approve approvedBy =>
    have hsame : (lifecycle.call (.approve approvedBy)).enforces requestID =
        lifecycle.enforces requestID := approve_enforces lifecycle approvedBy requestID
    rw [hsame]
    refine iff_of_false (fun ⟨_, heq, _⟩ => by cases heq) fun h => ?_
    rw [h.1] at h
    exact Bool.false_ne_true h.2

/-- A request in the cohort that no call takes out stays in it. -/
theorem Keeps.enforces {calls : List (Call F)} (h : lifecycle.Keeps requestID calls)
    (hin : lifecycle.enforces requestID = true) :
    (lifecycle.run calls).enforces requestID = true := by
  induction calls generalizing lifecycle with
  | nil => exact hin
  | cons c calls ih =>
    obtain ⟨hstays, hrest⟩ := h
    refine ih hrest ?_
    by_contra hout
    exact hstays (expels_iff.mpr ⟨hin, by simpa using hout⟩)

theorem Enters.enforces {calls : List (Call F)} (h : lifecycle.Enters requestID calls) :
    (lifecycle.run calls).enforces requestID = true := by
  induction calls generalizing lifecycle with
  | nil => exact h.elim
  | cons c calls ih =>
    rcases h with ⟨hadmits, hkeeps⟩ | hrest
    · have hkeeps : (lifecycle.call c).Keeps requestID calls := hkeeps
      exact hkeeps.enforces (admits_iff.mp hadmits).2
    · exact ih hrest

/-- A request that is in the cohort after the calls was kept in it, or entered. -/
theorem keeps_or_enters : ∀ {calls : List (Call F)} {lifecycle : Lifecycle F},
    (lifecycle.run calls).enforces requestID = true →
      (lifecycle.enforces requestID = true ∧ lifecycle.Keeps requestID calls) ∨
        lifecycle.Enters requestID calls := by
  intro calls
  induction calls with
  | nil => exact fun h => .inl ⟨h, trivial⟩
  | cons c calls ih =>
    intro lifecycle h
    have hcalled : ((lifecycle.call c).run calls).enforces requestID = true := h
    rcases ih hcalled with ⟨hin, hkeeps⟩ | henters
    · cases hbefore : lifecycle.enforces requestID with
      | true =>
        refine .inl ⟨rfl, fun hexpels => ?_, hkeeps⟩
        rw [(expels_iff.mp hexpels).2] at hin
        cases hin
      | false => exact .inr (.inl ⟨admits_iff.mpr ⟨hbefore, hin⟩, hkeeps⟩)
    · exact .inr (.inr henters)

/-- **The calls after which a request is enforced, though it was not before.** -/
theorem overtaken_iff {calls : List (Call F)} : lifecycle.Overtaken calls requestID ↔
    lifecycle.enforces requestID = false ∧ (lifecycle.run calls).enforces requestID = true := by
  refine and_congr_right fun hout => ⟨Enters.enforces, fun h => ?_⟩
  rcases keeps_or_enters h with ⟨hin, -⟩ | henters
  · rw [hout] at hin
    cases hin
  · exact henters

instance {calls : List (Call F)} : Decidable (lifecycle.Overtaken calls requestID) :=
  decidable_of_iff _ overtaken_iff.symm

end Lifecycle

end Kavora.Router
