import Mathlib.Data.String.Basic
import Kavora.Lib.GoFloat
import Kavora.Lib.Ranking
import Kavora.Router.PlanLemmas

/-!
# The order of the candidates and the selection

A plan scores its candidates, vetoes some of them, sorts them and looks at the first eligible one.

* `Controller.planFrom`: the decision on a list of candidates; a plan is one on those of its
  backends.
* `Candidate.ranks`: the comparison orders candidates with different IDs and scores that are
  numbers.
* `Controller.planFrom_selects_iff`: which backend is selected, by comparisons of the candidates.
* `Controller.planFrom_rank_lt_iff`: which of two candidates is ranked first.
* `Controller.planFrom_selects_confident_iff`: when the best confident candidate is selected.
-/

namespace Kavora.Router

open Lib Lib.Go BackendState
open Float64 (ofInt)

variable {F : Type} [Float64 F]

/-! ## A plan in two halves -/

/-- The veto of the assigned policy. -/
def Rollout.veto (rollout : Rollout F) (candidates : List (Candidate F)) : List (Candidate F) :=
  if rollout.assignment.assignedPolicy = "kv-v2" then applyKVV2QueueVeto candidates else candidates

namespace Controller

/-- The decision on some candidates. -/
def planFrom (env : Externals F) (rollout : Rollout F) (now : Time) (request : RoutingRequest F)
    (candidates : List (Candidate F)) : Decision F :=
  let candidates := sortCandidates env.sorting (rollout.veto candidates)
  let decision :=
    { newDecision rollout now request with
      candidates
      predictorVersion := predictorVersions candidates }
  select env rollout.mode decision candidates

/-- The candidates of a plan. -/
def planned (env : Externals F) (c : Controller F) (now : Time) (clock : Nat → Time)
    (request : RoutingRequest F) (backends : List BackendDescriptor) : List (Candidate F) :=
  (c.planCandidates now clock (c.rollout env request.requestID now) request 0 backends c.cache).1

theorem plan_eq_planFrom (env : Externals F) (c : Controller F) (now : Time) (clock : Nat → Time)
    (request : RoutingRequest F) (backends : List BackendDescriptor) :
    (c.plan env now clock request backends).1 =
      planFrom env (c.rollout env request.requestID now) now request
        (c.planned env now clock request backends) := rfl

theorem planned_ids (env : Externals F) (c : Controller F) (now : Time) (clock : Nat → Time)
    (request : RoutingRequest F) (backends : List BackendDescriptor) :
    (c.planned env now clock request backends).map (·.backendID) = backends.map (·.id) := by
  have hverdicts : verdicts (c.planned env now clock request backends) = backends.map _ :=
    planCandidates_verdicts clock
  have h := congrArg (List.map Prod.fst) hverdicts
  unfold verdicts at h
  rw [List.map_map, List.map_map] at h
  exact h

end Controller

/-! ## The order -/

/-- Candidates of different backends with scores that can be compared. -/
structure Comparable (candidates : List (Candidate F)) : Prop where
  ids : (candidates.map (·.backendID)).Nodup
  scores : ∀ candidate ∈ candidates, Float64.isNaN candidate.score = false

namespace Candidate

theorem less_of_ne {a b : Candidate F} (h : a.eligible ≠ b.eligible) :
    a.less b = a.eligible := if_pos h

variable [Float64.Lawful F] [Float64.Irrefl F]

/-- The comparison of two eligible candidates, or of two excluded ones. -/
theorem less_of_eq {a b : Candidate F} (h : a.eligible = b.eligible) :
    a.less b = true ↔ Float64.lt b.score a.score = true ∨
      Float64.eq a.score b.score = true ∧ a.backendID < b.backendID := by
  unfold less
  rw [if_neg (not_not.mpr h)]
  cases heq : Float64.eq a.score b.score with
  | true =>
    have hlt : Float64.lt b.score a.score = false := by
      by_contra hlt
      have hne := Float64.not_eq_of_lt (Bool.eq_true_of_not_eq_false hlt)
      rw [Float64.Lawful.eq_symm heq] at hne
      cases hne
    simp [hlt]
  | false => simp

theorem less_asymm {a b : Candidate F} (h : a.less b = true) : b.less a = false := by
  by_contra hba
  have hba := Bool.eq_true_of_not_eq_false hba
  by_cases heligible : a.eligible = b.eligible
  · obtain hlt | ⟨heq, hid⟩ := (less_of_eq heligible).mp h
    · obtain hgt | ⟨heq, -⟩ := (less_of_eq heligible.symm).mp hba
      · rw [Float64.lt_asymm hlt] at hgt
        cases hgt
      · rw [Float64.not_eq_of_lt hlt] at heq
        cases heq
    · obtain hgt | ⟨-, hid'⟩ := (less_of_eq heligible.symm).mp hba
      · rw [Float64.not_eq_of_lt hgt] at heq
        cases heq
      · exact lt_asymm hid hid'
  · rw [less_of_ne heligible] at h
    rw [less_of_ne (Ne.symm heligible)] at hba
    exact heligible (h.trans hba.symm)

theorem less_total {a b : Candidate F} (ha : Float64.isNaN a.score = false)
    (hb : Float64.isNaN b.score = false) (hne : a.backendID ≠ b.backendID) :
    a.less b = true ∨ b.less a = true := by
  by_cases heligible : a.eligible = b.eligible
  · rw [less_of_eq heligible, less_of_eq heligible.symm]
    obtain hlt | heq | hgt := Float64.trichotomy ha hb
    · exact .inr (.inl hlt)
    · obtain hid | hid := lt_or_gt_of_ne hne
      · exact .inl (.inr ⟨heq, hid⟩)
      · exact .inr (.inr ⟨Float64.Lawful.eq_symm heq, hid⟩)
    · exact .inl (.inl hgt)
  · rw [less_of_ne heligible, less_of_ne (Ne.symm heligible)]
    cases ha : a.eligible with
    | true => exact .inl rfl
    | false =>
      rw [ha] at heligible
      exact .inr (Bool.eq_true_of_not_eq_false (Ne.symm heligible))

/-- What is less than a lesser candidate is less. -/
theorem less_trans {a b c : Candidate F} (ha : Float64.isNaN a.score = false)
    (hc : Float64.isNaN c.score = false) (hab : a.less b = true) (hbc : b.less c = true) :
    a.less c = true := by
  by_cases heab : a.eligible = b.eligible
  · by_cases hebc : b.eligible = c.eligible
    · rw [less_of_eq (heab.trans hebc)]
      obtain hlt | ⟨heq, hid⟩ := (less_of_eq heab).mp hab
      · obtain hlt' | ⟨heq', -⟩ := (less_of_eq hebc).mp hbc
        · exact .inl (Float64.Lawful.lt_trans hlt' hlt)
        · exact .inl (Float64.lt_of_eq_of_lt hc ha (Float64.Lawful.eq_symm heq') hlt)
      · obtain hlt' | ⟨heq', hid'⟩ := (less_of_eq hebc).mp hbc
        · exact .inl (Float64.Lawful.lt_of_lt_of_eq hlt' (Float64.Lawful.eq_symm heq))
        · exact .inr ⟨Float64.eq_trans ha hc heq heq', lt_trans hid hid'⟩
    · rw [less_of_ne hebc] at hbc
      rw [less_of_ne (heab ▸ hebc), heab]
      exact hbc
  · rw [less_of_ne heab] at hab
    have hb : b.eligible = false := by
      cases hb : b.eligible with
      | true => exact absurd (hab.trans hb.symm) heab
      | false => rfl
    have hce : c.eligible = false := by
      by_contra hce
      rw [less_of_ne fun heq => hce (heq.symm.trans hb), hb] at hbc
      cases hbc
    rw [less_of_ne (by rw [hab, hce]; exact Bool.noConfusion), hab]

/-- The comparison orders candidates that can be compared. -/
theorem ranks {candidates : List (Candidate F)} (h : Comparable candidates) :
    Ranks Candidate.less (·.backendID) candidates where
  asymm _ _ _ _ hless := less_asymm hless
  trans a ha b hb c hc hba hcb := by
    by_contra hca
    have hca := Bool.eq_true_of_not_eq_false hca
    have hsame : ∀ x ∈ candidates, ∀ y ∈ candidates, x.backendID = y.backendID → x = y :=
      fun x hx y hy heq => List.inj_on_of_nodup_map h.ids hx hy heq
    by_cases hcb' : c.backendID = b.backendID
    · rw [hsame c hc b hb hcb', hba] at hca
      cases hca
    · have hbc : b.less c = true :=
        (less_total (h.scores b hb) (h.scores c hc) (Ne.symm hcb')).resolve_right
          (by rw [hcb]; exact Bool.false_ne_true)
      rw [less_trans (h.scores b hb) (h.scores a ha) hbc hca] at hba
      cases hba
  keys := h.ids
  total a ha b hb hne := less_total (h.scores a ha) (h.scores b hb) hne

end Candidate

/-! ## The selection -/

/-- The confidence that the selection tests. -/
def Candidate.confidence (mode : Mode) (candidate : Candidate F) : F :=
  if mode = .loadAware then candidate.stateConfidence else candidate.cacheConfidence

/-- The confidence is positive. -/
def Candidate.Confident (mode : Mode) (candidate : Candidate F) : Prop :=
  Float64.le (candidate.confidence mode) (ofInt 0) = false

instance (mode : Mode) (candidate : Candidate F) : Decidable (candidate.Confident mode) :=
  inferInstanceAs (Decidable (_ = _))

/-- The decision selects the backend; the empty ID selects none. -/
def Decision.Selects (decision : Decision F) (backendID : String) : Prop :=
  decision.selected = backendID ∧ backendID ≠ ""

/-- The place of a backend among the candidates. -/
def Decision.rank (decision : Decision F) (backendID : String) : Nat :=
  Lib.rank (·.backendID) decision.candidates backendID

/-- The first eligible candidate decides. -/
theorem select_first (env : Externals F) (mode : Mode) (decision : Decision F) :
    ∀ candidates : List (Candidate F), select env mode decision candidates =
      match candidates.find? (·.eligible) with
      | none => select env mode decision []
      | some candidate => select env mode decision [candidate]
  | [] => rfl
  | candidate :: candidates => by
    by_cases heligible : candidate.eligible = true
    · rw [List.find?_cons_of_pos heligible]
      show select env mode decision (candidate :: candidates) =
        select env mode decision [candidate]
      rw [select, select, if_neg (not_not.mpr heligible), if_neg (not_not.mpr heligible)]
    · rw [List.find?_cons_of_neg heligible, ← select_first env mode decision candidates, select,
        if_pos heligible]

/-- What the first eligible candidate decides. -/
theorem select_singleton (env : Externals F) {mode : Mode} (hmode : mode ≠ .static)
    (decision : Decision F) {candidate : Candidate F} (heligible : candidate.eligible = true) :
    (candidate.Confident mode →
      (select env mode decision [candidate]).selected = candidate.backendID ∧
        (select env mode decision [candidate]).fallback = false) ∧
    (¬ candidate.Confident mode →
      (select env mode decision [candidate]).selected = decision.selected ∧
        (select env mode decision [candidate]).fallback = decision.fallback) := by
  unfold Candidate.Confident Candidate.confidence
  rw [select, if_neg (not_not.mpr heligible), if_neg hmode]
  by_cases hload : mode = .loadAware
  · rw [if_pos hload]
    constructor
    · intro hconfident
      rw [if_neg fun h => by rw [hconfident] at h; exact absurd h.2 Bool.false_ne_true,
        if_neg fun h => h.1 hload]
      exact ⟨rfl, rfl⟩
    · intro hnot
      rw [if_pos ⟨hload, Bool.eq_true_of_not_eq_false hnot⟩]
      exact ⟨rfl, rfl⟩
  · rw [if_neg hload, if_neg fun h : _ ∧ _ => hload h.1]
    constructor
    · intro hconfident
      rw [if_neg fun h => by rw [hconfident] at h; exact absurd h.2 Bool.false_ne_true]
      exact ⟨rfl, rfl⟩
    · intro hnot
      rw [if_pos ⟨hload, Bool.eq_true_of_not_eq_false hnot⟩]
      exact ⟨rfl, rfl⟩

/-- The candidate comes before all other eligible ones. -/
structure Candidate.Best (candidates : List (Candidate F)) (candidate : Candidate F) : Prop where
  mem : candidate ∈ candidates
  eligible : candidate.eligible = true
  least : ∀ other ∈ candidates, other.eligible = true →
    other = candidate ∨ candidate.less other = true

variable [Float64.Lawful F] [Float64.Irrefl F]

theorem sortCandidates_find? (sorting : SortSlice) {candidates : List (Candidate F)}
    (h : Comparable candidates) {candidate : Candidate F} :
    (sortCandidates sorting candidates).find? (·.eligible) = some candidate ↔
      candidate.Best candidates := by
  have hperm : (sortCandidates sorting candidates).Perm candidates := sorting.perm _ _
  have hranks := (Candidate.ranks h).of_perm hperm
  have hsorted := sorting.sorted _ _ (Candidate.ranks h).toOrders
  rw [hranks.find?_eq_some_iff hsorted]
  constructor
  · rintro ⟨hmem, heligible, hleast⟩
    exact ⟨hperm.mem_iff.mp hmem, heligible, fun other hother =>
      hleast other (hperm.mem_iff.mpr hother)⟩
  · rintro ⟨hmem, heligible, hleast⟩
    exact ⟨hperm.mem_iff.mpr hmem, heligible, fun other hother =>
      hleast other (hperm.mem_iff.mp hother)⟩

namespace Controller

variable {env : Externals F} {rollout : Rollout F} {now : Time} {request : RoutingRequest F}
  {candidates : List (Candidate F)}

/-- The best candidate is selected if its confidence is positive; else the decision is a
fallback. -/
theorem planFrom_cases (env : Externals F) (now : Time) (request : RoutingRequest F)
    (hmode : rollout.mode ≠ .static) (h : Comparable (rollout.veto candidates)) :
    (∃ best, Candidate.Best (rollout.veto candidates) best ∧ best.Confident rollout.mode ∧
      (planFrom env rollout now request candidates).selected = best.backendID ∧
      (planFrom env rollout now request candidates).fallback = false) ∨
    ((∀ best, Candidate.Best (rollout.veto candidates) best → ¬ best.Confident rollout.mode) ∧
      (planFrom env rollout now request candidates).selected = "" ∧
      (planFrom env rollout now request candidates).fallback = true) := by
  unfold planFrom
  dsimp only
  rw [select_first]
  cases hfind : (sortCandidates env.sorting (rollout.veto candidates)).find? (·.eligible) with
  | none =>
    refine .inr ⟨fun best hbest => ?_, rfl, rfl⟩
    rw [(sortCandidates_find? env.sorting h).mpr hbest] at hfind
    cases hfind
  | some best =>
    have hbest := (sortCandidates_find? env.sorting h).mp hfind
    dsimp only
    obtain ⟨hconfident, hnot⟩ := select_singleton env hmode
      { newDecision rollout now request with
        candidates := sortCandidates env.sorting (rollout.veto candidates)
        predictorVersion :=
          predictorVersions (sortCandidates env.sorting (rollout.veto candidates)) }
      hbest.eligible
    by_cases hc : best.Confident rollout.mode
    · exact .inl ⟨best, hbest, hc, hconfident hc⟩
    · refine .inr ⟨fun other hother => ?_, hnot hc⟩
      have hother := (sortCandidates_find? env.sorting h).mpr hother
      rw [hfind] at hother
      rwa [← Option.some.inj hother]

/-- The selected backend. -/
theorem planFrom_selects_iff (h : Comparable (rollout.veto candidates)) {backendID : String} :
    (planFrom env rollout now request candidates).Selects backendID ↔
      backendID ≠ "" ∧ rollout.mode ≠ .static ∧
        ∃ best, Candidate.Best (rollout.veto candidates) best ∧ best.Confident rollout.mode ∧
          best.backendID = backendID := by
  unfold Decision.Selects
  by_cases hmode : rollout.mode = .static
  · have hselected : (planFrom env rollout now request candidates).selected = "" := by
      unfold planFrom
      dsimp only
      rw [select_first]
      split
      · rfl
      · rename_i candidate hfind
        rw [select, if_neg (not_not.mpr (List.find?_some hfind)), if_pos hmode]
        rfl
    rw [hselected]
    constructor
    · rintro ⟨hempty, hne⟩
      exact absurd hempty.symm hne
    · rintro ⟨-, hne, -⟩
      exact absurd hmode hne
  · obtain ⟨best, hbest, hconfident, hselected, -⟩ | ⟨hnone, hselected, -⟩ :=
      planFrom_cases env now request hmode h
    · rw [hselected]
      constructor
      · rintro ⟨hid, hne⟩
        exact ⟨hne, hmode, best, hbest, hconfident, hid⟩
      · rintro ⟨hne, -, other, hother, -, hid⟩
        have hfirst := (sortCandidates_find? env.sorting h).mpr hbest
        rw [(sortCandidates_find? env.sorting h).mpr hother] at hfirst
        rw [← Option.some.inj hfirst]
        exact ⟨hid, hne⟩
    · rw [hselected]
      constructor
      · rintro ⟨hempty, hne⟩
        exact absurd hempty.symm hne
      · rintro ⟨-, -, best, hbest, hconfident, -⟩
        exact absurd hconfident (hnone best hbest)

/-- When the backend of a candidate is selected. -/
theorem planFrom_selects_mem (h : Comparable (rollout.veto candidates)) {candidate : Candidate F}
    (hmem : candidate ∈ rollout.veto candidates) :
    (planFrom env rollout now request candidates).Selects candidate.backendID ↔
      candidate.backendID ≠ "" ∧ rollout.mode ≠ .static ∧
        Candidate.Best (rollout.veto candidates) candidate ∧ candidate.Confident rollout.mode := by
  rw [planFrom_selects_iff h]
  constructor
  · rintro ⟨hid, hmode, best, hbest, hconfident, hsame⟩
    obtain rfl := (Candidate.ranks h).eq_of_key hbest.mem hmem hsame
    exact ⟨hid, hmode, hbest, hconfident⟩
  · rintro ⟨hid, hmode, hbest, hconfident⟩
    exact ⟨hid, hmode, candidate, hbest, hconfident, rfl⟩

omit [Float64.Lawful F] [Float64.Irrefl F] in
theorem planFrom_candidates (env : Externals F) (rollout : Rollout F) (now : Time)
    (request : RoutingRequest F) (candidates : List (Candidate F)) :
    (planFrom env rollout now request candidates).candidates =
      sortCandidates env.sorting (rollout.veto candidates) :=
  (select_eq env _ _ _).1

/-- A candidate is ranked before another one exactly when it is less. -/
theorem planFrom_rank_lt_iff (env : Externals F) (now : Time) (request : RoutingRequest F)
    (h : Comparable (rollout.veto candidates)) {a b : Candidate F} (ha : a ∈ rollout.veto candidates)
    (hb : b ∈ rollout.veto candidates) :
    (planFrom env rollout now request candidates).rank a.backendID <
      (planFrom env rollout now request candidates).rank b.backendID ↔ a.less b = true := by
  have hperm : (sortCandidates env.sorting (rollout.veto candidates)).Perm
      (rollout.veto candidates) := env.sorting.perm _ _
  unfold Decision.rank
  rw [planFrom_candidates]
  exact ((Candidate.ranks h).of_perm hperm).rank_lt_iff
    (env.sorting.sorted _ _ (Candidate.ranks h).toOrders) (hperm.mem_iff.mpr ha)
    (hperm.mem_iff.mpr hb)

/-- The rank of a candidate is the number of the lesser ones. -/
theorem planFrom_rank (env : Externals F) (now : Time) (request : RoutingRequest F)
    (h : Comparable (rollout.veto candidates)) {a : Candidate F}
    (ha : a ∈ rollout.veto candidates) :
    (planFrom env rollout now request candidates).rank a.backendID =
      (rollout.veto candidates).countP fun other => other.less a := by
  have hperm : (sortCandidates env.sorting (rollout.veto candidates)).Perm
      (rollout.veto candidates) := env.sorting.perm _ _
  unfold Decision.rank
  rw [planFrom_candidates, ← hperm.countP_eq]
  exact ((Candidate.ranks h).of_perm hperm).rank_eq
    (env.sorting.sorted _ _ (Candidate.ranks h).toOrders) (hperm.mem_iff.mpr ha)

/-- The rank of one candidate among others. -/
theorem planFrom_rank_split (env : Externals F) (now : Time) (request : RoutingRequest F)
    (h : Comparable (rollout.veto candidates)) {before after : List (Candidate F)}
    {candidate : Candidate F} (hsplit : rollout.veto candidates = before ++ candidate :: after) :
    (planFrom env rollout now request candidates).rank candidate.backendID =
      (before ++ after).countP fun other => other.less candidate := by
  have hmem : candidate ∈ rollout.veto candidates := by
    rw [hsplit]
    simp
  have hself : candidate.less candidate = false := (Candidate.ranks h).irrefl hmem
  rw [planFrom_rank env now request h hmem, hsplit, List.countP_append, List.countP_append,
    List.countP_cons_of_neg (by rw [hself]; exact Bool.false_ne_true)]

/-- The same candidates with other scores: what is less than one of them is so again. -/
structure Stays (candidate candidate' : Candidate F) (other other' : Candidate F) : Prop where
  id : other'.backendID = other.backendID
  eligible : other'.eligible = other.eligible
  less : other.less candidate = true → other'.less candidate' = true

/-- A candidate that stays behind those that it was behind gains nothing. -/
theorem planFrom_stays (env : Externals F) (now : Time) (request : RoutingRequest F)
    {candidates' : List (Candidate F)} {candidate candidate' : Candidate F}
    (h : Comparable (rollout.veto candidates)) (h' : Comparable (rollout.veto candidates'))
    (hstays : List.Forall₂ (Stays candidate candidate') (rollout.veto candidates)
      (rollout.veto candidates'))
    (hmem : candidate ∈ rollout.veto candidates) (hmem' : candidate' ∈ rollout.veto candidates')
    (hid : candidate'.backendID = candidate.backendID)
    (heligible : candidate'.eligible = candidate.eligible)
    (hconfident : candidate'.Confident rollout.mode → candidate.Confident rollout.mode) :
    (planFrom env rollout now request candidates).rank candidate.backendID ≤
        (planFrom env rollout now request candidates').rank candidate.backendID ∧
      ((planFrom env rollout now request candidates').Selects candidate.backendID →
        (planFrom env rollout now request candidates).Selects candidate.backendID) ∧
      ∀ other ∈ rollout.veto candidates,
        (planFrom env rollout now request candidates).rank other.backendID <
            (planFrom env rollout now request candidates).rank candidate.backendID →
          (planFrom env rollout now request candidates').rank other.backendID <
            (planFrom env rollout now request candidates').rank candidate.backendID := by
  refine ⟨?_, ?_, ?_⟩
  · rw [planFrom_rank env now request h hmem, ← hid, planFrom_rank env now request h' hmem']
    exact countP_le_of_forall₂ hstays fun _ _ hstay => hstay.less
  · rw [planFrom_selects_mem h hmem, ← hid, planFrom_selects_mem h' hmem', hid]
    rintro ⟨hnamed, hmode, hbest, hsure⟩
    refine ⟨hnamed, hmode, ⟨hmem, heligible ▸ hbest.eligible, ?_⟩, hconfident hsure⟩
    intro other hother hother'
    by_cases hsame : other = candidate
    · exact .inl hsame
    · refine .inr (((Candidate.ranks h).less_or_less hother hmem hsame).resolve_left fun hless => ?_)
      obtain ⟨next, hnext, hstay⟩ := mem_of_forall₂ hstays hother
      obtain rfl | hless' := hbest.least next hnext (hstay.eligible.trans hother')
      · exact hsame ((Candidate.ranks h).eq_of_key hother hmem (hstay.id.symm.trans hid))
      · have hnot := Candidate.less_asymm hless'
        rw [hstay.less hless] at hnot
        cases hnot
  · intro other hother hlt
    have hless := (planFrom_rank_lt_iff env now request h hother hmem).mp hlt
    obtain ⟨next, hnext, hstay⟩ := mem_of_forall₂ hstays hother
    have hlt' := (planFrom_rank_lt_iff env now request h' hnext hmem').mpr (hstay.less hless)
    rwa [hstay.id, hid] at hlt'

end Controller

/-! ## Candidates without confidence -/

/-- The decision is no fallback and selects the best of its candidates with positive confidence. -/
def Decision.SelectsConfident (decision : Decision F) (mode : Mode) : Prop :=
  decision.fallback = false ∧ ∃ best ∈ decision.candidates, best.eligible = true ∧
    best.Confident mode ∧ decision.selected = best.backendID ∧ ∀ other ∈ decision.candidates,
      other.eligible = true → other.Confident mode → other = best ∨ best.less other = true

/-- Every eligible candidate without confidence comes after one with it. -/
def ConfidentFirst (mode : Mode) (candidates : List (Candidate F)) : Prop :=
  ∀ candidate ∈ candidates, candidate.eligible = true → ¬ candidate.Confident mode →
    ∃ other ∈ candidates, other.eligible = true ∧ other.Confident mode ∧
      other.less candidate = true

omit [Float64.Lawful F] [Float64.Irrefl F] in
theorem Rollout.veto_verdicts (rollout : Rollout F) (candidates : List (Candidate F)) :
    verdicts (rollout.veto candidates) = verdicts candidates := by
  unfold veto
  split
  · exact applyKVV2QueueVeto_verdicts candidates
  · rfl

omit [Float64.Lawful F] [Float64.Irrefl F] in
theorem Rollout.veto_ids (rollout : Rollout F) (candidates : List (Candidate F)) :
    (rollout.veto candidates).map (·.backendID) = candidates.map (·.backendID) := by
  have h := congrArg (List.map Prod.fst) (rollout.veto_verdicts candidates)
  unfold verdicts at h
  rw [List.map_map, List.map_map] at h
  exact h

theorem Candidate.exists_best {candidates : List (Candidate F)} (h : Comparable candidates)
    {candidate : Candidate F} (hmem : candidate ∈ candidates)
    (heligible : candidate.eligible = true) : ∃ best, Candidate.Best candidates best := by
  cases hfind : (sortCandidates .insertion candidates).find? (·.eligible) with
  | none =>
    have hmem' : candidate ∈ sortCandidates .insertion candidates :=
      (SortSlice.insertion.perm _ _).mem_iff.mpr hmem
    exact absurd heligible (List.find?_eq_none.mp hfind candidate hmem')
  | some best => exact ⟨best, (sortCandidates_find? .insertion h).mp hfind⟩

namespace Controller

/-- A decision selects the best confident candidate exactly when no candidate without confidence
comes before all of those: it looks at the first eligible candidate only. -/
theorem planFrom_selects_confident_iff (env : Externals F) {rollout : Rollout F} (now : Time)
    (request : RoutingRequest F) {candidates : List (Candidate F)} (hmode : rollout.mode ≠ .static)
    (h : Comparable (rollout.veto candidates))
    (hconfident : ∃ candidate ∈ rollout.veto candidates, candidate.eligible = true ∧
      candidate.Confident rollout.mode) :
    (planFrom env rollout now request candidates).SelectsConfident rollout.mode ↔
      ConfidentFirst rollout.mode (rollout.veto candidates) := by
  have hmem (candidate : Candidate F) :
      candidate ∈ (planFrom env rollout now request candidates).candidates ↔
        candidate ∈ rollout.veto candidates := by
    rw [planFrom_candidates]
    exact (env.sorting.perm _ _).mem_iff
  unfold Decision.SelectsConfident
  simp only [hmem]
  obtain ⟨best, hbest, hsure, hselected, hfallback⟩ | ⟨hnone, -, hfallback⟩ :=
    planFrom_cases env now request hmode h
  · have hfirst : ConfidentFirst rollout.mode (rollout.veto candidates) := by
      intro candidate hmem heligible hunsure
      obtain rfl | hless := hbest.least candidate hmem heligible
      · exact absurd hsure hunsure
      · exact ⟨best, hbest.mem, hbest.eligible, hsure, hless⟩
    refine iff_of_true ⟨hfallback, best, hbest.mem, hbest.eligible, hsure, hselected, ?_⟩ hfirst
    exact fun other hother heligible _ => hbest.least other hother heligible
  · refine iff_of_false ?_ ?_
    · rintro ⟨hselects, -⟩
      rw [hfallback] at hselects
      cases hselects
    · intro hfirst
      obtain ⟨candidate, hmem, heligible, -⟩ := hconfident
      obtain ⟨best, hbest⟩ := Candidate.exists_best h hmem heligible
      obtain ⟨other, hother, heligible', hsure, hless⟩ :=
        hfirst best hbest.mem hbest.eligible (hnone best hbest)
      obtain rfl | hless' := hbest.least other hother heligible'
      · exact hnone other hbest hsure
      · rw [Candidate.less_asymm hless] at hless'
        cases hless'

end Controller

namespace SelectionSample

local instance : Float64 Rat := .rational fun _ => 1

def env : Externals Rat where
  sorting := .insertion
  sha64 _ := 0
  fixed _ _ := ""

/-- A backend with a queue of 1. -/
def measured : Snapshot Rat where
  schemaVersion := ""
  backendID := "a"
  backend := ""
  model := ""
  instanceName := ""
  modelGroup := ""
  observedAtUnixMillis := 1000
  signals := (∅ : Map String (Signal Rat)).insert "queue_depth"
    { value := 1
      hasValue := true
      quality := .fresh
      source := "vllm"
      observedAtUnixMillis := 1000
      semantics := ""
      evidenceQuality := .strict }
  snapshotHash := ""

def controller : Controller Rat where
  mode := .loadAware
  states := (∅ : Map String (Snapshot Rat)).insert "a" measured
  cache := { affinity := none, provider := .noCache }
  predictor := .default
  lifecycle := none
  experiment := none
  maxStateAge := 0
  stateLambda := 1 / 10

def request : RoutingRequest Rat where
  requestID := "r1"
  tenantID := ""
  model := ""
  cacheKey := ""
  externalCacheKeys := []
  promptTokens := 8
  requirements := ∅
  ttftSloMS := 0

def backends : List BackendDescriptor := [⟨"a", ∅⟩, ⟨"b", ∅⟩]

def now : Time := Time.unixMilli 1000

end SelectionSample

end Kavora.Router
