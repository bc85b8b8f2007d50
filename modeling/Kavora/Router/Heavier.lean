import Kavora.Router.PlanPairs

/-!
# A backend that gets heavier

One backend gets a longer queue or more pressure. Its score falls and the others keep theirs; but
the veto compares the queues with the least one, which may rise, so that others lose their veto. The
backend stays behind all that it was behind.

* `Controller.rawScore_le`: a longer queue or more pressure lowers the score.
* `Heavier`: the candidates before and after.
* `leastQueue_spec`: the least queue of the eligible candidates.
* `planFrom_heavier`: the heavier backend gains no place and is not selected instead.
-/

namespace Kavora.Router

open Lib BackendState
open Lib.Go (Float64 Time)
open Lib.Go.Float64 (ofInt Exact)

variable {K : Type} [Field K] [LinearOrder K] [Exact K]

attribute [local instance] Exact.float64 Float64.exact_lawful Float64.exact_irrefl

/-! ## Scores -/

/-- The logistic function does not fall. -/
def LogisticMonotone (K : Type) [Field K] [LinearOrder K] [Exact K] : Prop :=
  ∀ x y : K, x ≤ y → 1 / (1 + Exact.exp (-x)) ≤ 1 / (1 + Exact.exp (-y))

/-- What the artifact loader checks of the coefficients. -/
structure TTFTPredictor.Checked (predictor : TTFTPredictor K) : Prop where
  baseMS : 0 ≤ predictor.baseMS
  promptTokenMS : 0 ≤ predictor.promptTokenMS
  cachedTokenMS : 0 ≤ predictor.cachedTokenMS
  queuePenaltyMS : 0 ≤ predictor.queuePenaltyMS
  pressurePenalty : 0 ≤ predictor.pressurePenalty

namespace TTFTPredictor

variable [IsStrictOrderedRing K]

theorem default_checked : (default : TTFTPredictor K).Checked where
  baseMS := by
    show (0 : K) ≤ ((12 : Int) : K)
    exact_mod_cast (by decide : (0 : Int) ≤ 12)
  promptTokenMS := by
    show (0 : K) ≤ ((8 : Int) : K) / ((100 : Int) : K)
    exact div_nonneg (by exact_mod_cast (by decide : (0 : Int) ≤ 8))
      (by exact_mod_cast (by decide : (0 : Int) ≤ 100))
  cachedTokenMS := by
    show (0 : K) ≤ ((7 : Int) : K) / ((100 : Int) : K)
    exact div_nonneg (by exact_mod_cast (by decide : (0 : Int) ≤ 7))
      (by exact_mod_cast (by decide : (0 : Int) ≤ 100))
  queuePenaltyMS := by
    show (0 : K) ≤ ((8 : Int) : K)
    exact_mod_cast (by decide : (0 : Int) ≤ 8)
  pressurePenalty := by
    show (0 : K) ≤ ((45 : Int) : K)
    exact_mod_cast (by decide : (0 : Int) ≤ 45)

/-- More queue or pressure does not shorten the predicted time. -/
theorem predict_mono {predictor : TTFTPredictor K} (h : predictor.Checked)
    (promptTokens matchedTokens : Int) {queue queue' pressure pressure' : K} (rate : K)
    (hqueue : queue ≤ queue') (hpressure : pressure ≤ pressure') :
    predictor.predict promptTokens matchedTokens queue pressure rate ≤
      predictor.predict promptTokens matchedTokens queue' pressure' rate := by
  have hcost := mul_le_mul_of_nonneg_right hqueue h.queuePenaltyMS
  have hload := mul_le_mul_of_nonneg_right hpressure h.pressurePenalty
  unfold predict
  dsimp only
  generalize (if predictor.useObservedPrefillRate = true ∧
      Float64.lt (ofInt 0) rate = true then _ else _) = prefill
  have hsum : predictor.baseMS + prefill + ofInt matchedTokens * predictor.cachedTokenMS +
        queue * predictor.queuePenaltyMS + pressure * predictor.pressurePenalty ≤
      predictor.baseMS + prefill + ofInt matchedTokens * predictor.cachedTokenMS +
        queue' * predictor.queuePenaltyMS + pressure' * predictor.pressurePenalty :=
    add_le_add (add_le_add le_rfl hcost) hload
  show (if _ < _ then _ else _) ≤ if _ < _ then _ else _
  split
  · split
    · exact hsum
    · rename_i hpos hnot
      exact absurd (hpos.trans_le hsum) hnot
  · split
    · rename_i hpos
      exact hpos.le
    · exact le_rfl

theorem violationProbability_mono (hlogistic : LogisticMonotone K) (predictor : TTFTPredictor K)
    {predicted predicted' : K} (slo : K) (h : predicted ≤ predicted') :
    predictor.violationProbability predicted slo ≤
      predictor.violationProbability predicted' slo := by
  have hscale : (0 : K) ≤
      if Float64.le predictor.sloScaleMS (ofInt 0) then ofInt 25 else predictor.sloScaleMS := by
    split
    · show (0 : K) ≤ ((25 : Int) : K)
      exact_mod_cast (by decide : (0 : Int) ≤ 25)
    · rename_i hscale
      rw [Float64.ordered_le, not_le] at hscale
      exact (show (0 : K) = ((0 : Int) : K) from Int.cast_zero.symm).trans_le hscale.le
  unfold violationProbability
  split
  · exact le_rfl
  · dsimp only
    generalize (if Float64.le predictor.sloScaleMS (ofInt 0) = true then _ else _) = scale
      at hscale ⊢
    show ((1 : Int) : K) / (((1 : Int) : K) + Exact.exp (-(predicted - slo) / scale)) ≤
      ((1 : Int) : K) / (((1 : Int) : K) + Exact.exp (-(predicted' - slo) / scale))
    rw [Int.cast_one, neg_div, neg_div]
    exact hlogistic _ _ (div_le_div_of_nonneg_right (sub_le_sub_right h slo) hscale)

end TTFTPredictor

namespace Controller

variable [IsStrictOrderedRing K]

/-- More queue or pressure does not raise the score. -/
theorem rawScore_le (hlogistic : LogisticMonotone K) {c : Controller K}
    (hpredictor : c.predictor.Checked) (request : RoutingRequest K) (backend : BackendDescriptor)
    {state state' : Snapshot K} (evidence : CacheEvidence K)
    (hqueue : signalValue state "queue_depth" ≤ signalValue state' "queue_depth")
    (hpressure : pressure state ≤ pressure state') (hrate : prefillRate state' = prefillRate state) :
    c.rawScore request backend state' evidence ≤ c.rawScore request backend state evidence := by
  have hchecked : (if c.predictor.matches request.model backend.attributes then c.predictor
      else .default).Checked := by
    split
    · exact hpredictor
    · exact TTFTPredictor.default_checked
  unfold rawScore
  dsimp only
  rw [hrate]
  have hpredicted := TTFTPredictor.predict_mono hchecked request.promptTokens evidence.matchedTokens
    (prefillRate state) hqueue hpressure
  have hviolation := TTFTPredictor.violationProbability_mono hlogistic
    (if c.predictor.matches request.model backend.attributes then c.predictor else .default)
    request.ttftSloMS hpredicted
  have hpositive : ∀ n : Nat, (0 : K) ≤ ((n : Int) : K) := by
    intro n
    exact_mod_cast Nat.cast_nonneg n
  refine sub_le_sub (sub_le_sub (sub_le_sub le_rfl ?_) ?_) ?_
  · exact mul_le_mul_of_nonneg_right hqueue (hpositive 8)
  · exact mul_le_mul_of_nonneg_right hpressure (hpositive 35)
  · exact mul_le_mul_of_nonneg_right hviolation (hpositive 60)

/-- Confidence weighs with a number that is not negative. -/
theorem weight_nonneg (c : Controller K) (now : Time) (mode : Mode) (state : Snapshot K)
    {evidence : CacheEvidence K} (h : 0 ≤ evidence.confidence) :
    0 ≤ c.weight now mode state evidence := by
  unfold weight
  split
  · have hleast : (0 : K) ≤ ((1 : Int) : K) / ((100 : Int) : K) :=
      div_nonneg (by exact_mod_cast (by decide : (0 : Int) ≤ 1))
        (by exact_mod_cast (by decide : (0 : Int) ≤ 100))
    show 0 ≤ if c.stateConfidence now state < ((1 : Int) : K) / ((100 : Int) : K) then _ else _
    split
    · exact hleast
    · rename_i hnot
      exact hleast.trans (not_lt.mp hnot)
  · exact h

end Controller

/-! ## The least queue -/

/-- The queues that the least one is chosen of. -/
def eligibleQueues (candidates : List (Candidate K)) : List K :=
  (candidates.filter (·.eligible)).map (·.queueDepth)

omit [Field K] [LinearOrder K] [Exact K] in
theorem eligibleQueues_cons (candidate : Candidate K) (candidates : List (Candidate K)) :
    eligibleQueues (candidate :: candidates) =
      if candidate.eligible then candidate.queueDepth :: eligibleQueues candidates
      else eligibleQueues candidates := by
  unfold eligibleQueues
  rw [List.filter_cons]
  split
  · rfl
  · rfl

/-- The least queue is the minimum of the queues of the eligible candidates. -/
theorem leastQueue_eq (candidates : List (Candidate K)) :
    leastQueue candidates = (eligibleQueues candidates).min? := by
  have hmin : ∀ least queue : K,
      (if Float64.lt queue least then some queue else some least) = some (min least queue) := by
    intro least queue
    by_cases hlt : queue < least
    · rw [if_pos (show Float64.lt queue least = true from decide_eq_true hlt), min_eq_right hlt.le]
    · rw [if_neg fun h : Float64.lt queue least = true => hlt (of_decide_eq_true h),
        min_eq_left (not_lt.mp hlt)]
  unfold leastQueue
  -- the least queue of the candidates so far is one more queue
  rw [← List.nil_append (eligibleQueues candidates), ← show (none : Option K).toList = [] from rfl]
  generalize (none : Option K) = least
  induction candidates generalizing least with
  | nil =>
    cases least with
    | none => rfl
    | some least => rfl
  | cons candidate candidates ih =>
    rw [List.foldl_cons, eligibleQueues_cons]
    by_cases heligible : candidate.eligible = true
    · rw [if_pos heligible, if_pos heligible, ih]
      cases least with
      | none => rfl
      | some least =>
        dsimp only
        rw [hmin]
        rfl
    · rw [if_neg heligible, if_neg heligible, ih]

/-- The least queue is one of the queues of the eligible candidates, and none is shorter. -/
theorem leastQueue_spec (candidates : List (Candidate K)) :
    match leastQueue candidates with
    | none => ∀ candidate ∈ candidates, candidate.eligible = false
    | some least =>
      (∃ candidate ∈ candidates, candidate.eligible = true ∧ candidate.queueDepth = least) ∧
        ∀ candidate ∈ candidates, candidate.eligible = true → least ≤ candidate.queueDepth := by
  rw [leastQueue_eq]
  cases hmin : (eligibleQueues candidates).min? with
  | none =>
    have hnil := List.filter_eq_nil_iff.mp (List.map_eq_nil_iff.mp (List.min?_eq_none_iff.mp hmin))
    exact fun candidate hmem => Bool.eq_false_iff.mpr (hnil candidate hmem)
  | some least =>
    obtain ⟨hmem, hbound⟩ := List.min?_eq_some_iff.mp hmin
    obtain ⟨shortest, hshortest, hqueue⟩ := List.mem_map.mp hmem
    rw [List.mem_filter] at hshortest
    refine ⟨⟨shortest, hshortest.1, hshortest.2, hqueue⟩, fun candidate hmem heligible => ?_⟩
    exact hbound _ (List.mem_map_of_mem (List.mem_filter.mpr ⟨hmem, heligible⟩))

/-! ## The candidates before and after -/

/-- A candidate when the backend `id` gets heavier. -/
structure Heavier (id : String) (before after : Candidate K) : Prop where
  backendID : after.backendID = before.backendID
  eligible : after.eligible = before.eligible
  matchedTokens : after.matchedTokens = before.matchedTokens
  recentPrefillRate : after.recentPrefillRate = before.recentPrefillRate
  queuePenaltyMS : after.queuePenaltyMS = before.queuePenaltyMS
  stateConfidence : after.stateConfidence = before.stateConfidence
  cacheConfidence : after.cacheConfidence = before.cacheConfidence
  penalty : 0 ≤ before.queuePenaltyMS
  queue : before.queueDepth ≤ after.queueDepth
  score : after.score ≤ before.score
  same : before.backendID ≠ id →
    after.queueDepth = before.queueDepth ∧ after.score = before.score

omit [Exact K] in
theorem Heavier.refl (id : String) {candidate : Candidate K} (h : 0 ≤ candidate.queuePenaltyMS) :
    Heavier id candidate candidate :=
  ⟨rfl, rfl, rfl, rfl, rfl, rfl, rfl, h, le_rfl, le_rfl, fun _ => ⟨rfl, rfl⟩⟩

/-- What the cache saves, in milliseconds. -/
def Candidate.benefit (candidate : Candidate K) : K :=
  ofInt candidate.matchedTokens /
    (if Float64.le candidate.recentPrefillRate (ofInt 0) then ofInt 8000
    else candidate.recentPrefillRate) * ofInt 1000

theorem vetoed_iff {least : K} {candidate : Candidate K} :
    Vetoed least candidate ↔ candidate.eligible = true ∧ 0 < candidate.matchedTokens ∧
      least < candidate.queueDepth ∧
        candidate.benefit < (candidate.queueDepth - least) * candidate.queuePenaltyMS := by
  unfold Vetoed Candidate.benefit
  rw [Bool.eq_false_iff, Ne, Float64.ordered_le, not_le]
  exact and_congr_right' (and_congr_right' (and_congr_right' decide_eq_true_iff))

variable [IsStrictOrderedRing K] {id : String} {candidates candidates' : List (Candidate K)}

namespace Heavier

omit [IsStrictOrderedRing K] in
/-- The least queue does not fall. -/
theorem leastQueue_le (h : List.Forall₂ (Heavier id) candidates candidates') :
    (leastQueue candidates = none → leastQueue candidates' = none) ∧
      ∀ least, leastQueue candidates = some least →
        ∃ least', leastQueue candidates' = some least' ∧ least ≤ least' := by
  have hspec := leastQueue_spec candidates
  have hspec' := leastQueue_spec candidates'
  have hback : ∀ after ∈ candidates', ∃ before ∈ candidates, Heavier id before after :=
    fun after hafter => mem_of_forall₂ h.flip hafter
  constructor
  · intro hnone
    rw [hnone] at hspec
    cases hleast : leastQueue candidates' with
    | none => rfl
    | some least' =>
      rw [hleast] at hspec'
      obtain ⟨⟨after, hafter, heligible, -⟩, -⟩ := hspec'
      obtain ⟨before, hbefore, hheavier⟩ := hback after hafter
      rw [hheavier.eligible, hspec before hbefore] at heligible
      cases heligible
  · intro least hleast
    rw [hleast] at hspec
    obtain ⟨⟨shortest, hmem, heligible, -⟩, hbound⟩ := hspec
    cases hleast' : leastQueue candidates' with
    | none =>
      rw [hleast'] at hspec'
      obtain ⟨after, hafter, hheavier⟩ := mem_of_forall₂ h hmem
      rw [← hheavier.eligible, hspec' after hafter] at heligible
      cases heligible
    | some least' =>
      rw [hleast'] at hspec'
      obtain ⟨⟨after, hafter, heligible', hqueue⟩, -⟩ := hspec'
      obtain ⟨before, hbefore, hheavier⟩ := hback after hafter
      refine ⟨least', rfl, ?_⟩
      calc least ≤ before.queueDepth := hbound before hbefore (hheavier.eligible ▸ heligible')
        _ ≤ after.queueDepth := hheavier.queue
        _ = least' := hqueue

omit [IsStrictOrderedRing K] in
theorem benefit {before after : Candidate K} (h : Heavier id before after) :
    after.benefit = before.benefit := by
  unfold Candidate.benefit
  rw [h.matchedTokens, h.recentPrefillRate]

/-- The heavier backend keeps its veto: the least queue is that of another one. -/
theorem keeps_veto (hids : (candidates.map (·.backendID)).Nodup)
    (h : List.Forall₂ (Heavier id) candidates candidates') {least least' : K}
    (hleast : leastQueue candidates = some least) (hleast' : leastQueue candidates' = some least')
    {before after : Candidate K} (hmem : before ∈ candidates) (hheavier : Heavier id before after)
    (hid : before.backendID = id) (hveto : Vetoed least before) : Vetoed least' after := by
  have hspec := leastQueue_spec candidates
  have hspec' := leastQueue_spec candidates'
  rw [hleast] at hspec
  rw [hleast'] at hspec'
  rw [vetoed_iff] at hveto ⊢
  obtain ⟨heligible, htokens, hlonger, hcost⟩ := hveto
  obtain ⟨⟨shortest, hshortest, heligible', hqueue⟩, -⟩ := hspec
  have hother : shortest.backendID ≠ id := by
    intro heq
    obtain rfl := List.inj_on_of_nodup_map hids hshortest hmem (heq.trans hid.symm)
    exact absurd hqueue hlonger.ne'
  obtain ⟨next, hnext, hstays⟩ := mem_of_forall₂ h hshortest
  have hle : least' ≤ least := by
    calc least' ≤ next.queueDepth := hspec'.2 next hnext (hstays.eligible.trans heligible')
      _ = shortest.queueDepth := (hstays.same hother).1
      _ = least := hqueue
  refine ⟨hheavier.eligible.trans heligible, hheavier.matchedTokens ▸ htokens,
    hle.trans_lt (hlonger.trans_le hheavier.queue), ?_⟩
  rw [hheavier.benefit, hheavier.queuePenaltyMS]
  exact hcost.trans_le (mul_le_mul_of_nonneg_right (sub_le_sub hheavier.queue hle) hheavier.penalty)

/-- Another backend gets no new veto. -/
theorem gains_no_veto {least least' : K} (hle : least ≤ least') {before after : Candidate K}
    (hheavier : Heavier id before after) (hid : before.backendID ≠ id)
    (hveto : Vetoed least' after) : Vetoed least before := by
  rw [vetoed_iff] at hveto ⊢
  obtain ⟨heligible, htokens, hlonger, hcost⟩ := hveto
  rw [hheavier.benefit, hheavier.queuePenaltyMS, (hheavier.same hid).1] at hcost
  rw [(hheavier.same hid).1] at hlonger
  refine ⟨hheavier.eligible ▸ heligible, hheavier.matchedTokens ▸ htokens, hle.trans_lt hlonger, ?_⟩
  exact hcost.trans_le (mul_le_mul_of_nonneg_right (sub_le_sub le_rfl hle) hheavier.penalty)

theorem vetoed_score_le (least : K) (candidate : Candidate K) :
    (vetoed least candidate).score ≤ candidate.score := by
  rw [vetoed_eq]
  split
  · exact sub_le_self candidate.score
      (show (0 : K) ≤ ((1000000 : Int) : K) by exact_mod_cast (by decide : (0 : Int) ≤ 1000000))
  · exact le_rfl

/-- After the veto the score of the heavier backend has fallen, and the others have theirs or a
higher one. -/
theorem vetoOne_score (rollout : Rollout K) (hids : (candidates.map (·.backendID)).Nodup)
    (h : List.Forall₂ (Heavier id) candidates candidates') {before after : Candidate K}
    (hmem : before ∈ candidates) (hheavier : Heavier id before after) :
    (before.backendID = id → (rollout.vetoOne candidates' after).score ≤
        (rollout.vetoOne candidates before).score) ∧
      (before.backendID ≠ id → (rollout.vetoOne candidates before).score ≤
        (rollout.vetoOne candidates' after).score) := by
  obtain ⟨hnone, hsome⟩ := leastQueue_le h
  unfold Rollout.vetoOne
  split
  · cases hleast : leastQueue candidates with
    | none =>
      rw [hnone hleast]
      exact ⟨fun _ => hheavier.score, fun hid => (hheavier.same hid).2.ge⟩
    | some least =>
      obtain ⟨least', hleast', hle⟩ := hsome least hleast
      rw [hleast']
      constructor
      · intro hid
        by_cases hveto : Vetoed least before
        · have hveto' := keeps_veto hids h hleast hleast' hmem hheavier hid hveto
          dsimp only
          rw [vetoed_eq, vetoed_eq, if_pos hveto, if_pos hveto']
          exact sub_le_sub_right hheavier.score (ofInt 1000000 : K)
        · dsimp only
          rw [vetoed_eq least before, if_neg hveto]
          exact (vetoed_score_le least' after).trans hheavier.score
      · intro hid
        by_cases hveto : Vetoed least' after
        · have hveto' := gains_no_veto hle hheavier hid hveto
          dsimp only
          rw [vetoed_eq, vetoed_eq, if_pos hveto, if_pos hveto']
          exact sub_le_sub_right (hheavier.same hid).2.ge (ofInt 1000000 : K)
        · dsimp only
          rw [vetoed_eq least' after, if_neg hveto, (hheavier.same hid).2]
          exact vetoed_score_le least before
  · exact ⟨fun _ => hheavier.score, fun hid => (hheavier.same hid).2.ge⟩

/-- What was ranked before the backend is so again after the veto. -/
theorem stays (rollout : Rollout K) (hids : (candidates.map (·.backendID)).Nodup)
    (h : List.Forall₂ (Heavier id) candidates candidates') {before after : Candidate K}
    (hbefore : before ∈ candidates) (hheavier : Heavier id before after)
    (hid : before.backendID = id) :
    List.Forall₂ (Controller.Stays (rollout.vetoOne candidates before)
        (rollout.vetoOne candidates' after))
      (rollout.veto candidates) (rollout.veto candidates') := by
  obtain ⟨hvetoID, hvetoEligible, -⟩ := rollout.vetoOne_fields candidates before
  obtain ⟨hvetoID', hvetoEligible', -⟩ := rollout.vetoOne_fields candidates' after
  have hfalls := (vetoOne_score rollout hids h hbefore hheavier).1 hid
  rw [Rollout.veto_eq, Rollout.veto_eq, List.forall₂_map_left_iff, List.forall₂_map_right_iff]
  have hpairs := (List.forall₂_and_left candidates candidates').mpr ⟨fun _ hother => hother, h⟩
  refine hpairs.imp fun other next ⟨hother, hpair⟩ => ?_
  obtain ⟨hotherID, hotherEligible, -⟩ := rollout.vetoOne_fields candidates other
  obtain ⟨hnextID, hnextEligible, -⟩ := rollout.vetoOne_fields candidates' next
  have hsameID := hnextID.trans (hpair.backendID.trans hotherID.symm)
  have hsameEligible := hnextEligible.trans (hpair.eligible.trans hotherEligible.symm)
  refine ⟨hsameID, hsameEligible, fun hless => ?_⟩
  by_cases hself : other.backendID = id
  · obtain rfl := List.inj_on_of_nodup_map hids hother hbefore (hself.trans hid.symm)
    have hnot := Candidate.less_asymm hless
    rw [hless] at hnot
    cases hnot
  · exact Candidate.less_mono hsameID (hvetoID'.trans (hheavier.backendID.trans hvetoID.symm))
      hsameEligible (hvetoEligible'.trans (hheavier.eligible.trans hvetoEligible.symm))
      ((vetoOne_score rollout hids h hother hpair).2 hself) hfalls hless

end Heavier

/-- **A backend that gets heavier gains nothing**: its rank does not fall, it is not selected
instead, and what was ranked before it stays before it. -/
theorem Controller.planFrom_heavier (env : Externals K) (rollout : Rollout K) (now : Time)
    (request : RoutingRequest K) (hids : (candidates.map (·.backendID)).Nodup)
    (h : List.Forall₂ (Heavier id) candidates candidates')
    (hmem : id ∈ candidates.map (·.backendID)) :
    (planFrom env rollout now request candidates).rank id ≤
        (planFrom env rollout now request candidates').rank id ∧
      ((planFrom env rollout now request candidates').Selects id →
        (planFrom env rollout now request candidates).Selects id) ∧
      ∀ other ∈ candidates,
        (planFrom env rollout now request candidates).rank other.backendID <
            (planFrom env rollout now request candidates).rank id →
          (planFrom env rollout now request candidates').rank other.backendID <
            (planFrom env rollout now request candidates').rank id := by
  obtain ⟨before, hbefore, rfl⟩ := List.mem_map.mp hmem
  obtain ⟨after, hafter, hheavier⟩ := mem_of_forall₂ h hbefore
  have hids' : (candidates'.map (·.backendID)).Nodup := by
    have hsame : candidates.map (·.backendID) = candidates'.map (·.backendID) := by
      rw [← List.forall₂_eq_eq_eq, List.forall₂_map_left_iff, List.forall₂_map_right_iff]
      exact h.imp fun _ _ hpair => hpair.backendID.symm
    rw [← hsame]
    exact hids
  have hcomparable : Comparable (rollout.veto candidates) :=
    comparable_of_ids (by rw [Rollout.veto_ids]; exact hids)
  have hcomparable' : Comparable (rollout.veto candidates') :=
    comparable_of_ids (by rw [Rollout.veto_ids]; exact hids')
  obtain ⟨hid, heligible, -⟩ := rollout.vetoOne_fields candidates before
  obtain ⟨hid', heligible', -⟩ := rollout.vetoOne_fields candidates' after
  have hstays := Heavier.stays rollout hids h hbefore hheavier rfl
  have hmem := rollout.mem_veto hbefore
  have hmem' := rollout.mem_veto hafter
  have hconfident : (rollout.vetoOne candidates' after).Confident rollout.mode →
      (rollout.vetoOne candidates before).Confident rollout.mode := by
    rw [Rollout.vetoOne_confident, Rollout.vetoOne_confident]
    unfold Candidate.Confident Candidate.confidence
    rw [hheavier.stateConfidence, hheavier.cacheConfidence]
    exact fun hsure => hsure
  obtain ⟨hranks, hselects, hbehind⟩ := planFrom_stays env now request hcomparable hcomparable'
    hstays hmem hmem' (hid'.trans (hheavier.backendID.trans hid.symm))
    (heligible'.trans (hheavier.eligible.trans heligible.symm)) hconfident
  rw [hid] at hranks hselects hbehind
  refine ⟨hranks, hselects, fun other hother => ?_⟩
  have hbehind := hbehind _ (rollout.mem_veto hother)
  rw [(rollout.vetoOne_fields candidates other).1] at hbehind
  exact hbehind

end Kavora.Router
