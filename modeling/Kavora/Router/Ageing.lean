import Kavora.Router.Score

/-!
# Older evidence

The score of a candidate is its confidence times a number of either sign. With older evidence or an
older state the confidence falls, and the score falls or rises with the sign.

* `Controller.Aged`: the same backend with less confidence.
* `Decision.NoGain`: a backend gains nothing from one decision to another.
* `Controller.Passed`: the candidates between the two places of a backend whose score rises.
* `Controller.planFrom_aged_iff`: when less confidence does not help a backend, among some
  candidates and among any.
-/

namespace Kavora.Router

open Lib BackendState
open Lib.Go (Float64 Time)
open Lib.Go.Float64 (ofInt Exact)

section Field

variable {K : Type} [Field K] [LinearOrder K] [IsStrictOrderedRing K]

/-- A smaller weight makes a product smaller exactly when the other factor is not negative. -/
theorem weighted_le_iff {w w' r : K} (h : w' ≤ w) : w' * r ≤ w * r ↔ 0 ≤ r ∨ w' = w := by
  constructor
  · intro hle
    by_contra hnot
    rw [not_or, not_le] at hnot
    have hlt : w * r < w' * r := mul_lt_mul_of_neg_right (lt_of_le_of_ne h hnot.2) hnot.1
    exact absurd hle (not_le.mpr hlt)
  · rintro (hr | rfl)
    · exact mul_le_mul_of_nonneg_right h hr
    · exact le_rfl

end Field

/-- A backend gains nothing from one decision to another: its rank does not improve, and it is
selected only if it was. -/
structure Decision.NoGain {F : Type} [Float64 F] (decision decision' : Decision F) (id : String) :
    Prop where
  rank : decision.rank id ≤ decision'.rank id
  selects : decision'.Selects id → decision.Selects id

namespace Controller

variable {K : Type} [Field K] [LinearOrder K] [Exact K]

attribute [local instance] Exact.float64 Float64.exact_lawful Float64.exact_irrefl

/-- The same state and evidence of a backend with less confidence. -/
structure Aged (c : Controller K) (now : Time) (mode : Mode) (state state' : Snapshot K)
    (evidence evidence' : CacheEvidence K) : Prop where
  signals : state'.signals = state.signals
  matchRatio : evidence'.matchRatio = evidence.matchRatio
  matchedTokens : evidence'.matchedTokens = evidence.matchedTokens
  confidence :
    if mode = .loadAware then c.stateConfidence now state' ≤ c.stateConfidence now state
    else evidence'.confidence ≤ evidence.confidence

variable {c : Controller K} {now : Time} {mode : Mode} {request : RoutingRequest K}
  {backend : BackendDescriptor} {state state' : Snapshot K} {evidence evidence' : CacheEvidence K}

theorem Aged.rawScore (h : c.Aged now mode state state' evidence evidence') :
    c.rawScore request backend state' evidence' = c.rawScore request backend state evidence := by
  have hsignal := fun name => signalValue_congr
    (show state'.signals.lookup name = state.signals.lookup name by rw [h.signals])
  unfold Controller.rawScore pressure prefillRate
  simp only [hsignal, h.matchRatio, h.matchedTokens]

theorem Aged.prefillRate (h : c.Aged now mode state state' evidence evidence') :
    Controller.prefillRate state' = Controller.prefillRate state := by
  have hsignal := fun name => signalValue_congr
    (show state'.signals.lookup name = state.signals.lookup name by rw [h.signals])
  unfold Controller.prefillRate
  simp only [hsignal]

theorem Aged.weight (h : c.Aged now mode state state' evidence evidence') :
    c.weight now mode state' evidence' ≤ c.weight now mode state evidence := by
  have hconfidence := h.confidence
  unfold Controller.weight
  by_cases hmode : mode = .loadAware
  · rw [if_pos hmode] at hconfidence ⊢
    rw [if_pos hmode]
    show (if c.stateConfidence now state' < _ then _ else _) ≤
      if c.stateConfidence now state < _ then _ else _
    grind
  · rw [if_neg hmode] at hconfidence ⊢
    rw [if_neg hmode]
    exact hconfidence

theorem Aged.confident (h : c.Aged now mode state state' evidence evidence')
    (hconfident : (c.scored now mode request backend state' evidence').Confident mode) :
    (c.scored now mode request backend state evidence).Confident mode := by
  have hconfidence := h.confidence
  rw [Candidate.confident_iff] at hconfident ⊢
  unfold Candidate.confidence at hconfident ⊢
  by_cases hmode : mode = .loadAware
  · rw [if_pos hmode] at hconfidence hconfident ⊢
    exact hconfident.trans_le hconfidence
  · rw [if_neg hmode] at hconfidence hconfident ⊢
    exact hconfident.trans_le hconfidence

variable [IsStrictOrderedRing K] {env : Externals K} {rollout : Rollout K}

/-- The score falls exactly when it is not negative, or the confidence is the same. -/
theorem Aged.score_le_iff (h : c.Aged now mode state state' evidence evidence') :
    (c.scored now mode request backend state' evidence').score ≤
        (c.scored now mode request backend state evidence).score ↔
      0 ≤ c.rawScore request backend state evidence ∨
        c.weight now mode state' evidence' = c.weight now mode state evidence := by
  rw [scored_score, scored_score, h.rawScore]
  exact weighted_le_iff h.weight

/-- A candidate with another score gains nothing exactly when the score is no greater, or no other
candidate stands between its two places. -/
theorem planFrom_rescored_iff (env : Externals K) (now : Time) (request : RoutingRequest K)
    {candidates candidates' before after : List (Candidate K)} {candidate candidate' : Candidate K}
    (hveto : rollout.veto candidates = before ++ candidate :: after)
    (hveto' : rollout.veto candidates' = before ++ candidate' :: after)
    (hids : ((rollout.veto candidates).map (·.backendID)).Nodup)
    (hid : candidate'.backendID = candidate.backendID)
    (heligible : candidate'.eligible = candidate.eligible)
    (hconfident : candidate'.Confident rollout.mode → candidate.Confident rollout.mode) :
    let decision := planFrom env rollout now request candidates
    let decision' := planFrom env rollout now request candidates'
    decision.NoGain decision' candidate.backendID ↔
      candidate'.score ≤ candidate.score ∨ ∀ other ∈ before ++ after,
        ¬ (other.less candidate = true ∧ candidate'.less other = true) := by
  intro decision decision'
  have hcomparable : Comparable (rollout.veto candidates) := comparable_of_ids hids
  have hcomparable' : Comparable (rollout.veto candidates') := by
    refine comparable_of_ids ?_
    rw [hveto, List.map_append, List.map_cons] at hids
    rwa [hveto', List.map_append, List.map_cons, hid]
  have hrank : decision.rank candidate.backendID =
      (before ++ after).countP fun other => other.less candidate :=
    planFrom_rank_split env now request hcomparable hveto
  have hrank' : decision'.rank candidate.backendID =
      (before ++ after).countP fun other => other.less candidate' := by
    rw [← hid]
    exact planFrom_rank_split env now request hcomparable' hveto'
  constructor
  · rintro ⟨hranks, -⟩
    by_contra hnot
    rw [not_or, not_le] at hnot
    obtain ⟨hrises, hbetween⟩ := hnot
    push Not at hbetween
    obtain ⟨other, hother, hless, hless'⟩ := hbetween
    rw [hrank, hrank'] at hranks
    refine absurd hranks (not_le.mpr (countP_lt_countP ?_ hother hless ?_))
    · intro x _ hx
      exact Candidate.less_mono rfl hid.symm rfl heligible.symm le_rfl hrises.le hx
    · exact Candidate.less_asymm hless'
  · intro hor
    have hkey : ∀ other ∈ before ++ after, other.backendID ≠ candidate'.backendID := by
      intro other hother heq
      rw [hveto, List.map_append, List.map_cons, List.nodup_middle, ← List.map_append] at hids
      exact (List.nodup_cons.mp hids).1 (List.mem_map.mpr ⟨other, hother, heq.trans hid⟩)
    have hstay : ∀ other ∈ before ++ after, Stays candidate candidate' other other := by
      refine fun other hother => ⟨rfl, rfl, fun hless => ?_⟩
      obtain hfalls | hnone := hor
      · exact Candidate.less_mono rfl hid rfl heligible le_rfl hfalls hless
      · exact (Candidate.less_total (Float64.ordered_not_nan _ _ _) (Float64.ordered_not_nan _ _ _)
          (hkey other hother)).resolve_right fun hless' => hnone other hother ⟨hless, hless'⟩
    have hself : Stays candidate candidate' candidate candidate' := by
      refine ⟨hid, heligible, fun hless => ?_⟩
      have hnot := Candidate.less_asymm hless
      rw [hless] at hnot
      cases hnot
    have hstays : List.Forall₂ (Stays candidate candidate') (rollout.veto candidates)
        (rollout.veto candidates') := by
      rw [hveto, hveto']
      refine List.rel_append ?_ (.cons hself ?_)
      · exact List.forall₂_same.mpr fun other hother => hstay other (List.mem_append_left _ hother)
      · exact List.forall₂_same.mpr fun other hother => hstay other (List.mem_append_right _ hother)
    have hmem : candidate ∈ rollout.veto candidates := by simp [hveto]
    have hmem' : candidate' ∈ rollout.veto candidates' := by simp [hveto']
    obtain ⟨hranks, hselects, -⟩ := planFrom_stays env now request hcomparable hcomparable' hstays
      hmem hmem' hid heligible hconfident
    exact ⟨hranks, hselects⟩

omit [IsStrictOrderedRing K] in
/-- The veto on a list in which one candidate is replaced by one with the same queue. -/
theorem veto_replaced (before after : List (Candidate K)) {candidate candidate' : Candidate K}
    (heligible : candidate'.eligible = candidate.eligible)
    (hqueue : candidate'.queueDepth = candidate.queueDepth) :
    let veto := rollout.vetoOne (before ++ candidate :: after)
    rollout.veto (before ++ candidate' :: after) =
      before.map veto ++ veto candidate' :: after.map veto := by
  intro veto
  have hleast : leastQueue (before ++ candidate' :: after) =
      leastQueue (before ++ candidate :: after) := by
    refine leastQueue_congr ?_
    simp only [List.map_append, List.map_cons, heligible, hqueue]
  have hone : rollout.vetoOne (before ++ candidate' :: after) = veto := by
    unfold veto Rollout.vetoOne
    rw [hleast]
  rw [Rollout.veto_eq, hone, List.map_append, List.map_cons]

/-! ## The places of a backend -/

omit [Field K] [Exact K] [IsStrictOrderedRing K] in
/-- A score of another backend is between the two of a backend that rises: it comes before the low
one and after the high one, ties by ID. -/
structure Passed (id : String) (low high : K) (other : String) (score : K) : Prop where
  before : low < score ∨ score = low ∧ other < id
  behind : score < high ∨ score = high ∧ id < other

omit [IsStrictOrderedRing K] in
/-- Another candidate was before a backend and is behind it with less confidence. -/
theorem Aged.passed_iff (h : c.Aged now rollout.mode state state' evidence evidence')
    (request : RoutingRequest K) (backend : BackendDescriptor) (candidates : List (Candidate K)) (other : Candidate K) :
    let candidate := c.scored now rollout.mode request backend state evidence
    let aged := c.scored now rollout.mode request backend state' evidence'
    let veto := rollout.vetoOne candidates
    let raw := c.rawScore request backend state evidence
    let penalty := rollout.penalty candidates
    ((veto other).less (veto candidate) = true ∧ (veto aged).less (veto other) = true) ↔
      other.eligible = true ∧
        Passed backend.id
          (c.weight now rollout.mode state evidence * raw - penalty candidate)
          (c.weight now rollout.mode state' evidence' * raw - penalty candidate)
          other.backendID (other.score - penalty other) := by
  intro candidate aged veto raw penalty
  obtain ⟨hid, heligible, -⟩ := rollout.vetoOne_fields candidates candidate
  obtain ⟨hid', heligible', -⟩ := rollout.vetoOne_fields candidates aged
  obtain ⟨hother, hallowed, -⟩ := rollout.vetoOne_fields candidates other
  have hpenalty : penalty aged = penalty candidate :=
    rollout.penalty_congr candidates rfl h.matchedTokens
      (signalValue_congr (by rw [h.signals])).2 h.prefillRate rfl
  have hscore : (veto candidate).score =
      c.weight now rollout.mode state evidence * raw - penalty candidate :=
    rollout.vetoOne_score candidates candidate
  have hscore' : (veto aged).score =
      c.weight now rollout.mode state' evidence' * raw - penalty candidate := by
    rw [← hpenalty, show raw = c.rawScore request backend state' evidence' from h.rawScore.symm]
    exact rollout.vetoOne_score candidates aged
  rw [Candidate.less_iff, Candidate.less_iff, hid, hid', heligible, heligible', hother, hallowed,
    hscore, hscore', rollout.vetoOne_score candidates other]
  show (other.eligible = true ∧ true = false ∨ other.eligible = true ∧ _) ∧
    (true = true ∧ other.eligible = false ∨ true = other.eligible ∧ _) ↔ _
  cases hcase : other.eligible with
  | true =>
    simp only [Bool.true_eq_false, and_false, false_or, true_and]
    exact ⟨fun ⟨hbefore, hbehind⟩ => ⟨hbefore, hbehind.imp_right (And.imp_left Eq.symm)⟩,
      fun ⟨hbefore, hbehind⟩ => ⟨hbefore, hbehind.imp_right (And.imp_left Eq.symm)⟩⟩
  | false => simp

/-- Less confidence helps a backend among some candidates exactly when its score is negative and
rises past the one of another candidate. -/
theorem Aged.noGain_iff (h : c.Aged now rollout.mode state state' evidence evidence')
    (before after : List (Candidate K))
    (hids : ((before ++ c.scored now rollout.mode request backend state evidence :: after).map
      (·.backendID)).Nodup) :
    let candidate := c.scored now rollout.mode request backend state evidence
    let aged := c.scored now rollout.mode request backend state' evidence'
    let raw := c.rawScore request backend state evidence
    let weight := c.weight now rollout.mode state evidence
    let weight' := c.weight now rollout.mode state' evidence'
    let penalty := rollout.penalty (before ++ candidate :: after)
    (planFrom env rollout now request (before ++ candidate :: after)).NoGain
        (planFrom env rollout now request (before ++ aged :: after)) backend.id ↔
      (raw < 0 → weight' < weight → ∀ other ∈ before ++ after, other.eligible = true →
        ¬ Passed backend.id (weight * raw - penalty candidate) (weight' * raw - penalty candidate)
          other.backendID (other.score - penalty other)) := by
  intro candidate aged raw weight weight' penalty
  let veto := rollout.vetoOne (before ++ candidate :: after)
  have hqueue : aged.queueDepth = candidate.queueDepth :=
    (signalValue_congr (by rw [h.signals])).2
  obtain ⟨hid, heligible, -⟩ := rollout.vetoOne_fields (before ++ candidate :: after) candidate
  obtain ⟨hid', heligible', -⟩ := rollout.vetoOne_fields (before ++ candidate :: after) aged
  have hconfident : (veto aged).Confident rollout.mode →
      (veto candidate).Confident rollout.mode := by
    rw [Rollout.vetoOne_confident, Rollout.vetoOne_confident]
    exact h.confident
  have hveto : rollout.veto (before ++ candidate :: after) =
      before.map veto ++ veto candidate :: after.map veto := veto_replaced before after rfl rfl
  have hveto' : rollout.veto (before ++ aged :: after) =
      before.map veto ++ veto aged :: after.map veto := veto_replaced before after rfl hqueue
  have hrescored := planFrom_rescored_iff env now request hveto hveto'
    (by rw [Rollout.veto_ids]; exact hids) (hid'.trans hid.symm)
    (heligible'.trans heligible.symm) hconfident
  have hle : (veto aged).score ≤ (veto candidate).score ↔ 0 ≤ raw ∨ weight' = weight := by
    rw [Rollout.vetoOne_score, Rollout.vetoOne_score,
      rollout.penalty_congr _ (a := candidate) (b := aged) rfl h.matchedTokens hqueue h.prefillRate
        rfl, sub_le_sub_iff_right]
    exact h.score_le_iff
  rw [hid] at hrescored
  refine hrescored.trans ?_
  rw [hle, ← List.map_append, List.forall_mem_map]
  have hpassed := h.passed_iff request backend (before ++ candidate :: after)
  constructor
  · rintro ((hraw | hsame) | hnone) hneg hfalls other hother hallowed hbetween
    · exact absurd hneg (not_lt.mpr hraw)
    · exact absurd hsame hfalls.ne
    · exact hnone other hother ((hpassed other).mpr ⟨hallowed, hbetween⟩)
  · intro hall
    by_cases hneg : raw < 0
    · obtain hfalls | hsame := h.weight.lt_or_eq
      · refine .inr fun other hother hless => ?_
        obtain ⟨hallowed, hbetween⟩ := (hpassed other).mp hless
        exact hall hneg hfalls other hother hallowed hbetween
      · exact .inl (.inr hsame)
    · exact .inl (.inl (not_lt.mp hneg))

omit [IsStrictOrderedRing K] in
/-- Of two candidates with the same queue the veto hits none. -/
theorem penalty_pair (rollout : Rollout K) {candidate other : Candidate K}
    (heligible : candidate.eligible = true) (hqueue : other.queueDepth = candidate.queueDepth)
    {x : Candidate K} (hx : x.queueDepth = candidate.queueDepth) :
    rollout.penalty [candidate, other] x = 0 := by
  have hleast : leastQueue [candidate, other] = some candidate.queueDepth := by
    unfold leastQueue
    rw [List.foldl_cons, List.foldl_cons, List.foldl_nil, if_pos heligible]
    dsimp only
    rw [hqueue]
    split
    · exact ite_self _
    · rfl
  refine if_neg ?_
  rintro ⟨-, least, hmem, -, -, hlonger, -⟩
  rw [hleast] at hmem
  rw [hx, Option.some.inj hmem, (Float64.ordered_le _ _).mpr le_rfl] at hlonger
  cases hlonger

/-- A negative score that rises passes some candidate. -/
theorem Aged.exists_gain (h : c.Aged now rollout.mode state state' evidence evidence')
    (env : Externals K)
    (hneg : c.rawScore request backend state evidence < 0)
    (hfalls : c.weight now rollout.mode state' evidence' < c.weight now rollout.mode state evidence) :
    let candidate := c.scored now rollout.mode request backend state evidence
    let aged := c.scored now rollout.mode request backend state' evidence'
    ∃ other : Candidate K, ([candidate, other].map (·.backendID)).Nodup ∧
      ¬ (planFrom env rollout now request [candidate, other]).NoGain
        (planFrom env rollout now request [aged, other]) backend.id := by
  intro candidate aged
  let weight := c.weight now rollout.mode state evidence
  let weight' := c.weight now rollout.mode state' evidence'
  let other : Candidate K :=
    { (Candidate.new (backend.id ++ ".") : Candidate K) with
      queueDepth := candidate.queueDepth
      score := (weight + weight') / 2 * c.rawScore request backend state evidence }
  have hne : backend.id ≠ backend.id ++ "." := by
    intro heq
    have hlength := congrArg String.length heq
    rw [String.length_append, show ".".length = 1 from rfl] at hlength
    omega
  have hids : ([candidate, other].map (·.backendID)).Nodup :=
    List.nodup_cons.mpr ⟨fun hmem => hne (List.mem_singleton.mp hmem), List.nodup_singleton _⟩
  refine ⟨other, hids, fun hgain => ?_⟩
  have hnone : rollout.penalty [candidate, other] candidate = 0 := penalty_pair rollout rfl rfl rfl
  have hnone' : rollout.penalty [candidate, other] other = 0 := penalty_pair rollout rfl rfl rfl
  refine (h.noGain_iff [] [other] hids).mp hgain hneg hfalls other
    List.mem_cons_self rfl ?_
  simp only [List.nil_append]
  rw [hnone, hnone', sub_zero, sub_zero, sub_zero]
  exact ⟨.inl (mul_lt_mul_of_neg_right (by linarith) hneg),
    .inl (mul_lt_mul_of_neg_right (by linarith) hneg)⟩

/-- **Less confidence helps a backend exactly when the sum that it weighs is negative and the score
rises past the one of another candidate**; so it helps it among no candidates exactly when that sum
is not negative, or when the weight stays. -/
theorem planFrom_aged_iff (env : Externals K) (request : RoutingRequest K)
    (backend : BackendDescriptor) (h : c.Aged now rollout.mode state state' evidence evidence') :
    let candidate := c.scored now rollout.mode request backend state evidence
    let aged := c.scored now rollout.mode request backend state' evidence'
    let raw := c.rawScore request backend state evidence
    let weight := c.weight now rollout.mode state evidence
    let weight' := c.weight now rollout.mode state' evidence'
    let Distinct := fun before after =>
      ((before ++ candidate :: after).map (·.backendID)).Nodup
    let NoGain := fun before after =>
      (planFrom env rollout now request (before ++ candidate :: after)).NoGain
        (planFrom env rollout now request (before ++ aged :: after)) backend.id
    (∀ before after, Distinct before after →
      let penalty := rollout.penalty (before ++ candidate :: after)
      (NoGain before after ↔
        (raw < 0 → weight' < weight → ∀ other ∈ before ++ after, other.eligible = true →
          ¬ Passed backend.id (weight * raw - penalty candidate)
            (weight' * raw - penalty candidate) other.backendID
            (other.score - penalty other)))) ∧
      ((∀ before after, Distinct before after → NoGain before after) ↔
        0 ≤ raw ∨ weight' = weight) := by
  intro candidate aged raw weight weight' Distinct NoGain
  refine ⟨fun before after hids => h.noGain_iff before after hids, ?_⟩
  constructor
  · intro hall
    by_contra hnot
    rw [not_or, not_le] at hnot
    obtain ⟨other, hids, hgains⟩ :=
      h.exists_gain env hnot.1 (lt_of_le_of_ne h.weight hnot.2)
    exact hgains (hall [] [other] hids)
  · intro hor before after hids
    refine (h.noGain_iff before after hids).mpr fun hneg hfalls => ?_
    obtain hraw | hsame := hor
    · exact absurd hneg (not_lt.mpr hraw)
    · exact absurd hsame hfalls.ne

end Controller

namespace AgeingSample

local instance : Exact Rat := ⟨fun _ => 1, fun x => (x + 1 / 2).floor⟩

attribute [local instance] Exact.float64

open SelectionSample (env controller request measured now)

def rollout : Rollout Rat where
  mode := .enforced
  stage := "enforced"
  fraction := 1
  enforced := true
  version := "routing-v1"
  assignment := .zero

/-- A backend with a queue. -/
def waiting (queue : Rat) : Snapshot Rat :=
  { measured with
    signals := (∅ : Lib.Go.Map String (Signal Rat)).insert "queue_depth"
      { value := queue
        hasValue := true
        quality := .fresh
        source := "vllm"
        observedAtUnixMillis := 1000
        semantics := ""
        evidenceQuality := .strict } }

/-- The evidence of a prefix of which a ratio is cached. -/
def evidence (ratio confidence : Rat) : CacheEvidence Rat where
  matchedTokens := 0
  matchRatio := ratio
  source := .kvEvents
  observedAt := now
  quality := .fresh
  confidence
  evidenceQuality := .strict

/-- A candidate with a score of `confidence * (100 * ratio - 8 * queue)`. -/
def candidate (id : String) (queue ratio confidence : Rat) : Candidate Rat :=
  controller.scored now .enforced request ⟨id, ∅⟩ (waiting queue) (evidence ratio confidence)

theorem aged (queue ratio : Rat) :
    controller.Aged now rollout.mode (waiting queue) (waiting queue) (evidence ratio 1)
      (evidence ratio (1 / 2)) :=
  ⟨rfl, rfl, rfl, show (1 / 2 : Rat) ≤ 1 by decide +kernel⟩

/-- The score of `-8` rises to `-4` between those of `-2` and `-12`; the one of `92` falls to `46`
behind that of `69`. -/
theorem planFrom_aged_between :
    (Controller.planFrom env rollout now request
        [candidate "b" 1 0 (1 / 4), candidate "a" 1 0 1, candidate "c" 2 0 (3 / 4)]).NoGain
      (Controller.planFrom env rollout now request
        [candidate "b" 1 0 (1 / 4), candidate "a" 1 0 (1 / 2), candidate "c" 2 0 (3 / 4)]) "a" ∧
    (Controller.planFrom env rollout now request
        [candidate "b" 1 1 (3 / 4), candidate "a" 1 1 1]).NoGain
      (Controller.planFrom env rollout now request
        [candidate "b" 1 1 (3 / 4), candidate "a" 1 1 (1 / 2)]) "a" := by
  constructor
  · refine ((Controller.planFrom_aged_iff env request ⟨"a", ∅⟩ (aged 1 0)).1
      [candidate "b" 1 0 (1 / 4)] [candidate "c" 2 0 (3 / 4)] (by decide)).mpr ?_
    intro _ _ other hother _ hpassed
    obtain rfl | hother := List.mem_cons.mp hother
    · exact absurd hpassed.behind (by decide +kernel)
    · obtain rfl := List.mem_singleton.mp hother
      exact absurd hpassed.before (by decide +kernel)
  · exact (Controller.planFrom_aged_iff env request ⟨"a", ∅⟩ (aged 1 1)).2.mpr
      (.inl (by decide +kernel)) [candidate "b" 1 1 (3 / 4)] [] (by decide)

/-- The score of `-8` rises to `-4` and passes the one of `-6`. -/
theorem planFrom_aged_gains :
    ¬ (Controller.planFrom env rollout now request
        [candidate "b" 1 0 (3 / 4), candidate "a" 1 0 1]).NoGain
      (Controller.planFrom env rollout now request
        [candidate "b" 1 0 (3 / 4), candidate "a" 1 0 (1 / 2)]) "a" := by
  refine fun h => absurd h.rank ?_
  decide +kernel

end AgeingSample

end Kavora.Router
