import Kavora.Router.Selection

/-!
# Scores in exact arithmetic

The score of a candidate is its confidence times what its backend offers; the veto of `kv-v2` takes
a million from it. In an ordered field a candidate whose score falls while those of the others rise
loses no place to gain: it stays behind those that it was behind.

* `Candidate.less_iff`: the comparison in an ordered field.
* `Candidate.less_mono`: a lesser candidate stays one when its score rises and that of the other
  falls.
* `Controller.scored_score`: the score of a candidate.
* `vetoed_eq`, `Rollout.veto_eq`: which candidates a veto hits.
-/

namespace Kavora.Router

open Lib BackendState
open Lib.Go (Float64 Time)
open Lib.Go.Float64 (ofInt Exact)

section

variable {F : Type} [Float64 F]

/-! ## The score -/

/-- The value of a signal depends on that signal only. -/
theorem signalValue_congr {state state' : Snapshot F} {name : String}
    (h : state'.signals.lookup name = state.signals.lookup name) :
    value state' name = value state name ∧ signalValue state' name = signalValue state name := by
  have hvalue : value state' name = value state name := by
    unfold value
    rw [h]
  refine ⟨hvalue, ?_⟩
  unfold signalValue
  rw [hvalue, h]

namespace Controller

/-- What the confidence of a candidate weighs. -/
def rawScore (c : Controller F) (request : RoutingRequest F) (backend : BackendDescriptor)
    (state : Snapshot F) (evidence : CacheEvidence F) : F :=
  let predictor :=
    if c.predictor.matches request.model backend.attributes then c.predictor else .default
  let predicted :=
    predictor.predict request.promptTokens evidence.matchedTokens (signalValue state "queue_depth")
      (pressure state) (prefillRate state)
  evidence.matchRatio * ofInt 100 - signalValue state "queue_depth" * ofInt 8 -
    pressure state * ofInt 35 - predictor.violationProbability predicted request.ttftSloMS * ofInt 60

/-- The confidence in a score. -/
def weight (c : Controller F) (now : Time) (mode : Mode) (state : Snapshot F)
    (evidence : CacheEvidence F) : F :=
  if mode = .loadAware then Float64.max (c.stateConfidence now state) (ofInt 1 / ofInt 100)
  else evidence.confidence

theorem scored_score (c : Controller F) (now : Time) (mode : Mode) (request : RoutingRequest F)
    (backend : BackendDescriptor) (state : Snapshot F) (evidence : CacheEvidence F) :
    (c.scored now mode request backend state evidence).score =
      c.weight now mode state evidence * c.rawScore request backend state evidence := rfl

end Controller

/-! ## The veto -/

/-- The queue of a candidate costs more than its cache saves. -/
def Vetoed (least : F) (candidate : Candidate F) : Prop :=
  candidate.eligible = true ∧ 0 < candidate.matchedTokens ∧
    Float64.le candidate.queueDepth least = false ∧
    Float64.lt
      (ofInt candidate.matchedTokens /
        (if Float64.le candidate.recentPrefillRate (ofInt 0) then ofInt 8000
        else candidate.recentPrefillRate) * ofInt 1000)
      ((candidate.queueDepth - least) * candidate.queuePenaltyMS) = true

instance (least : F) (candidate : Candidate F) : Decidable (Vetoed least candidate) :=
  inferInstanceAs (Decidable (_ ∧ _ ∧ _ ∧ _))

theorem vetoed_eq (least : F) (candidate : Candidate F) :
    vetoed least candidate =
      if Vetoed least candidate then
        { candidate with
          score := candidate.score - ofInt 1000000
          reason := "queue_penalty_exceeds_cache_benefit" }
      else candidate := by
  unfold vetoed
  by_cases hskip : ¬ candidate.eligible ∨ candidate.matchedTokens ≤ 0 ∨
      Float64.le candidate.queueDepth least
  · have hnot : ¬ Vetoed least candidate := by
      rintro ⟨heligible, htokens, hqueue, -⟩
      rw [hqueue] at hskip
      obtain hnot | hle | hfalse := hskip
      · exact hnot heligible
      · omega
      · cases hfalse
    rw [if_pos hskip, if_neg hnot]
  · rw [if_neg hskip]
    rw [not_or, not_or, not_not, not_le, Bool.not_eq_true] at hskip
    dsimp only
    by_cases hveto : Vetoed least candidate
    · rw [if_pos hveto, if_pos hveto.2.2.2]
    · rw [if_neg hveto]
      exact if_neg fun hcost => hveto ⟨hskip.1, hskip.2.1, hskip.2.2, hcost⟩

/-- The veto on one of some candidates. -/
def Rollout.vetoOne (rollout : Rollout F) (candidates : List (Candidate F))
    (candidate : Candidate F) : Candidate F :=
  if rollout.assignment.assignedPolicy = "kv-v2" then
    match leastQueue candidates with
    | none => candidate
    | some least => vetoed least candidate
  else candidate

/-- The policy has the veto, and it hits a candidate among some others. -/
def Rollout.Vetoes (rollout : Rollout F) (candidates : List (Candidate F))
    (candidate : Candidate F) : Prop :=
  rollout.assignment.assignedPolicy = "kv-v2" ∧
    ∃ least ∈ leastQueue candidates, Vetoed least candidate

instance (rollout : Rollout F) (candidates : List (Candidate F)) (candidate : Candidate F) :
    Decidable (rollout.Vetoes candidates candidate) :=
  inferInstanceAs (Decidable (_ ∧ _))

theorem Rollout.vetoOne_eq (rollout : Rollout F) (candidates : List (Candidate F))
    (candidate : Candidate F) :
    rollout.vetoOne candidates candidate =
      if rollout.Vetoes candidates candidate then
        { candidate with
          score := candidate.score - ofInt 1000000
          reason := "queue_penalty_exceeds_cache_benefit" }
      else candidate := by
  unfold vetoOne
  by_cases hpolicy : rollout.assignment.assignedPolicy = "kv-v2"
  · rw [if_pos hpolicy]
    cases hleast : leastQueue candidates with
    | none =>
      refine (if_neg ?_).symm
      rintro ⟨-, least, hmem, -⟩
      rw [hleast] at hmem
      cases hmem
    | some least =>
      dsimp only
      rw [vetoed_eq]
      refine if_congr ?_ rfl rfl
      constructor
      · exact fun h => ⟨hpolicy, least, hleast, h⟩
      · rintro ⟨-, other, hmem, h⟩
        rw [hleast] at hmem
        rwa [Option.some.inj hmem]
  · rw [if_neg hpolicy, if_neg fun h : rollout.Vetoes candidates candidate => hpolicy h.1]

theorem Rollout.veto_eq (rollout : Rollout F) (candidates : List (Candidate F)) :
    rollout.veto candidates = candidates.map (rollout.vetoOne candidates) := by
  unfold veto vetoOne applyKVV2QueueVeto
  split
  · cases leastQueue candidates with
    | none => exact (List.map_id' _).symm
    | some least => rfl
  · exact (List.map_id' _).symm

theorem Rollout.mem_veto (rollout : Rollout F) {candidates : List (Candidate F)}
    {candidate : Candidate F} (h : candidate ∈ candidates) :
    rollout.vetoOne candidates candidate ∈ rollout.veto candidates := by
  rw [Rollout.veto_eq]
  exact List.mem_map_of_mem h

theorem Rollout.vetoOne_fields (rollout : Rollout F) (candidates : List (Candidate F))
    (candidate : Candidate F) :
    (rollout.vetoOne candidates candidate).backendID = candidate.backendID ∧
      (rollout.vetoOne candidates candidate).eligible = candidate.eligible ∧
      (rollout.vetoOne candidates candidate).stateConfidence = candidate.stateConfidence ∧
      (rollout.vetoOne candidates candidate).cacheConfidence = candidate.cacheConfidence := by
  unfold vetoOne
  split
  · split
    · exact ⟨rfl, rfl, rfl, rfl⟩
    · rw [vetoed_eq]
      split
      · exact ⟨rfl, rfl, rfl, rfl⟩
      · exact ⟨rfl, rfl, rfl, rfl⟩
  · exact ⟨rfl, rfl, rfl, rfl⟩

theorem Rollout.vetoOne_confident (rollout : Rollout F) (candidates : List (Candidate F))
    (candidate : Candidate F) (mode : Mode) :
    (rollout.vetoOne candidates candidate).Confident mode ↔ candidate.Confident mode := by
  obtain ⟨-, -, hstate, hcache⟩ := rollout.vetoOne_fields candidates candidate
  unfold Candidate.Confident Candidate.confidence
  rw [hstate, hcache]

/-- The least queue depends on the queues only. -/
theorem leastQueue_congr {candidates candidates' : List (Candidate F)}
    (h : candidates.map (fun candidate => (candidate.eligible, candidate.queueDepth)) =
      candidates'.map fun candidate => (candidate.eligible, candidate.queueDepth)) :
    leastQueue candidates = leastQueue candidates' := by
  have hfold : ∀ candidates : List (Candidate F), leastQueue candidates =
      (candidates.map fun candidate => (candidate.eligible, candidate.queueDepth)).foldl
        (fun least entry =>
          if entry.1 then
            match least with
            | none => some entry.2
            | some least => if Float64.lt entry.2 least then some entry.2 else some least
          else least) none := by
    intro candidates
    rw [List.foldl_map]
    rfl
  rw [hfold, hfold, h]

end

/-! ## Comparisons in an ordered field -/

section Exact

variable {K : Type} [Field K] [LinearOrder K] [Exact K]

attribute [local instance] Exact.float64

namespace Candidate

/-- The comparison in an ordered field. -/
theorem less_iff {a b : Candidate K} : a.less b = true ↔
    a.eligible = true ∧ b.eligible = false ∨ a.eligible = b.eligible ∧
      (b.score < a.score ∨ a.score = b.score ∧ a.backendID < b.backendID) := by
  unfold less
  show (if a.eligible ≠ b.eligible then a.eligible
    else if decide (a.score = b.score) = true then decide (a.backendID < b.backendID)
    else decide (b.score < a.score)) = true ↔ _
  cases ha : a.eligible with
  | true =>
    cases hb : b.eligible with
    | true => grind
    | false => simp
  | false =>
    cases hb : b.eligible with
    | true => simp
    | false => grind

theorem confident_iff {mode : Mode} {candidate : Candidate K} :
    candidate.Confident mode ↔ 0 < candidate.confidence mode := by
  unfold Confident
  rw [Bool.eq_false_iff, Ne, Float64.ordered_le, not_le]
  show ((0 : Int) : K) < _ ↔ _
  rw [Int.cast_zero]

/-- A lesser candidate stays one when its score rises and that of the other falls. -/
theorem less_mono {a b a' b' : Candidate K} (ha : a'.backendID = a.backendID)
    (hb : b'.backendID = b.backendID) (hea : a'.eligible = a.eligible)
    (heb : b'.eligible = b.eligible) (hsa : a.score ≤ a'.score) (hsb : b'.score ≤ b.score)
    (h : a.less b = true) : a'.less b' = true := by
  rw [less_iff] at h ⊢
  rw [ha, hb, hea, heb]
  obtain h | ⟨heligible, hlt | ⟨heq, hid⟩⟩ := h
  · exact .inl h
  · exact .inr ⟨heligible, .inl (hsb.trans_lt (hlt.trans_le hsa))⟩
  · obtain hlt | heq' := (hsb.trans (heq ▸ hsa)).lt_or_eq
    · exact .inr ⟨heligible, .inl hlt⟩
    · exact .inr ⟨heligible, .inr ⟨heq'.symm, hid⟩⟩

end Candidate

/-- What the veto takes from the score of a candidate. -/
def Rollout.penalty (rollout : Rollout K) (candidates : List (Candidate K))
    (candidate : Candidate K) : K :=
  if rollout.Vetoes candidates candidate then 1000000 else 0

theorem Rollout.vetoOne_score (rollout : Rollout K) (candidates : List (Candidate K))
    (candidate : Candidate K) :
    (rollout.vetoOne candidates candidate).score =
      candidate.score - rollout.penalty candidates candidate := by
  rw [vetoOne_eq]
  unfold penalty
  split
  · show candidate.score - ((1000000 : Int) : K) = candidate.score - 1000000
    rw [Int.cast_ofNat]
  · exact (sub_zero _).symm

/-- A veto hits both of two candidates with the same queue and match, or none. -/
theorem Rollout.penalty_congr (rollout : Rollout K) (candidates : List (Candidate K))
    {a b : Candidate K} (heligible : b.eligible = a.eligible)
    (htokens : b.matchedTokens = a.matchedTokens) (hqueue : b.queueDepth = a.queueDepth)
    (hrate : b.recentPrefillRate = a.recentPrefillRate)
    (hpenalty : b.queuePenaltyMS = a.queuePenaltyMS) :
    rollout.penalty candidates b = rollout.penalty candidates a := by
  have hsame : rollout.Vetoes candidates b ↔ rollout.Vetoes candidates a := by
    unfold Vetoes Vetoed
    rw [heligible, htokens, hqueue, hrate, hpenalty]
  exact if_congr hsame rfl rfl

theorem comparable_of_ids {candidates : List (Candidate K)}
    (h : (candidates.map (·.backendID)).Nodup) : Comparable candidates where
  ids := h
  scores _ _ := Float64.ordered_not_nan _ _ _

end Exact

end Kavora.Router
