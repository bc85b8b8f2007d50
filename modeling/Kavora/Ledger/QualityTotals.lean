import Mathlib.Data.Finset.Max
import Mathlib.Data.Rat.Floor
import Kavora.Ledger.PredictionQuality

/-!
# The quality of predictions adds up

Over exact numbers the totals of a pass are sums over its samples, so the means of the report are
means of the samples.

* `SLOCalibrationBucket.foldl_add`, `EvidenceQualityError.foldl_add`: the totals.
* `PredictionQuality.AddsUp`: what the report says of the samples.
* `prediction_quality_adds_up`: in any ledger that `Record` and `RecordOutcome` reach.
-/

namespace Kavora.Ledger

open Lib Lib.Grouping
open Lib.Go hiding Field
open Float64 (ofInt)

variable {K : Type} [Field K] [LinearOrder K] [IsStrictOrderedRing K] [Float64.Exact K]

attribute [local instance] Float64.Exact.float64

/-! ## What adds up -/

/-- The report of samples. -/
structure PredictionQuality.AddsUp (quality : PredictionQuality K) (samples : List (Sample K)) :
    Prop where
  samples_eq : quality.samples = samples.length
  buckets : (quality.sloCalibration.map (·.samples)).sum = quality.samples
  groups : (quality.evidence.map (·.samples)).sum = quality.samples
  /-- A sample is in exactly one bucket, and a bucket counts the samples in it. -/
  bucket : ∀ sample ∈ samples,
    quality.sloCalibration.countP (fun bucket => bucket.bucket = sample.bucket) = 1
  bucket_samples : ∀ bucket ∈ quality.sloCalibration, 0 < bucket.samples ∧
    bucket.samples = samples.countP fun sample => sample.bucket = bucket.bucket
  group : ∀ sample ∈ samples,
    quality.evidence.countP (fun group => group.evidenceQuality = sample.quality) = 1
  group_samples : ∀ group ∈ quality.evidence, 0 < group.samples ∧
    group.samples = samples.countP fun sample => sample.quality = group.evidenceQuality
  signed_le : |quality.meanSignedErrorMS| ≤ quality.maeMS
  /-- `MAEMS` and `P95AbsoluteErrorMS` against the smallest and the largest error. -/
  bounds : samples ≠ [] → ∃ smallest ∈ samples.map Sample.absolute,
    ∃ largest ∈ samples.map Sample.absolute,
      (∀ sample ∈ samples, smallest ≤ sample.absolute ∧ sample.absolute ≤ largest) ∧
        quality.maeMS ≤ largest ∧ smallest ≤ quality.p95AbsoluteErrorMS ∧
          quality.p95AbsoluteErrorMS ≤ largest
  /-- A group counts the cache errors of its samples, and has their mean, or zero without any. -/
  cache : ∀ group ∈ quality.evidence,
    let errors := (samples.filter fun sample => sample.quality = group.evidenceQuality).filterMap
      Sample.cacheError
    group.cacheSamples = errors.length ∧ (group.cacheSamples : K) * group.cacheHitMAE = errors.sum ∧
      (group.cacheSamples = 0 → group.cacheHitMAE = 0)
  /-- `MAEMS` is the mean of the groups, each as often as it has samples. -/
  weighted : quality.maeMS =
    (quality.evidence.map fun group => (group.samples : K) * group.maeMS).sum / quality.samples
  rates : ∀ bucket ∈ quality.sloCalibration,
    0 ≤ bucket.actualViolationRate ∧ bucket.actualViolationRate ≤ 1
  /-- A mean of probabilities is a probability. -/
  probabilities : (∀ sample ∈ samples, 0 ≤ sample.probability ∧ sample.probability ≤ 1) →
    ∀ bucket ∈ quality.sloCalibration,
      0 ≤ bucket.predictedProbability ∧ bucket.predictedProbability ≤ 1

/-! ## Totals -/

omit [IsStrictOrderedRing K] in
theorem SLOCalibrationBucket.foldl_add (sloMS : K) (bucket : SLOCalibrationBucket K)
    (samples : List (Sample K)) :
    let after := samples.foldl (fun bucket sample =>
      bucket.add sloMS sample.probability sample.outcome) bucket
    after.bucket = bucket.bucket ∧ after.samples = bucket.samples + samples.length ∧
      after.predictedProbabilityTotal =
        bucket.predictedProbabilityTotal + (samples.map Sample.probability).sum ∧
      after.actualViolations ≤ bucket.actualViolations + samples.length := by
  induction samples generalizing bucket with
  | nil => exact ⟨rfl, rfl, (add_zero _).symm, le_rfl⟩
  | cons sample samples ih =>
    obtain ⟨hname, hsamples, htotal, hviolations⟩ :=
      ih (bucket.add sloMS sample.probability sample.outcome)
    refine ⟨hname, ?_, ?_, hviolations.trans ?_⟩
    · rw [List.foldl_cons, hsamples, List.length_cons]
      show bucket.samples + 1 + samples.length = _
      omega
    · rw [List.foldl_cons, htotal, List.map_cons, List.sum_cons]
      exact add_assoc _ _ _
    · have hadd : (bucket.add sloMS sample.probability sample.outcome).actualViolations ≤
          bucket.actualViolations + 1 := by
        unfold add
        dsimp only
        split <;> omega
      rw [List.length_cons]
      omega

omit [IsStrictOrderedRing K] in
theorem EvidenceQualityError.add_without_cache {group : EvidenceQualityError K} {sample : Sample K}
    (h : sample.cacheError = none) :
    group.add sample.predictionError =
      { group with
        samples := group.samples + 1
        absoluteErrorTotal := group.absoluteErrorTotal + sample.absolute } := by
  unfold Sample.cacheError at h
  unfold add
  rw [h]
  rfl

omit [IsStrictOrderedRing K] in
theorem EvidenceQualityError.add_cache {group : EvidenceQualityError K} {sample : Sample K}
    {error : K} (h : sample.cacheError = some error) :
    (group.add sample.predictionError).cacheSamples = group.cacheSamples + 1 ∧
      (group.add sample.predictionError).cacheErrorTotal = group.cacheErrorTotal + error := by
  unfold Sample.cacheError at h
  unfold add
  rw [h]
  exact ⟨rfl, rfl⟩

omit [IsStrictOrderedRing K] in
theorem EvidenceQualityError.foldl_add (group : EvidenceQualityError K)
    (samples : List (Sample K)) :
    let after := samples.foldl (fun group sample => group.add sample.predictionError) group
    after.evidenceQuality = group.evidenceQuality ∧
      after.samples = group.samples + samples.length ∧
      after.absoluteErrorTotal =
        group.absoluteErrorTotal + (samples.map Sample.absolute).sum ∧
      after.cacheSamples = group.cacheSamples + (samples.filterMap Sample.cacheError).length ∧
      after.cacheErrorTotal =
        group.cacheErrorTotal + (samples.filterMap Sample.cacheError).sum ∧
      after.cacheHitMAE = group.cacheHitMAE := by
  induction samples generalizing group with
  | nil => exact ⟨rfl, rfl, (add_zero _).symm, rfl, (add_zero _).symm, rfl⟩
  | cons sample samples ih =>
    have hadd : (group.add sample.predictionError).evidenceQuality = group.evidenceQuality ∧
        (group.add sample.predictionError).samples = group.samples + 1 ∧
        (group.add sample.predictionError).absoluteErrorTotal =
          group.absoluteErrorTotal + sample.absolute ∧
        (group.add sample.predictionError).cacheHitMAE = group.cacheHitMAE := by
      unfold add
      dsimp only
      split <;> exact ⟨rfl, rfl, rfl, rfl⟩
    obtain ⟨hname, hsamples, htotal, hcacheSamples, hcacheTotal, hkept⟩ :=
      ih (group.add sample.predictionError)
    refine ⟨hname.trans hadd.1, ?_, ?_, ?_, ?_, hkept.trans hadd.2.2.2⟩
    · rw [List.foldl_cons, hsamples, hadd.2.1, List.length_cons]
      omega
    · rw [List.foldl_cons, htotal, hadd.2.2.1, List.map_cons, List.sum_cons]
      exact add_assoc _ _ _
    · rw [List.foldl_cons, hcacheSamples]
      cases herror : sample.cacheError with
      | none =>
        rw [List.filterMap_cons_none herror, add_without_cache herror]
      | some error =>
        rw [List.filterMap_cons_some herror, (add_cache herror).1, List.length_cons]
        omega
    · rw [List.foldl_cons, hcacheTotal]
      cases herror : sample.cacheError with
      | none =>
        rw [List.filterMap_cons_none herror, add_without_cache herror]
      | some error =>
        rw [List.filterMap_cons_some herror, (add_cache herror).2, List.sum_cons]
        exact add_assoc _ _ _

/-! ## Reports -/

section

variable (sloMS : K) (samples : List (Sample K)) (name : String)

/-- The bucket of a name in the report. -/
def reportedBucket : SLOCalibrationBucket K :=
  let bucket := (QualityTally.bucketsOf sloMS ∅ samples).index name (.new name)
  { bucket with
    predictedProbability := bucket.predictedProbabilityTotal / ofInt bucket.samples
    actualViolationRate := ofInt bucket.actualViolations / ofInt bucket.samples
    predictedProbabilityTotal := ofInt 0 }

/-- The group of a quality in the report. -/
def reportedGroup : EvidenceQualityError K :=
  let group := (QualityTally.evidenceOf ∅ samples).index name (.new name)
  { group with
    maeMS := group.absoluteErrorTotal / ofInt group.samples
    cacheHitMAE :=
      if 0 < group.cacheSamples then group.cacheErrorTotal / ofInt group.cacheSamples
      else ofInt 0
    absoluteErrorTotal := ofInt 0
    cacheErrorTotal := ofInt 0 }

omit [IsStrictOrderedRing K] in
/-- The bucket of a name at the end of the pass. -/
theorem index_bucketsOf :
    let bucket := (QualityTally.bucketsOf sloMS ∅ samples).index name (.new name)
    bucket.bucket = name ∧ bucket.samples = (group Sample.bucket samples name).length ∧
      bucket.predictedProbabilityTotal =
        ((group Sample.bucket samples name).map Sample.probability).sum ∧
      bucket.actualViolations ≤ bucket.samples := by
  intro bucket
  have hindex : bucket = (group Sample.bucket samples name).foldl (fun bucket sample =>
      bucket.add sloMS sample.probability sample.outcome) (.new name) := index_tally samples name
  obtain ⟨hname, hsamples, htotal, hviolations⟩ := SLOCalibrationBucket.foldl_add sloMS
    (.new name) (group Sample.bucket samples name)
  rw [← hindex] at hname hsamples htotal hviolations
  refine ⟨hname, hsamples.trans (Nat.zero_add _), ?_, ?_⟩
  · rw [htotal]
    show ((0 : Int) : K) + _ = _
    rw [Int.cast_zero, zero_add]
  · rw [hsamples]
    exact hviolations

omit [IsStrictOrderedRing K] in
/-- The group of a quality at the end of the pass. -/
theorem index_evidenceOf :
    let group' := (QualityTally.evidenceOf ∅ samples).index name (.new name)
    group'.evidenceQuality = name ∧
      group'.samples = (group Sample.quality samples name).length ∧
      group'.absoluteErrorTotal =
        ((group Sample.quality samples name).map Sample.absolute).sum ∧
      group'.cacheSamples =
        ((group Sample.quality samples name).filterMap Sample.cacheError).length ∧
      group'.cacheErrorTotal =
        ((group Sample.quality samples name).filterMap Sample.cacheError).sum ∧
      group'.cacheHitMAE = ofInt 0 := by
  intro group'
  have hindex : group' = (group Sample.quality samples name).foldl (fun group sample =>
      group.add sample.predictionError) (.new name) := index_tally samples name
  obtain ⟨hname, hsamples, htotal, hcacheSamples, hcacheTotal, hkept⟩ :=
    EvidenceQualityError.foldl_add (.new name) (group Sample.quality samples name)
  rw [← hindex] at hname hsamples htotal hcacheSamples hcacheTotal hkept
  have hzero (x : K) : ((0 : Int) : K) + x = x := by rw [Int.cast_zero, zero_add]
  exact ⟨hname, hsamples.trans (Nat.zero_add _), htotal.trans (hzero _),
    hcacheSamples.trans (Nat.zero_add _), hcacheTotal.trans (hzero _), hkept⟩

omit [IsStrictOrderedRing K] in
theorem reportedBucket_eq :
    (reportedBucket sloMS samples name).bucket = name ∧
      (reportedBucket sloMS samples name).samples = (group Sample.bucket samples name).length ∧
      (reportedBucket sloMS samples name).predictedProbability =
        ((group Sample.bucket samples name).map Sample.probability).sum /
          (group Sample.bucket samples name).length := by
  obtain ⟨hname, hsamples, htotal, -⟩ := index_bucketsOf sloMS samples name
  refine ⟨hname, hsamples, ?_⟩
  show SLOCalibrationBucket.predictedProbabilityTotal _ /
    ((SLOCalibrationBucket.samples _ : Int) : K) = _
  rw [htotal, hsamples, Int.cast_natCast]

theorem reportedBucket_rate :
    0 ≤ (reportedBucket sloMS samples name).actualViolationRate ∧
      (reportedBucket sloMS samples name).actualViolationRate ≤ 1 := by
  obtain ⟨-, -, -, hle⟩ := index_bucketsOf sloMS samples name
  unfold reportedBucket
  set bucket := (QualityTally.bucketsOf sloMS ∅ samples).index name (.new name)
  show 0 ≤ ((bucket.actualViolations : Int) : K) / ((bucket.samples : Int) : K) ∧
    ((bucket.actualViolations : Int) : K) / ((bucket.samples : Int) : K) ≤ 1
  rw [Int.cast_natCast, Int.cast_natCast]
  exact ⟨div_nonneg (Nat.cast_nonneg _) (Nat.cast_nonneg _),
    div_le_one_of_le₀ (Nat.cast_le.mpr hle) (Nat.cast_nonneg _)⟩

omit [IsStrictOrderedRing K] in
theorem reportedGroup_eq :
    (reportedGroup samples name).evidenceQuality = name ∧
      (reportedGroup samples name).samples = (group Sample.quality samples name).length ∧
      (reportedGroup samples name).maeMS =
        ((group Sample.quality samples name).map Sample.absolute).sum /
          (group Sample.quality samples name).length := by
  obtain ⟨hname, hsamples, htotal, -⟩ := index_evidenceOf samples name
  refine ⟨hname, hsamples, ?_⟩
  show EvidenceQualityError.absoluteErrorTotal _ /
    ((EvidenceQualityError.samples _ : Int) : K) = _
  rw [htotal, hsamples, Int.cast_natCast]

/-- The cache errors of a group: how many there are, and their mean. -/
theorem reportedGroup_cache :
    let errors := (group Sample.quality samples name).filterMap Sample.cacheError
    (reportedGroup samples name).cacheSamples = errors.length ∧
      ((reportedGroup samples name).cacheSamples : K) * (reportedGroup samples name).cacheHitMAE =
        errors.sum ∧
      ((reportedGroup samples name).cacheSamples = 0 →
        (reportedGroup samples name).cacheHitMAE = 0) := by
  intro errors
  obtain ⟨-, -, -, hcount, htotal, -⟩ := index_evidenceOf samples name
  have hcount : (reportedGroup samples name).cacheSamples = errors.length := hcount
  have hmean : (reportedGroup samples name).cacheHitMAE =
      if 0 < (reportedGroup samples name).cacheSamples then
        errors.sum / (errors.length : K) else 0 := by
    unfold reportedGroup at hcount ⊢
    dsimp only at hcount ⊢
    rw [htotal, hcount]
    show (if _ then _ / ((errors.length : Int) : K) else ((0 : Int) : K)) = _
    rw [Int.cast_natCast, Int.cast_zero]
  refine ⟨hcount, ?_, fun hzero => by rw [hmean, hzero, if_neg (lt_irrefl 0)]⟩
  rw [hmean]
  split
  · rename_i hpos
    rw [hcount] at hpos ⊢
    exact mul_div_cancel₀ _ (by exact_mod_cast hpos.ne')
  · rename_i hnone
    rw [hcount] at hnone ⊢
    have hnil : errors = [] := List.eq_nil_of_length_eq_zero (by omega)
    rw [hnil, mul_zero, List.sum_nil]

omit [IsStrictOrderedRing K] in
/-- A bucket with samples has its means. -/
theorem close_bucket (hne : group Sample.bucket samples name ≠ []) :
    ((QualityTally.bucketsOf sloMS ∅ samples).index name (.new name)).close =
      some (reportedBucket sloMS samples name) := by
  obtain ⟨-, hsamples, -⟩ := index_bucketsOf sloMS samples name
  have hpos := hsamples.symm ▸ List.length_pos_of_ne_nil hne
  unfold SLOCalibrationBucket.close reportedBucket
  rw [dividedBy_of_pos hpos, dividedBy_of_pos hpos]
  rfl

omit [IsStrictOrderedRing K] in
/-- A group with samples has its means; it divides by the number of cache errors if there are any. -/
theorem close_group (hne : group Sample.quality samples name ≠ []) :
    ((QualityTally.evidenceOf ∅ samples).index name (.new name)).close =
      some (reportedGroup samples name) := by
  obtain ⟨-, hsamples, -, -, -, hkept⟩ := index_evidenceOf samples name
  have hpos := hsamples.symm ▸ List.length_pos_of_ne_nil hne
  unfold EvidenceQualityError.close reportedGroup
  rw [dividedBy_of_pos hpos, hkept]
  dsimp only
  split
  · rename_i hcache
    rw [dividedBy_of_pos hcache]
    rfl
  · rfl

end

/-- The percentile of numbers between two bounds is between the bounds; no index is out of range. -/
theorem percentileFloat_bounds [FloorRing K] [Rounding K] [Rounding.Lawful K] {values : List K}
    (hne : values ≠ []) {percentile : K} (hp : 0 ≤ percentile ∧ percentile ≤ 1) {low high : K}
    (hbounds : ∀ value ∈ values, low ≤ value ∧ value ≤ high) :
    ∃ value, percentileFloat values percentile = some value ∧ low ≤ value ∧ value ≤ high := by
  have hlength : (sortFloat64s values).length = values.length := (sortFloat64s_perm values).length_eq
  have hpos : 0 < values.length := List.length_pos_of_ne_nil hne
  have hitem : ∀ i : Int, 0 ≤ i → i < values.length →
      ∃ value, (if i < 0 then none else (sortFloat64s values)[i.toNat]?) = some value ∧
        low ≤ value ∧ value ≤ high := by
    intro i hlow hhigh
    have hi : i.toNat < (sortFloat64s values).length := by omega
    rw [if_neg (by omega), List.getElem?_eq_getElem hi]
    exact ⟨_, rfl, hbounds _ (mem_sortFloat64s.mp (List.getElem_mem hi))⟩
  unfold percentileFloat
  dsimp only
  rw [hlength]
  split
  · rename_i hone
    exact hitem 0 le_rfl (by omega)
  have hcast : ofInt ((values.length : Int) - 1) = (((values.length : Int) - 1 : Int) : K) := rfl
  set position := percentile * ofInt ((values.length : Int) - 1) with hposition
  have hlast : (0 : K) ≤ (((values.length : Int) - 1 : Int) : K) := by
    exact_mod_cast (by omega : (0 : Int) ≤ (values.length : Int) - 1)
  have hnonneg : 0 ≤ position := by
    rw [hposition, hcast]
    exact mul_nonneg hp.1 hlast
  have hle : position ≤ (((values.length : Int) - 1 : Int) : K) := by
    rw [hposition, hcast]
    exact mul_le_of_le_one_left hlast hp.2
  rw [Rounding.Lawful.floor_eq, Rounding.Lawful.ceil_eq]
  have hfloor : 0 ≤ ⌊position⌋ := Int.floor_nonneg.mpr hnonneg
  have hceil : ⌈position⌉ ≤ (values.length : Int) - 1 := Int.ceil_le.mpr hle
  have horder : ⌊position⌋ ≤ ⌈position⌉ := Int.floor_le_ceil position
  obtain ⟨a, ha, haBounds⟩ := hitem ⌊position⌋ hfloor (by omega)
  obtain ⟨b, hb, hbBounds⟩ := hitem ⌈position⌉ (by omega) (by omega)
  split
  · exact ⟨a, ha, haBounds⟩
  · rw [ha, hb]
    refine ⟨_, rfl, interpolation_bounds haBounds hbBounds ⟨?_, ?_⟩⟩
    · exact sub_nonneg.mpr (Int.floor_le position)
    · have hlt : position < ⌊position⌋ + 1 := Int.lt_floor_add_one position
      exact (sub_lt_iff_lt_add'.mpr hlt).le

/-- A function that fails on no entry. -/
theorem mapM_eq_some {α β : Type} {f : α → Option β} {g : α → β} :
    ∀ {entries : List α}, (∀ entry ∈ entries, f entry = some (g entry)) →
      entries.mapM f = some (entries.map g)
  | [], _ => rfl
  | entry :: entries, h => by
    rw [List.mapM_cons, h entry List.mem_cons_self,
      mapM_eq_some fun entry hentry => h entry (List.mem_cons_of_mem _ hentry)]
    rfl

section

variable (sloMS : K) (samples : List (Sample K))

/-- The buckets of the report. -/
def reportedBuckets : List (SLOCalibrationBucket K) :=
  (sortStrings (QualityTally.bucketsOf sloMS ∅ samples).keys).map (reportedBucket sloMS samples)

/-- The groups of a report, sorted by their quality. -/
def reportedGroups : List (EvidenceQualityError K) :=
  (sortStrings (QualityTally.evidenceOf ∅ samples).keys).map (reportedGroup samples)

omit [IsStrictOrderedRing K] in
theorem bucketNames_nodup : (sortStrings (QualityTally.bucketsOf sloMS ∅ samples).keys).Nodup :=
  sortStrings_nodup (QualityTally.bucketsOf sloMS ∅ samples).nodupKeys

omit [IsStrictOrderedRing K] in
theorem evidenceNames_nodup : (sortStrings (QualityTally.evidenceOf ∅ samples).keys).Nodup :=
  sortStrings_nodup (QualityTally.evidenceOf ∅ samples).nodupKeys

variable {sloMS samples}

omit [IsStrictOrderedRing K] in
theorem mem_bucketNames {name : String} :
    name ∈ sortStrings (QualityTally.bucketsOf sloMS ∅ samples).keys ↔
      name ∈ samples.map Sample.bucket := by
  rw [mem_sortStrings]
  exact mem_keys_tally

omit [IsStrictOrderedRing K] in
theorem mem_evidenceNames {name : String} :
    name ∈ sortStrings (QualityTally.evidenceOf ∅ samples).keys ↔
      name ∈ samples.map Sample.quality := by
  rw [mem_sortStrings]
  exact mem_keys_tally

omit [IsStrictOrderedRing K] in
theorem reportedBuckets_sum :
    ((reportedBuckets sloMS samples).map (·.samples)).sum = samples.length := by
  rw [← length_groups Sample.bucket (bucketNames_nodup sloMS samples)
    fun sample hsample => mem_bucketNames.mpr (List.mem_map_of_mem hsample)]
  unfold reportedBuckets
  rw [List.map_map]
  exact congrArg List.sum (List.map_congr_left fun name _ => (reportedBucket_eq sloMS samples name).2.1)

omit [IsStrictOrderedRing K] in
theorem reportedGroups_sum :
    ((reportedGroups samples).map (·.samples)).sum = samples.length := by
  rw [← length_groups Sample.quality (evidenceNames_nodup samples)
    fun sample hsample => mem_evidenceNames.mpr (List.mem_map_of_mem hsample)]
  unfold reportedGroups
  rw [List.map_map]
  exact congrArg List.sum (List.map_congr_left fun name _ => (reportedGroup_eq samples name).2.1)

omit [IsStrictOrderedRing K] in
theorem reportedBuckets_countP {sample : Sample K} (h : sample ∈ samples) :
    (reportedBuckets sloMS samples).countP (fun bucket => bucket.bucket = sample.bucket) = 1 :=
  countP_name (bucketNames_nodup sloMS samples)
    (fun name => (reportedBucket_eq sloMS samples name).1)
    (mem_bucketNames.mpr (List.mem_map_of_mem h))

omit [IsStrictOrderedRing K] in
theorem reportedGroups_countP {sample : Sample K} (h : sample ∈ samples) :
    (reportedGroups samples).countP (fun group => group.evidenceQuality = sample.quality) = 1 :=
  countP_name (evidenceNames_nodup samples)
    (fun name => (reportedGroup_eq samples name).1)
    (mem_evidenceNames.mpr (List.mem_map_of_mem h))

omit [IsStrictOrderedRing K] in
theorem reportedBuckets_samples {bucket : SLOCalibrationBucket K}
    (h : bucket ∈ reportedBuckets sloMS samples) :
    0 < bucket.samples ∧
      bucket.samples = samples.countP fun sample => sample.bucket = bucket.bucket := by
  obtain ⟨name, hname, rfl⟩ := List.mem_map.mp h
  obtain ⟨hbucket, hsamples, -⟩ := reportedBucket_eq sloMS samples name
  rw [hbucket, hsamples]
  exact ⟨List.length_pos_of_ne_nil (group_ne_nil Sample.bucket (mem_bucketNames.mp hname)),
    length_group Sample.bucket samples name⟩

omit [IsStrictOrderedRing K] in
theorem reportedGroups_samples {group : EvidenceQualityError K}
    (h : group ∈ reportedGroups samples) :
    0 < group.samples ∧
      group.samples = samples.countP fun sample => sample.quality = group.evidenceQuality := by
  obtain ⟨name, hname, rfl⟩ := List.mem_map.mp h
  obtain ⟨hgroup, hsamples, -⟩ := reportedGroup_eq samples name
  rw [hgroup, hsamples]
  exact ⟨List.length_pos_of_ne_nil (group_ne_nil Sample.quality (mem_evidenceNames.mp hname)),
    length_group Sample.quality samples name⟩

/-- The probability of a bucket is within the bounds of its samples. -/
theorem reportedBuckets_probability
    (hprobability : ∀ sample ∈ samples, 0 ≤ sample.probability ∧ sample.probability ≤ 1)
    {bucket : SLOCalibrationBucket K} (h : bucket ∈ reportedBuckets sloMS samples) :
    0 ≤ bucket.predictedProbability ∧ bucket.predictedProbability ≤ 1 := by
  obtain ⟨name, hname, rfl⟩ := List.mem_map.mp h
  have hne := group_ne_nil Sample.bucket (mem_bucketNames.mp hname)
  have hbounds : ∀ value ∈ (group Sample.bucket samples name).map Sample.probability,
      0 ≤ value ∧ value ≤ 1 := by
    intro value hvalue
    obtain ⟨sample, hsample, rfl⟩ := List.mem_map.mp hvalue
    exact hprobability sample ((mem_group Sample.bucket).mp hsample).1
  have hmean := mean_bounds (fun hnil => hne (List.map_eq_nil_iff.mp hnil)) hbounds
  rw [List.length_map] at hmean
  rw [(reportedBucket_eq sloMS samples name).2.2]
  exact hmean

theorem reportedGroups_cache {group : EvidenceQualityError K} (h : group ∈ reportedGroups samples) :
    let errors := (samples.filter fun sample => sample.quality = group.evidenceQuality).filterMap
      Sample.cacheError
    group.cacheSamples = errors.length ∧ (group.cacheSamples : K) * group.cacheHitMAE = errors.sum ∧
      (group.cacheSamples = 0 → group.cacheHitMAE = 0) := by
  obtain ⟨name, -, rfl⟩ := List.mem_map.mp h
  rw [(reportedGroup_eq samples name).1]
  exact reportedGroup_cache samples name

omit [IsStrictOrderedRing K] in
theorem close_buckets :
    ((sortStrings (QualityTally.bucketsOf sloMS ∅ samples).keys).mapM fun name =>
      ((QualityTally.bucketsOf sloMS ∅ samples).index name (.new name)).close) =
      some (reportedBuckets sloMS samples) :=
  mapM_eq_some fun name hname =>
    close_bucket sloMS samples name (group_ne_nil Sample.bucket (mem_bucketNames.mp hname))

omit [IsStrictOrderedRing K] in
theorem close_groups :
    ((sortStrings (QualityTally.evidenceOf ∅ samples).keys).mapM fun name =>
      ((QualityTally.evidenceOf ∅ samples).index name (.new name)).close) =
      some (reportedGroups samples) :=
  mapM_eq_some fun name hname =>
    close_group samples name (group_ne_nil Sample.quality (mem_evidenceNames.mp hname))

/-- The groups' means, each as often as it has samples, add up to the errors. -/
theorem reportedGroups_weighted :
    ((reportedGroups samples).map fun group => (group.samples : K) * group.maeMS).sum =
      (samples.map Sample.absolute).sum := by
  rw [← sum_groups Sample.quality Sample.absolute (evidenceNames_nodup samples)
    fun sample hsample => mem_evidenceNames.mpr (List.mem_map_of_mem hsample)]
  unfold reportedGroups
  rw [List.map_map]
  refine congrArg List.sum (List.map_congr_left fun name hname => ?_)
  obtain ⟨-, hsamples, hmean⟩ := reportedGroup_eq samples name
  rw [Function.comp_apply, hsamples, hmean]
  refine mul_div_cancel₀ _ ?_
  have hpos := List.length_pos_of_ne_nil (group_ne_nil Sample.quality (mem_evidenceNames.mp hname))
  exact_mod_cast hpos.ne'

end

/-! ## The errors -/

/-- The mean of the signed errors is not larger than that of the absolute ones. -/
theorem abs_mean_le {samples : List (Sample K)}
    (habs : ∀ sample ∈ samples, sample.absolute = |sample.signed|) :
    |(samples.map Sample.signed).sum / samples.length| ≤
      (samples.map Sample.absolute).sum / samples.length := by
  have hmap : samples.map Sample.absolute = (samples.map Sample.signed).map (|·|) := by
    rw [List.map_map]
    exact List.map_congr_left habs
  rw [abs_div, Nat.abs_cast, hmap]
  exact div_le_div_of_nonneg_right (abs_sum_le _) (Nat.cast_nonneg _)

omit [Field K] [IsStrictOrderedRing K] [Float64.Exact K] in
theorem exists_extremes {values : List K} (hne : values ≠ []) :
    ∃ smallest ∈ values, ∃ largest ∈ values,
      ∀ value ∈ values, smallest ≤ value ∧ value ≤ largest := by
  have hnonempty : values.toFinset.Nonempty := by
    obtain ⟨value, hvalue⟩ := List.exists_mem_of_ne_nil values hne
    exact ⟨value, List.mem_toFinset.mpr hvalue⟩
  obtain ⟨smallest, hsmallest, hmin⟩ := Finset.exists_min_image values.toFinset id hnonempty
  obtain ⟨largest, hlargest, hmax⟩ := Finset.exists_max_image values.toFinset id hnonempty
  exact ⟨smallest, List.mem_toFinset.mp hsmallest, largest, List.mem_toFinset.mp hlargest,
    fun value hvalue => ⟨hmin value (List.mem_toFinset.mpr hvalue),
      hmax value (List.mem_toFinset.mpr hvalue)⟩⟩

/-! ## The report -/

omit [IsStrictOrderedRing K] in
theorem foldl_add_ofInt (values : List K) : values.foldl (· + ·) (ofInt 0) = values.sum := by
  have hzero : (ofInt 0 : K) = 0 := Int.cast_zero
  rw [hzero, List.sum_eq_foldl]

theorem ninetyFive_bounds : 0 ≤ (ofInt 95 / ofInt 100 : K) ∧ (ofInt 95 / ofInt 100 : K) ≤ 1 := by
  show 0 ≤ ((95 : Int) : K) / ((100 : Int) : K) ∧ ((95 : Int) : K) / ((100 : Int) : K) ≤ 1
  constructor
  · positivity
  · rw [div_le_one (by positivity)]
    norm_num

theorem addsUp_nil : PredictionQuality.AddsUp
    { samples := ([] : List (Sample K)).length
      maeMS := ofInt 0
      p95AbsoluteErrorMS := ofInt 0
      meanSignedErrorMS := ofInt 0
      status := "insufficient_evidence"
      sloCalibration := []
      evidence := [] } ([] : List (Sample K)) where
  samples_eq := rfl
  buckets := rfl
  groups := rfl
  bucket sample hsample := absurd hsample List.not_mem_nil
  bucket_samples bucket hbucket := absurd hbucket List.not_mem_nil
  group sample hsample := absurd hsample List.not_mem_nil
  group_samples group hgroup := absurd hgroup List.not_mem_nil
  cache group hgroup := absurd hgroup List.not_mem_nil
  signed_le := by
    show |((0 : Int) : K)| ≤ ((0 : Int) : K)
    rw [Int.cast_zero, abs_zero]
  bounds hne := absurd rfl hne
  weighted := by
    show ((0 : Int) : K) = 0 / ((0 : Nat) : K)
    rw [Int.cast_zero, zero_div]
  rates bucket hbucket := absurd hbucket List.not_mem_nil
  probabilities _ bucket hbucket := absurd hbucket List.not_mem_nil

section

variable [FloorRing K] [Rounding K] [Rounding.Lawful K]

/-- **The report adds up** after a pass over any samples whose errors are absolute. -/
theorem report_addsUp (sloMS : K) {samples : List (Sample K)}
    (habs : ∀ sample ∈ samples, sample.absolute = |sample.signed|) :
    ∃ quality, QualityTally.report
        { errors := samples.map Sample.absolute
          signedTotal := (samples.map Sample.signed).foldl (· + ·) (ofInt 0)
          buckets := QualityTally.bucketsOf sloMS ∅ samples
          evidence := QualityTally.evidenceOf ∅ samples } = some quality ∧
      quality.AddsUp samples := by
  unfold QualityTally.report
  dsimp only
  rw [List.length_map]
  by_cases hlength : samples.length = 0
  · obtain rfl := List.eq_nil_of_length_eq_zero hlength
    exact ⟨_, if_pos rfl, addsUp_nil⟩
  have hne : samples ≠ [] := fun hnil => hlength (List.length_eq_zero_iff.mpr hnil)
  have herrors : samples.map Sample.absolute ≠ [] := fun hnil => hne (List.map_eq_nil_iff.mp hnil)
  obtain ⟨smallest, hsmallest, largest, hlargest, hextremes⟩ := exists_extremes herrors
  obtain ⟨p95, hp95, hp95Bounds⟩ := percentileFloat_bounds herrors
    ninetyFive_bounds hextremes
  have hpos : 0 < samples.length := List.length_pos_of_ne_nil hne
  rw [if_neg hlength, hp95, dividedBy_of_pos hpos, dividedBy_of_pos hpos, close_buckets,
    close_groups]
  have hmean := mean_bounds herrors hextremes
  rw [List.length_map] at hmean
  have hmae : (samples.map Sample.absolute).foldl (· + ·) (ofInt 0) / ofInt samples.length =
      (samples.map Sample.absolute).sum / samples.length := by
    rw [foldl_add_ofInt]
    exact congrArg _ (Int.cast_natCast samples.length)
  have hsigned : (samples.map Sample.signed).foldl (· + ·) (ofInt 0) / ofInt samples.length =
      (samples.map Sample.signed).sum / samples.length := by
    rw [foldl_add_ofInt]
    exact congrArg _ (Int.cast_natCast samples.length)
  refine ⟨_, rfl, ?_⟩
  rw [hmae, hsigned]
  exact
    { samples_eq := rfl
      buckets := reportedBuckets_sum
      groups := reportedGroups_sum
      bucket := fun _ hsample => reportedBuckets_countP hsample
      bucket_samples := fun _ hbucket => reportedBuckets_samples hbucket
      group := fun _ hsample => reportedGroups_countP hsample
      group_samples := fun _ hgroup => reportedGroups_samples hgroup
      cache := fun _ hgroup => reportedGroups_cache hgroup
      signed_le := abs_mean_le habs
      bounds := fun _ => ⟨smallest, hsmallest, largest, hlargest,
        fun sample hsample => hextremes _ (List.mem_map_of_mem hsample), hmean.2, hp95Bounds⟩
      weighted := (congrArg (· / (samples.length : K)) reportedGroups_weighted).symm
      rates := by
        intro bucket hbucket
        obtain ⟨name, -, rfl⟩ := List.mem_map.mp hbucket
        exact reportedBucket_rate sloMS samples name
      probabilities := fun hprobability _ hbucket =>
        reportedBuckets_probability hprobability hbucket }

variable [FloatText K]

/-- **Prediction quality adds up** in every ledger that `Record` and `RecordOutcome` reach, for every
limit and objective. -/
theorem prediction_quality_adds_up {s : LedgerState K} (hs : qualityRuns.Reach s) (limit : Int)
    (sloMS : K) :
    ∃ quality, s.ledger.predictionQuality limit sloMS = some quality ∧
      quality.AddsUp (s.ledger.samples limit) := by
  have habs : ∀ sample ∈ s.ledger.samples limit, sample.absolute = |sample.signed| := by
    intro sample hsample
    rw [DecisionLedger.samples_absolute (qualityRuns_absolute.reach hs) limit sample hsample]
    exact Float64.ordered_abs _ _ _
  obtain ⟨quality, hquality, hadds⟩ := report_addsUp sloMS habs
  refine ⟨quality, ?_, hadds⟩
  unfold DecisionLedger.predictionQuality
  rw [QualityTally.foldl_add]
  exact hquality

end

namespace QualitySample

local instance : Float64.Exact Rat := ⟨fun _ => 1, fun x => (x + 1 / 2).floor⟩

local instance : Rounding Rat := ⟨Int.floor, Int.ceil, fun x => x⟩

local instance : Rounding.Lawful Rat := ⟨fun _ => rfl, fun _ => rfl⟩

attribute [local instance] integerText

def decision (requestID evidenceQuality : String) : Decision Rat :=
  { Decision.zero with
    requestID
    selected := "gpu"
    candidates := .of
      [{ Candidate.zero with
          backendID := "gpu"
          predictedTTFTMS := 100
          sloViolationProbability := 1 / 4
          evidenceQuality }] }

def served (requestID : String) (ttftMS : Rat) (observedCacheHitRatio : Option Rat) :
    DecisionOutcome Rat :=
  { DecisionOutcome.zero with
    requestID
    actualBackend := "gpu"
    ttftMS
    success := true
    statusCode := 200
    observedCacheHitRatio
    completedAt := 100000000000 }

/-- The ledger after a request that was decided and served. -/
def serve (s : LedgerState Rat) (requestID evidenceQuality : String) (ttftMS : Rat)
    (hitRatio : Option Rat) : LedgerState Rat :=
  let recorded := s.ledger.record s.directory 0 .notOpened (decision requestID evidenceQuality)
  let completed :=
    recorded.1.recordOutcome recorded.2 0 .notOpened (served requestID ttftMS hitRatio)
  { ledger := completed.1, directory := completed.2 }

def start : LedgerState Rat := { ledger := .new 8 false, directory := ∅ }

theorem reach_serve {s : LedgerState Rat} (hs : qualityRuns.Reach s)
    (requestID evidenceQuality : String) (ttftMS : Rat) (hitRatio : Option Rat) :
    qualityRuns.Reach (serve s requestID evidenceQuality ttftMS hitRatio) := by
  have hrecorded : qualityRuns.Reach
      (let recorded := s.ledger.record s.directory 0 .notOpened (decision requestID evidenceQuality)
      ({ ledger := recorded.1, directory := recorded.2 } : LedgerState Rat)) :=
    .step (i := .record (decision requestID evidenceQuality) 0 .notOpened) hs ⟨rfl, rfl⟩
  exact .step (i := .recordOutcome (served requestID ttftMS hitRatio) 0 .notOpened) hrecorded rfl

/-- Three requests that took longer than predicted; the cache hits of one of them were observed. -/
def three : LedgerState Rat :=
  serve (serve (serve start "a" "strict" 110 (some (1 / 2))) "b" "strict" 130 none)
    "c" "estimated" 160 none

theorem reach_three : qualityRuns.Reach three :=
  reach_serve (reach_serve (reach_serve (.init ⟨8, false, rfl⟩) "a" "strict" 110 (some (1 / 2)))
    "b" "strict" 130 none) "c" "estimated" 160 none

theorem prediction_quality_of_three :
    ∃ quality, three.ledger.predictionQuality 10 120 = some quality ∧
      quality.AddsUp (three.ledger.samples 10) :=
  prediction_quality_adds_up reach_three 10 120

example : (three.ledger.predictionQuality 10 120).map
    (fun quality => (quality.samples, quality.p95AbsoluteErrorMS, quality.status)) =
      some (3, 57, "drifting") := by
  decide +kernel

example : (three.ledger.predictionQuality 10 120).map (fun quality =>
    quality.evidence.map fun group =>
      (group.evidenceQuality, group.cacheSamples, group.cacheHitMAE)) =
    some [("estimated", 0, 0), ("strict", 1, 1 / 2)] := by
  decide +kernel

end QualitySample

end Kavora.Ledger
