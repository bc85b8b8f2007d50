import Kavora.Lib.Admission
import Kavora.WorkloadReplay.Simulator

/-!
# The concurrency of a simulated replay

A request that finds `MaxConcurrency` requests active is admitted when the first of them ends, and
all that end then are dropped. The clock goes on from the arrival of the request, so the next one
can arrive before that time; if two were dropped it is admitted at once, while `MaxConcurrency`
requests run.

* `Tied`: two of the active requests end when a request is admitted.
* `Simulation.step_bounded`: what one iteration keeps.
* `schedule_running_iff`: the requests that run are at most `MaxConcurrency` just if after each tie
  the next request does not arrive before the admission (`Untied`).
-/

namespace Kavora.WorkloadReplay

open Lib Lib.Admission
open Lib.Go (Float64 sortFloat64s)
open Lib.Go.Float64 (ofInt Exact)

variable {K : Type} [Field K] [LinearOrder K] [Exact K]

attribute [local instance] Exact.float64

/-! ## Accepted traces -/

/-- What the checks of a trace say of the numbers of a request. -/
structure Signature.Accepted (signature : Signature K) : Prop where
  outputTokens : 0 ≤ signature.outputTokens
  sharedPrefixTokens : 0 ≤ signature.sharedPrefixTokens
  shared_le : signature.sharedPrefixTokens ≤ signature.promptTokens
  arrivalDeltaMS : 0 ≤ signature.arrivalDeltaMS

theorem Signature.accepted_of_check {signature : Signature K} (h : signature.check = none) :
    signature.Accepted := by
  unfold Signature.check at h
  split at h
  · cases h
  rename_i htokens
  split at h
  · cases h
  split at h
  · cases h
  rename_i hdelta
  simp only [not_or, Int64.not_lt] at htokens hdelta
  refine ⟨htokens.2.1, htokens.2.2.1, htokens.2.2.2, ?_⟩
  have hnonneg : ¬ signature.arrivalDeltaMS < ((0 : Int) : K) := fun hlt =>
    hdelta.2.2 (decide_eq_true hlt)
  rwa [Int.cast_zero, not_lt] at hnonneg

theorem readLines_accepted {decode : Bytes → Except String (Signature K)} {line : Nat}
    {pieces : List Bytes} {trace : List (Signature K)}
    (h : readLines decode line pieces = .ok trace) : ∀ signature ∈ trace, signature.Accepted := by
  induction pieces generalizing line trace with
  | nil =>
    cases h
    exact nofun
  | cons piece pieces ih =>
    rw [readLines] at h
    split at h
    · cases h
    split at h
    · cases h
    split at h
    · cases h
    rename_i hcheck
    cases hrest : readLines decode (line + 1) pieces with
    | error err =>
      rw [hrest] at h
      cases h
    | ok rest =>
      rw [hrest] at h
      cases h
      rw [List.forall_mem_cons]
      exact ⟨Signature.accepted_of_check hcheck, ih hrest⟩

theorem readTrace_accepted {decode : Bytes → Except String (Signature K)} {content : Bytes}
    {trace : List (Signature K)} (h : readTrace decode content = .ok trace) :
    trace ≠ [] ∧ ∀ signature ∈ trace, signature.Accepted := by
  unfold readTrace at h
  split at h
  · cases h
  rename_i hlines
  split at h
  · cases h
  rename_i hlength
  cases h
  exact ⟨fun hnil => hlength (by rw [hnil]; rfl), readLines_accepted hlines⟩

/-! ## One request -/

/-- `MaxConcurrency` as a natural number. -/
def ValidConfig.slots (config : ValidConfig K) : Nat := config.maxConcurrency.toInt.toNat

namespace Simulation

variable {n : Nat} [NeZero n]

/-- Two of the active requests end when a request is admitted. -/
def Tied (config : Config K) (s : Simulation K n) (signature : Signature K) : Prop :=
  2 ≤ (retainAfter s.activeFinishes (s.arrival signature)).countP fun finish =>
    Float64.eq finish (s.admission config signature).1

theorem retainAfter_eq (values : List K) (timestamp : K) :
    retainAfter values timestamp = values.filter fun value => timestamp < value := rfl

omit [NeZero n] in
/-- A request is admitted at its arrival, or when the first of the active ones ends. -/
theorem admission_cases (config : ValidConfig K) (s : Simulation K n) (signature : Signature K) :
    let active := retainAfter s.activeFinishes (s.arrival signature)
    (active.length < config.maxConcurrency.toInt ∧
        s.admission config.toConfig signature = (s.arrival signature, active)) ∨
      (config.maxConcurrency.toInt ≤ active.length ∧ ∃ first ∈ active,
        (∀ finish ∈ active, first ≤ finish) ∧
          (s.admission config.toConfig signature).1 = first ∧
          (s.admission config.toConfig signature).2.Perm (retainAfter active first)) := by
  intro active
  unfold admission
  dsimp only
  by_cases hfull : config.maxConcurrency.toInt ≤ active.length
  · have hpos := (validateConfig_ok config.valid).2.1
    rw [Int64.lt_iff_toInt_lt, Int64.toInt_one] at hpos
    have hne : active ≠ [] := by
      rintro hnil
      rw [hnil, List.length_nil] at hfull
      omega
    obtain ⟨hmem, hfirst⟩ := sortFloat64s_head hne (ofInt 0)
    rw [if_pos hfull]
    exact .inr ⟨hfull, _, hmem, hfirst, rfl, (sortFloat64s_perm active).filter _⟩
  · rw [if_neg hfull]
    exact .inl ⟨not_le.mp hfull, rfl⟩

theorem pos_of_not_le {x : K} (h : ¬ Float64.le x (ofInt 0)) : 0 < x := by
  have hnot : ¬ x ≤ ((0 : Int) : K) := fun hle => h ((Float64.ordered_le _ _).mpr hle)
  rwa [Int.cast_zero, not_le] at hnot

omit [NeZero n] in
theorem queue_nonneg (s : Simulation K n) (admission : K) (backend : Fin n) :
    0 ≤ s.queue admission backend := by
  show 0 ≤ if ((0 : Int) : K) < s.backendAvailable[backend] - admission then
    s.backendAvailable[backend] - admission else ((0 : Int) : K)
  split
  · rename_i hlt
    rw [Int.cast_zero] at hlt
    exact hlt.le
  · exact Int.cast_zero.ge

omit [NeZero n] [Exact K] in
theorem uncached_nonneg (s : Simulation K n) {signature : Signature K} (h : signature.Accepted)
    (backend : Fin n) : 0 ≤ (signature.promptTokens - s.cached signature backend).toInt := by
  have hcached : 0 ≤ s.cached signature backend ∧
      s.cached signature backend ≤ signature.promptTokens := by
    unfold cached
    split
    · exact ⟨h.sharedPrefixTokens, h.shared_le⟩
    · exact ⟨Int64.le_refl 0, Int64.le_trans h.sharedPrefixTokens h.shared_le⟩
  have hle := Int64.le_iff_toInt_le.mp hcached.2
  rw [Int64.toInt_sub_of_le _ _ hcached.1 hcached.2]
  exact Int.sub_nonneg.mpr hle

variable [IsStrictOrderedRing K]

/-- A request takes some time after its place in the queue of its backend. -/
theorem queue_lt_span (config : ValidConfig K) (policy : ReplayPolicy) (s : Simulation K n)
    {signature : Signature K} (h : signature.Accepted) :
    let admission := (s.admission config.toConfig signature).1
    admission + s.queue admission (s.route config.toConfig policy signature admission) <
      (s.span config.toConfig policy signature).2 := by
  intro admission
  let backend := s.route config.toConfig policy signature admission
  have hfinish : (s.span config.toConfig policy signature).2 =
      admission + (s.ttft config.toConfig signature admission backend +
        ((signature.outputTokens.toInt : Int) : K) / config.decodeTokensPerSecond *
          ((1000 : Int) : K)) :=
    Vector.getElem_set_self _
  obtain ⟨-, -, hprefill, hdecode⟩ := validateConfig_ok config.valid
  have hprefill := pos_of_not_le hprefill
  have hdecode := pos_of_not_le hdecode
  have huncached : (0 : K) ≤
      (((signature.promptTokens - s.cached signature backend).toInt : Int) : K) :=
    Int.cast_nonneg (s.uncached_nonneg h backend)
  have houtput : (0 : K) ≤ ((signature.outputTokens.toInt : Int) : K) :=
    Int.cast_nonneg (Int64.le_iff_toInt_le.mp h.outputTokens)
  have httft : s.queue admission backend <
      s.ttft config.toConfig signature admission backend := by
    have hprefilling : 0 ≤ (((signature.promptTokens - s.cached signature backend).toInt : Int) : K)
        / config.prefillTokensPerSecond * ((1000 : Int) : K) := by positivity
    have hoverhead : (0 : K) < ((8 : Int) : K) := by positivity
    exact lt_add_of_lt_of_nonneg (lt_add_of_pos_right _ hoverhead) hprefilling
  have hdecoding : 0 ≤ ((signature.outputTokens.toInt : Int) : K) / config.decodeTokensPerSecond *
      ((1000 : Int) : K) := by positivity
  rw [hfinish]
  exact (add_lt_add_iff_left admission).mpr (lt_add_of_lt_of_nonneg httft hdecoding)

/-- A backend is available again after the admission of its request. -/
theorem span_lt (config : ValidConfig K) (policy : ReplayPolicy) (s : Simulation K n)
    {signature : Signature K} (h : signature.Accepted) :
    (s.span config.toConfig policy signature).1 < (s.span config.toConfig policy signature).2 :=
  lt_of_le_of_lt (le_add_of_nonneg_right (s.queue_nonneg _ _)) (s.queue_lt_span config policy h)

/-- A backend is available again later than before. -/
theorem available_lt (config : ValidConfig K) (policy : ReplayPolicy) (s : Simulation K n)
    {signature : Signature K} (h : signature.Accepted) :
    let admission := (s.admission config.toConfig signature).1
    s.backendAvailable[s.route config.toConfig policy signature admission] <
      (s.span config.toConfig policy signature).2 := by
  intro admission
  let backend := s.route config.toConfig policy signature admission
  refine lt_of_le_of_lt ?_ (s.queue_lt_span config policy h)
  show s.backendAvailable[backend] ≤ admission +
    if ((0 : Int) : K) < s.backendAvailable[backend] - admission then
      s.backendAvailable[backend] - admission else ((0 : Int) : K)
  split
  · rw [add_sub_cancel]
  · rename_i hnot
    rw [Int.cast_zero, sub_pos, not_lt] at hnot
    rw [Int.cast_zero, add_zero]
    exact hnot

/-- At most `max` of the requests so far run at any time, and from a time on the active ones are
those that run. -/
structure Bounded (max : Nat) (spans : List (K × K)) (s : Simulation K n) (start : K) : Prop where
  counts : Counts spans s.activeFinishes start
  slots : s.activeFinishes.length ≤ max
  running_le : ∀ t, running spans t ≤ max

omit [Field K] [Exact K] [NeZero n] [IsStrictOrderedRing K] in
theorem Bounded.mono {max : Nat} {spans : List (K × K)} {s : Simulation K n} {start start' : K}
    (h : Bounded max spans s start) (hle : start ≤ start') : Bounded max spans s start' :=
  ⟨h.counts.mono hle, h.slots, h.running_le⟩

section Step

variable {config : ValidConfig K} {s : Simulation K n} {spans : List (K × K)}
  {signature : Signature K}

omit [IsStrictOrderedRing K] in
/-- A request that finds a free slot. -/
theorem Bounded.step_free (policy : ReplayPolicy)
    (h : Bounded config.slots spans s (s.arrival signature))
    (hfree : (retainAfter s.activeFinishes (s.arrival signature)).length <
      config.maxConcurrency.toInt)
    (hadmission : s.admission config.toConfig signature =
      (s.arrival signature, retainAfter s.activeFinishes (s.arrival signature))) :
    Bounded config.slots (spans ++ [s.span config.toConfig policy signature])
      (s.step config.toConfig policy signature) (s.arrival signature) := by
  have hactive : (s.step config.toConfig policy signature).activeFinishes =
      (s.admission config.toConfig signature).2 ++
        [(s.span config.toConfig policy signature).2] := rfl
  have hspan : s.span config.toConfig policy signature =
      (s.arrival signature, (s.span config.toConfig policy signature).2) :=
    Prod.ext (by rw [← congrArg Prod.fst hadmission]; rfl) rfl
  have hcounts := h.counts.filter.enter (s.span config.toConfig policy signature).2
  rw [hadmission] at hactive
  have hslots : (s.step config.toConfig policy signature).activeFinishes.length ≤
      config.slots := by
    rw [hactive, List.length_append, List.length_singleton]
    dsimp only
    unfold ValidConfig.slots
    omega
  rw [← hspan, ← retainAfter_eq, ← hactive] at hcounts
  refine ⟨hcounts, hslots, ?_⟩
  rw [hspan]
  refine running_concat_le h.running_le (le_refl _) fun t ht => ?_
  rw [← hspan, hcounts t ht]
  exact (later_le_length _ t).trans hslots

/-! ### A request that waits

All slots are taken at its arrival. -/

omit [IsStrictOrderedRing K] [NeZero n] in
/-- Every slot is active. -/
theorem Bounded.full_length (h : Bounded config.slots spans s (s.arrival signature))
    (hfull : config.maxConcurrency.toInt ≤
      (retainAfter s.activeFinishes (s.arrival signature)).length) :
    (retainAfter s.activeFinishes (s.arrival signature)).length = config.slots := by
  have hle : (retainAfter s.activeFinishes (s.arrival signature)).length ≤ config.slots :=
    (List.length_filter_le _ _).trans h.slots
  unfold ValidConfig.slots at hle ⊢
  omega

omit [IsStrictOrderedRing K] [NeZero n] in
theorem tied_iff {first : K} (hadmission : (s.admission config.toConfig signature).1 = first) :
    s.Tied config.toConfig signature ↔
      2 ≤ (retainAfter s.activeFinishes (s.arrival signature)).countP
        fun finish => finish = first := by
  unfold Tied
  rw [hadmission]
  rfl

omit [IsStrictOrderedRing K] in
/-- The next active requests are those after the first, and this one. -/
theorem step_active (policy : ReplayPolicy) {first : K}
    (hperm : (s.admission config.toConfig signature).2.Perm
      (retainAfter (retainAfter s.activeFinishes (s.arrival signature)) first)) :
    (s.step config.toConfig policy signature).activeFinishes.Perm
      (((retainAfter s.activeFinishes (s.arrival signature)).filter
        fun finish => first < finish) ++ [(s.span config.toConfig policy signature).2]) :=
  hperm.append_right [(s.span config.toConfig policy signature).2]

omit [IsStrictOrderedRing K] in
/-- Each request that ends with the first leaves a slot, and this one takes one of them. -/
theorem Bounded.step_length (policy : ReplayPolicy)
    (h : Bounded config.slots spans s (s.arrival signature)) {first : K}
    (hfull : config.maxConcurrency.toInt ≤
      (retainAfter s.activeFinishes (s.arrival signature)).length)
    (hfirst : ∀ finish ∈ retainAfter s.activeFinishes (s.arrival signature), first ≤ finish)
    (hperm : (s.admission config.toConfig signature).2.Perm
      (retainAfter (retainAfter s.activeFinishes (s.arrival signature)) first)) :
    (s.step config.toConfig policy signature).activeFinishes.length +
      (retainAfter s.activeFinishes (s.arrival signature)).countP (fun finish => finish = first) =
        config.slots + 1 := by
  have hcount := length_filter_first hfirst
  rw [(step_active policy hperm).length_eq, List.length_append, List.length_singleton,
    ← h.full_length hfull, ← hcount]
  omega

/-- A request that waits until the first of the active requests ends. -/
theorem Bounded.step_full (policy : ReplayPolicy) (hsignature : signature.Accepted)
    (h : Bounded config.slots spans s (s.arrival signature)) {first : K}
    (hfull : config.maxConcurrency.toInt ≤
      (retainAfter s.activeFinishes (s.arrival signature)).length)
    (hmem : first ∈ retainAfter s.activeFinishes (s.arrival signature))
    (hfirst : ∀ finish ∈ retainAfter s.activeFinishes (s.arrival signature), first ≤ finish)
    (hadmission : (s.admission config.toConfig signature).1 = first)
    (hperm : (s.admission config.toConfig signature).2.Perm
      (retainAfter (retainAfter s.activeFinishes (s.arrival signature)) first)) :
    s.arrival signature < first ∧
      Bounded config.slots (spans ++ [s.span config.toConfig policy signature])
        (s.step config.toConfig policy signature) first ∧
      (¬ s.Tied config.toConfig signature →
        Bounded config.slots (spans ++ [s.span config.toConfig policy signature])
          (s.step config.toConfig policy signature) (s.arrival signature)) ∧
      (s.Tied config.toConfig signature → ∀ t, s.arrival signature ≤ t → t < first →
        running (spans ++ [s.span config.toConfig policy signature]) t = config.slots ∧
          (s.step config.toConfig policy signature).activeFinishes.length < config.slots) := by
  let active := retainAfter s.activeFinishes (s.arrival signature)
  let finish := (s.span config.toConfig policy signature).2
  have hspan : s.span config.toConfig policy signature = (first, finish) :=
    Prod.ext hadmission rfl
  have hwaits : s.arrival signature < first := of_decide_eq_true (List.mem_filter.mp hmem).2
  have hlt : first < finish := by
    have hlt := s.span_lt config policy hsignature
    rwa [hspan] at hlt
  have hcounts : Counts spans active (s.arrival signature) := h.counts.filter
  have hnext : (s.step config.toConfig policy signature).activeFinishes.Perm
      ((active.filter fun finish => first < finish) ++ [finish]) := step_active policy hperm
  have hlength : (s.step config.toConfig policy signature).activeFinishes.length +
      active.countP (fun finish => finish = first) = config.slots + 1 :=
    h.step_length policy hfull hfirst hperm
  have hone : 1 ≤ active.countP fun finish => finish = first :=
    List.countP_pos_iff.mpr ⟨first, hmem, decide_eq_true rfl⟩
  have hslots : (s.step config.toConfig policy signature).activeFinishes.length ≤
      config.slots := by omega
  have hafter : Counts (spans ++ [(first, finish)])
      (s.step config.toConfig policy signature).activeFinishes first :=
    (hcounts.delay hwaits.le finish).perm hnext.symm
  -- until the admission the active requests are those of the arrival
  have hbefore : ∀ t, s.arrival signature ≤ t → t < first →
      running (spans ++ [(first, finish)]) t = config.slots := fun t hstart ht =>
    (running_delay hcounts hstart ht hfirst finish).trans (h.full_length hfull)
  have hrunning : ∀ t, running (spans ++ [(first, finish)]) t ≤ config.slots := by
    refine running_concat_le h.running_le hwaits.le fun t hstart => ?_
    rcases le_or_gt first t with hadmitted | hwaiting
    · rw [hafter t hadmitted]
      exact (later_le_length _ t).trans hslots
    · exact (hbefore t hstart hwaiting).le
  rw [hspan, tied_iff hadmission]
  refine ⟨hwaits, ⟨hafter, hslots, hrunning⟩, fun huntied => ⟨?_, hslots, hrunning⟩,
    fun htied t hstart ht => ⟨hbefore t hstart ht, ?_⟩⟩
  · have hsingle : active.countP (fun finish => finish = first) = 1 := by
      have hnot : ¬ 2 ≤ active.countP fun finish => finish = first := huntied
      omega
    exact (hcounts.delay_single hwaits.le hlt hfirst hsingle).perm hnext.symm
  · have htwo : 2 ≤ active.countP fun finish => finish = first := htied
    omega

/-- What one iteration keeps, and what a tie leaves behind. -/
theorem Bounded.step (policy : ReplayPolicy) (hsignature : signature.Accepted)
    (h : Bounded config.slots spans s (s.arrival signature)) :
    s.arrival signature ≤ (s.admission config.toConfig signature).1 ∧
      Bounded config.slots (spans ++ [s.span config.toConfig policy signature])
        (s.step config.toConfig policy signature) (s.admission config.toConfig signature).1 ∧
      (¬ s.Tied config.toConfig signature →
        Bounded config.slots (spans ++ [s.span config.toConfig policy signature])
          (s.step config.toConfig policy signature) (s.arrival signature)) ∧
      (s.Tied config.toConfig signature → ∀ t, s.arrival signature ≤ t →
        t < (s.admission config.toConfig signature).1 →
        running (spans ++ [s.span config.toConfig policy signature]) t = config.slots ∧
          (s.step config.toConfig policy signature).activeFinishes.length < config.slots) := by
  rcases admission_cases config s signature with
    ⟨hfree, hadmission⟩ | ⟨hfull, first, hmem, hfirst, hadmission, hperm⟩
  · have hstep := h.step_free policy hfree hadmission
    rw [hadmission]
    refine ⟨le_refl _, hstep, fun _ => hstep, fun _ t hstart ht => absurd ht (not_lt_of_ge hstart)⟩
  · obtain ⟨hwaits, hafter, huntied, htied⟩ :=
      h.step_full policy hsignature hfull hmem hfirst hadmission hperm
    rw [hadmission]
    exact ⟨hwaits.le, hafter, huntied, htied⟩

end Step

/-! ## Traces -/

/-- After each tie the next request does not arrive before the admission. -/
def Untied (config : Config K) (policy : ReplayPolicy) (s : Simulation K n)
    (trace : List (Signature K)) : Prop :=
  ∀ before signature next after, trace = before ++ signature :: next :: after →
    (s.run config policy before).Tied config signature →
    ((s.run config policy before).admission config signature).1 ≤
      (s.run config policy before).arrival signature + next.arrivalDeltaMS

omit [IsStrictOrderedRing K] in
theorem untied_singleton (config : Config K) (policy : ReplayPolicy) (s : Simulation K n)
    (signature : Signature K) : s.Untied config policy [signature] := by
  intro before signature next after heq
  have hlength := congrArg List.length heq
  simp only [List.length_append, List.length_cons, List.length_nil] at hlength
  omega

omit [IsStrictOrderedRing K] in
theorem untied_cons {config : Config K} {policy : ReplayPolicy} {s : Simulation K n}
    {signature next : Signature K} {trace : List (Signature K)} :
    s.Untied config policy (signature :: next :: trace) ↔
      (s.Tied config signature → (s.admission config signature).1 ≤
        s.arrival signature + next.arrivalDeltaMS) ∧
      (s.step config policy signature).Untied config policy (next :: trace) := by
  constructor
  · intro h
    refine ⟨h [] signature next trace rfl, fun before signature' next' after heq => ?_⟩
    exact h (signature :: before) signature' next' after (by rw [heq]; rfl)
  · rintro ⟨hfirst, hrest⟩ before signature' next' after heq
    cases before with
    | nil =>
      cases heq
      exact hfirst
    | cons head before =>
      obtain ⟨rfl, htail⟩ := List.cons.inj heq
      exact hrest before signature' next' after htail

/-- A request that finds a free slot while all slots are taken. -/
theorem overrun {config : ValidConfig K} (policy : ReplayPolicy) (trace : List (Signature K))
    {s : Simulation K n} {spans : List (K × K)} {signature : Signature K}
    (hsignature : signature.Accepted) (hfree : s.activeFinishes.length < config.slots)
    (hfull : running spans (s.arrival signature) = config.slots) :
    config.slots <
      running (spans ++ s.schedule config.toConfig policy (signature :: trace))
        (s.arrival signature) := by
  have hspan := s.span_lt config policy hsignature
  have harrival : (s.span config.toConfig policy signature).1 = s.arrival signature := by
    rcases admission_cases config s signature with ⟨-, hadmission⟩ | ⟨hlength, -⟩
    · exact congrArg Prod.fst hadmission
    · have hle : (retainAfter s.activeFinishes (s.arrival signature)).length ≤
          s.activeFinishes.length := List.length_filter_le _ _
      unfold ValidConfig.slots at hfree
      omega
  have hone : running (spans ++ [s.span config.toConfig policy signature]) (s.arrival signature) =
      config.slots + 1 := by
    rw [← hfull]
    refine (running_concat spans _ _ _).trans ?_
    rw [if_pos ⟨harrival.le, harrival ▸ hspan⟩]
  have happend : spans ++ s.schedule config.toConfig policy (signature :: trace) =
      (spans ++ [s.span config.toConfig policy signature]) ++
        (s.step config.toConfig policy signature).schedule config.toConfig policy trace := by
    rw [List.append_assoc]
    rfl
  rw [happend]
  have hmore := running_le_append (spans ++ [s.span config.toConfig policy signature])
    ((s.step config.toConfig policy signature).schedule config.toConfig policy trace)
    (s.arrival signature)
  omega

/-- By induction on what is left of the trace; the spans of the requests before are at hand. -/
theorem running_schedule_iff (config : ValidConfig K) (policy : ReplayPolicy)
    (trace : List (Signature K)) {s : Simulation K n} {spans : List (K × K)}
    {signature : Signature K} (h : Bounded config.slots spans s (s.arrival signature))
    (haccepted : ∀ signature' ∈ signature :: trace, signature'.Accepted) :
    (∀ t, running (spans ++ s.schedule config.toConfig policy (signature :: trace)) t ≤
      config.slots) ↔ s.Untied config.toConfig policy (signature :: trace) := by
  induction trace generalizing s spans signature with
  | nil =>
    obtain ⟨-, hstep, -⟩ := h.step policy (haccepted signature List.mem_cons_self)
    exact iff_of_true hstep.running_le (untied_singleton _ policy s signature)
  | cons next trace ih =>
    obtain ⟨harrival, hafter, huntied, htied⟩ :=
      h.step policy (haccepted signature List.mem_cons_self)
    have hrest : ∀ signature' ∈ next :: trace, signature'.Accepted := fun signature' hmem =>
      haccepted signature' (List.mem_cons_of_mem _ hmem)
    have hdelta := (hrest next List.mem_cons_self).arrivalDeltaMS
    have hnext : (s.step config.toConfig policy signature).arrival next =
        s.arrival signature + next.arrivalDeltaMS := rfl
    have hschedule : spans ++ s.schedule config.toConfig policy (signature :: next :: trace) =
        (spans ++ [s.span config.toConfig policy signature]) ++
          (s.step config.toConfig policy signature).schedule config.toConfig policy
            (next :: trace) := by
      rw [List.append_assoc]
      rfl
    rw [untied_cons, hschedule]
    by_cases hlate : s.Tied config.toConfig signature →
        (s.admission config.toConfig signature).1 ≤ s.arrival signature + next.arrivalDeltaMS
    · have hready : Bounded config.slots (spans ++ [s.span config.toConfig policy signature])
          (s.step config.toConfig policy signature)
          ((s.step config.toConfig policy signature).arrival next) := by
        rw [hnext]
        by_cases hties : s.Tied config.toConfig signature
        · exact hafter.mono (hlate hties)
        · exact (huntied hties).mono (le_add_of_nonneg_right hdelta)
      rw [ih hready hrest]
      exact (and_iff_right hlate).symm
    · refine iff_of_false (fun hbound => ?_) fun hboth => hlate hboth.1
      obtain ⟨hties, hearly⟩ := Classical.not_imp.mp hlate
      obtain ⟨hfull, hfree⟩ := htied hties _ (le_add_of_nonneg_right hdelta) (not_le.mp hearly)
      have hover := overrun policy trace (hrest next List.mem_cons_self) hfree hfull
      exact absurd (hbound _) (not_le_of_gt hover)

/-! ## One backend -/

/-- The active requests end at different times, none after its backend is available. -/
structure Queued (s : Simulation K n) : Prop where
  nodup : s.activeFinishes.Nodup
  le_available : ∀ finish ∈ s.activeFinishes, ∃ backend : Fin n,
    finish ≤ s.backendAvailable.get backend

/-- On one backend the requests end one after the other. -/
theorem Queued.step [Subsingleton (Fin n)] {s : Simulation K n} (h : s.Queued)
    (config : ValidConfig K) (policy : ReplayPolicy) {signature : Signature K}
    (hsignature : signature.Accepted) : (s.step config.toConfig policy signature).Queued := by
  have hlt := s.available_lt config policy hsignature
  have hsublist : ∀ finish ∈ (s.admission config.toConfig signature).2,
      finish ∈ s.activeFinishes := by
    intro finish hfinish
    rcases admission_cases config s signature with
      ⟨-, hadmission⟩ | ⟨-, first, -, -, -, hperm⟩
    · rw [hadmission] at hfinish
      exact (List.mem_filter.mp hfinish).1
    · exact (List.mem_filter.mp (List.mem_filter.mp (hperm.mem_iff.mp hfinish)).1).1
  have hnodup : (s.admission config.toConfig signature).2.Nodup := by
    rcases admission_cases config s signature with
      ⟨-, hadmission⟩ | ⟨-, first, -, -, -, hperm⟩
    · rw [hadmission]
      exact h.nodup.filter _
    · exact hperm.nodup_iff.mpr ((h.nodup.filter _).filter _)
  have hbefore : ∀ finish ∈ (s.admission config.toConfig signature).2,
      finish < (s.span config.toConfig policy signature).2 := by
    intro finish hfinish
    obtain ⟨backend, hle⟩ := h.le_available finish (hsublist finish hfinish)
    rw [Subsingleton.elim backend (s.route config.toConfig policy signature
      (s.admission config.toConfig signature).1)] at hle
    exact lt_of_le_of_lt hle hlt
  constructor
  · refine List.nodup_append.mpr ⟨hnodup, List.nodup_singleton _, ?_⟩
    intro finish hfinish finish' hfinish'
    rw [List.mem_singleton.mp hfinish']
    exact (hbefore finish hfinish).ne
  · intro finish hfinish
    refine ⟨s.route config.toConfig policy signature (s.admission config.toConfig signature).1, ?_⟩
    rcases List.mem_append.mp hfinish with hmem | hlast
    · exact (hbefore finish hmem).le
    · exact (List.mem_singleton.mp hlast).le

omit [NeZero n] [IsStrictOrderedRing K] in
theorem Queued.not_tied {s : Simulation K n} (h : s.Queued) (config : Config K)
    (signature : Signature K) : ¬ s.Tied config signature := by
  have hnodup : (retainAfter s.activeFinishes (s.arrival signature)).Nodup := h.nodup.filter _
  have hone := List.nodup_iff_count_le_one.mp hnodup (s.admission config signature).1
  intro htied
  have htwo : 2 ≤ (retainAfter s.activeFinishes (s.arrival signature)).count
      (s.admission config signature).1 := htied
  omega

theorem Queued.run [Subsingleton (Fin n)] {s : Simulation K n} (h : s.Queued)
    (config : ValidConfig K) (policy : ReplayPolicy) {trace : List (Signature K)}
    (haccepted : ∀ signature ∈ trace, signature.Accepted) :
    (s.run config.toConfig policy trace).Queued := by
  induction trace generalizing s with
  | nil => exact h
  | cons signature trace ih =>
    rw [List.forall_mem_cons] at haccepted
    exact ih (h.step config policy haccepted.1) haccepted.2

end Simulation

/-! ## The simulator -/

variable [IsStrictOrderedRing K]

theorem running_new_iff {trace : List (Signature K)} (hne : trace ≠ [])
    (haccepted : ∀ signature ∈ trace, signature.Accepted) (config : ValidConfig K)
    (policy : ReplayPolicy) :
    (∀ t, running ((Simulation.new config.fleet).schedule config.toConfig policy trace) t ≤
      config.maxConcurrency.toInt) ↔
      (Simulation.new config.fleet).Untied config.toConfig policy trace := by
  have hslots : (config.slots : Int) = config.maxConcurrency.toInt := by
    have hpos := (validateConfig_ok config.valid).2.1
    rw [Int64.lt_iff_toInt_lt, Int64.toInt_one] at hpos
    unfold ValidConfig.slots
    omega
  cases trace with
  | nil => exact absurd rfl hne
  | cons signature trace =>
    have hnew : Simulation.Bounded config.slots [] (Simulation.new config.fleet)
        ((Simulation.new config.fleet).arrival signature) :=
      ⟨Counts.nil _, Nat.zero_le _, fun _ => Nat.zero_le _⟩
    rw [← Simulation.running_schedule_iff config policy trace hnew haccepted]
    simp only [List.nil_append, ← hslots, Int.ofNat_le]

/-- **`MaxConcurrency`** is kept by the simulation of an accepted trace just if no request arrives
between a tie and its admission. -/
theorem schedule_running_iff {decode : Bytes → Except String (Signature K)} {content : Bytes}
    {trace : List (Signature K)} (h : readTrace decode content = .ok trace)
    (config : ValidConfig K) (policy : ReplayPolicy) :
    (∀ t, running ((Simulation.new config.fleet).schedule config.toConfig policy trace) t ≤
      config.maxConcurrency.toInt) ↔
      (Simulation.new config.fleet).Untied config.toConfig policy trace := by
  obtain ⟨hne, haccepted⟩ := readTrace_accepted h
  exact running_new_iff hne haccepted config policy

/-- With one backend `MaxConcurrency` is always kept. -/
theorem schedule_running_one_backend {decode : Bytes → Except String (Signature K)}
    {content : Bytes} {trace : List (Signature K)} (h : readTrace decode content = .ok trace)
    (config : ValidConfig K) (hone : config.backends = 1) (policy : ReplayPolicy) (t : K) :
    running ((Simulation.new config.fleet).schedule config.toConfig policy trace) t ≤
      config.maxConcurrency.toInt := by
  have hfleet : config.fleet = 1 := by
    unfold ValidConfig.fleet
    rw [hone]
    rfl
  have hsubsingleton : Subsingleton (Fin config.fleet) := by
    rw [hfleet]
    infer_instance
  obtain ⟨hne, haccepted⟩ := readTrace_accepted h
  refine (running_new_iff hne haccepted config policy).mpr ?_ t
  intro before signature next after heq htied
  have hnew : (Simulation.new config.fleet : Simulation K config.fleet).Queued :=
    ⟨List.nodup_nil, nofun⟩
  have hbefore : ∀ signature' ∈ before, signature'.Accepted := by
    intro signature' hmem
    exact haccepted signature' (heq ▸ List.mem_append_left _ hmem)
  exact absurd htied ((hnew.run config policy hbefore).not_tied _ _)

namespace ConcurrencySample

local instance : Exact Rat := ⟨fun _ => 1, fun x => (x + 1 / 2).floor⟩

/-- A request with a prompt that takes a second. -/
def signature (arrivalDeltaMS : Rat) : Signature Rat where
  promptTokens := 1000
  outputTokens := 0
  sharedPrefixHash := "a"
  sharedPrefixTokens := 0
  tenantClass := "research"
  arrivalDeltaMS := arrivalDeltaMS
  streaming := false
  model := "m"

/-- The text of the request with this number as `arrival_delta_ms`. -/
def text (arrivalDeltaMS : String) : Bytes :=
  utf8 ("\x7b\"prompt_tokens\":1000,\"output_tokens\":0,\"shared_prefix_hash\":\"a\"," ++
    "\"shared_prefix_tokens\":0,\"tenant_class\":\"research\",\"arrival_delta_ms\":" ++
    arrivalDeltaMS ++ ",\"streaming\":false,\"model\":\"m\"\x7d")

def decode (line : Bytes) : Except String (Signature Rat) :=
  if line = text "0" then .ok (signature 0)
  else if line = text "100" then .ok (signature 100)
  else .error "unexpected end of JSON input"

/-- Two requests at once, and one after each of two times 100 ms. -/
def content : Bytes := ["0", "0", "100", "100"].flatMap fun delta => text delta ++ [lf]

def trace : List (Signature Rat) := [0, 0, 100, 100].map signature

def config : ValidConfig Rat where
  backends := 2
  minHitRatio := 0
  maxConcurrency := 2
  evidenceQuality := "strict"
  ttftSLOMS := 5000
  prefillTokensPerSecond := 1000
  decodeTokensPerSecond := 100
  valid := by decide +kernel

theorem readTrace_content : readTrace decode content = .ok trace := by decide +kernel

/-- The third request waits until the first two end, at 1008 ms; the fourth does not. -/
example : (Simulation.new config.fleet).schedule config.toConfig .static trace =
    [(0, 1008), (0, 1008), (1008, 2016), (200, 2016)] := by decide +kernel

theorem three_of_two_slots :
    readTrace decode content = .ok trace ∧
      ¬ ∀ t, running ((Simulation.new config.fleet).schedule config.toConfig .static trace) t ≤
        config.maxConcurrency.toInt := by
  refine ⟨readTrace_content, fun hbound => ?_⟩
  exact absurd (hbound 200) (by decide +kernel)

theorem schedule_running_sample :
    (∀ t, running ((Simulation.new config.fleet).schedule config.toConfig .loadAware trace) t ≤
      config.maxConcurrency.toInt) ↔
      (Simulation.new config.fleet).Untied config.toConfig .loadAware trace :=
  schedule_running_iff readTrace_content config .loadAware

end ConcurrencySample

end Kavora.WorkloadReplay
