import Mathlib.Algebra.BigOperators.Ring.Finset
import Mathlib.Data.Rat.Floor
import Kavora.Lib.Grouping
import Kavora.WorkloadReplay.Concurrency

/-!
# What a simulated replay conserves

Each request of a trace is served once (`Service`): by one backend, from its admission or the end of
the backend's last request, whichever is later, until the backend is available again.

* `Simulation.services`: the services of a trace; `services_induction` carries an invariant along.
* `Sequential`: the services of one backend follow each other.
* `Owned`: the owner of a prefix is the backend of the last request that had it to reuse.
* `Counted`: the accumulators count the services; the token totals wrap around at 64 bits.
* `conservation`: the simulation of an accepted trace.
-/

namespace Kavora.WorkloadReplay

open Lib Lib.Grouping
open Lib.Go (Float64 Rounding wrap64 wrap64_of_fits append_separator_inj)
open Lib.Go.Float64 (ofInt Exact)

/-- How a request is served. -/
structure Service (F : Type) (n : Nat) where
  signature : Signature F
  backend : Fin n
  start : F
  finish : F
  ttft : F
  cached : Int64

namespace Simulation

section

variable {F : Type} [Float64 F] {n : Nat} [NeZero n]

/-- What one iteration does with a request. -/
def service (config : Config F) (policy : ReplayPolicy) (s : Simulation F n)
    (signature : Signature F) : Service F n :=
  let admission := (s.admission config signature).1
  let backend := s.route config policy signature admission
  { signature
    backend
    start := Float64.max admission (s.backendAvailable.get backend)
    finish := (s.step config policy signature).backendAvailable.get backend
    ttft := s.ttft config signature admission backend
    cached := s.cached signature backend }

/-- The services of the requests of a trace. -/
def services (config : Config F) (policy : ReplayPolicy) :
    Simulation F n → List (Signature F) → List (Service F n)
  | _, [] => []
  | s, signature :: trace =>
    s.service config policy signature ::
      services config policy (s.step config policy signature) trace

/-- An invariant of the state and the services so far holds at the end of a trace if every request
keeps it. -/
theorem services_induction {config : Config F} {policy : ReplayPolicy}
    {I : Simulation F n → List (Service F n) → Prop} {P : Signature F → Prop}
    (hstep : ∀ s services signature, P signature → I s services →
      I (s.step config policy signature) (services ++ [s.service config policy signature]))
    {trace : List (Signature F)} (htrace : ∀ signature ∈ trace, P signature) {s : Simulation F n}
    {before : List (Service F n)} (h : I s before) :
    I (s.run config policy trace) (before ++ s.services config policy trace) := by
  induction trace generalizing s before with
  | nil =>
    rw [services, List.append_nil]
    exact h
  | cons signature trace ih =>
    rw [List.forall_mem_cons] at htrace
    have hnext := ih htrace.2 (hstep s before signature htrace.1 h)
    rw [List.append_assoc] at hnext
    exact hnext

theorem services_length (config : Config F) (policy : ReplayPolicy) (s : Simulation F n)
    (trace : List (Signature F)) : (s.services config policy trace).length = trace.length := by
  induction trace generalizing s with
  | nil => rfl
  | cons signature trace ih => rw [services, List.length_cons, List.length_cons, ih]

theorem services_signature (config : Config F) (policy : ReplayPolicy) (s : Simulation F n)
    (trace : List (Signature F)) :
    (s.services config policy trace).map (·.signature) = trace := by
  induction trace generalizing s with
  | nil => rfl
  | cons signature trace ih =>
    rw [services, List.map_cons, ih]
    rfl

end

end Simulation

/-! ## Prefixes -/

section

variable {F : Type} {n : Nat}

/-- The requests have the same model and prefix hash. -/
def Signature.SamePrefix (signature signature' : Signature F) : Prop :=
  signature.model = signature'.model ∧ signature.sharedPrefixHash = signature'.sharedPrefixHash

instance (signature signature' : Signature F) : Decidable (signature.SamePrefix signature') :=
  inferInstanceAs (Decidable (_ ∧ _))

/-- The backend of the last service that counts, of those with the prefix of a request. -/
def lastServed (counts : Signature F → Prop) [DecidablePred counts]
    (services : List (Service F n)) (signature : Signature F) : Option (Fin n) :=
  (services.reverse.find? fun service =>
    counts service.signature ∧ service.signature.SamePrefix signature).map (·.backend)

theorem lastServed_concat (counts : Signature F → Prop) [DecidablePred counts]
    (services : List (Service F n)) (service : Service F n) (signature : Signature F) :
    lastServed counts (services ++ [service]) signature =
      if counts service.signature ∧ service.signature.SamePrefix signature then
        some service.backend
      else lastServed counts services signature := by
  unfold lastServed
  rw [List.reverse_concat, List.find?_cons]
  split
  · rename_i h
    rw [if_pos (of_decide_eq_true h)]
    rfl
  · rename_i h
    rw [if_neg (of_decide_eq_false h)]

/-- A key that no other prefix has. -/
def Signature.Plain (signature : Signature F) : Prop := '\x00' ∉ signature.model.toList

instance (signature : Signature F) : Decidable signature.Plain :=
  inferInstanceAs (Decidable (_ ∉ _))

theorem prefixKey_eq_iff {signature signature' : Signature F} (h : signature.Plain)
    (h' : signature'.Plain) :
    signature.prefixKey = signature'.prefixKey ↔ signature.SamePrefix signature' := by
  have htext : ∀ signature : Signature F, signature.prefixKey.toList =
      signature.model.toList ++ '\x00' :: signature.sharedPrefixHash.toList := by
    intro signature
    unfold Signature.prefixKey
    rw [String.toList_append, String.toList_append, List.append_assoc]
    rfl
  constructor
  · intro heq
    have heq := congrArg String.toList heq
    rw [htext, htext] at heq
    obtain ⟨hmodel, hhash⟩ := append_separator_inj h h' heq
    exact ⟨String.toList_injective hmodel, String.toList_injective hhash⟩
  · rintro ⟨hmodel, hhash⟩
    unfold Signature.prefixKey
    rw [hmodel, hhash]

end

section

variable {F : Type} [Float64 F] {n : Nat} [NeZero n]

/-- The owner of a prefix is the last backend that had it to reuse, and just its requests reuse it. -/
structure Owned (s : Simulation F n) (services : List (Service F n)) : Prop where
  owner : ∀ signature : Signature F, signature.hasReusablePrefix → signature.Plain →
    s.prefixOwner.lookup signature.prefixKey =
      lastServed Signature.hasReusablePrefix services signature
  reuse : ∀ before service after, services = before ++ service :: after →
    service.cached =
      if service.signature.hasReusablePrefix ∧
          lastServed Signature.hasReusablePrefix before service.signature = some service.backend then
        service.signature.sharedPrefixTokens
      else 0

omit [NeZero n] in
theorem Owned.new : Owned (Simulation.new n : Simulation F n) [] where
  owner _ _ _ := rfl
  reuse before service after heq := absurd heq.symm (List.append_ne_nil_of_right_ne_nil _ (by simp))

theorem Owned.step (config : Config F) (policy : ReplayPolicy) {s : Simulation F n}
    {services : List (Service F n)} {signature : Signature F} (hplain : signature.Plain)
    (h : Owned s services) :
    Owned (s.step config policy signature)
      (services ++ [s.service config policy signature]) where
  owner signature' hreusable hplain' := by
    rw [lastServed_concat]
    show (if signature.hasReusablePrefix then _ else _ : Lib.Go.Map String (Fin n)).lookup _ =
      if signature.hasReusablePrefix ∧ signature.SamePrefix signature' then _ else _
    by_cases hstored : signature.hasReusablePrefix
    · rw [if_pos hstored]
      by_cases hsame : signature.SamePrefix signature'
      · rw [if_pos ⟨hstored, hsame⟩, ← (prefixKey_eq_iff hplain hplain').mpr hsame]
        exact AList.lookup_insert _
      · have hkey : signature'.prefixKey ≠ signature.prefixKey := fun heq =>
          hsame ((prefixKey_eq_iff hplain hplain').mp heq.symm)
        rw [if_neg fun hboth => hsame hboth.2, AList.lookup_insert_ne hkey]
        exact h.owner signature' hreusable hplain'
    · rw [if_neg hstored, if_neg fun hboth => hstored hboth.1]
      exact h.owner signature' hreusable hplain'
  reuse before service after heq := by
    rcases List.eq_nil_or_concat after with rfl | ⟨after', last, rfl⟩
    · obtain ⟨rfl, hlast⟩ := List.append_inj' heq rfl
      obtain rfl := (List.cons.inj hlast).1
      show s.cached signature _ = _
      unfold Simulation.cached Simulation.owner
      by_cases hreusable : signature.hasReusablePrefix
      · rw [if_pos hreusable, h.owner signature hreusable hplain]
        simp only [Simulation.service, hreusable, true_and]
      · rw [if_neg hreusable, if_neg fun hnone => Option.some_ne_none _ hnone.symm,
          if_neg fun hboth => hreusable hboth.1]
    · rw [List.concat_eq_append, ← List.cons_append, ← List.append_assoc] at heq
      exact h.reuse before service after' (List.append_inj' heq rfl).1

end

/-! ## Exact arithmetic -/

section Exact

variable {K : Type} [Field K] [LinearOrder K] [IsStrictOrderedRing K] [Exact K]
  {n : Nat} [NeZero n]

attribute [local instance] Exact.float64

/-- The services of one backend follow each other. -/
structure Sequential (s : Simulation K n) (services : List (Service K n)) : Prop where
  positive : ∀ service ∈ services, service.start < service.finish
  disjoint : services.Pairwise fun earlier later =>
    earlier.backend = later.backend → earlier.finish ≤ later.start
  available : ∀ service ∈ services, service.finish ≤ s.backendAvailable[service.backend]

omit [IsStrictOrderedRing K] [NeZero n] in
theorem Sequential.new : Sequential (Simulation.new n : Simulation K n) [] :=
  ⟨nofun, List.Pairwise.nil, nofun⟩

theorem Sequential.step (config : ValidConfig K) (policy : ReplayPolicy) {s : Simulation K n}
    {services : List (Service K n)} {signature : Signature K} (hsignature : signature.Accepted)
    (h : Sequential s services) :
    Sequential (s.step config.toConfig policy signature)
      (services ++ [s.service config.toConfig policy signature]) := by
  let admission := (s.admission config.toConfig signature).1
  let backend := s.route config.toConfig policy signature admission
  let finish := (s.span config.toConfig policy signature).2
  have hstart : (s.service config.toConfig policy signature).start =
      if admission < s.backendAvailable[backend] then s.backendAvailable[backend]
      else admission := rfl
  have hadmitted : admission < finish := s.span_lt config policy hsignature
  have havailable : s.backendAvailable[backend] < finish := s.available_lt config policy hsignature
  have hwaits : s.backendAvailable[backend] ≤
      (s.service config.toConfig policy signature).start := by
    rw [hstart]
    split
    · exact le_rfl
    · rename_i hnot
      exact not_lt.mp hnot
  constructor
  · rw [List.forall_mem_append, List.forall_mem_singleton]
    refine ⟨h.positive, ?_⟩
    rw [hstart]
    show _ < finish
    split
    · exact havailable
    · exact hadmitted
  · refine List.pairwise_append.mpr ⟨h.disjoint, List.pairwise_singleton _ _, ?_⟩
    intro earlier hearlier later hlater hsame
    obtain rfl := List.mem_singleton.mp hlater
    have hfree : s.backendAvailable[earlier.backend] = s.backendAvailable[backend] :=
      congrArg (fun backend : Fin n => s.backendAvailable[backend]) hsame
    exact ((h.available earlier hearlier).trans hfree.le).trans hwaits
  · rw [List.forall_mem_append, List.forall_mem_singleton]
    refine ⟨fun service hservice => ?_, le_rfl⟩
    have hle := h.available service hservice
    by_cases hsame : service.backend = backend
    · have hfree : s.backendAvailable[service.backend] = s.backendAvailable[backend] :=
        congrArg (fun backend : Fin n => s.backendAvailable[backend]) hsame
      have hfinish : (s.step config.toConfig policy signature).backendAvailable[service.backend] =
          finish :=
        congrArg (fun backend : Fin n =>
          (s.step config.toConfig policy signature).backendAvailable[backend]) hsame
      rw [hfinish]
      exact (hle.trans hfree.le).trans havailable.le
    · show _ ≤ (s.backendAvailable.set backend _)[service.backend]
      rw [Fin.getElem_fin, Vector.getElem_set_ne _ _ fun heq => hsame (Fin.ext heq.symm)]
      exact hle

/-- The sum of numbers, as a variable of 64 bits has it. -/
theorem wrap64_add (a b : Int) : wrap64 (wrap64 a + b) = wrap64 (a + b) := Int.bmod_add_bmod

/-- The accumulators count the services. -/
structure Counted (config : Config K) (s : Simulation K n) (services : List (Service K n)) :
    Prop where
  routes : ∀ backend : Fin n, s.routeCounts.get backend =
    (services.countP fun service => service.backend = backend : Nat)
  shared : s.sharedTokens.toInt =
    wrap64 (services.map (·.signature.sharedPrefixTokens.toInt)).sum
  reused : s.reusedTokens.toInt = wrap64 (services.map (·.cached.toInt)).sum
  violations : s.violations.toInt =
    wrap64 (services.countP fun service => config.ttftSLOMS < service.ttft)
  cached : ∀ service ∈ services, 0 ≤ service.cached.toInt ∧
    service.cached.toInt ≤ service.signature.sharedPrefixTokens.toInt

omit [IsStrictOrderedRing K] [NeZero n] in
theorem Counted.new (config : Config K) :
    Counted config (Simulation.new n : Simulation K n) [] := by
  have hzero : (0 : Int64).toInt = wrap64 0 := by
    rw [wrap64_of_fits (by decide) (by decide)]
    rfl
  refine ⟨fun backend => ?_, hzero, hzero, hzero, nofun⟩
  show (Vector.replicate n ((0 : Int) : K))[backend] = ((0 : Nat) : K)
  rw [Fin.getElem_fin, Vector.getElem_replicate, Int.cast_zero, Nat.cast_zero]

omit [IsStrictOrderedRing K] in
theorem Counted.step (config : ValidConfig K) (policy : ReplayPolicy) {s : Simulation K n}
    {services : List (Service K n)} {signature : Signature K} (hsignature : signature.Accepted)
    (h : Counted config.toConfig s services) :
    Counted config.toConfig (s.step config.toConfig policy signature)
      (services ++ [s.service config.toConfig policy signature]) := by
  constructor
  · intro backend
    rw [List.countP_append, List.countP_singleton, Nat.cast_add, ← h.routes backend]
    let routed := (s.service config.toConfig policy signature).backend
    show (s.routeCounts.set routed (s.routeCounts[routed] + ((1 : Int) : K)))[backend] =
      s.routeCounts[backend] + ((if decide (routed = backend) = true then 1 else 0 : Nat) : K)
    by_cases hrouted : routed = backend
    · rw [if_pos (decide_eq_true hrouted), ← hrouted, Nat.cast_one]
      exact (Vector.getElem_set_self _).trans (congrArg _ Int.cast_one)
    · rw [if_neg (by rw [decide_eq_true_iff]; exact hrouted), Nat.cast_zero, add_zero]
      exact Vector.getElem_set_ne _ _ fun heq => hrouted (Fin.ext heq)
  · rw [List.map_append, List.sum_append, List.map_singleton, List.sum_singleton, ← wrap64_add,
      ← h.shared]
    exact Int64.toInt_add _ _
  · rw [List.map_append, List.sum_append, List.map_singleton, List.sum_singleton, ← wrap64_add,
      ← h.reused]
    exact Int64.toInt_add _ _
  · rw [List.countP_append, List.countP_singleton, Nat.cast_add, ← wrap64_add, ← h.violations]
    have hviolations : (s.step config.toConfig policy signature).violations =
        if decide (config.ttftSLOMS < (s.service config.toConfig policy signature).ttft) = true then
          s.violations + 1
        else s.violations := rfl
    rw [hviolations]
    split
    · exact Int64.toInt_add _ _
    · rw [Nat.cast_zero, add_zero]
      exact (Int64.toInt_bmod _).symm
  · rw [List.forall_mem_append, List.forall_mem_singleton]
    refine ⟨h.cached, ?_⟩
    have hnonneg := Int64.le_iff_toInt_le.mp hsignature.sharedPrefixTokens
    show 0 ≤ (s.cached signature _).toInt ∧ (s.cached signature _).toInt ≤ _
    unfold Simulation.cached
    split
    · exact ⟨hnonneg, le_rfl⟩
    · exact ⟨le_rfl, hnonneg⟩

omit [IsStrictOrderedRing K] [NeZero n] in
theorem Counted.sum_routes {config : Config K} {s : Simulation K n} {services : List (Service K n)}
    (h : Counted config s services) : s.routeCounts.toList.sum = services.length := by
  have hroutes : s.routeCounts.toList = (List.finRange n).map fun backend =>
      ((group Service.backend services backend).length : K) := by
    refine List.ext_getElem (by simp) fun i hi _ => ?_
    rw [List.getElem_map, List.getElem_finRange, Vector.getElem_toList, length_group]
    exact h.routes ⟨i, by simpa using hi⟩
  have hlength := length_groups Service.backend (List.nodup_finRange n) (l := services)
    fun service _ => List.mem_finRange service.backend
  rw [hroutes, ← hlength, Nat.cast_list_sum, List.map_map]
  rfl

omit [IsStrictOrderedRing K] [Exact K] [NeZero n] in
/-- A request reuses no more tokens than it shares. -/
theorem Counted.reused_bounds {config : Config K} {s : Simulation K n}
    {services : List (Service K n)} (h : Counted config s services) :
    0 ≤ (services.map (·.cached.toInt)).sum ∧
      (services.map (·.cached.toInt)).sum ≤
        (services.map (·.signature.sharedPrefixTokens.toInt)).sum := by
  refine ⟨List.sum_nonneg fun tokens htokens => ?_, List.sum_le_sum fun service hservice => ?_⟩
  · obtain ⟨service, hservice, rfl⟩ := List.mem_map.mp htokens
    exact (h.cached service hservice).1
  · exact (h.cached service hservice).2

omit [IsStrictOrderedRing K] [Exact K] [NeZero n] in
theorem Counted.totals {config : Config K} {s : Simulation K n} {services : List (Service K n)}
    (h : Counted config s services)
    (hfits : (services.map (·.signature.sharedPrefixTokens.toInt)).sum < 2 ^ 63) :
    s.sharedTokens.toInt = (services.map (·.signature.sharedPrefixTokens.toInt)).sum ∧
      s.reusedTokens.toInt = (services.map (·.cached.toInt)).sum := by
  obtain ⟨hnonneg, hle⟩ := h.reused_bounds
  rw [h.shared, h.reused]
  exact ⟨wrap64_of_fits (by omega) hfits, wrap64_of_fits (by omega) (by omega)⟩

/-! ## The simulator -/

/-- What the services of a trace, the last state and the metrics say together. -/
structure Conserved (trace : List (Signature K)) (services : List (Service K n))
    (s : Simulation K n) (metrics : Metrics K) : Prop where
  /-- Every request is served once. -/
  served : services.map (·.signature) = trace
  positive : ∀ service ∈ services, service.start < service.finish
  /-- The services of one backend do not overlap. -/
  disjoint : services.Pairwise fun earlier later =>
    earlier.backend = later.backend → earlier.finish ≤ later.start
  routes : ∀ backend : Fin n, s.routeCounts.get backend =
    (services.countP fun service => service.backend = backend : Nat)
  sum_routes : s.routeCounts.toList.sum = trace.length
  /-- A request reuses its prefix just if its backend is the last that had it to reuse. -/
  reuse : (∀ signature ∈ trace, signature.Plain) →
    ∀ before service after, services = before ++ service :: after →
      service.cached =
        if service.signature.hasReusablePrefix ∧
            lastServed Signature.hasReusablePrefix before service.signature =
              some service.backend then
          service.signature.sharedPrefixTokens
        else 0
  reused_le : (services.map (·.cached.toInt)).sum ≤
    (services.map (·.signature.sharedPrefixTokens.toInt)).sum
  /-- The token totals of the code are these if they fit. -/
  totals : (services.map (·.signature.sharedPrefixTokens.toInt)).sum < 2 ^ 63 →
    s.sharedTokens.toInt = (services.map (·.signature.sharedPrefixTokens.toInt)).sum ∧
      s.reusedTokens.toInt = (services.map (·.cached.toInt)).sum
  ratio : (services.map (·.signature.sharedPrefixTokens.toInt)).sum < 2 ^ 63 →
    0 ≤ metrics.cacheReuseRatio ∧ metrics.cacheReuseRatio ≤ 1
  /-- A slice has less than `2 ^ 63` elements. -/
  rate : trace.length < 2 ^ 63 → 0 ≤ metrics.sloViolationRate ∧ metrics.sloViolationRate ≤ 1

/-- A part of a whole. -/
theorem ratio_bounds {part whole : Int} (hpart : 0 ≤ part) (hle : part ≤ whole) :
    0 ≤ (part : K) / (whole : K) ∧ (part : K) / (whole : K) ≤ 1 := by
  have hpart' : (0 : K) ≤ part := by exact_mod_cast hpart
  have hwhole : (0 : K) ≤ whole := by exact_mod_cast hpart.trans hle
  have hle' : (part : K) ≤ whole := by exact_mod_cast hle
  exact ⟨div_nonneg hpart' hwhole, div_le_one_of_le₀ hle' hwhole⟩

theorem safeRatio_bounds {part whole : Int} (hpart : 0 ≤ part) (hle : part ≤ whole) :
    0 ≤ safeRatio (part : K) (whole : K) ∧ safeRatio (part : K) (whole : K) ≤ 1 := by
  unfold safeRatio
  split
  · show 0 ≤ ((0 : Int) : K) ∧ ((0 : Int) : K) ≤ 1
    rw [Int.cast_zero]
    exact ⟨le_rfl, zero_le_one⟩
  · exact ratio_bounds hpart hle

variable [Rounding K]

/-- **The simulation of an accepted trace conserves** requests, time and tokens, under every valid
configuration and policy. -/
theorem conservation {decode : Bytes → Except String (Signature K)} {content : Bytes}
    {trace : List (Signature K)} (h : readTrace decode content = .ok trace)
    (config : ValidConfig K) (policy : ReplayPolicy) :
    Conserved trace ((Simulation.new config.fleet).services config.toConfig policy trace)
      ((Simulation.new config.fleet).run config.toConfig policy trace)
      (simulatePolicy trace config policy) := by
  obtain ⟨-, haccepted⟩ := readTrace_accepted h
  have hsequential := Simulation.services_induction
    (fun _ _ _ hsignature hI => Sequential.step config policy hsignature hI) haccepted
    (Sequential.new (n := config.fleet))
  have hcounted := Simulation.services_induction
    (fun _ _ _ hsignature hI => Counted.step config policy hsignature hI) haccepted
    (Counted.new config.toConfig (n := config.fleet))
  rw [List.nil_append] at hsequential hcounted
  have hserved := (Simulation.new config.fleet).services_signature config.toConfig policy trace
  have hlength := (Simulation.new config.fleet).services_length config.toConfig policy trace
  have hreused := hcounted.reused_bounds
  refine
    { served := hserved
      positive := hsequential.positive
      disjoint := hsequential.disjoint
      routes := hcounted.routes
      sum_routes := by rw [hcounted.sum_routes, hlength]
      reuse := fun hplain => ?_
      reused_le := hreused.2
      totals := hcounted.totals
      ratio := fun hfits => ?_
      rate := fun hfits => ?_ }
  · have howned := Simulation.services_induction
      (fun _ _ _ hsignature hI => Owned.step config.toConfig policy hsignature hI) hplain
      (Owned.new (n := config.fleet))
    rw [List.nil_append] at howned
    exact howned.reuse
  · obtain ⟨hshared, hcached⟩ := hcounted.totals hfits
    show 0 ≤ safeRatio _ _ ∧ safeRatio _ _ ≤ 1
    rw [hshared, hcached]
    exact safeRatio_bounds hreused.1 hreused.2
  · have hle : ((Simulation.new config.fleet).services config.toConfig policy trace).countP
        (fun service => config.ttftSLOMS < service.ttft) ≤ trace.length :=
      hlength ▸ List.countP_le_length
    have hviolations := hcounted.violations
    rw [wrap64_of_fits (by omega) (by omega)] at hviolations
    show 0 ≤ ofInt (Int64.toInt _) / ofInt (trace.length : Int) ∧
      ofInt (Int64.toInt _) / ofInt (trace.length : Int) ≤ 1
    rw [hviolations]
    exact ratio_bounds (Int.natCast_nonneg _) (Int.ofNat_le.mpr hle)

end Exact

namespace ConservationSample

local instance : Exact Rat := ⟨fun _ => 1, fun x => (x + 1 / 2).floor⟩

local instance : Rounding Rat := ⟨Int.floor, Int.ceil, fun x => x⟩

attribute [local instance] Exact.float64

/-- A request of a prefix, with this many tokens of it. -/
def signature (sharedPrefixTokens : Int64) : Signature Rat where
  promptTokens := 1000
  outputTokens := 0
  sharedPrefixHash := "a"
  sharedPrefixTokens := sharedPrefixTokens
  tenantClass := "research"
  arrivalDeltaMS := 0
  streaming := false
  model := "m"

/-- The text of the request with this number as `shared_prefix_tokens`. -/
def text (sharedPrefixTokens : String) : Bytes :=
  utf8 ("\x7b\"prompt_tokens\":1000,\"output_tokens\":0,\"shared_prefix_hash\":\"a\"," ++
    "\"shared_prefix_tokens\":" ++ sharedPrefixTokens ++ ",\"tenant_class\":\"research\"," ++
    "\"arrival_delta_ms\":0,\"streaming\":false,\"model\":\"m\"\x7d")

def decode (line : Bytes) : Except String (Signature Rat) :=
  if line = text "800" then .ok (signature 800)
  else if line = text "0" then .ok (signature 0)
  else .error "unexpected end of JSON input"

def content : Bytes := ["800", "0", "800"].flatMap fun tokens => text tokens ++ [lf]

def trace : List (Signature Rat) := [800, 0, 800].map signature

def config : ValidConfig Rat where
  backends := 2
  minHitRatio := 0
  maxConcurrency := 16
  evidenceQuality := "strict"
  ttftSLOMS := 500
  prefillTokensPerSecond := 8000
  decodeTokensPerSecond := 100
  valid := by decide +kernel

theorem readTrace_content : readTrace decode content = .ok trace := by decide +kernel

theorem conservation_sample :
    Conserved trace ((Simulation.new config.fleet).services config.toConfig .static trace)
      ((Simulation.new config.fleet).run config.toConfig .static trace)
      (simulatePolicy trace config .static) :=
  conservation readTrace_content config .static

/-- The second backend was the last to serve the prefix, but with no tokens of it; the third request
reuses the tokens of the first backend. -/
theorem reuse_after_other_backend :
    readTrace decode content = .ok trace ∧ (∀ signature ∈ trace, signature.Plain) ∧
      ¬ ∀ before service after,
        (Simulation.new config.fleet).services config.toConfig .static trace =
          before ++ service :: after →
        service.cached ≠ 0 →
        lastServed (fun _ => True) before service.signature = some service.backend := by
  refine ⟨readTrace_content, by decide +kernel, fun h => ?_⟩
  let first : Simulation Rat config.fleet := .new config.fleet
  let second := first.step config.toConfig .static (signature 800)
  let third := second.step config.toConfig .static (signature 0)
  have hservices : first.services config.toConfig .static trace =
      [first.service config.toConfig .static (signature 800),
        second.service config.toConfig .static (signature 0)] ++
        third.service config.toConfig .static (signature 800) :: [] := rfl
  have hlast := h _ _ _ hservices (by decide +kernel)
  exact absurd hlast (by decide +kernel)

end ConservationSample

end Kavora.WorkloadReplay
