import Mathlib.Data.List.Basic
import Kavora.Lib.System

/-!
# The concurrency limit of a tenant (`gateway/internal/limits/limiter.go`)

`Limiter.tryAcquire` takes one of a tenant's permits under the mutex and returns a release function;
its `sync.Once` gives the permit back in its first call only.

* `State`: the limiter with every release function that it handed out. Each of them can be called
  at any time and any number of times.
* `Balanced`: what is available is the maximum less the permits that are out.
* `Serving`: the requests in `ServeHTTP` that are past the limiter. Each defers its release.
-/

namespace Kavora.Limits

open Lib

/-- A tenant, with the fields that `New` reads. -/
structure Tenant where
  id : String
  maxConcurrent : Int

/-- The free and the configured slots of the tenants. -/
structure Limiter where
  available : String → Option Int
  maximum : String → Option Int

/-- A `map[string]int` at a key. -/
def count (m : String → Option Int) (tenantID : String) : Int := (m tenantID).getD 0

/-- A release function: its tenant, and if its `sync.Once` is done. -/
structure Release where
  tenantID : String
  done : Bool
  deriving DecidableEq

namespace Limiter

/-- A limiter without tenants. -/
def empty : Limiter := ⟨fun _ => none, fun _ => none⟩

/-- One round of the loop of `New`. -/
def add (limiter : Limiter) (entry : Tenant) : Except String Limiter :=
  if entry.id = "" ∨ entry.maxConcurrent ≤ 0 then
    .error "tenant limits require an ID and positive concurrency"
  else if (limiter.maximum entry.id).isSome then .error "duplicate tenant limit"
  else .ok
    { available := Function.update limiter.available entry.id (some entry.maxConcurrent)
      maximum := Function.update limiter.maximum entry.id (some entry.maxConcurrent) }

/-- `New` adds the tenants in their order. -/
def new (tenants : List Tenant) : Except String Limiter :=
  if tenants.isEmpty then .error "at least one tenant is required" else tenants.foldlM add empty

/-- `TryAcquire`: a slot with the function that releases it, if one is free. -/
def tryAcquire (limiter : Limiter) (tenantID : String) : Limiter × Option Release :=
  if count limiter.available tenantID ≤ 0 then (limiter, none)
  else
    ({ limiter with
        available := Function.update limiter.available tenantID
          (some (count limiter.available tenantID - 1)) },
      some { tenantID, done := false })

end Limiter

/-- A call of a release function. -/
def Release.call (release : Release) (limiter : Limiter) : Release × Limiter :=
  if release.done then (release, limiter)
  else
    ({ release with done := true },
      if count limiter.available release.tenantID < count limiter.maximum release.tenantID then
        { limiter with
          available := Function.update limiter.available release.tenantID
            (some (count limiter.available release.tenantID + 1)) }
      else limiter)

/-- The release functions of a tenant that were not called yet. -/
def permitsOut (releases : List Release) (tenantID : String) : Nat :=
  releases.countP fun release => release.tenantID = tenantID && !release.done

/-- A limiter and the release functions that it handed out. -/
structure State where
  limiter : Limiter
  releases : List Release

/-- A call by any party: `release k` calls the `k`-th release function. -/
inductive Call where
  | tryAcquire (tenantID : String)
  | release (k : Nat)

namespace State

/-- A call of the limiter, or of a release function that it has returned. -/
def step (s : State) : Call → Option State
  | .tryAcquire tenantID =>
    let (limiter, release) := s.limiter.tryAcquire tenantID
    some { limiter, releases := s.releases ++ release.toList }
  | .release k =>
    s.releases[k]?.map fun release =>
      let (release, limiter) := release.call s.limiter
      { limiter, releases := s.releases.set k release }

/-- What `limiter.available` says of a tenant. -/
def available (s : State) (tenantID : String) : Int := count s.limiter.available tenantID

/-- The permits of a tenant that were acquired and not yet released. -/
def outstanding (s : State) (tenantID : String) : Nat := permitsOut s.releases tenantID

/-- The tenant that a call is about. -/
def tenantOf (s : State) : Call → Option String
  | .tryAcquire tenantID => some tenantID
  | .release k => s.releases[k]?.map (·.tenantID)

end State

/-- The runs of a limiter: any calls in any order. -/
def system (tenants : List Tenant) : System State Call where
  init s := Limiter.new tenants = .ok s.limiter ∧ s.releases = []
  step s call s' := s.step call = some s'

/-! ## What `New` accepts -/

/-- The limiter after the tenants of `entries`. -/
structure Loaded (entries : List Tenant) (limiter : Limiter) : Prop where
  full : limiter.available = limiter.maximum
  entry : ∀ entry ∈ entries,
    limiter.maximum entry.id = some entry.maxConcurrent ∧ 0 < entry.maxConcurrent
  unknown : ∀ tenantID, (∀ entry ∈ entries, entry.id ≠ tenantID) → limiter.maximum tenantID = none

theorem Loaded.add {entries : List Tenant} {entry : Tenant} {limiter limiter' : Limiter}
    (h : Loaded entries limiter) (hadd : limiter.add entry = .ok limiter') :
    Loaded (entries ++ [entry]) limiter' := by
  unfold Limiter.add at hadd
  split at hadd
  · cases hadd
  split at hadd
  · cases hadd
  rename_i hvalid hnew
  obtain rfl := Except.ok.inj hadd
  refine ⟨by rw [h.full], ?_, ?_⟩
  · intro old hold
    rcases List.mem_append.mp hold with hold | hold
    · have hne : old.id ≠ entry.id := by
        intro heq
        rw [← heq, (h.entry old hold).1] at hnew
        exact hnew rfl
      simpa only [Function.update_of_ne hne] using h.entry old hold
    · obtain rfl := List.mem_singleton.mp hold
      exact ⟨Function.update_self .., by omega⟩
  · intro tenantID hne
    have hentry := hne entry (by simp)
    simp only [Function.update_of_ne hentry.symm]
    exact h.unknown tenantID fun old hold => hne old (by simp [hold])

theorem Loaded.foldlM {entries rest : List Tenant} {limiter limiter' : Limiter}
    (h : Loaded entries limiter) (hrest : rest.foldlM Limiter.add limiter = .ok limiter') :
    Loaded (entries ++ rest) limiter' := by
  induction rest generalizing entries limiter with
  | nil =>
    obtain rfl := Except.ok.inj hrest
    simpa using h
  | cons entry rest ih =>
    rw [List.foldlM_cons] at hrest
    cases hadd : limiter.add entry with
    | error e => rw [hadd] at hrest; cases hrest
    | ok next =>
      rw [hadd] at hrest
      simpa using ih (h.add hadd) hrest

theorem new_loaded {tenants : List Tenant} {limiter : Limiter}
    (h : Limiter.new tenants = .ok limiter) : Loaded tenants limiter := by
  unfold Limiter.new at h
  split at h
  · cases h
  have hempty : Loaded [] Limiter.empty := ⟨rfl, by simp, fun _ _ => rfl⟩
  exact hempty.foldlM h

/-! ## One call -/

theorem count_update (m : String → Option Int) (tenantID other : String) (n : Int) :
    count (Function.update m tenantID (some n)) other =
      if other = tenantID then n else count m other := by
  unfold count
  rw [Function.update_apply]
  split <;> rfl

theorem available_update (s : State) (releases : List Release) (tenantID other : String) (n : Int) :
    State.available
        ⟨{ s.limiter with
            available := Function.update s.limiter.available tenantID (some n) }, releases⟩ other =
      if other = tenantID then n else s.available other :=
  count_update ..

theorem permitsOut_append (releases : List Release) (tenantID other : String) :
    permitsOut (releases ++ [⟨tenantID, false⟩]) other =
      permitsOut releases other + if other = tenantID then 1 else 0 := by
  simp [permitsOut, List.countP_append, List.countP_singleton, eq_comm]

/-- The first call of a release function gives its permit back. -/
theorem permitsOut_set {releases : List Release} {k : Nat} {tenantID : String}
    (hk : releases[k]? = some ⟨tenantID, false⟩) (other : String) :
    permitsOut (releases.set k ⟨tenantID, true⟩) other + (if other = tenantID then 1 else 0) =
      permitsOut releases other := by
  obtain ⟨hlt, hget⟩ := List.getElem?_eq_some_iff.mp hk
  unfold permitsOut
  rw [List.countP_set hlt, hget]
  by_cases hother : other = tenantID
  · subst hother
    have hpos : 0 < releases.countP fun r => r.tenantID = other && !r.done :=
      List.countP_pos_iff.mpr ⟨_, List.mem_of_getElem? hk, by simp⟩
    simp
    omega
  · have hne : tenantID ≠ other := fun h => hother h.symm
    simp [hother, hne]

theorem tryAcquire_none {s : State} {tenantID : String} (h : s.available tenantID ≤ 0) :
    s.limiter.tryAcquire tenantID = (s.limiter, none) :=
  if_pos h

theorem tryAcquire_some {s : State} {tenantID : String} (h : 0 < s.available tenantID) :
    s.limiter.tryAcquire tenantID =
      ({ s.limiter with
          available := Function.update s.limiter.available tenantID
            (some (s.available tenantID - 1)) },
        some ⟨tenantID, false⟩) :=
  if_neg (by unfold State.available at h; omega)

/-- What a call does: nothing, or it takes a permit that is available, or it gives one back. -/
theorem step_cases {s s' : State} {call : Call} (h : s.step call = some s') :
    (s' = s) ∨
    (∃ tenantID, call = .tryAcquire tenantID ∧ 0 < s.available tenantID ∧
      s' =
        { limiter := { s.limiter with
            available := Function.update s.limiter.available tenantID
              (some (s.available tenantID - 1)) }
          releases := s.releases ++ [⟨tenantID, false⟩] }) ∨
    (∃ k tenantID, call = .release k ∧ s.releases[k]? = some ⟨tenantID, false⟩ ∧
      s' =
        { limiter :=
            if s.available tenantID < count s.limiter.maximum tenantID then
              { s.limiter with
                available := Function.update s.limiter.available tenantID
                  (some (s.available tenantID + 1)) }
            else s.limiter
          releases := s.releases.set k ⟨tenantID, true⟩ }) := by
  cases call with
  | tryAcquire tenantID =>
    rcases Int.lt_or_le 0 (s.available tenantID) with hpos | hnone
    · right; left
      simp only [State.step, tryAcquire_some hpos] at h
      exact ⟨tenantID, rfl, hpos, (Option.some.inj h).symm⟩
    · left
      simp only [State.step, tryAcquire_none hnone] at h
      simpa using h.symm
  | release k =>
    simp only [State.step, Option.map_eq_some_iff] at h
    obtain ⟨⟨tenantID, done⟩, hk, rfl⟩ := h
    obtain ⟨hlt, hget⟩ := List.getElem?_eq_some_iff.mp hk
    cases done with
    | true =>
      left
      simp only [Release.call, ↓reduceIte, ← hget, List.set_getElem_self]
    | false =>
      right; right
      exact ⟨k, tenantID, rfl, hk, rfl⟩

/-! ## The invariant -/

/-- What is available is the maximum less the permits that are out. -/
structure Balanced (tenants : List Tenant) (s : State) : Prop where
  entry : ∀ entry ∈ tenants, count s.limiter.maximum entry.id = entry.maxConcurrent
  unknown : ∀ tenantID, (∀ entry ∈ tenants, entry.id ≠ tenantID) →
    count s.limiter.maximum tenantID = 0
  available : ∀ tenantID,
    s.available tenantID = count s.limiter.maximum tenantID - s.outstanding tenantID
  nonneg : ∀ tenantID, 0 ≤ s.available tenantID

variable {tenants : List Tenant} {s s' : State}

theorem Balanced.init (h : (system tenants).init s) : Balanced tenants s := by
  obtain ⟨hnew, hreleases⟩ := h
  have hloaded := new_loaded hnew
  have hout : ∀ tenantID, s.outstanding tenantID = 0 := fun _ => by
    simp [State.outstanding, permitsOut, hreleases]
  refine ⟨?_, ?_, ?_, ?_⟩
  · intro entry hentry
    rw [count, (hloaded.entry entry hentry).1, Option.getD_some]
  · intro tenantID hne
    rw [count, hloaded.unknown tenantID hne, Option.getD_none]
  · intro tenantID
    rw [State.available, hloaded.full, hout]
    simp
  · intro tenantID
    rw [State.available, hloaded.full]
    by_cases hknown : ∀ entry ∈ tenants, entry.id ≠ tenantID
    · simp [count, hloaded.unknown tenantID hknown]
    · push Not at hknown
      obtain ⟨entry, hentry, rfl⟩ := hknown
      obtain ⟨hmax, hpos⟩ := hloaded.entry entry hentry
      rw [count, hmax, Option.getD_some]
      omega

theorem Balanced.step {call : Call} (h : Balanced tenants s) (hs : s.step call = some s') :
    Balanced tenants s' := by
  rcases step_cases hs with rfl | ⟨tenantID, -, hpos, rfl⟩ | ⟨k, tenantID, -, hk, rfl⟩
  · exact h
  · refine ⟨h.entry, h.unknown, ?_, ?_⟩
    · intro other
      have havail : s.available other =
        count s.limiter.maximum other - permitsOut s.releases other := h.available other
      simp only [available_update, State.outstanding, permitsOut_append]
      split
      · subst_vars
        omega
      · simpa using havail
    · intro other
      have := h.nonneg other
      rw [available_update]
      split
      · omega
      · exact this
  · -- The permit was out, so there is room for it.
    have hout := permitsOut_set hk
    have hroom : s.available tenantID < count s.limiter.maximum tenantID := by
      have havail : s.available tenantID =
        count s.limiter.maximum tenantID - permitsOut s.releases tenantID := h.available tenantID
      have := hout tenantID
      rw [if_pos rfl] at this
      omega
    simp only [hroom, ↓reduceIte]
    refine ⟨h.entry, h.unknown, ?_, ?_⟩
    · intro other
      have havail : s.available other =
        count s.limiter.maximum other - permitsOut s.releases other := h.available other
      have := hout other
      simp only [available_update, State.outstanding]
      split at this
      · subst_vars
        rw [if_pos rfl]
        omega
      · rw [if_neg ‹_›]
        omega
    · intro other
      have := h.nonneg other
      rw [available_update]
      split
      · have := h.nonneg tenantID
        omega
      · exact this

theorem balanced_inductive (tenants : List Tenant) :
    (system tenants).Inductive (Balanced tenants) where
  init _ h := .init h
  step _ _ _ h hs := h.step hs

/-- A tenant without a permit that is out gets one. -/
theorem tryAcquire_isSome (s : State) (tenantID : String) :
    (s.limiter.tryAcquire tenantID).2.isSome ↔ 0 < s.available tenantID := by
  rcases Int.lt_or_le 0 (s.available tenantID) with hpos | hnone
  · simp [tryAcquire_some hpos, hpos]
  · simp [tryAcquire_none hnone, hnone]

/-- A call for one tenant leaves the others as they are. -/
theorem step_frame {call : Call} {tenantID : String} (hs : s.step call = some s')
    (h : s.tenantOf call ≠ some tenantID) :
    s'.available tenantID = s.available tenantID ∧
      s'.outstanding tenantID = s.outstanding tenantID := by
  rcases step_cases hs with rfl | ⟨acquired, rfl, -, rfl⟩ | ⟨k, released, rfl, hk, rfl⟩
  · exact ⟨rfl, rfl⟩
  · have hne : tenantID ≠ acquired := fun heq => h (by rw [heq]; rfl)
    simp [available_update, State.outstanding, permitsOut_append, hne]
  · have hne : tenantID ≠ released := fun heq => h (by rw [heq, State.tenantOf, hk]; rfl)
    have hout := permitsOut_set hk tenantID
    rw [if_neg hne] at hout
    refine ⟨?_, hout⟩
    split
    · rw [available_update, if_neg hne]
    · rfl

/-! ## The requests past the limiter -/

/-- A request past the limiter, with the release function that it deferred. -/
structure Admitted where
  tenantID : String
  release : Nat
  deriving DecidableEq

/-- A server with the requests that the limiter admitted. -/
structure Serving where
  limits : State
  admitted : List Admitted

/-- What happens to the requests of a server. -/
inductive Event where
  /-- A request of a tenant reaches `TryAcquire`. -/
  | arrive (tenantID : String)
  /-- A request past the limiter returns and calls its release function. -/
  | leave (request : Admitted)

namespace Serving

/-- One event; a request leaves once. -/
def step (v : Serving) : Event → Option Serving
  | .arrive tenantID =>
    (v.limits.step (.tryAcquire tenantID)).map fun limits =>
      if (v.limits.limiter.tryAcquire tenantID).2.isSome then
        { limits, admitted := v.admitted ++ [⟨tenantID, v.limits.releases.length⟩] }
      else { v with limits }
  | .leave request =>
    if request ∈ v.admitted then
      (v.limits.step (.release request.release)).map fun limits =>
        { limits, admitted := v.admitted.erase request }
    else none

/-- The requests of a tenant that are past the limiter. -/
def pastLimiter (v : Serving) (tenantID : String) : Nat :=
  v.admitted.countP (·.tenantID = tenantID)

end Serving

/-- The runs of the requests. -/
def serving (tenants : List Tenant) : System Serving Event where
  init v := (system tenants).init v.limits ∧ v.admitted = []
  step v event v' := v.step event = some v'

/-- Each permit that is out is that of one request past the limiter. -/
structure Held (tenants : List Tenant) (v : Serving) : Prop where
  reach : (system tenants).Reach v.limits
  nodup : v.admitted.Nodup
  out : ∀ request ∈ v.admitted,
    v.limits.releases[request.release]? = some ⟨request.tenantID, false⟩
  count : ∀ tenantID, v.pastLimiter tenantID = v.limits.outstanding tenantID

variable {v v' : Serving}

theorem Held.arrive {tenantID : String} (h : Held tenants v)
    (hs : v.step (.arrive tenantID) = some v') : Held tenants v' := by
  simp only [Serving.step] at hs
  obtain ⟨limits, hlimits, rfl⟩ := Option.map_eq_some_iff.mp hs
  have hreach : (system tenants).Reach limits := .step h.reach hlimits
  rcases Int.lt_or_le 0 (v.limits.available tenantID) with hpos | hnone
  · simp only [State.step, tryAcquire_some hpos] at hlimits hreach ⊢
    obtain rfl := Option.some.inj hlimits
    rw [Option.isSome_some, if_pos rfl]
    have hold : ∀ request ∈ v.admitted, request.release < v.limits.releases.length :=
      fun request hrequest => (List.getElem?_eq_some_iff.mp (h.out request hrequest)).1
    refine ⟨hreach, ?_, ?_, ?_⟩
    · refine List.nodup_append.mpr ⟨h.nodup, by simp, ?_⟩
      intro request hrequest other hother heq
      obtain rfl := List.mem_singleton.mp hother
      have := hold request hrequest
      simp [heq] at this
    · intro request hrequest
      rcases List.mem_append.mp hrequest with hrequest | hrequest
      · rw [List.getElem?_append_left (hold request hrequest)]
        exact h.out request hrequest
      · obtain rfl := List.mem_singleton.mp hrequest
        exact List.getElem?_concat_length
    · intro other
      have := h.count other
      simp only [State.outstanding, Serving.pastLimiter, Option.toList_some] at this ⊢
      rw [permitsOut_append, List.countP_append, this, List.countP_singleton]
      simp [eq_comm]
  · simp only [State.step, tryAcquire_none hnone] at hlimits ⊢
    obtain rfl : limits = v.limits := by simpa using hlimits.symm
    exact h

theorem Held.leave {request : Admitted} (h : Held tenants v)
    (hs : v.step (.leave request) = some v') : Held tenants v' := by
  simp only [Serving.step] at hs
  split at hs
  · rename_i hmem
    obtain ⟨limits, hlimits, rfl⟩ := Option.map_eq_some_iff.mp hs
    have hout := h.out request hmem
    have hreleases : limits.releases = v.limits.releases.set request.release
        ⟨request.tenantID, true⟩ := by
      simp only [State.step, hout, Option.map_some, Option.some.injEq] at hlimits
      rw [← hlimits]
      rfl
    refine ⟨.step h.reach hlimits, h.nodup.erase _, ?_, ?_⟩
    · intro other hother
      obtain ⟨hne, hother⟩ := h.nodup.mem_erase_iff.mp hother
      have hkept := h.out other hother
      have hrelease : request.release ≠ other.release := by
        intro heq
        rw [heq, hkept] at hout
        have htenant : other.tenantID = request.tenantID := by simpa using hout
        exact hne (by cases other; cases request; simp_all)
      rwa [hreleases, List.getElem?_set_ne hrelease]
    · intro other
      have hcount := h.count other
      have hset := permitsOut_set hout other
      have herase := (List.perm_cons_erase hmem).countP_eq fun r => decide (r.tenantID = other)
      simp only [State.outstanding, Serving.pastLimiter] at hcount ⊢
      rw [hreleases]
      rw [List.countP_cons] at herase
      simp only [decide_eq_true_eq, eq_comm (a := other)] at herase hset
      omega
  · cases hs

theorem held_inductive (tenants : List Tenant) : (serving tenants).Inductive (Held tenants) where
  init v h := by
    obtain ⟨hinit, hadmitted⟩ := h
    refine ⟨.init hinit, by simp [hadmitted], by simp [hadmitted], fun tenantID => ?_⟩
    simp [Serving.pastLimiter, State.outstanding, permitsOut, hadmitted, hinit.2]
  step v event v' h hs := by
    cases event with
    | arrive tenantID => exact h.arrive hs
    | leave request => exact h.leave hs

/-- The limit holds in every run of the calls, and so for the requests past the limiter. -/
theorem concurrency_limit (tenants : List Tenant) :
    (∀ s, (system tenants).Reach s →
      (∀ tenant ∈ tenants,
        s.available tenant.id = tenant.maxConcurrent - s.outstanding tenant.id ∧
        0 ≤ s.available tenant.id ∧ s.available tenant.id ≤ tenant.maxConcurrent ∧
        ((s.limiter.tryAcquire tenant.id).2.isSome ↔
          s.outstanding tenant.id < tenant.maxConcurrent)) ∧
      (∀ tenantID, (∀ tenant ∈ tenants, tenant.id ≠ tenantID) →
        (s.limiter.tryAcquire tenantID).2 = none) ∧
      (∀ call s' tenantID, s.step call = some s' → s.tenantOf call ≠ some tenantID →
        s'.available tenantID = s.available tenantID ∧
          s'.outstanding tenantID = s.outstanding tenantID)) ∧
    (∀ v, (serving tenants).Reach v → ∀ tenant ∈ tenants,
      v.pastLimiter tenant.id ≤ tenant.maxConcurrent) := by
  have hlimit : ∀ s, (system tenants).Reach s → ∀ tenant ∈ tenants,
      s.available tenant.id = tenant.maxConcurrent - s.outstanding tenant.id ∧
        0 ≤ s.available tenant.id := by
    intro s hs tenant htenant
    have h := (balanced_inductive tenants).reach hs
    have havail := h.available tenant.id
    rw [h.entry tenant htenant] at havail
    exact ⟨havail, h.nonneg tenant.id⟩
  refine ⟨fun s hs => ⟨?_, ?_, ?_⟩, ?_⟩
  · intro tenant htenant
    obtain ⟨havail, hnonneg⟩ := hlimit s hs tenant htenant
    refine ⟨havail, hnonneg, by omega, ?_⟩
    rw [tryAcquire_isSome]
    omega
  · intro tenantID hunknown
    have h := (balanced_inductive tenants).reach hs
    have havail := h.available tenantID
    rw [h.unknown tenantID hunknown] at havail
    have hacquire := tryAcquire_isSome s tenantID
    rw [← Option.not_isSome_iff_eq_none, hacquire]
    omega
  · intro call s' tenantID hstep hother
    exact step_frame hstep hother
  · intro v hv tenant htenant
    have hheld := (held_inductive tenants).reach hv
    obtain ⟨havail, hnonneg⟩ := hlimit v.limits hheld.reach tenant htenant
    rw [hheld.count]
    omega

/-- Two releases of one permit give it back once. -/
example :
    (do
      let limiter ← (Limiter.new [⟨"a", 2⟩]).toOption
      let s ← [Call.tryAcquire "a", .tryAcquire "a", .release 0, .release 0].foldlM State.step
        ⟨limiter, []⟩
      return (s.available "a", s.outstanding "a")) = some (1, 1) := by
  decide

end Kavora.Limits
