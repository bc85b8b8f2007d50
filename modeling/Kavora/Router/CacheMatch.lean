import Mathlib.Algebra.Order.BigOperators.Group.List
import Mathlib.Algebra.Order.Ring.Int
import Mathlib.Data.List.TakeWhile
import Kavora.Router.CacheIndex

/-!
# Matches against the KV index

A match reads what the backend holds, and moves the entries that it reads to the front.

* `KVEventProvider.matchCache_spec`: a match moves entries only.
* `KVEventProvider.heldEvidence`: the evidence as a function of what the backend holds;
  `matchCache_evidence` says that a match returns it.
* `KVEventProvider.foldl_wrap64`: the tokens of the keys that a match counts.
-/

namespace Kavora.Router

open Lib Lib.Go BackendState

namespace KVEventProvider

variable {F : Type} {p : KVEventProvider F} {now : Time}

/-! ## The provider after a match -/

/-- A match of keys moves entries only. -/
theorem matchKeys_spec (backendID : String) (now : Time) : ∀ (keys : List String)
    {p : KVEventProvider F} (matched : Int) (latest : Time), p.Indexed →
    ∃ entries, (matchKeys backendID now keys p matched latest).2.2 = { p with entries } ∧
      LinkedMap.WF (·.key) entries ∧ entries.view.length = p.entries.view.length ∧
      ∀ key, entries.find key = p.entries.find key
  | [], p, matched, latest, h => ⟨p.entries, rfl, h.wf, rfl, fun _ => rfl⟩
  | key :: keys, p, matched, latest, h => by
    unfold matchKeys
    split
    · exact ⟨p.entries, rfl, h.wf, rfl, fun _ => rfl⟩
    · rename_i element entry hfind
      split
      · exact ⟨p.entries, rfl, h.wf, rfl, fun _ => rfl⟩
      · obtain ⟨hmem, -⟩ := h.wf.find_eq_some.mp hfind
        have hlength : (p.entries.moveToFront element).view.length = p.entries.view.length := by
          unfold LinkedMap.view LinkedMap.moveToFront
          rw [List.length_map, List.length_map]
          exact (h.wf.touch_perm hmem).length_eq
        have hmoved : ({ p with entries := p.entries.moveToFront element }).Indexed :=
          ⟨h.wf.moveToFront hmem, hlength.trans_le h.bound⟩
        obtain ⟨entries, hentries, hwf, hlen, hsame⟩ := matchKeys_spec backendID now keys
          (wrap64 (matched + maxInt entry.event.matchedTokens 0)) entry.event.observedAt hmoved
        exact ⟨entries, hentries, hwf, hlen.trans hlength, fun key =>
          (hsame key).trans LinkedMap.find_moveToFront⟩

/-- A match moves entries only. -/
theorem matchCache_spec [Float64 F] (h : p.Indexed) (now : Time) (request : CacheMatchRequest)
    (backendID : String) :
    ∃ entries, (p.matchCache now request backendID).2 = { p with entries } ∧
      LinkedMap.WF (·.key) entries ∧ entries.view.length = p.entries.view.length ∧
      ∀ key, entries.find key = p.entries.find key := by
  unfold matchCache
  split
  · exact ⟨p.entries, rfl, h.wf, rfl, fun _ => rfl⟩
  split
  · obtain ⟨entries, hentries, hspec⟩ :=
      matchKeys_spec backendID now request.externalCacheKeys 0 Time.zero h
    refine ⟨entries, ?_, hspec⟩
    unfold matchExternalPrefix
    dsimp only
    split
    · exact hentries
    · exact hentries
  split
  · exact ⟨p.entries, rfl, h.wf, rfl, fun _ => rfl⟩
  · rename_i element entry hfind
    obtain ⟨hmem, -⟩ := h.wf.find_eq_some.mp hfind
    refine ⟨p.entries.moveToFront element, rfl, h.wf.moveToFront hmem, ?_, fun key =>
      LinkedMap.find_moveToFront⟩
    unfold LinkedMap.view LinkedMap.moveToFront
    rw [List.length_map, List.length_map]
    exact (h.wf.touch_perm hmem).length_eq

/-! ## The evidence -/

/-- The event counts for its key: it is fresh and not too old. -/
def Usable (ttl : Duration) (now : Time) (event : KVEvent) : Bool :=
  event.quality = .fresh && now.sub event.observedAt ≤ ttl

/-- The keys that a match counts: those that the backend holds, up to the first one without a usable
event. -/
def usablePrefix (ttl : Duration) (now : Time) (held : String → Option KVEvent)
    (keys : List String) : List String :=
  keys.takeWhile fun key => (held key).any (Usable ttl now)

/-- The tokens of a key that a backend holds. -/
def heldTokens (held : String → Option KVEvent) (key : String) : Int :=
  (held key).elim 0 fun event => maxInt event.matchedTokens 0

/-- The time of the last key. -/
def latestOf (held : String → Option KVEvent) (keys : List String) (latest : Time) : Time :=
  keys.foldl (fun latest key => (held key).elim latest (·.observedAt)) latest

theorem usablePrefix_cons {ttl : Duration} {held : String → Option KVEvent} {key : String}
    {keys : List String} {event : KVEvent} (hheld : held key = some event)
    (husable : Usable ttl now event = true) :
    usablePrefix ttl now held (key :: keys) = key :: usablePrefix ttl now held keys := by
  unfold usablePrefix
  rw [List.takeWhile_cons_of_pos]
  rw [hheld]
  exact husable

theorem usablePrefix_stop {ttl : Duration} {held : String → Option KVEvent} {key : String}
    {keys : List String} (hstop : (held key).any (Usable ttl now) = false) :
    usablePrefix ttl now held (key :: keys) = [] := by
  unfold usablePrefix
  rw [List.takeWhile_cons_of_neg]
  rw [hstop]
  exact Bool.false_ne_true

theorem held_moveToFront (backendID : String) (element : Nat) :
    ({ p with entries := p.entries.moveToFront element }).held backendID = p.held backendID := by
  funext key
  unfold held
  rw [LinkedMap.find_moveToFront]

/-- A match of keys reads what the backend holds. -/
theorem matchKeys_eq (backendID : String) (now : Time) : ∀ (keys : List String)
    {p : KVEventProvider F} (matched : Int) (latest : Time),
    (matchKeys backendID now keys p matched latest).1 =
        (usablePrefix p.ttl now (p.held backendID) keys).foldl
          (fun matched key => wrap64 (matched + heldTokens (p.held backendID) key)) matched ∧
      (matchKeys backendID now keys p matched latest).2.1 =
        latestOf (p.held backendID) (usablePrefix p.ttl now (p.held backendID) keys) latest
  | [], _, _, _ => ⟨rfl, rfl⟩
  | key :: keys, p, matched, latest => by
    unfold matchKeys
    cases hfind : p.entries.find (backendKey backendID key) with
    | none =>
      have hstop : (p.held backendID key).any (Usable p.ttl now) = false := by
        unfold held
        rw [hfind]
        rfl
      rw [usablePrefix_stop hstop]
      exact ⟨rfl, rfl⟩
    | some found =>
      obtain ⟨element, entry⟩ := found
      have hheld : p.held backendID key = some entry.event := by
        unfold held
        rw [hfind]
        rfl
      dsimp only
      by_cases hskip : now.sub entry.event.observedAt > p.ttl ∨ entry.event.quality ≠ .fresh
      · have hstop : (p.held backendID key).any (Usable p.ttl now) = false := by
          rw [hheld]
          simp only [Option.any_some, Usable]
          grind
        rw [if_pos hskip, usablePrefix_stop hstop]
        exact ⟨rfl, rfl⟩
      · have husable : Usable p.ttl now entry.event = true := by
          unfold Usable
          grind
        obtain ⟨hmatched, hlatest⟩ := matchKeys_eq backendID now keys
          (p := { p with entries := p.entries.moveToFront element })
          (wrap64 (matched + maxInt entry.event.matchedTokens 0)) entry.event.observedAt
        rw [held_moveToFront] at hmatched hlatest
        rw [if_neg hskip, usablePrefix_cons hheld husable, List.foldl_cons, hmatched, hlatest]
        unfold heldTokens latestOf
        rw [List.foldl_cons, hheld]
        exact ⟨rfl, rfl⟩

/-- The evidence of a match that counted `matched` tokens. -/
def countedEvidence [Float64 F] (lambda : F) (now : Time) (request : CacheMatchRequest)
    (matched : Int) (latest : Time) : CacheEvidence F :=
  if matched = 0 then missingCacheEvidence .kvEvents
  else
    let matched :=
      if request.promptTokens > 0 ∧ matched > request.promptTokens then request.promptTokens
      else matched
    { matchedTokens := matched
      matchRatio :=
        if request.promptTokens > 0 then ratioOf matched request.promptTokens
        else Float64.ofInt 0
      source := .kvEvents
      observedAt := latest
      quality := .fresh
      confidence := confidenceForAge (ageAt now latest) lambda
      evidenceQuality := .strict }

/-- The evidence for a request on a backend that holds `held`. -/
def heldEvidence [Float64 F] (p : KVEventProvider F) (now : Time) (request : CacheMatchRequest)
    (held : String → Option KVEvent) : CacheEvidence F :=
  if request.cacheKey = "" ∧ request.externalCacheKeys = [] then missingCacheEvidence .kvEvents
  else if request.externalCacheKeys ≠ [] then
    let keys := usablePrefix p.ttl now held request.externalCacheKeys
    countedEvidence p.lambda now request
      (keys.foldl (fun matched key => wrap64 (matched + heldTokens held key)) 0)
      (latestOf held keys Time.zero)
  else
    match held request.cacheKey with
    | none => missingCacheEvidence .kvEvents
    | some event => p.entryEvidence now request event

theorem matchExternalPrefix_evidence [Float64 F] (h : p.Indexed) (now : Time)
    (request : CacheMatchRequest) (backendID : String) :
    (p.matchExternalPrefix now request backendID).1 = countedEvidence p.lambda now request
      (matchKeys backendID now request.externalCacheKeys p 0 Time.zero).1
      (matchKeys backendID now request.externalCacheKeys p 0 Time.zero).2.1 := by
  obtain ⟨entries, hentries, -⟩ :=
    matchKeys_spec backendID now request.externalCacheKeys 0 Time.zero h
  unfold matchExternalPrefix countedEvidence
  dsimp only
  rw [hentries]
  split
  · rfl
  · rfl

/-- A match returns the evidence of what the backend holds. -/
theorem matchCache_evidence [Float64 F] (h : p.Indexed) (now : Time) (request : CacheMatchRequest)
    (backendID : String) :
    (p.matchCache now request backendID).1 = p.heldEvidence now request (p.held backendID) := by
  unfold matchCache heldEvidence
  split
  · rfl
  split
  · obtain ⟨hmatched, hlatest⟩ :=
      matchKeys_eq backendID now request.externalCacheKeys (p := p) 0 Time.zero
    rw [matchExternalPrefix_evidence h, hmatched, hlatest]
  · cases hfind : p.entries.find (backendKey backendID request.cacheKey) with
    | none =>
      have hnone : p.held backendID request.cacheKey = none := by
        unfold held
        rw [hfind]
        rfl
      rw [hnone]
    | some found =>
      have hsome : p.held backendID request.cacheKey = some found.2.event := by
        unfold held
        rw [hfind]
        rfl
      rw [hsome]

/-! ## The tokens that a match counts -/

theorem heldTokens_nonneg (held : String → Option KVEvent) (key : String) :
    0 ≤ heldTokens held key := by
  unfold heldTokens
  cases held key with
  | none => exact le_rfl
  | some event =>
    show 0 ≤ maxInt event.matchedTokens 0
    unfold maxInt
    split <;> omega

/-- A sum of counts wraps around as a whole. -/
theorem foldl_wrap64_eq (tokens : String → Int) (keys : List String) (matched : Int) :
    keys.foldl (fun matched key => wrap64 (matched + tokens key)) (wrap64 matched) =
      wrap64 (matched + (keys.map tokens).sum) := by
  induction keys generalizing matched with
  | nil => simp
  | cons key keys ih =>
    have hwrap : wrap64 (wrap64 matched + tokens key) = wrap64 (matched + tokens key) :=
      Int.bmod_add_bmod
    rw [List.foldl_cons, hwrap, ih, List.map_cons, List.sum_cons, add_assoc]

theorem wrap64_nonneg_iff (n : Int) : 0 ≤ wrap64 n ↔ n % 2 ^ 64 < 2 ^ 63 := by
  unfold wrap64
  rw [Int.bmod_def]
  split
  · omega
  · omega

theorem wrap64_eq_zero_iff (n : Int) : wrap64 n = 0 ↔ n % 2 ^ 64 = 0 := by
  unfold wrap64
  rw [Int.bmod_def]
  split
  · omega
  · omega

/-- A sum of counts that fits into 64 bits. -/
theorem foldl_wrap64 {tokens : String → Int} (htokens : ∀ key, 0 ≤ tokens key) :
    ∀ (keys : List String) (matched : Int), 0 ≤ matched →
      matched + (keys.map tokens).sum < 2 ^ 63 →
      keys.foldl (fun matched key => wrap64 (matched + tokens key)) matched =
        matched + (keys.map tokens).sum
  | [], matched, _, _ => by simp
  | key :: keys, matched, hmatched, hroom => by
    have hkey := htokens key
    have hrest : 0 ≤ (keys.map tokens).sum :=
      List.sum_nonneg fun n hn => by
        obtain ⟨key, -, rfl⟩ := List.mem_map.mp hn
        exact htokens key
    rw [List.map_cons, List.sum_cons] at hroom
    have hwrap : wrap64 (matched + tokens key) = matched + tokens key :=
      wrap64_of_fits (by omega) (by omega)
    rw [List.foldl_cons, hwrap, foldl_wrap64 htokens keys _ (by omega) (by omega), List.map_cons,
      List.sum_cons]
    omega

/-- The capped sum. -/
theorem countedEvidence_matchedTokens [Float64 F] (lambda : F) (now : Time)
    (request : CacheMatchRequest) {matched : Int} (hmatched : 0 ≤ matched) (latest : Time) :
    (countedEvidence lambda now request matched latest).matchedTokens =
      if request.promptTokens > 0 ∧ matched > request.promptTokens then request.promptTokens
      else matched := by
  unfold countedEvidence
  split
  · rename_i hzero
    subst hzero
    rw [if_neg (by omega)]
    rfl
  · rfl

/-- Where the backend holds usable events of one size only, a match counts the keys up to the first
one that it does not hold. -/
theorem matchKeys_matched {tokens : Int} (htokens : 0 ≤ tokens) (backendID : String) (now : Time)
    (keys : List String) (latest : Time)
    (hheld : ∀ key event, p.held backendID key = some event → event.matchedTokens = tokens ∧
      event.quality = .fresh ∧ now.sub event.observedAt ≤ p.ttl)
    (hroom : tokens * keys.length < 2 ^ 63) :
    (matchKeys backendID now keys p 0 latest).1 =
      tokens * (keys.takeWhile fun key => (p.held backendID key).isSome).length := by
  have husable : (fun key => (p.held backendID key).any (Usable p.ttl now)) =
      fun key => (p.held backendID key).isSome := by
    funext key
    cases hkey : p.held backendID key with
    | none => rfl
    | some event =>
      obtain ⟨-, hquality, hage⟩ := hheld key event hkey
      simp [Usable, hquality, hage]
  have hsum : ((keys.takeWhile fun key => (p.held backendID key).isSome).map
      (heldTokens (p.held backendID))).sum =
        tokens * (keys.takeWhile fun key => (p.held backendID key).isSome).length := by
    rw [List.map_congr_left (g := fun _ => tokens), List.map_const', List.sum_replicate,
      nsmul_eq_mul, mul_comm]
    intro key hkey
    have hsome := List.mem_takeWhile_imp (p := fun key => (p.held backendID key).isSome) hkey
    obtain ⟨event, hevent⟩ := Option.isSome_iff_exists.mp hsome
    obtain ⟨hmatched, -, -⟩ := hheld key event hevent
    unfold heldTokens
    rw [hevent]
    show maxInt event.matchedTokens 0 = tokens
    rw [hmatched]
    unfold maxInt
    split <;> omega
  have hlength : tokens * ((keys.takeWhile fun key => (p.held backendID key).isSome).length : Int) ≤
      tokens * keys.length :=
    Int.mul_le_mul_of_nonneg_left (Int.ofNat_le.mpr (List.takeWhile_prefix _).length_le) htokens
  rw [(matchKeys_eq backendID now keys 0 latest).1]
  unfold usablePrefix
  rw [husable, foldl_wrap64 (heldTokens_nonneg _) _ _ le_rfl (by rw [hsum]; omega), hsum, zero_add]

end KVEventProvider

end Kavora.Router
