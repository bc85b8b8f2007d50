import Kavora.Backend.Registry

/-!
# The rotation of the candidates

`Candidates` puts the backend first whose slot the cursor is at: in the order of their IDs, each
backend of the model has as many consecutive slots as its weight. All models share the cursor, and
each call that finds candidates moves it.

* `candidates_turn`: what one call returns, and in how many iterations.
* `firstsFor_eq`: the first backends of the calls for a model, by the places of these calls among
  the calls that move the cursor.
* `fair_of_spaced`: a window of calls for a model is fair if the other calls between them move the
  cursor by whole rotations.
* `rotation_fair_iff`: a window is fair if and only if its calls meet the slots as often as needed.
-/

namespace Kavora.Backends

open Lib Lib.Go

/-! ## Slots -/

/-- The first slot of a backend. -/
def firstSlot (backends : List Backend) (id : String) : Nat :=
  ((backends.takeWhile fun backend => backend.id ≠ id).map (·.weight)).sum

/-- The slot is one of the backend's. -/
def HasSlot (backends : List Backend) (backend : Backend) (slot : Nat) : Prop :=
  firstSlot backends backend.id ≤ slot ∧
    slot < firstSlot backends backend.id + backend.weight

instance (backends : List Backend) (backend : Backend) (slot : Nat) :
    Decidable (HasSlot backends backend slot) := inferInstanceAs (Decidable (_ ∧ _))

/-- The backends of the slots. -/
def slots (backends : List Backend) : List Backend :=
  backends.flatMap fun backend => List.replicate backend.weight backend

theorem length_slots (backends : List Backend) :
    (slots backends).length = (backends.map (·.weight)).sum := by
  unfold slots
  rw [List.length_flatMap]
  simp

theorem slots_cons (a : Backend) (backends : List Backend) :
    slots (a :: backends) = List.replicate a.weight a ++ slots backends := rfl

theorem mem_slots_id {backends : List Backend} {b : Backend} (h : b ∈ slots backends) :
    b.id ∈ backends.map (·.id) := by
  obtain ⟨a, ha, hb⟩ := List.mem_flatMap.mp h
  rw [List.eq_of_mem_replicate hb]
  exact List.mem_map_of_mem ha

/-- The backend at a slot. -/
theorem slots_id_iff {backends : List Backend} (hids : (backends.map (·.id)).Nodup)
    {b : Backend} (hb : b ∈ backends) (slot : Nat) :
    (∃ c, (slots backends)[slot]? = some c ∧ c.id = b.id) ↔ HasSlot backends b slot := by
  induction backends generalizing slot with
  | nil => cases hb
  | cons a backends ih =>
    rw [List.map_cons, List.nodup_cons] at hids
    unfold HasSlot firstSlot
    rw [slots_cons, List.takeWhile_cons]
    by_cases hid : a.id = b.id
    · obtain rfl : b = a := by
        rcases List.mem_cons.mp hb with rfl | hb
        · rfl
        · exact absurd (hid ▸ List.mem_map_of_mem hb) hids.1
      simp only [ne_eq, not_true_eq_false, decide_false, Bool.false_eq_true, if_false, List.map_nil,
        List.sum_nil, Nat.zero_le, Nat.zero_add, true_and]
      by_cases hslot : slot < b.weight
      · refine iff_of_true ⟨b, ?_, rfl⟩ hslot
        rw [List.getElem?_append_left (by simpa using hslot), List.getElem?_replicate,
          if_pos hslot]
      · refine iff_of_false ?_ hslot
        rintro ⟨c, hc, hcid⟩
        rw [List.getElem?_append_right (by simpa using hslot)] at hc
        exact hids.1 (hcid ▸ mem_slots_id (List.mem_of_getElem? hc))
    · have hb : b ∈ backends := by
        rcases List.mem_cons.mp hb with rfl | hb
        · exact absurd rfl hid
        · exact hb
      simp only [ne_eq, hid, not_false_eq_true, decide_true, if_true, List.map_cons, List.sum_cons]
      by_cases hslot : slot < a.weight
      · refine iff_of_false ?_ (by omega)
        rintro ⟨c, hc, hcid⟩
        rw [List.getElem?_append_left (by simpa using hslot), List.getElem?_replicate,
          if_pos hslot] at hc
        obtain rfl := Option.some.inj hc
        exact hid hcid
      · have hrest := ih hids.2 hb (slot - a.weight)
        rw [List.getElem?_append_right (by simpa using hslot), List.length_replicate, hrest]
        unfold HasSlot firstSlot
        simp only [ne_eq]
        omega

/-- A backend has as many slots as its weight. -/
theorem countP_slots {backends : List Backend} (hids : (backends.map (·.id)).Nodup) {b : Backend}
    (hb : b ∈ backends) : (slots backends).countP (·.id = b.id) = b.weight := by
  induction backends with
  | nil => cases hb
  | cons a backends ih =>
    rw [List.map_cons, List.nodup_cons] at hids
    rw [slots_cons, List.countP_append, List.countP_replicate]
    rcases List.mem_cons.mp hb with rfl | hb
    · have hnone : (slots backends).countP (·.id = b.id) = 0 := by
        refine List.countP_eq_zero.mpr fun c hc hcid => hids.1 ?_
        rw [← of_decide_eq_true hcid]
        exact mem_slots_id hc
      rw [hnone]
      simp
    · have hne : a.id ≠ b.id := fun heq => hids.1 (heq ▸ List.mem_map_of_mem hb)
      rw [ih hids.2 hb]
      simp [hne]

/-- The elements of a list by their indices. -/
theorem filterMap_range {α : Type} (l : List α) :
    (List.range l.length).filterMap (fun i => l[i]?) = l := by
  induction l with
  | nil => rfl
  | cons a l ih =>
    rw [List.length_cons, List.range_succ_eq_map, List.filterMap_cons, List.filterMap_map]
    exact congrArg (a :: ·) ih

theorem filterMap_rotate {α : Type} (l : List α) (n : Nat) :
    (List.range l.length).filterMap (fun i => l[(n + i) % l.length]?) = l.rotate n := by
  have hrotate := filterMap_range (l.rotate n)
  rw [List.length_rotate] at hrotate
  rw [← hrotate]
  refine List.filterMap_congr fun i hi => ?_
  rw [List.getElem?_rotate (List.mem_range.mp hi), Nat.add_comm]

/-! ## Calls -/

namespace Registry

/-- The first backends of the calls for `model`, in a sequence of calls. -/
def firstsFor (model : String) : Registry → List String → List Backend
  | _, [] => []
  | registry, m :: calls =>
    (if m = model then (registry.candidates m).1.head?.toList else []) ++
      firstsFor model (registry.candidates m).2 calls

/-- The registry after calls for some models. -/
def afterCalls (registry : Registry) (calls : List String) : Registry :=
  calls.foldl (fun registry m => (registry.candidates m).2) registry

/-- The sum of the weights of the backends of a model. -/
def totalWeight (registry : Registry) (model : String) : Nat :=
  ((registry.matching model).map (·.weight)).sum

/-- A call for the model moves the cursor. -/
def moves (registry : Registry) (model : String) : Bool := registry.weighted model ≠ []

/-- For each call for `model`, how many of the calls before it moved the cursor. -/
def places (moves : String → Bool) (model : String) : Nat → List String → List Nat
  | _, [] => []
  | k, m :: calls =>
    (if m = model then [k] else []) ++ places moves model (if moves m then k + 1 else k) calls

/-- The slot at which a call finds the cursor, after `k` calls that moved it. -/
def slotAt (registry : Registry) (model : String) (k : Nat) : Nat :=
  (registry.cursor + k) % 2 ^ 64 % registry.totalWeight model

/-- Each backend of the model comes first as often as its weight. -/
def Fair (registry : Registry) (model : String) (calls : List String) : Prop :=
  ∀ backend ∈ registry.matching model,
    (firstsFor model registry calls).countP (·.id = backend.id) = backend.weight

/-- The calls for the model find the cursor at the slots of each backend as often as its weight. -/
def SlotsMet (registry : Registry) (model : String) (calls : List String) : Prop :=
  ∀ backend ∈ registry.matching model,
    (places registry.moves model 0 calls).countP (fun k =>
      HasSlot (registry.matching model) backend (registry.slotAt model k)) = backend.weight

/-- Between two calls for the model the others move the cursor by whole rotations. -/
def Spaced (registry : Registry) (model : String) (calls : List String) : Prop :=
  ∀ before gap after, calls = before ++ model :: gap ++ model :: after → model ∉ gap →
    registry.totalWeight model ∣ gap.countP registry.moves

instance (registry : Registry) (model : String) (calls : List String) :
    Decidable (registry.Fair model calls) :=
  inferInstanceAs (Decidable (∀ backend ∈ registry.matching model, _))

variable {registry registry' : Registry} {model : String}

theorem weighted_eq (registry : Registry) (model : String) :
    registry.weighted model = slots (registry.matching model) := rfl

theorem length_weighted (registry : Registry) (model : String) :
    (registry.weighted model).length = registry.totalWeight model :=
  length_slots _

theorem matching_congr (h : registry.entries = registry'.entries) :
    registry.matching = registry'.matching := by
  funext model
  unfold matching
  rw [h]

theorem moves_congr (h : registry.entries = registry'.entries) :
    registry.moves = registry'.moves := by
  funext model
  unfold moves
  rw [weighted_eq, weighted_eq, matching_congr h]

/-- A call moves the cursor or nothing. -/
theorem candidates_after (registry : Registry) (model : String) :
    (registry.candidates model).2.entries = registry.entries ∧
      (registry.candidates model).2.cursor =
        if registry.moves model then (registry.cursor + 1) % 2 ^ 64 else registry.cursor := by
  unfold candidates moves
  dsimp only
  split
  · rename_i hempty
    have hnil := List.eq_nil_of_length_eq_zero hempty
    exact ⟨rfl, by simp [hnil]⟩
  · rename_i hne
    have hcons : registry.weighted model ≠ [] := fun h => hne (by rw [h]; rfl)
    exact ⟨rfl, by simp [hcons]⟩

/-- The first candidate is the backend at the cursor. -/
theorem candidates_head (registry : Registry) (model : String) :
    (registry.candidates model).1.head? =
      (registry.weighted model)[registry.cursor % registry.totalWeight model]? := by
  have hfirst : ∀ l : List Backend, (firsts [] l).head? = l.head? := by
    intro l
    cases l with
    | nil => rfl
    | cons b l => rw [firsts, if_neg List.not_mem_nil, List.head?_cons, List.head?_cons]
  rw [candidates_eq, hfirst, ← length_weighted]
  rcases Nat.eq_zero_or_pos (registry.weighted model).length with hzero | hpos
  · rw [List.eq_nil_of_length_eq_zero hzero]
    rfl
  · exact List.head?_rotate (Nat.mod_lt _ hpos)

/-- **A call takes one turn at most.** Its loop ends within as many iterations as the total weight,
with each backend that the registry offers, once, and the one at the cursor's slot first. -/
theorem candidates_turn (registry : Registry) (model : String) :
    (∀ fuel, registry.totalWeight model ≤ fuel →
      selectLoop (registry.weighted model) (registry.cursor % registry.totalWeight model)
          (registry.matching model).length fuel 0 [] [] = some (registry.candidates model).1) ∧
    ((registry.candidates model).1.map (·.id)).Nodup ∧
    (∀ backend, backend ∈ (registry.candidates model).1 ↔ registry.Offers model backend) ∧
    (registry.candidates model).1.head? =
      (registry.weighted model)[registry.cursor % registry.totalWeight model]? := by
  obtain ⟨hnodup, hmem⟩ := registry.candidates_spec model
  refine ⟨fun fuel hfuel => ?_, hnodup, hmem, candidates_head registry model⟩
  rw [← length_weighted] at hfuel ⊢
  rw [candidates_eq]
  exact selectLoop_fuel hfuel (registry.selectLoop_turn model _)

/-- **The first backends of the calls for a model**, by the places of the calls. -/
theorem firstsFor_eq {c k : Nat} (hcursor : registry.cursor = (c + k) % 2 ^ 64)
    (calls : List String) :
    firstsFor model registry calls =
      (places registry.moves model k calls).filterMap fun k =>
        (registry.weighted model)[(c + k) % 2 ^ 64 % registry.totalWeight model]? := by
  induction calls generalizing registry k with
  | nil => rfl
  | cons m calls ih =>
    obtain ⟨hentries, hnext⟩ := registry.candidates_after m
    have hmatching := matching_congr hentries
    have hnext' : (registry.candidates m).2.cursor =
        (c + if registry.moves m then k + 1 else k) % 2 ^ 64 := by
      rw [hnext, hcursor]
      split
      · rw [Nat.mod_add_mod, Nat.add_assoc]
      · rfl
    rw [firstsFor, places, List.filterMap_append, ih hnext', moves_congr hentries, weighted_eq,
      weighted_eq, totalWeight, totalWeight, hmatching]
    congr 1
    by_cases hm : m = model
    · subst hm
      rw [if_pos rfl, if_pos rfl, candidates_head, hcursor, weighted_eq, totalWeight,
        List.filterMap_cons, List.filterMap_nil]
      split
      · rename_i hnone
        rw [hnone]
        rfl
      · rename_i b hsome
        rw [hsome]
        rfl
    · rw [if_neg hm, if_neg hm]
      rfl

/-- How often a backend comes first, by the slots. -/
theorem countP_firstsFor (hcursor : registry.cursor < 2 ^ 64) {b : Backend}
    (hb : b ∈ registry.matching model) (calls : List String) :
    (firstsFor model registry calls).countP (·.id = b.id) =
      (places registry.moves model 0 calls).countP fun k =>
        HasSlot (registry.matching model) b (registry.slotAt model k) := by
  have hzero : registry.cursor = (registry.cursor + 0) % 2 ^ 64 :=
    (Nat.mod_eq_of_lt hcursor).symm
  rw [firstsFor_eq hzero, List.countP_filterMap]
  refine List.countP_congr fun k _ => ?_
  have hslot := slots_id_iff matching_nodup hb (registry.slotAt model k)
  rw [decide_eq_true_iff, ← hslot, weighted_eq]
  unfold slotAt
  cases (slots (registry.matching model))[(registry.cursor + k) % 2 ^ 64 %
    registry.totalWeight model]? with
  | none => simp
  | some c => simp

/-! ## Windows between which the cursor turns around -/

theorem places_bounds (moves : String → Bool) (model : String) (calls : List String) (k : Nat) :
    ∀ j ∈ places moves model k calls, j < k + calls.length := by
  induction calls generalizing k with
  | nil => exact fun j hj => absurd hj List.not_mem_nil
  | cons m calls ih =>
    intro j hj
    rw [List.length_cons]
    rcases List.mem_append.mp hj with hj | hj
    · split at hj
      · rw [List.mem_singleton.mp hj]
        omega
      · cases hj
    · have := ih _ j hj
      split at this <;> omega

theorem Spaced.tail {m : String} {calls : List String} (h : registry.Spaced model (m :: calls)) :
    registry.Spaced model calls := by
  intro before gap after heq hgap
  exact h (m :: before) gap after (by rw [heq]; rfl) hgap

/-- The calls for the model after the first one follow it by whole rotations. -/
theorem Spaced.dvd {calls : List String} (h : registry.Spaced model (model :: calls))
    (hmem : model ∈ calls) :
    registry.totalWeight model ∣ (calls.takeWhile (· ≠ model)).countP registry.moves := by
  obtain ⟨gap, after, rfl, hgap⟩ := List.eq_append_cons_of_mem hmem
  have htake : (gap ++ model :: after).takeWhile (fun m => decide (m ≠ model)) = gap := by
    rw [List.takeWhile_append_of_pos, List.takeWhile_cons_of_neg, List.append_nil]
    · simp
    · intro m hm
      exact decide_eq_true fun heq => hgap (heq ▸ hm)
  rw [htake]
  exact h [] gap after rfl hgap

/-- The calls for the model meet one slot after the other. -/
theorem Spaced.places_mod {calls : List String} (h : registry.Spaced model calls)
    (hmoves : registry.moves model = true) (c k : Nat) :
    (places registry.moves model k calls).map (fun j => (c + j) % registry.totalWeight model) =
      (List.range (calls.count model)).map fun i =>
        (c + k + (calls.takeWhile (· ≠ model)).countP registry.moves + i) %
          registry.totalWeight model := by
  induction calls generalizing k with
  | nil => rfl
  | cons m calls ih =>
    by_cases hm : m = model
    · subst hm
      rw [places, if_pos rfl, if_pos hmoves, List.takeWhile_cons_of_neg (by simp),
        List.count_cons_self, List.range_succ_eq_map, List.map_append, ih h.tail,
        List.map_singleton, List.map_cons, List.map_map]
      refine congrArg₂ (· :: ·) rfl (List.map_congr_left fun i hi => ?_)
      have hmem : m ∈ calls := by
        refine List.count_pos_iff.mp ?_
        have := List.mem_range.mp hi
        omega
      obtain ⟨q, hq⟩ := h.dvd hmem
      rw [hq, List.countP_nil, Function.comp_apply,
        show c + (k + 1) + registry.totalWeight m * q + i =
          c + k + 0 + i.succ + registry.totalWeight m * q by omega, Nat.add_mul_mod_self_left]
    · rw [places, if_neg hm, List.nil_append, List.takeWhile_cons_of_pos (by simpa using hm),
        List.count_cons_of_ne hm, ih h.tail, List.countP_cons]
      refine List.map_congr_left fun i _ => ?_
      congr 1
      split <;> omega

/-- **A window whose other calls move the cursor by whole rotations is fair.** -/
theorem fair_of_spaced (hcursor : registry.cursor < 2 ^ 64) {calls : List String}
    (hcount : calls.count model = registry.totalWeight model)
    (hspaced : registry.Spaced model calls)
    (hwrap : registry.cursor + calls.length ≤ 2 ^ 64 ∨ registry.totalWeight model ∣ 2 ^ 64) :
    registry.Fair model calls := by
  intro b hb
  have hweighted : registry.weighted model ≠ [] := by
    intro hnil
    have hmem := mem_weighted.mpr hb
    rw [hnil] at hmem
    cases hmem
  have hmoves : registry.moves model = true := decide_eq_true hweighted
  -- The wrap of the cursor does not show in the slots.
  have hslot : ∀ k ∈ places registry.moves model 0 calls,
      registry.slotAt model k = (registry.cursor + k) % registry.totalWeight model := by
    intro k hk
    unfold slotAt
    rcases hwrap with hroom | hdvd
    · have := places_bounds _ _ _ _ k hk
      rw [Nat.mod_eq_of_lt (show registry.cursor + k < 2 ^ 64 by omega)]
    · exact Nat.mod_mod_of_dvd _ hdvd
  have hmap : (places registry.moves model 0 calls).map (registry.slotAt model) =
      (List.range (registry.totalWeight model)).map fun i =>
        (registry.cursor + 0 + (calls.takeWhile (· ≠ model)).countP registry.moves + i) %
          registry.totalWeight model := by
    rw [List.map_congr_left hslot, hspaced.places_mod hmoves, hcount]
  generalize registry.cursor + 0 + (calls.takeWhile (· ≠ model)).countP registry.moves = start
    at hmap
  have hzero : registry.cursor = (registry.cursor + 0) % 2 ^ 64 :=
    (Nat.mod_eq_of_lt hcursor).symm
  have hfirsts : firstsFor model registry calls = (registry.weighted model).rotate start := by
    have hrotate := filterMap_rotate (registry.weighted model) start
    rw [length_weighted] at hrotate
    rw [firstsFor_eq hzero, ← hrotate]
    have := congrArg (List.filterMap fun slot => (registry.weighted model)[slot]?) hmap
    rw [List.filterMap_map, List.filterMap_map] at this
    exact this
  rw [hfirsts, ((registry.weighted model).rotate_perm start).countP_eq, weighted_eq,
    countP_slots matching_nodup hb]

/-! ## Runs -/

theorem afterCalls_entries (registry : Registry) (calls : List String) :
    (registry.afterCalls calls).entries = registry.entries ∧
      (registry.cursor < 2 ^ 64 → (registry.afterCalls calls).cursor < 2 ^ 64) ∧
      (registry.afterCalls calls).cursor ≤ registry.cursor + calls.length := by
  induction calls generalizing registry with
  | nil => exact ⟨rfl, id, Nat.le_refl _⟩
  | cons m calls ih =>
    obtain ⟨hentries, hcursor⟩ := registry.candidates_after m
    obtain ⟨hrest, hlt, hle⟩ := ih (registry.candidates m).2
    refine ⟨hrest.trans hentries, fun hstart => hlt ?_, Nat.le_trans hle ?_⟩
    · rw [hcursor]
      split
      · exact Nat.mod_lt _ (by decide)
      · exact hstart
    · rw [hcursor, List.length_cons]
      split
      · have := Nat.mod_le (registry.cursor + 1) (2 ^ 64)
        omega
      · omega

theorem Spaced.window {before window after : List String}
    (h : registry.Spaced model (before ++ window ++ after)) : registry.Spaced model window := by
  intro first gap rest heq hgap
  refine h (before ++ first) gap (rest ++ after) ?_ hgap
  rw [heq]
  simp

theorem Spaced.congr (h : registry.entries = registry'.entries) {calls : List String}
    (hspaced : registry.Spaced model calls) : registry'.Spaced model calls := by
  unfold Spaced totalWeight at hspaced ⊢
  rwa [← matching_congr h, ← moves_congr h]

/-- **Fair windows.** A window of calls for a model is fair if and only if they meet the slots of
each backend as often as its weight; so is every window of a run whose other calls move the cursor
by whole rotations, as long as the cursor does not wrap around in the middle of one. -/
theorem rotation_fair_iff (registry : Registry) (hcursor : registry.cursor < 2 ^ 64)
    (model : String) :
    (∀ before window, window.count model = registry.totalWeight model →
      ((registry.afterCalls before).Fair model window ↔
        (registry.afterCalls before).SlotsMet model window)) ∧
    (∀ calls, registry.Spaced model calls →
      registry.cursor + calls.length ≤ 2 ^ 64 ∨ registry.totalWeight model ∣ 2 ^ 64 →
      ∀ before window after, calls = before ++ window ++ after →
        window.count model = registry.totalWeight model →
        (registry.afterCalls before).Fair model window) := by
  refine ⟨fun before window _ => ?_, ?_⟩
  · have hcursor' := (registry.afterCalls_entries before).2.1 hcursor
    unfold Fair SlotsMet
    refine forall₂_congr fun b hb => ?_
    rw [countP_firstsFor hcursor' hb]
  · rintro calls hspaced hwrap before window after rfl hcount
    obtain ⟨hentries, hlt, hle⟩ := registry.afterCalls_entries before
    have htotal : (registry.afterCalls before).totalWeight model = registry.totalWeight model := by
      unfold totalWeight
      rw [matching_congr hentries]
    refine fair_of_spaced (hlt hcursor) (by rw [hcount, htotal])
      (hspaced.window.congr hentries.symm) ?_
    rw [htotal]
    refine hwrap.imp_left fun hroom => ?_
    rw [List.length_append, List.length_append] at hroom
    omega

end Registry

namespace RotationSample

def env : Externals where
  parseUrl text := some { scheme := "http", host := text, text }
  quote text := text

/-- Two backends for all models. -/
def configs : List Config :=
  ["a", "b"].map fun id =>
    { id, url := id, enabled := none, weight := 1, models := [], healthPath := "", attributes := ∅ }

/-- What a property says of the registry. -/
theorem exists_registry {p : Registry → Bool}
    (h : (Registry.new env configs).toOption.map p = some true) :
    ∃ registry, Registry.new env configs = .ok registry ∧ p registry = true := by
  cases hnew : Registry.new env configs with
  | error e =>
    rw [hnew] at h
    cases h
  | ok registry =>
    rw [hnew] at h
    exact ⟨registry, rfl, Option.some.inj h⟩

/-- A call for another model between two calls takes the turn of the second backend. -/
theorem not_fair_between_models :
    ∃ registry, Registry.new env configs = .ok registry ∧
      ["m", "n", "m"].count "m" = registry.totalWeight "m" ∧
      ¬ registry.Fair "m" ["m", "n", "m"] := by
  obtain ⟨registry, hnew, hp⟩ := exists_registry (p := fun registry =>
    registry.totalWeight "m" = 2 ∧ ¬ registry.Fair "m" ["m", "n", "m"]) (by decide +kernel)
  obtain ⟨htotal, hfair⟩ := of_decide_eq_true hp
  exact ⟨registry, hnew, htotal.symm, hfair⟩

theorem rotation_fair_sample :
    ∃ registry, Registry.new env configs = .ok registry ∧
      (registry.SlotsMet "m" ["m", "n", "n", "m"] ↔
        registry.Fair "m" ["m", "n", "n", "m"]) ∧
      registry.Fair "m" ["m", "n", "n", "m"] := by
  obtain ⟨registry, hnew, hp⟩ := exists_registry (p := fun registry =>
    registry.totalWeight "m" = 2 ∧ registry.cursor < 2 ^ 64 ∧
      registry.Fair "m" ["m", "n", "n", "m"]) (by decide +kernel)
  obtain ⟨htotal, hcursor, hfair⟩ := of_decide_eq_true hp
  obtain ⟨hiff, -⟩ := Registry.rotation_fair_iff registry hcursor "m"
  exact ⟨registry, hnew, (hiff [] ["m", "n", "n", "m"] htotal.symm).symm, hfair⟩

end RotationSample

end Kavora.Backends
