import Kavora.Lib.Go

/-!
# A map with a recency list

`LinkedMap` is a Go map from keys to the elements of a `container/list`: the elements have an
identity, the list holds their values, the most recent one first. A value knows its key.

* `WF`: the map and the list hold the same elements.
* `view`: the values in order. Each operation on a well-formed map is an operation on the view:
  `Recency.touch`, `Recency.put`, `Recency.erase`, a filter, or `List.take`.
-/

namespace Kavora.Lib

variable {κ V : Type} [DecidableEq κ]

/-! ## Lists of values, the most recent one first -/

namespace Recency

variable (key : V → κ)

/-- The value under a key. -/
def get (k : κ) (l : List V) : Option V := l.find? fun v => key v = k

/-- The list without the value under a key. -/
def erase (k : κ) (l : List V) : List V := l.filter fun v => key v ≠ k

/-- The value of `k` becomes the most recent one. -/
def touch (k : κ) (l : List V) : List V :=
  match get key k l with
  | some v => v :: erase key k l
  | none => l

/-- The value comes to the front, in place of the one under its key. -/
def put (v : V) (l : List V) : List V := v :: erase key (key v) l

variable {key}

theorem get_eq_some {k : κ} {l : List V} {v : V} (h : get key k l = some v) :
    v ∈ l ∧ key v = k := by
  unfold get at h
  exact ⟨List.mem_of_find?_eq_some h, by simpa using List.find?_some h⟩

theorem get_eq_none {k : κ} {l : List V} : get key k l = none ↔ ∀ v ∈ l, key v ≠ k := by
  unfold get
  rw [List.find?_eq_none]
  simp

theorem get_of_mem {k : κ} {l : List V} {v : V} (hl : (l.map key).Nodup) (hv : v ∈ l)
    (hk : key v = k) : get key k l = some v := by
  cases h : get key k l with
  | none => exact absurd hk (get_eq_none.mp h v hv)
  | some w =>
    obtain ⟨hw, hkw⟩ := get_eq_some h
    rw [List.inj_on_of_nodup_map hl hw hv (hkw.trans hk.symm)]

theorem erase_of_get_none {k : κ} {l : List V} (h : get key k l = none) : erase key k l = l := by
  unfold erase
  rw [List.filter_eq_self]
  intro v hv
  simpa using get_eq_none.mp h v hv

theorem get_erase_self {k : κ} {l : List V} : get key k (erase key k l) = none := by
  rw [get_eq_none]
  intro v hv
  simpa using (List.mem_filter.mp hv).2

theorem get_erase_ne {k k' : κ} {l : List V} (h : k' ≠ k) :
    get key k' (erase key k l) = get key k' l := by
  unfold get erase
  rw [List.find?_filter]
  congr 1
  funext v
  by_cases hv : key v = k'
  · have hne : key v ≠ k := fun heq => h (hv ▸ heq)
    simp [hv, h]
  · simp [hv]

theorem get_put_self {l : List V} {v : V} : get key (key v) (put key v l) = some v := by
  simp [get, put]

theorem get_put_ne {k : κ} {l : List V} {v : V} (h : k ≠ key v) :
    get key k (put key v l) = get key k l := by
  rw [← get_erase_ne (l := l) h]
  unfold get put
  rw [List.find?_cons_of_neg (by simpa using Ne.symm h)]

/-- A filter by keys drops the values of some keys. -/
theorem get_filter {q : κ → Bool} {k : κ} {l : List V} :
    get key k (l.filter fun v => q (key v)) = if q k then get key k l else none := by
  unfold get
  rw [List.find?_filter]
  cases hq : q k with
  | true =>
    rw [if_pos rfl]
    congr 1
    funext v
    by_cases hv : key v = k
    · simp [hv, hq]
    · simp [hv]
  | false =>
    rw [if_neg Bool.false_ne_true, List.find?_eq_none]
    intro v _ hboth
    obtain ⟨hqv, hv⟩ : q (key v) = true ∧ key v = k := by simpa using hboth
    rw [hv, hq] at hqv
    cases hqv

theorem length_put_of_mem {l : List V} {v w : V} (hw : w ∈ l) (hk : key w = key v) :
    (put key v l).length ≤ l.length := by
  have hlt : (erase key (key v) l).length < l.length := by
    unfold erase
    refine List.length_filter_lt_length_iff_exists.mpr ⟨w, hw, ?_⟩
    simp [hk]
  rw [put, List.length_cons]
  omega

theorem get_touch {k k' : κ} {l : List V} : get key k' (touch key k l) = get key k' l := by
  unfold touch
  cases hk : get key k l with
  | none => rfl
  | some v =>
    obtain ⟨hv, rfl⟩ := get_eq_some hk
    by_cases h : k' = key v
    · subst h
      rw [hk]
      simp [get]
    · exact get_put_ne h

theorem touch_eq_put {k : κ} {l : List V} {v : V} (h : get key k l = some v) :
    touch key k l = put key v l := by
  obtain ⟨-, rfl⟩ := get_eq_some h
  rw [touch, h, put]

theorem mem_erase {k : κ} {l : List V} {v : V} : v ∈ erase key k l ↔ v ∈ l ∧ key v ≠ k := by
  simp [erase]

theorem length_put_le {l : List V} {v : V} : (put key v l).length ≤ l.length + 1 :=
  Nat.succ_le_succ (List.length_filter_le _ _)

theorem nodup_erase {k : κ} {l : List V} (h : (l.map key).Nodup) :
    ((erase key k l).map key).Nodup :=
  h.sublist (List.filter_sublist.map _)

theorem nodup_put {l : List V} {v : V} (h : (l.map key).Nodup) :
    ((put key v l).map key).Nodup := by
  refine List.nodup_cons.mpr ⟨fun hmem => ?_, nodup_erase h⟩
  obtain ⟨w, hw, heq⟩ := List.mem_map.mp hmem
  exact (mem_erase.mp hw).2 heq

/-! ### Another representation of the values -/

section Map

variable {κ' W : Type} [DecidableEq κ'] {key' : W → κ'} {f : V → W} {k : κ} {k' : κ'} {l : List V}

theorem get_map (h : ∀ v ∈ l, key' (f v) = k' ↔ key v = k) :
    get key' k' (l.map f) = (get key k l).map f := by
  unfold get
  induction l with
  | nil => rfl
  | cons v l ih =>
    have hiff := h v List.mem_cons_self
    have htail := ih fun w hw => h w (List.mem_cons_of_mem v hw)
    rw [List.map_cons, List.find?_cons, List.find?_cons, htail]
    by_cases hk : key v = k
    · simp [hk, hiff.mpr hk]
    · simp [hk, mt hiff.mp hk]

theorem erase_map (h : ∀ v ∈ l, key' (f v) = k' ↔ key v = k) :
    erase key' k' (l.map f) = (erase key k l).map f := by
  unfold erase
  rw [List.filter_map]
  congr 1
  refine List.filter_congr fun v hv => ?_
  simp [h v hv]

theorem put_map {w : V} (h : ∀ v ∈ l, key' (f v) = key' (f w) ↔ key v = key w) :
    put key' (f w) (l.map f) = (put key w l).map f := by
  rw [put, erase_map h, put, List.map_cons]

theorem touch_map (h : ∀ v ∈ l, key' (f v) = k' ↔ key v = k) :
    touch key' k' (l.map f) = (touch key k l).map f := by
  rw [touch, get_map h, touch]
  cases get key k l with
  | none => rfl
  | some v => rw [Option.map_some, List.map_cons, ← erase_map h]

end Map

end Recency

/-! ## The map and the list -/

/-- A map to the elements of a linked list (`container/list`). -/
structure LinkedMap (κ V : Type) where
  /-- The map from keys to elements. -/
  values : Go.Map κ Nat
  /-- The list of elements with their values, the front first. -/
  order : List (Nat × V)
  /-- The next new element. -/
  next : Nat

namespace LinkedMap

/-- A map and a list without elements. -/
def empty : LinkedMap κ V where
  values := ∅
  order := []
  next := 0

/-- The element of `k` and its value. -/
def find (t : LinkedMap κ V) (k : κ) : Option (Nat × V) :=
  (t.values.lookup k).bind fun e => Recency.get (·.1) e t.order

/-- `len` of the map. -/
def len (t : LinkedMap κ V) : Nat := t.values.entries.length

/-- `MoveToFront`. -/
def moveToFront (t : LinkedMap κ V) (e : Nat) : LinkedMap κ V :=
  { t with order := Recency.touch (·.1) e t.order }

/-- `e.Value = v`. -/
def setValue (t : LinkedMap κ V) (e : Nat) (v : V) : LinkedMap κ V :=
  { t with order := t.order.map fun x => if x.1 = e then (e, v) else x }

/-- `PushFront` of a value, and the new element under `k`. -/
def pushFront (t : LinkedMap κ V) (k : κ) (v : V) : LinkedMap κ V where
  values := t.values.insert k t.next
  order := (t.next, v) :: t.order
  next := t.next + 1

/-- `delete` of the key and `Remove` of the element. -/
def delete (t : LinkedMap κ V) (k : κ) (e : Nat) : LinkedMap κ V :=
  { t with values := t.values.erase k, order := Recency.erase (·.1) e t.order }

/-- Deletes the last element while there are more than `max`; `fuel` bounds the deletions. -/
def evict (key : V → κ) (max : Nat) : Nat → LinkedMap κ V → LinkedMap κ V
  | 0, t => t
  | fuel + 1, t =>
    if max < t.len then
      match t.order.getLast? with
      | some (e, v) => evict key max fuel (t.delete (key v) e)
      | none => t
    else t

/-- A member is deleted if its value satisfies `p`. -/
def deleteStep (p : κ → V → Bool) (t : LinkedMap κ V) (m : Σ _ : κ, Nat) : LinkedMap κ V :=
  match Recency.get (·.1) m.2 t.order with
  | some x => if p m.1 x.2 then t.delete m.1 m.2 else t
  | none => t

/-- Deletes the entries that satisfy `p` in a pass over the map. -/
def deleteWhere (p : κ → V → Bool) (t : LinkedMap κ V) : LinkedMap κ V :=
  t.values.entries.foldl (deleteStep p) t

/-- The values of the list, the front first. -/
def view (t : LinkedMap κ V) : List V := t.order.map (·.2)

theorem find_moveToFront {t : LinkedMap κ V} {k : κ} {e : Nat} :
    (t.moveToFront e).find k = t.find k := by
  unfold find moveToFront
  cases t.values.lookup k with
  | none => rfl
  | some e' => exact Recency.get_touch

/-- What is found after a deletion was there before. -/
theorem find_of_delete {t : LinkedMap κ V} {k k' : κ} {e : Nat} {x : Nat × V}
    (h : (t.delete k e).find k' = some x) : t.find k' = some x := by
  unfold find delete at h
  obtain ⟨e', he', hx⟩ := Option.bind_eq_some_iff.mp h
  dsimp only at he' hx
  have hk : k' ≠ k := by
    rintro rfl
    rw [AList.lookup_erase] at he'
    cases he'
  have he : e' ≠ e := by
    rintro rfl
    rw [Recency.get_erase_self] at hx
    cases hx
  rw [AList.lookup_erase_ne hk] at he'
  rw [Recency.get_erase_ne he] at hx
  rw [find, he']
  exact hx

/-- The map and the list hold the same elements. -/
structure WF (key : V → κ) (t : LinkedMap κ V) : Prop where
  lookup : ∀ k e, t.values.lookup k = some e ↔ ∃ v, (e, v) ∈ t.order ∧ key v = k
  ids : (t.order.map (·.1)).Nodup
  keys : (t.view.map key).Nodup
  lt : ∀ x ∈ t.order, x.1 < t.next

variable {key : V → κ} {t : LinkedMap κ V}

theorem empty_wf : WF key (empty : LinkedMap κ V) where
  lookup k e := by simp [empty]
  ids := List.nodup_nil
  keys := List.nodup_nil
  lt x hx := absurd hx List.not_mem_nil

namespace WF

theorem find_eq_some (h : WF key t) {k : κ} {e : Nat} {v : V} :
    t.find k = some (e, v) ↔ (e, v) ∈ t.order ∧ key v = k := by
  unfold find
  constructor
  · intro hfind
    obtain ⟨e', he, hget⟩ := Option.bind_eq_some_iff.mp hfind
    obtain ⟨hmem, rfl⟩ := Recency.get_eq_some hget
    obtain ⟨w, hw, hk⟩ := (h.lookup k e).mp he
    have heq := List.inj_on_of_nodup_map h.ids hmem hw rfl
    cases heq
    exact ⟨hmem, hk⟩
  · rintro ⟨hmem, hk⟩
    rw [(h.lookup k e).mpr ⟨v, hmem, hk⟩, Option.bind_some]
    exact Recency.get_of_mem h.ids hmem rfl

theorem find_map (h : WF key t) (k : κ) : (t.find k).map (·.2) = Recency.get key k t.view := by
  cases hfind : t.find k with
  | none =>
    refine (Recency.get_eq_none.mpr fun v hv hk => ?_).symm
    obtain ⟨⟨e, w⟩, hmem, rfl⟩ := List.mem_map.mp hv
    rw [h.find_eq_some.mpr ⟨hmem, hk⟩] at hfind
    cases hfind
  | some x =>
    obtain ⟨e, v⟩ := x
    obtain ⟨hmem, hk⟩ := h.find_eq_some.mp hfind
    exact (Recency.get_of_mem h.keys (List.mem_map_of_mem hmem) hk).symm

/-- In the list, the element of `k` is the only one with its key. -/
theorem id_eq_iff (h : WF key t) {e : Nat} {v : V} (hmem : (e, v) ∈ t.order) {x : Nat × V}
    (hx : x ∈ t.order) : x.1 = e ↔ key x.2 = key v := by
  constructor
  · intro heq
    rw [List.inj_on_of_nodup_map h.ids hx hmem heq]
  · intro heq
    have hkeys := h.keys
    rw [view, List.map_map] at hkeys
    rw [List.inj_on_of_nodup_map hkeys hx hmem heq]

theorem view_erase (h : WF key t) {e : Nat} {v : V} (hmem : (e, v) ∈ t.order) :
    (Recency.erase (·.1) e t.order).map (·.2) = Recency.erase key (key v) t.view := by
  rw [Recency.erase, Recency.erase, view, List.filter_map]
  congr 1
  refine List.filter_congr fun x hx => ?_
  have hiff := not_congr (h.id_eq_iff hmem hx)
  simpa using not_iff_not.mp hiff

theorem entries_perm (h : WF key t) :
    t.values.entries.Perm (t.order.map fun x => ⟨key x.2, x.1⟩) := by
  have hpairs : (t.order.map fun x => (⟨key x.2, x.1⟩ : Σ _ : κ, Nat)).Nodup := by
    refine List.Nodup.of_map (·.2) ?_
    rw [List.map_map]
    exact h.ids
  refine (List.perm_ext_iff_of_nodup t.values.nodupKeys.nodup hpairs).mpr fun m => ?_
  rw [← AList.mem_lookup_iff, Option.mem_def, h.lookup, List.mem_map]
  constructor
  · rintro ⟨v, hmem, hk⟩
    exact ⟨_, hmem, by rw [hk]⟩
  · rintro ⟨x, hmem, rfl⟩
    exact ⟨x.2, hmem, rfl⟩

/-- The map has the keys of the list. -/
theorem keys_perm (h : WF key t) : t.values.keys.Perm (t.view.map key) := by
  have hkeys := h.entries_perm.map Sigma.fst
  rw [List.map_map] at hkeys
  rw [view, List.map_map]
  exact hkeys

/-- The map has as many entries as the list. -/
theorem len_eq (h : WF key t) : t.len = t.view.length := by
  rw [len, view, h.entries_perm.length_eq, List.length_map, List.length_map]

theorem delete (h : WF key t) {e : Nat} {v : V} (hmem : (e, v) ∈ t.order) :
    WF key (t.delete (key v) e) where
  lookup k e' := by
    have hlist : ∀ x, x ∈ (t.delete (key v) e).order ↔ x ∈ t.order ∧ x.1 ≠ e := by
      intro x
      simp [LinkedMap.delete, Recency.erase]
    simp only [hlist]
    by_cases hk : k = key v
    · subst hk
      rw [LinkedMap.delete, AList.lookup_erase]
      constructor
      · intro hnone
        cases hnone
      · rintro ⟨w, ⟨hw, hne⟩, hk⟩
        exact absurd ((h.id_eq_iff hmem hw).mpr hk) hne
    · rw [LinkedMap.delete, AList.lookup_erase_ne hk, h.lookup]
      constructor
      · rintro ⟨w, hw, rfl⟩
        exact ⟨w, ⟨hw, fun heq => hk ((h.id_eq_iff hmem hw).mp heq)⟩, rfl⟩
      · rintro ⟨w, ⟨hw, -⟩, hk⟩
        exact ⟨w, hw, hk⟩
  ids := h.ids.sublist (List.filter_sublist.map _)
  keys := by
    rw [LinkedMap.delete, view, h.view_erase hmem]
    exact h.keys.sublist (List.filter_sublist.map _)
  lt x hx := h.lt x (List.mem_of_mem_filter hx)

theorem view_delete (h : WF key t) {e : Nat} {v : V} (hmem : (e, v) ∈ t.order) :
    (t.delete (key v) e).view = Recency.erase key (key v) t.view :=
  h.view_erase hmem

/-! ### Moving and setting -/

theorem touch_order (h : WF key t) {e : Nat} {v : V} (hmem : (e, v) ∈ t.order) :
    Recency.touch (·.1) e t.order = (e, v) :: Recency.erase (·.1) e t.order := by
  rw [Recency.touch, Recency.get_of_mem h.ids hmem rfl]

theorem touch_perm (h : WF key t) {e : Nat} {v : V} (hmem : (e, v) ∈ t.order) :
    (Recency.touch (·.1) e t.order).Perm t.order := by
  rw [h.touch_order hmem]
  have hnodup := h.ids.of_map
  refine (List.perm_ext_iff_of_nodup ?_ hnodup).mpr fun x => ?_
  · refine List.nodup_cons.mpr ⟨fun hx => ?_, hnodup.filter _⟩
    simpa using (List.mem_filter.mp hx).2
  · rw [List.mem_cons, Recency.erase, List.mem_filter]
    constructor
    · rintro (rfl | ⟨hx, -⟩)
      · exact hmem
      · exact hx
    · intro hx
      by_cases heq : x.1 = e
      · exact .inl (List.inj_on_of_nodup_map h.ids hx hmem heq)
      · exact .inr ⟨hx, by simpa using heq⟩

/-- A permutation of the list keeps the map well-formed. -/
theorem of_perm (h : WF key t) {order : List (Nat × V)} (hperm : order.Perm t.order) :
    WF key { t with order } where
  lookup k e := by
    refine (h.lookup k e).trans (exists_congr fun v => and_congr_left fun _ => ?_)
    exact hperm.mem_iff.symm
  ids := (hperm.map _).nodup_iff.mpr h.ids
  keys := ((hperm.map Prod.snd).map key).nodup_iff.mpr h.keys
  lt x hx := h.lt x (hperm.mem_iff.mp hx)

theorem moveToFront (h : WF key t) {e : Nat} {v : V} (hmem : (e, v) ∈ t.order) :
    WF key (t.moveToFront e) :=
  h.of_perm (h.touch_perm hmem)

theorem view_moveToFront (h : WF key t) {e : Nat} {v : V} (hmem : (e, v) ∈ t.order) :
    (t.moveToFront e).view = Recency.touch key (key v) t.view := by
  rw [LinkedMap.moveToFront, view, h.touch_order hmem, List.map_cons, h.view_erase hmem,
    Recency.touch, Recency.get_of_mem h.keys (List.mem_map_of_mem hmem) rfl]

theorem setValue (h : WF key t) {e : Nat} {v w : V} (hmem : (e, v) ∈ t.order)
    (hk : key w = key v) : WF key (t.setValue e w) where
  lookup k e' := by
    rw [LinkedMap.setValue, h.lookup]
    constructor
    · rintro ⟨u, hu, rfl⟩
      by_cases he : e' = e
      · subst he
        have heq := List.inj_on_of_nodup_map h.ids hu hmem rfl
        cases heq
        exact ⟨w, List.mem_map.mpr ⟨_, hu, if_pos rfl⟩, hk⟩
      · exact ⟨u, List.mem_map.mpr ⟨_, hu, if_neg he⟩, rfl⟩
    · rintro ⟨u, hu, rfl⟩
      obtain ⟨⟨e₀, u₀⟩, hu₀, heq⟩ := List.mem_map.mp hu
      split at heq
      · rename_i he
        cases heq
        exact ⟨v, hmem, hk.symm⟩
      · cases heq
        exact ⟨u, hu₀, rfl⟩
  ids := by
    rw [LinkedMap.setValue, List.map_map]
    have hfst : ((·.1) ∘ fun x : Nat × V => if x.1 = e then (e, w) else x) = (·.1) := by
      funext x
      by_cases hx : x.1 = e
      · simp [hx]
      · simp [hx]
    rw [hfst]
    exact h.ids
  keys := by
    have hkeys := h.keys
    rw [view, List.map_map] at hkeys
    rw [LinkedMap.setValue, view, List.map_map, List.map_map]
    refine (List.map_congr_left fun x hx => ?_) ▸ hkeys
    by_cases he : x.1 = e
    · simp only [Function.comp_apply, if_pos he]
      rw [hk, (h.id_eq_iff hmem hx).mp he]
    · simp only [Function.comp_apply, if_neg he]
  lt x hx := by
    obtain ⟨y, hy, rfl⟩ := List.mem_map.mp hx
    split
    · exact h.lt (e, v) hmem
    · exact h.lt y hy

/-- Setting the value of an element changes nothing else. -/
theorem erase_setValue (h : WF key t) {e : Nat} {v w : V} (hmem : (e, v) ∈ t.order)
    (hk : key w = key v) :
    Recency.erase key (key v) (t.setValue e w).view = Recency.erase key (key v) t.view := by
  have hview : (t.setValue e w).view = t.order.map fun x => if x.1 = e then w else x.2 := by
    rw [LinkedMap.setValue, view, List.map_map]
    refine List.map_congr_left fun x _ => ?_
    by_cases hx : x.1 = e
    · simp [hx]
    · simp [hx]
  rw [hview, Recency.erase, Recency.erase, view, List.filter_map, List.filter_map]
  have hfilter : t.order.filter ((fun u => decide (key u ≠ key v)) ∘ fun x =>
        if x.1 = e then w else x.2) =
      t.order.filter ((fun u => decide (key u ≠ key v)) ∘ (·.2)) := by
    refine List.filter_congr fun x hx => ?_
    by_cases he : x.1 = e
    · have hxv := (h.id_eq_iff hmem hx).mp he
      simp [he, hk, hxv]
    · simp [he]
  rw [hfilter]
  refine List.map_congr_left fun x hx => ?_
  obtain ⟨hx, hne⟩ := List.mem_filter.mp hx
  rw [if_neg]
  intro he
  have hxv := (h.id_eq_iff hmem hx).mp he
  simp [hxv] at hne

/-- Setting the value of an element and moving it to the front puts the value. -/
theorem view_setValue (h : WF key t) {e : Nat} {v w : V} (hmem : (e, v) ∈ t.order)
    (hk : key w = key v) :
    ((t.setValue e w).moveToFront e).view = Recency.put key w t.view := by
  have hmem' : (e, w) ∈ (t.setValue e w).order := List.mem_map.mpr ⟨_, hmem, if_pos rfl⟩
  rw [(h.setValue hmem hk).view_moveToFront hmem', Recency.touch,
    Recency.get_of_mem (h.setValue hmem hk).keys (List.mem_map_of_mem hmem') rfl, Recency.put]
  dsimp only
  rw [hk, h.erase_setValue hmem hk]

theorem pushFront (h : WF key t) {v : V} (hnone : t.find (key v) = none) :
    WF key (t.pushFront (key v) v) where
  lookup k e := by
    rw [LinkedMap.pushFront]
    by_cases hk : k = key v
    · subst hk
      rw [AList.lookup_insert]
      constructor
      · rintro ⟨⟩
        exact ⟨v, List.mem_cons_self, rfl⟩
      · rintro ⟨w, hw, hkw⟩
        rcases List.mem_cons.mp hw with heq | hw
        · cases heq
          rfl
        · rw [h.find_eq_some.mpr ⟨hw, hkw⟩] at hnone
          cases hnone
    · rw [AList.lookup_insert_ne hk, h.lookup]
      constructor
      · rintro ⟨w, hw, rfl⟩
        exact ⟨w, List.mem_cons_of_mem _ hw, rfl⟩
      · rintro ⟨w, hw, rfl⟩
        rcases List.mem_cons.mp hw with heq | hw
        · cases heq
          exact absurd rfl hk
        · exact ⟨w, hw, rfl⟩
  ids := by
    refine List.nodup_cons.mpr ⟨fun hnext => ?_, h.ids⟩
    obtain ⟨x, hx, heq⟩ := List.mem_map.mp hnext
    have hlt := h.lt x hx
    dsimp only at heq
    omega
  keys := by
    refine List.nodup_cons.mpr ⟨fun hkey => ?_, h.keys⟩
    obtain ⟨w, hw, hkw⟩ := List.mem_map.mp hkey
    have hget : Recency.get key (key v) t.view = none := by rw [← h.find_map, hnone]; rfl
    exact Recency.get_eq_none.mp hget w hw hkw
  lt x hx := by
    rcases List.mem_cons.mp hx with rfl | hx
    · exact Nat.lt_succ_self _
    · exact Nat.lt_succ_of_lt (h.lt x hx)

theorem view_pushFront (h : WF key t) {v : V} (hnone : t.find (key v) = none) :
    (t.pushFront (key v) v).view = Recency.put key v t.view := by
  have hget : Recency.get key (key v) t.view = none := by rw [← h.find_map, hnone]; rfl
  rw [Recency.put, Recency.erase_of_get_none hget]
  rfl

/-! ### Eviction and deletion -/

/-- Deleting the last element drops the last value. -/
theorem view_delete_last (h : WF key t) {init : List (Nat × V)} {e : Nat} {v : V}
    (heq : t.order = init ++ [(e, v)]) : (t.delete (key v) e).view = init.map (·.2) := by
  have hmem : (e, v) ∈ t.order := by rw [heq]; exact List.mem_concat_self
  have hkeys := h.keys
  rw [h.view_delete hmem, Recency.erase]
  rw [view, heq, List.map_append] at hkeys ⊢
  rw [List.map_append, List.nodup_append] at hkeys
  rw [List.filter_append, List.filter_eq_self.mpr, List.filter_eq_nil_iff.mpr, List.append_nil]
  · intro w hw
    cases List.mem_singleton.mp hw
    simp
  · intro w hw
    have hne := hkeys.2.2 (key w) (List.mem_map_of_mem hw) (key v) (by simp)
    simpa using hne

theorem evict_spec (max : Nat) : ∀ (fuel : Nat) {t : LinkedMap κ V}, WF key t →
    t.len ≤ max + fuel →
    WF key (LinkedMap.evict key max fuel t) ∧
      (LinkedMap.evict key max fuel t).view = t.view.take max
  | 0, t, h, hlen => by
    rw [h.len_eq] at hlen
    exact ⟨h, (List.take_of_length_le hlen).symm⟩
  | fuel + 1, t, h, hlen => by
    rw [LinkedMap.evict]
    by_cases hmax : max < t.len
    · rw [if_pos hmax]
      rw [h.len_eq] at hmax hlen
      rcases List.eq_nil_or_concat t.order with hnil | ⟨init, ⟨e, v⟩, heq⟩
      · rw [view, hnil] at hmax
        exact absurd hmax (Nat.not_lt_zero _)
      · rw [List.concat_eq_append] at heq
        have hmem : (e, v) ∈ t.order := by rw [heq]; exact List.mem_concat_self
        have hview : t.view = init.map (·.2) ++ [v] := by
          rw [view, heq, List.map_append]
          rfl
        have hdelete := h.view_delete_last heq
        rw [hview, List.length_append, List.length_singleton] at hmax hlen
        have hlen' : (t.delete (key v) e).len ≤ max + fuel := by
          rw [(h.delete hmem).len_eq, hdelete]
          omega
        obtain ⟨hwf, htake⟩ := evict_spec max fuel (h.delete hmem) hlen'
        rw [heq, List.getLast?_concat]
        refine ⟨hwf, ?_⟩
        dsimp only
        rw [htake, hdelete, hview, List.take_append_of_le_length (by omega)]
    · rw [if_neg hmax]
      rw [h.len_eq] at hmax
      exact ⟨h, (List.take_of_length_le (Nat.le_of_not_lt hmax)).symm⟩

theorem deleteStep (h : WF key t) {p : κ → V → Bool} {k : κ} {e : Nat} {v : V}
    (hmem : (e, v) ∈ t.order) (hk : key v = k) :
    WF key (LinkedMap.deleteStep p t ⟨k, e⟩) ∧
      (LinkedMap.deleteStep p t ⟨k, e⟩).order =
        t.order.filter fun x => !(x.1 = e && p k x.2) := by
  subst hk
  unfold LinkedMap.deleteStep
  rw [Recency.get_of_mem h.ids hmem rfl]
  dsimp only
  by_cases hp : p (key v) v = true
  · rw [if_pos hp]
    refine ⟨h.delete hmem, ?_⟩
    rw [LinkedMap.delete, Recency.erase]
    refine List.filter_congr fun x hx => ?_
    by_cases he : x.1 = e
    · have hxv := List.inj_on_of_nodup_map h.ids hx hmem he
      subst hxv
      simp [hp]
    · simp [he]
  · rw [if_neg hp]
    refine ⟨h, (List.filter_eq_self.mpr fun x hx => ?_).symm⟩
    by_cases he : x.1 = e
    · have hxv := List.inj_on_of_nodup_map h.ids hx hmem he
      subst hxv
      simpa using hp
    · simp [he]

/-- A pass over some entries of the map. -/
theorem deleteSteps {p : κ → V → Bool} : ∀ (l : List (Σ _ : κ, Nat)) {t : LinkedMap κ V},
    WF key t → (l.map (·.2)).Nodup →
    (∀ m ∈ l, ∃ v, (m.2, v) ∈ t.order ∧ key v = m.1) →
    WF key (l.foldl (LinkedMap.deleteStep p) t) ∧
      (l.foldl (LinkedMap.deleteStep p) t).order =
        t.order.filter fun x => !(l.any fun m => x.1 = m.2 && p m.1 x.2)
  | [], t, h, _, _ => ⟨h, by simp⟩
  | m :: l, t, h, hnodup, hentries => by
    obtain ⟨v, hmem, hk⟩ := hentries m List.mem_cons_self
    obtain ⟨hwf, horder⟩ := h.deleteStep (p := p) hmem hk
    rw [List.map_cons, List.nodup_cons] at hnodup
    have hrest : ∀ m' ∈ l, ∃ w, (m'.2, w) ∈ (LinkedMap.deleteStep p t m).order ∧ key w = m'.1 := by
      intro m' hm'
      obtain ⟨w, hw, hkw⟩ := hentries m' (List.mem_cons_of_mem _ hm')
      have hne : m'.2 ≠ m.2 := fun heq => hnodup.1 (heq ▸ List.mem_map_of_mem hm')
      refine ⟨w, ?_, hkw⟩
      rw [horder, List.mem_filter]
      exact ⟨hw, by simp [hne]⟩
    obtain ⟨hwf', horder'⟩ := deleteSteps l hwf hnodup.2 hrest
    refine ⟨hwf', ?_⟩
    rw [List.foldl_cons, horder', horder, List.filter_filter]
    refine List.filter_congr fun x _ => ?_
    rw [List.any_cons, Bool.not_or, Bool.and_comm]

theorem deleteWhere_spec (h : WF key t) (p : κ → V → Bool) :
    WF key (t.deleteWhere p) ∧ (t.deleteWhere p).view = t.view.filter fun v => !p (key v) v := by
  have hentries : ∀ m ∈ t.values.entries, ∃ v, (m.2, v) ∈ t.order ∧ key v = m.1 := by
    intro m hm
    exact (h.lookup m.1 m.2).mp (AList.mem_lookup_iff.mpr hm)
  have hnodup : (t.values.entries.map (·.2)).Nodup := by
    refine List.Nodup.map_on (fun m hm m' hm' heq => ?_) t.values.nodupKeys.nodup
    obtain ⟨v, hv, hk⟩ := hentries m hm
    obtain ⟨v', hv', hk'⟩ := hentries m' hm'
    have hpair := List.inj_on_of_nodup_map h.ids hv hv' heq
    cases m
    cases m'
    cases hpair
    cases hk
    cases hk'
    rfl
  obtain ⟨hwf, horder⟩ := deleteSteps (p := p) _ h hnodup hentries
  refine ⟨hwf, ?_⟩
  rw [LinkedMap.deleteWhere, view, horder, view, List.filter_map]
  congr 1
  refine List.filter_congr fun x hx => ?_
  have hentry : (⟨key x.2, x.1⟩ : Σ _ : κ, Nat) ∈ t.values.entries :=
    AList.mem_lookup_iff.mp ((h.lookup _ _).mpr ⟨x.2, hx, rfl⟩)
  cases hp : p (key x.2) x.2 with
  | true =>
    have hany : (t.values.entries.any fun m => x.1 = m.2 && p m.1 x.2) = true :=
      List.any_eq_true.mpr ⟨_, hentry, by simp [hp]⟩
    simp [hany, hp]
  | false =>
    have hany : (t.values.entries.any fun m => x.1 = m.2 && p m.1 x.2) = false := by
      rw [List.any_eq_false]
      intro m hm hboth
      obtain ⟨v, hv, hk⟩ := hentries m hm
      rw [Bool.and_eq_true, decide_eq_true_eq] at hboth
      have hpair := List.inj_on_of_nodup_map h.ids hx hv hboth.1
      rw [hpair] at hp hboth
      rw [← hk, hp] at hboth
      cases hboth.2
    simp [hany, hp]

end WF

end LinkedMap

end Kavora.Lib
