import Mathlib.Data.List.Induction
import Kavora.Lib.LinkedMap

/-!
# A bounded map with expiry that forgets the least recently used key

The state is the list of the bindings, the most recently used one first.

* `ExpiringLru.step`: a read uses a live binding and forgets one that has expired, a write uses its
  key and forgets the last binding when there are more than `max`.
* `mem_run_iff`: a binding is held if and only if it was written and nothing ended it since
  (`Ends`).
* `run_recency`: the list is in the order of the last uses, so the last binding is the one that is
  forgotten.
-/

namespace Kavora.Lib

/-- A value with its key and the time when it expires. -/
structure Binding (κ β τ : Type) where
  key : κ
  value : β
  expires : τ

namespace ExpiringLru

variable {κ β τ : Type}

/-- The operations of the cache. -/
inductive Op (κ β τ : Type) where
  | get (key : κ) (now : τ)
  | put (binding : Binding κ β τ)
  /-- Forgets the values that satisfy `p`. -/
  | drop (p : β → Bool)

variable [DecidableEq κ] [LT τ] [DecidableLT τ]

/-- What a read of `key` returns. -/
def lookup (l : List (Binding κ β τ)) (key : κ) (now : τ) : Option β :=
  (Recency.get Binding.key key l).bind fun b => if now < b.expires then some b.value else none

/-- An operation on the bindings, the last used first. -/
def step (max : Nat) (l : List (Binding κ β τ)) : Op κ β τ → List (Binding κ β τ)
  | .get key now =>
    match Recency.get Binding.key key l with
    | none => l
    | some b =>
      if now < b.expires then Recency.touch Binding.key key l else Recency.erase Binding.key key l
  | .put binding =>
    let l := Recency.put Binding.key binding l
    if max < l.length then l.dropLast else l
  | .drop p => l.filter fun b => !p b.value

/-- The bindings after some operations. -/
def run (max : Nat) (ops : List (Op κ β τ)) : List (Binding κ β τ) := ops.foldl (step max) []

/-- A write of a new key into a full map forgets the last binding. -/
def Evicts (max : Nat) (l : List (Binding κ β τ)) (op : Op κ β τ) (b : Binding κ β τ) : Prop :=
  ∃ binding, op = .put binding ∧ Recency.get Binding.key binding.key l = none ∧
    l.length = max ∧ l.getLast? = some b

/-- The operation ends the binding: it reads it when it has expired, writes its key, drops its
value, or evicts it. -/
def Ends (max : Nat) (l : List (Binding κ β τ)) (op : Op κ β τ) (b : Binding κ β τ) : Prop :=
  (∃ now, op = .get b.key now ∧ ¬ now < b.expires) ∨
  (∃ binding, op = .put binding ∧ binding.key = b.key) ∨
  (∃ p, op = .drop p ∧ p b.value = true) ∨
  Evicts max l op b

/-- The operation uses the key: it writes it, or reads it when its binding is live. -/
def Uses (l : List (Binding κ β τ)) (op : Op κ β τ) (key : κ) : Prop :=
  (∃ binding, op = .put binding ∧ binding.key = key) ∨
  (∃ now, op = .get key now ∧ (lookup l key now).isSome)

/-- Some use of `key` comes after the last use of `other`. -/
def UsedAfter (max : Nat) (ops : List (Op κ β τ)) (key other : κ) : Prop :=
  ∃ before op after, ops = before ++ op :: after ∧ Uses (run max before) op key ∧
    ∀ mid op' rest, op :: after = mid ++ op' :: rest → ¬ Uses (run max (before ++ mid)) op' other

variable {max : Nat} {l : List (Binding κ β τ)} {ops : List (Op κ β τ)} {op : Op κ β τ}

theorem run_concat (ops : List (Op κ β τ)) (op : Op κ β τ) :
    run max (ops ++ [op]) = step max (run max ops) op := by
  unfold run
  rw [List.foldl_append, List.foldl_cons, List.foldl_nil]

/-! ## One operation -/

/-- A binding is not there unless it was written. -/
theorem mem_of_mem_step {b : Binding κ β τ} (h : b ∈ step max l op) : op = .put b ∨ b ∈ l := by
  cases op with
  | get key now =>
    right
    rw [step] at h
    cases hget : Recency.get Binding.key key l with
    | none => rwa [hget] at h
    | some c =>
      rw [hget] at h
      dsimp only at h
      split at h
      · rw [Recency.touch_eq_put hget] at h
        rcases List.mem_cons.mp h with rfl | h
        · exact (Recency.get_eq_some hget).1
        · exact (Recency.mem_erase.mp h).1
      · exact (Recency.mem_erase.mp h).1
  | put c =>
    rw [step] at h
    have hput : b ∈ Recency.put Binding.key c l := by
      split at h
      · exact (List.dropLast_sublist _).subset h
      · exact h
    rcases List.mem_cons.mp hput with rfl | hb
    · exact .inl rfl
    · exact .inr (Recency.mem_erase.mp hb).1
  | drop p => exact .inr (List.mem_of_mem_filter h)

/-- A write is there after it. -/
theorem get_step_put_self (hpos : 0 < max) (l : List (Binding κ β τ)) (b : Binding κ β τ) :
    Recency.get Binding.key b.key (step max l (.put b)) = some b := by
  have hput : Recency.put Binding.key b l = b :: Recency.erase Binding.key b.key l := rfl
  rw [step]
  split
  · rename_i hfull
    rw [hput] at hfull ⊢
    cases hrest : Recency.erase Binding.key b.key l with
    | nil =>
      rw [hrest, List.length_singleton] at hfull
      omega
    | cons c rest =>
      rw [List.dropLast_cons_of_ne_nil (List.cons_ne_nil _ _)]
      exact List.find?_cons_of_pos (decide_eq_true rfl)
  · exact Recency.get_put_self

/-- A write adds no other binding. -/
theorem get_step_put_ne {k : κ} {b c : Binding κ β τ} (hne : k ≠ b.key)
    (h : Recency.get Binding.key k (step max l (.put b)) = some c) :
    Recency.get Binding.key k l = some c := by
  have hput : Recency.get Binding.key k (Recency.put Binding.key b l) =
      Recency.get Binding.key k l := Recency.get_put_ne hne
  rw [← hput]
  rw [step] at h
  split at h
  · have hinit := List.dropLast_append_getLast (l := Recency.put Binding.key b l)
      (List.cons_ne_nil _ _)
    unfold Recency.get at h ⊢
    rw [← hinit, List.find?_append, h, Option.some_or]
  · exact h

/-- The keys differ, and there are at most `max`. -/
structure Bounded (max : Nat) (l : List (Binding κ β τ)) : Prop where
  keys : (l.map Binding.key).Nodup
  length : l.length ≤ max

theorem Bounded.step (h : Bounded max l) (op : Op κ β τ) : Bounded max (step max l op) := by
  cases op with
  | get key now =>
    rw [ExpiringLru.step]
    cases hget : Recency.get Binding.key key l with
    | none => exact h
    | some b =>
      dsimp only
      split
      · obtain ⟨hb, hkey⟩ := Recency.get_eq_some hget
        rw [Recency.touch_eq_put hget]
        exact ⟨Recency.nodup_put h.keys, Nat.le_trans (Recency.length_put_of_mem hb rfl) h.length⟩
      · exact ⟨Recency.nodup_erase h.keys, Nat.le_trans (List.length_filter_le _ _) h.length⟩
  | put b =>
    rw [ExpiringLru.step]
    have hlength : (Recency.put Binding.key b l).length ≤ l.length + 1 := Recency.length_put_le
    have hmax := h.length
    split
    · refine ⟨(Recency.nodup_put h.keys).sublist ((List.dropLast_sublist _).map _), ?_⟩
      rw [List.length_dropLast]
      omega
    · exact ⟨Recency.nodup_put h.keys, by omega⟩
  | drop p =>
    exact ⟨h.keys.sublist (List.filter_sublist.map _),
      Nat.le_trans (List.length_filter_le _ _) h.length⟩

theorem run_bounded (max : Nat) (ops : List (Op κ β τ)) : Bounded max (run max ops) := by
  induction ops using List.reverseRecOn with
  | nil => exact ⟨List.nodup_nil, Nat.zero_le _⟩
  | append_singleton ops op ih =>
    rw [run_concat]
    exact ih.step op

theorem mem_step_get (h : Bounded max l) (key : κ) (now : τ) (b : Binding κ β τ) :
    b ∈ step max l (.get key now) ↔ b ∈ l ∧ ¬ (key = b.key ∧ ¬ now < b.expires) := by
  rw [step]
  cases hget : Recency.get Binding.key key l with
  | none =>
    refine ⟨fun hb => ⟨hb, fun hend => ?_⟩, And.left⟩
    exact Recency.get_eq_none.mp hget b hb hend.1.symm
  | some c =>
    obtain ⟨hc, rfl⟩ := Recency.get_eq_some hget
    have hsame : b ∈ l → c.key = b.key → c = b :=
      fun hb => List.inj_on_of_nodup_map h.keys hc hb
    dsimp only
    split
    · rename_i hlive
      rw [Recency.touch_eq_put hget, Recency.put, List.mem_cons, Recency.mem_erase]
      constructor
      · rintro (rfl | ⟨hb, hne⟩)
        · exact ⟨hc, fun hend => hend.2 hlive⟩
        · exact ⟨hb, fun hend => hne hend.1.symm⟩
      · rintro ⟨hb, -⟩
        by_cases hkey : c.key = b.key
        · exact .inl (hsame hb hkey).symm
        · exact .inr ⟨hb, Ne.symm hkey⟩
    · rename_i hexpired
      rw [Recency.mem_erase]
      refine and_congr_right fun hb => ⟨fun hne hend => hne hend.1.symm, fun hend heq => ?_⟩
      have := hsame hb heq.symm
      subst this
      exact hend ⟨rfl, hexpired⟩

omit [LT τ] [DecidableLT τ] in
/-- A write evicts when it adds a key to a full map. -/
theorem put_full (h : Bounded max l) (c : Binding κ β τ) :
    max < (Recency.put Binding.key c l).length ↔
      Recency.get Binding.key c.key l = none ∧ l.length = max := by
  have hmax := h.length
  cases hget : Recency.get Binding.key c.key l with
  | none =>
    rw [Recency.put, Recency.erase_of_get_none hget, List.length_cons]
    simp
    omega
  | some b =>
    obtain ⟨hb, hkey⟩ := Recency.get_eq_some hget
    have hlength := Recency.length_put_of_mem hb hkey
    simp
    omega

theorem mem_dropLast_iff {α : Type} {l : List α} (h : l.Nodup) (x : α) :
    x ∈ l.dropLast ↔ x ∈ l ∧ l.getLast? ≠ some x := by
  rcases List.eq_nil_or_concat l with rfl | ⟨init, last, rfl⟩
  · simp
  · rw [List.concat_eq_append] at h ⊢
    rw [List.nodup_append] at h
    have hne : ∀ y ∈ init, y ≠ last := fun y hy => h.2.2 y hy last (by simp)
    rw [List.dropLast_concat, List.getLast?_concat, List.mem_append, List.mem_singleton]
    constructor
    · intro hx
      exact ⟨.inl hx, fun heq => hne x hx (Option.some.inj heq).symm⟩
    · rintro ⟨hx | rfl, hlast⟩
      · exact hx
      · exact absurd rfl hlast

theorem mem_step_put (h : Bounded max l) (hpos : 0 < max) (c b : Binding κ β τ) :
    b ∈ step max l (.put c) ↔
      c = b ∨ (b ∈ l ∧ ¬ (c.key = b.key ∨ Evicts max l (.put c) b)) := by
  have hmem : b ∈ Recency.put Binding.key c l ↔ c = b ∨ (b ∈ l ∧ c.key ≠ b.key) := by
    rw [Recency.put, List.mem_cons, Recency.mem_erase, eq_comm, ne_comm]
  rw [step]
  split
  · rename_i hfull
    obtain ⟨hget, hlength⟩ := (put_full h c).mp hfull
    have hput : Recency.put Binding.key c l = c :: l := by
      rw [Recency.put, Recency.erase_of_get_none hget]
    have hne : l ≠ [] := fun hnil => by
      rw [hnil] at hlength
      exact absurd hlength (Nat.ne_of_lt hpos)
    have hkeys : b ∈ l → c.key ≠ b.key := fun hb heq =>
      Recency.get_eq_none.mp hget b hb heq.symm
    rw [hput, List.dropLast_cons_of_ne_nil hne, List.mem_cons, mem_dropLast_iff h.keys.of_map,
      eq_comm]
    refine or_congr_right (and_congr_right fun hb => not_congr ?_)
    constructor
    · exact fun hlast => .inr ⟨c, rfl, hget, hlength, hlast⟩
    · rintro (heq | ⟨c', hc', -, -, hlast⟩)
      · exact absurd heq (hkeys hb)
      · exact hlast
  · rename_i hroom
    rw [hmem]
    refine or_congr_right (and_congr_right fun hb => ⟨?_, fun hend heq => hend (.inl heq)⟩)
    rintro hne (heq | ⟨c', hc', hget, hlength, -⟩)
    · exact hne heq
    · cases hc'
      exact hroom ((put_full h c).mpr ⟨hget, hlength⟩)

/-- **What an operation leaves**: the binding that it writes, and those that it does not end. -/
theorem mem_step (h : Bounded max l) (hpos : 0 < max) (op : Op κ β τ) (b : Binding κ β τ) :
    b ∈ step max l op ↔ op = .put b ∨ (b ∈ l ∧ ¬ Ends max l op b) := by
  cases op with
  | get key now =>
    rw [mem_step_get h]
    simp [Ends, Evicts]
  | put c =>
    rw [mem_step_put h hpos]
    simp [Ends]
  | drop p =>
    rw [step, List.mem_filter]
    simp [Ends, Evicts]

theorem lookup_eq_some (h : Bounded max l) {key : κ} {now : τ} {v : β} :
    lookup l key now = some v ↔ ∃ b ∈ l, b.key = key ∧ b.value = v ∧ now < b.expires := by
  unfold lookup
  constructor
  · intro hv
    obtain ⟨b, hget, hb⟩ := Option.bind_eq_some_iff.mp hv
    obtain ⟨hmem, hkey⟩ := Recency.get_eq_some hget
    split at hb
    · exact ⟨b, hmem, hkey, Option.some.inj hb, ‹_›⟩
    · cases hb
  · rintro ⟨b, hb, hkey, rfl, hlive⟩
    rw [Recency.get_of_mem h.keys hb hkey, Option.bind_some, if_pos hlive]

/-! ## Runs -/

/-- What holds of all places of a list, by the last one. -/
theorem splits_concat {α : Type} {P : List α → α → Prop} {l : List α} {x : α} :
    (∀ mid y rest, l ++ [x] = mid ++ y :: rest → P mid y) ↔
      (∀ mid y rest, l = mid ++ y :: rest → P mid y) ∧ P l x := by
  constructor
  · intro h
    exact ⟨fun mid y rest heq => h mid y (rest ++ [x]) (by rw [heq, List.append_assoc]; rfl),
      h l x [] rfl⟩
  · rintro ⟨h, hlast⟩ mid y rest heq
    rcases List.eq_nil_or_concat rest with rfl | ⟨rest, z, rfl⟩
    · obtain ⟨rfl, hxy⟩ := List.append_inj' heq rfl
      cases hxy
      exact hlast
    · rw [List.concat_eq_append, ← List.cons_append, ← List.append_assoc] at heq
      exact h mid y rest (List.append_inj' heq rfl).1

/-- **A binding is held** if and only if it was written and no operation ended it since. -/
theorem mem_run_iff (hpos : 0 < max) (ops : List (Op κ β τ)) (b : Binding κ β τ) :
    b ∈ run max ops ↔
      ∃ before after, ops = before ++ .put b :: after ∧
        ∀ mid op rest, after = mid ++ op :: rest →
          ¬ Ends max (run max (before ++ .put b :: mid)) op b := by
  induction ops using List.reverseRecOn with
  | nil =>
    constructor
    · intro hb
      cases hb
    · rintro ⟨before, after, heq, -⟩
      exact absurd heq.symm (by simp)
  | append_singleton ops op ih =>
    rw [run_concat, mem_step (run_bounded max ops) hpos, ih]
    constructor
    · rintro (rfl | ⟨⟨before, after, rfl, hkept⟩, hop⟩)
      · exact ⟨ops, [], rfl, fun mid op rest heq => absurd heq.symm (by simp)⟩
      · refine ⟨before, after ++ [op], by simp, splits_concat.mpr ⟨hkept, hop⟩⟩
    · rintro ⟨before, after, heq, hkept⟩
      rcases List.eq_nil_or_concat after with rfl | ⟨after, last, rfl⟩
      · exact .inl (List.cons.inj (List.append_inj' heq rfl).2).1
      · rw [List.concat_eq_append] at heq hkept
        rw [← List.cons_append, ← List.append_assoc] at heq
        obtain ⟨rfl, hlast⟩ := List.append_inj' heq rfl
        cases hlast
        obtain ⟨hkept, hop⟩ := splits_concat.mp hkept
        exact .inr ⟨⟨before, after, rfl, hkept⟩, hop⟩

/-- An operation uses one key. -/
theorem Uses.unique {key other : κ} (h : Uses l op key) (h' : Uses l op other) : key = other := by
  rcases h with ⟨b, rfl, rfl⟩ | ⟨now, rfl, -⟩ <;> rcases h' with ⟨b', hb', rfl⟩ | ⟨now', hb', -⟩ <;>
    cases hb' <;> rfl

/-- An operation uses no key and brings nothing to the front, or it brings the key that it uses. -/
theorem step_shape (h : Bounded max l) (hpos : 0 < max) (op : Op κ β τ) :
    ((∀ key, ¬ Uses l op key) ∧ (step max l op).Sublist l) ∨
    ∃ b rest, Uses l op b.key ∧ step max l op = b :: rest ∧
      rest.Sublist (Recency.erase Binding.key b.key l) := by
  cases op with
  | get key now =>
    have huses : ∀ k, Uses l (.get key now) k ↔ key = k ∧ (lookup l key now).isSome := by
      intro k
      constructor
      · rintro (⟨b, hb, -⟩ | ⟨now', hget, hlive⟩)
        · cases hb
        · cases hget
          exact ⟨rfl, hlive⟩
      · rintro ⟨rfl, hlive⟩
        exact .inr ⟨now, rfl, hlive⟩
    rw [step]
    cases hget : Recency.get Binding.key key l with
    | none =>
      left
      refine ⟨fun k hk => ?_, List.Sublist.refl l⟩
      have := ((huses k).mp hk).2
      simp [lookup, hget] at this
    | some b =>
      obtain ⟨hb, rfl⟩ := Recency.get_eq_some hget
      dsimp only
      split
      · rename_i hlive
        right
        refine ⟨b, _, (huses _).mpr ⟨rfl, by simp [lookup, hget, hlive]⟩,
          Recency.touch_eq_put hget, List.Sublist.refl _⟩
      · rename_i hexpired
        left
        refine ⟨fun k hk => ?_, List.filter_sublist⟩
        have := ((huses k).mp hk).2
        simp [lookup, hget, hexpired] at this
  | put b =>
    right
    rw [step]
    split
    · rename_i hfull
      obtain ⟨hget, hlength⟩ := (put_full h b).mp hfull
      have hne : Recency.erase Binding.key b.key l ≠ [] := by
        rw [Recency.erase_of_get_none hget]
        rintro rfl
        exact absurd hlength (Nat.ne_of_lt hpos)
      exact ⟨b, _, .inl ⟨b, rfl, rfl⟩, List.dropLast_cons_of_ne_nil hne, List.dropLast_sublist _⟩
    · exact ⟨b, _, .inl ⟨b, rfl, rfl⟩, rfl, List.Sublist.refl _⟩
  | drop p =>
    left
    exact ⟨fun key hkey => by simp [Uses] at hkey, List.filter_sublist⟩

theorem UsedAfter.concat {key other : κ} (h : UsedAfter max ops key other)
    (hop : ¬ Uses (run max ops) op other) : UsedAfter max (ops ++ [op]) key other := by
  obtain ⟨before, first, after, rfl, huse, hrest⟩ := h
  refine ⟨before, first, after ++ [op], by simp, huse, ?_⟩
  rw [← List.cons_append]
  exact splits_concat.mpr ⟨hrest, hop⟩

theorem UsedAfter.last {key other : κ} (h : Uses (run max ops) op key) (hne : key ≠ other) :
    UsedAfter max (ops ++ [op]) key other := by
  refine ⟨ops, op, [], rfl, h, fun mid op' rest heq => ?_⟩
  obtain ⟨rfl, rfl, rfl⟩ : mid = [] ∧ op = op' ∧ rest = [] := by
    cases mid with
    | nil =>
      cases heq
      exact ⟨rfl, rfl, rfl⟩
    | cons x mid => simp at heq
  rw [List.append_nil]
  exact fun hother => hne (h.unique hother)

/-- **The list is in the order of the last uses.** -/
theorem run_recency (hpos : 0 < max) (ops : List (Op κ β τ)) :
    (run max ops).Pairwise fun x y => UsedAfter max ops x.key y.key := by
  induction ops using List.reverseRecOn with
  | nil => exact List.Pairwise.nil
  | append_singleton ops op ih =>
    rw [run_concat]
    rcases step_shape (run_bounded max ops) hpos op with ⟨hnone, hsub⟩ | ⟨b, rest, huse, heq, hsub⟩
    · exact (ih.sublist hsub).imp fun hxy => hxy.concat (hnone _)
    · rw [heq]
      have hne : ∀ y ∈ rest, b.key ≠ y.key := fun y hy =>
        Ne.symm (Recency.mem_erase.mp (hsub.subset hy)).2
      refine List.pairwise_cons.mpr ⟨fun y hy => .last huse (hne y hy), ?_⟩
      have hrest := (ih.sublist (hsub.trans List.filter_sublist))
      refine hrest.imp_of_mem fun {x y} _ hy hxy => hxy.concat fun hother => ?_
      exact hne y hy (huse.unique hother)

end ExpiringLru

end Kavora.Lib
