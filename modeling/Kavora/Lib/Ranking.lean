import Mathlib.Data.List.Nodup
import Kavora.Lib.Go

/-!
# Ranks in a sorted list

A list sorted by a comparison that orders its elements strictly, each known by its key. An element
is ranked before another one exactly when it compares less, whatever the list was before.

* `Ranks`: the comparison orders the elements, and no two with different keys are alike.
* `rank`: the place of a key. `rank_lt_iff` and `rank_eq` give it by comparisons.
* `find?_eq_some_iff`: the first element with a property is less than the others with it.
* `Leads`: the first of the greatest elements, which a stable descending sort puts first.
* `Orders.lex`: the order of pairs of keys.
-/

namespace Kavora.Lib

open Go

/-! ## Lists side by side -/

theorem mem_of_forall₂ {α β : Type} {R : α → β → Prop} {left : List α} {right : List β}
    (h : List.Forall₂ R left right) {a : α} (ha : a ∈ left) : ∃ b ∈ right, R a b := by
  induction h with
  | nil => cases ha
  | cons hhead _ ih =>
    obtain rfl | ha := List.mem_cons.mp ha
    · exact ⟨_, List.mem_cons_self, hhead⟩
    · obtain ⟨b, hb, hrelated⟩ := ih ha
      exact ⟨b, List.mem_cons_of_mem _ hb, hrelated⟩

theorem countP_le_of_forall₂ {α β : Type} {R : α → β → Prop} {p : α → Bool} {q : β → Bool}
    {left : List α} {right : List β} (h : List.Forall₂ R left right)
    (hR : ∀ a b, R a b → p a = true → q b = true) : left.countP p ≤ right.countP q := by
  induction h with
  | nil => exact le_rfl
  | @cons a b left right hhead _ ih =>
    rw [List.countP_cons, List.countP_cons]
    have hle : (if p a = true then 1 else 0) ≤ if q b = true then 1 else 0 := by
      have := hR a b hhead
      split <;> split <;> simp_all
    omega

/-- A count that leaves an element out is smaller. -/
theorem countP_lt_countP {α : Type} {p q : α → Bool} {l : List α} {a : α}
    (h : ∀ x ∈ l, p x = true → q x = true) (ha : a ∈ l) (hq : q a = true) (hp : p a = false) :
    l.countP p < l.countP q := by
  obtain ⟨before, after, rfl⟩ := List.append_of_mem ha
  have hbefore : before.countP p ≤ before.countP q :=
    List.countP_mono_left fun x hx => h x (List.mem_append_left _ hx)
  have hafter : after.countP p ≤ after.countP q :=
    List.countP_mono_left fun x hx => h x (by simp [hx])
  rw [List.countP_append, List.countP_append, List.countP_cons_of_pos hq,
    List.countP_cons_of_neg (by rw [hp]; exact Bool.false_ne_true)]
  omega

/-! ## Ranks -/

/-- A strict order of the elements of a list with different keys. -/
structure Ranks {α κ : Type} (less : α → α → Bool) (key : α → κ) (l : List α) : Prop
    extends Orders less l where
  keys : (l.map key).Nodup
  total : ∀ a ∈ l, ∀ b ∈ l, key a ≠ key b → less a b = true ∨ less b a = true

/-- The place of a key in a list. -/
def rank {α κ : Type} [DecidableEq κ] (key : α → κ) (l : List α) (k : κ) : Nat :=
  (l.map key).idxOf k

namespace Ranks

variable {α κ : Type} {less : α → α → Bool} {key : α → κ} {l s : List α} {a b : α}

theorem of_perm (h : Ranks less key l) (hperm : s.Perm l) : Ranks less key s where
  asymm a ha b hb := h.asymm a (hperm.mem_iff.mp ha) b (hperm.mem_iff.mp hb)
  trans a ha b hb c hc :=
    h.trans a (hperm.mem_iff.mp ha) b (hperm.mem_iff.mp hb) c (hperm.mem_iff.mp hc)
  keys := (hperm.map key).nodup_iff.mpr h.keys
  total a ha b hb := h.total a (hperm.mem_iff.mp ha) b (hperm.mem_iff.mp hb)

theorem irrefl (h : Ranks less key l) (ha : a ∈ l) : less a a = false := by
  cases hless : less a a with
  | false => rfl
  | true => exact hless ▸ h.asymm a ha a ha hless

theorem eq_of_key (h : Ranks less key l) (ha : a ∈ l) (hb : b ∈ l) (hkey : key a = key b) :
    a = b :=
  List.inj_on_of_nodup_map h.keys ha hb hkey

theorem less_or_less (h : Ranks less key l) (ha : a ∈ l) (hb : b ∈ l) (hne : a ≠ b) :
    less a b = true ∨ less b a = true :=
  h.total a ha b hb fun hkey => hne (h.eq_of_key ha hb hkey)

section Sorted

variable (h : Ranks less key s) (hs : s.Pairwise fun a b => less b a = false)

include h hs

/-- What stands before an element is less, and what stands after it is greater. -/
theorem less_of_split {before after : List α} (hsplit : s = before ++ a :: after) :
    (∀ b ∈ before, less b a = true) ∧ ∀ b ∈ after, less a b = true := by
  have hkeys := h.keys
  subst hsplit
  obtain ⟨-, hcons, hbefore⟩ := List.pairwise_append.mp hs
  have hafter := (List.pairwise_cons.mp hcons).1
  rw [List.map_append, List.map_cons, List.nodup_append] at hkeys
  obtain ⟨-, hnodup, hdisjoint⟩ := hkeys
  constructor
  · intro b hb
    have hne : key b ≠ key a :=
      hdisjoint _ (List.mem_map_of_mem hb) _ List.mem_cons_self
    exact (h.total b (List.mem_append_left _ hb) a (by simp) hne).resolve_right
      (by rw [hbefore b hb a List.mem_cons_self]; exact Bool.false_ne_true)
  · intro b hb
    have hne : key a ≠ key b := fun heq =>
      (List.nodup_cons.mp hnodup).1 (heq ▸ List.mem_map_of_mem hb)
    exact (h.total a (by simp) b (by simp [hb]) hne).resolve_right
      (by rw [hafter b hb]; exact Bool.false_ne_true)

/-- The first element with a property is less than the others with it. -/
theorem find?_eq_some_iff {p : α → Bool} :
    s.find? p = some a ↔
      a ∈ s ∧ p a = true ∧ ∀ b ∈ s, p b = true → b = a ∨ less a b = true := by
  constructor
  · intro hfind
    obtain ⟨hpa, before, after, hsplit, hnone⟩ := List.find?_eq_some_iff_append.mp hfind
    refine ⟨by simp [hsplit], hpa, fun b hb hpb => ?_⟩
    rw [hsplit] at hb
    obtain hb | hb := List.mem_append.mp hb
    · have := hnone b hb
      rw [hpb] at this
      cases this
    · obtain rfl | hb := List.mem_cons.mp hb
      · exact .inl rfl
      · exact .inr ((h.less_of_split hs hsplit).2 b hb)
  · rintro ⟨ha, hpa, hleast⟩
    cases hfind : s.find? p with
    | none => exact absurd hpa (List.find?_eq_none.mp hfind a ha)
    | some b =>
      obtain ⟨hpb, before, after, hsplit, hnone⟩ := List.find?_eq_some_iff_append.mp hfind
      have hb : b ∈ s := by simp [hsplit]
      obtain rfl | hless := hleast b hb hpb
      · rfl
      · rw [hsplit] at ha
        obtain ha | ha := List.mem_append.mp ha
        · have := hnone a ha
          rw [hpa] at this
          cases this
        · obtain rfl | hafter := List.mem_cons.mp ha
          · rfl
          · have hasymm := h.asymm a (by simp [hsplit, hafter]) b hb hless
            rw [(h.less_of_split hs hsplit).2 a hafter] at hasymm
            cases hasymm

variable [DecidableEq κ]

omit hs in
theorem rank_of_split {before after : List α} (hsplit : s = before ++ a :: after) :
    rank key s (key a) = before.length := by
  have hnot : key a ∉ before.map key := by
    have hkeys := h.keys
    rw [hsplit, List.map_append, List.map_cons, List.nodup_append] at hkeys
    exact fun hmem => hkeys.2.2 _ hmem _ List.mem_cons_self rfl
  unfold rank
  rw [hsplit, List.map_append, List.map_cons, List.idxOf_append_of_notMem hnot,
    List.idxOf_cons_self, List.length_map, Nat.add_zero]

/-- The rank of an element is the number of the lesser ones. -/
theorem rank_eq (ha : a ∈ s) : rank key s (key a) = s.countP fun b => less b a := by
  obtain ⟨before, after, hsplit⟩ := List.append_of_mem ha
  obtain ⟨hbefore, hafter⟩ := h.less_of_split hs hsplit
  have hcount : after.countP (fun b => less b a) = 0 := by
    rw [List.countP_eq_zero]
    intro b hb
    have hasymm := h.asymm a ha b (by simp [hsplit, hb]) (hafter b hb)
    rw [hasymm]
    exact Bool.false_ne_true
  have hall : before.countP (fun b => less b a) = before.length := by
    rw [List.countP_eq_length]
    exact hbefore
  have hself := h.irrefl ha
  rw [h.rank_of_split hsplit, hsplit, List.countP_append, hall, List.countP_cons_of_neg, hcount,
    Nat.add_zero]
  simp [hself]

/-- An element is ranked before another one exactly when it is less. -/
theorem rank_lt_iff (ha : a ∈ s) (hb : b ∈ s) :
    rank key s (key a) < rank key s (key b) ↔ less a b = true := by
  have hless : ∀ {a b}, a ∈ s → b ∈ s → less a b = true →
      rank key s (key a) < rank key s (key b) := by
    intro a b ha hb hless
    obtain ⟨before, after, hsplit⟩ := List.append_of_mem ha
    have hnot : less b a = false := h.asymm a ha b hb hless
    have hafter : b ∈ after := by
      have hmem := hb
      rw [hsplit] at hmem
      obtain hmem | hmem := List.mem_append.mp hmem
      · rw [(h.less_of_split hs hsplit).1 b hmem] at hnot
        cases hnot
      · obtain rfl | hmem := List.mem_cons.mp hmem
        · rw [hless] at hnot
          cases hnot
        · exact hmem
    obtain ⟨between, rest, hrest⟩ := List.append_of_mem hafter
    have hsplit' : s = (before ++ a :: between) ++ b :: rest := by
      rw [hsplit, hrest, List.append_assoc, List.cons_append]
    rw [h.rank_of_split hsplit, h.rank_of_split hsplit', List.length_append, List.length_cons]
    omega
  constructor
  · intro hlt
    by_contra hnot
    have hne : a ≠ b := fun heq => lt_irrefl _ (heq ▸ hlt)
    have hba := (h.less_or_less ha hb hne).resolve_left hnot
    exact absurd hlt (hless hb ha hba).not_gt
  · exact hless ha hb

end Sorted

end Ranks

/-! ## The first of the greatest -/

section Leads

variable {α : Type} {less : α → α → Bool} {l : List α}

/-- `sorted(l, reverse=True)`, which keeps the order of equal elements. -/
def sortedReverse (less : α → α → Bool) (l : List α) : List α :=
  l.mergeSort fun a b => !less a b

/-- An element is greater than those before it and not less than those after it. -/
def Leads (less : α → α → Bool) (l : List α) (r : α) : Prop :=
  ∃ before after, l = before ++ r :: after ∧ (∀ a ∈ before, less a r = true) ∧
    ∀ a ∈ after, less r a = false

theorem Leads.mem {r : α} (h : Leads less l r) : r ∈ l := by
  obtain ⟨before, after, rfl, -⟩ := h
  exact List.mem_append_right _ List.mem_cons_self

theorem Leads.not_less (horders : Orders less l) {r : α} (h : Leads less l r) :
    ∀ a ∈ l, less r a = false := by
  have hmem := h.mem
  obtain ⟨before, after, rfl, hbefore, hafter⟩ := h
  intro a ha
  rcases List.mem_append.mp ha with hin | hin
  · exact horders.asymm a ha r hmem (hbefore a hin)
  · rcases List.mem_cons.mp hin with rfl | hin
    · by_contra hself
      have hself := Bool.eq_true_of_not_eq_false hself
      have hnot := horders.asymm a ha a ha hself
      rw [hself] at hnot
      cases hnot
    · exact hafter a hin

/-- Only one element leads a list. -/
theorem Leads.unique {r r' : α} (h : Leads less l r) (h' : Leads less l r') : r = r' := by
  obtain ⟨before, after, rfl, hbefore, hafter⟩ := h
  obtain ⟨before', after', heq, hbefore', hafter'⟩ := h'
  have hcontra : ∀ {x y : α}, less x y = true → less x y = false → r = r' := by
    intro x y htrue hfalse
    rw [htrue] at hfalse
    cases hfalse
  rcases List.append_eq_append_iff.mp heq with ⟨mid, hmid, hrest⟩ | ⟨mid, hmid, hrest⟩
  · cases mid with
    | nil => exact (List.cons.inj hrest).1
    | cons x mid =>
      obtain ⟨rfl, rfl⟩ := List.cons.inj hrest
      exact hcontra (hbefore' r (by simp [hmid])) (hafter r' (by simp))
  · cases mid with
    | nil => exact (List.cons.inj hrest).1.symm
    | cons x mid =>
      obtain ⟨rfl, rfl⟩ := List.cons.inj hrest
      exact hcontra (hbefore r' (by simp [hmid])) (hafter' r (by simp))

/-- The head of the sorted list leads it, if all elements are ordered. -/
theorem leads_of_ordered (hasymm : ∀ a b, less a b = true → less b a = false)
    (htrans : ∀ a b c, less b a = false → less c b = false → less c a = false) {r : α}
    {rest : List α} (h : sortedReverse less l = r :: rest) : Leads less l r := by
  have htrans' : ∀ x y z : α, (!less x y) = true → (!less y z) = true → (!less x z) = true := by
    intro x y z hxy hyz
    rw [Bool.not_eq_true'] at hxy hyz ⊢
    exact htrans z y x hyz hxy
  have htotal : ∀ x y : α, ((!less x y) || (!less y x)) = true := by
    intro x y
    cases hxy : less x y with
    | false => rfl
    | true => simp [hasymm x y hxy]
  unfold sortedReverse at h
  induction l generalizing r rest with
  | nil =>
    rw [List.mergeSort_nil] at h
    cases h
  | cons a l ih =>
    obtain ⟨l₁, l₂, heq, heq', hl₁⟩ := List.mergeSort_cons htrans' htotal a l
    rw [heq] at h
    cases l₁ with
    | nil =>
      obtain ⟨rfl, rfl⟩ := List.cons.inj h
      refine ⟨[], l, rfl, nofun, fun b hb => ?_⟩
      have hsorted := List.pairwise_mergeSort htrans' htotal (a :: l)
      rw [heq] at hsorted
      rw [List.nil_append] at heq'
      have hb : b ∈ l₂ := by
        rw [← heq']
        exact List.mem_mergeSort.mpr hb
      have hle := (List.pairwise_cons.mp hsorted).1 b hb
      rwa [Bool.not_eq_true'] at hle
    | cons b l₁ =>
      obtain ⟨rfl, -⟩ := List.cons.inj h
      obtain ⟨before, after, hsplit, hbefore, hafter⟩ := ih heq'
      have hab := hl₁ b List.mem_cons_self
      rw [Bool.not_not] at hab
      refine ⟨a :: before, after, by rw [hsplit]; rfl, ?_, hafter⟩
      exact List.forall_mem_cons.mpr ⟨hab, hbefore⟩

/-- The head of the sorted list leads it. -/
theorem leads_of_sortedReverse (h : Orders less l) {r : α} {rest : List α}
    (hsorted : sortedReverse less l = r :: rest) : Leads less l r := by
  -- The elements of the list are ordered, others need not be.
  let less' (a b : {a // a ∈ l}) : Bool := less a.1 b.1
  have hmap : (sortedReverse less' l.attach).map Subtype.val = sortedReverse less l := by
    unfold sortedReverse
    rw [List.map_mergeSort (s := fun a b => !less a b) fun _ _ _ _ => rfl, List.attach_map_subtype_val]
  rw [hsorted] at hmap
  obtain ⟨r', rest', hsorted', hr, -⟩ := List.map_eq_cons_iff.mp hmap
  obtain ⟨before, after, hsplit, hbefore, hafter⟩ :=
    leads_of_ordered (fun a b => h.asymm a.1 a.2 b.1 b.2)
      (fun a b c => h.trans a.1 a.2 b.1 b.2 c.1 c.2) hsorted'
  have hl := congrArg (List.map Subtype.val) hsplit
  rw [List.attach_map_subtype_val, List.map_append, List.map_cons, hr] at hl
  refine ⟨_, _, hl, fun a ha => ?_, fun a ha => ?_⟩
  · obtain ⟨a', ha', rfl⟩ := List.mem_map.mp ha
    rw [← hr]
    exact hbefore a' ha'
  · obtain ⟨a', ha', rfl⟩ := List.mem_map.mp ha
    rw [← hr]
    exact hafter a' ha'

end Leads

/-! ## Pairs of keys -/

section Lex

variable {α : Type} {eq less rest : α → α → Bool} {l : List α}

/-- Two elements by a key, and those with equal keys by another one. -/
def lexLess (eq less rest : α → α → Bool) (a b : α) : Bool :=
  if eq a b then rest a b else less a b

theorem lexLess_of_ne {a b : α} (h : eq a b = false) : lexLess eq less rest a b = less a b := by
  unfold lexLess
  rw [if_neg (Bool.eq_false_iff.mp h)]

theorem Go.Orders.lex (h : Orders less l) (hrest : Orders rest l)
    (heq : ∀ a ∈ l, ∀ b ∈ l, eq a b = (!less a b && !less b a)) :
    Orders (lexLess eq less rest) l where
  asymm a ha b hb hab := by
    unfold lexLess at hab ⊢
    rw [heq b hb a ha, Bool.and_comm, ← heq a ha b hb]
    split at hab
    · rename_i hequal
      rw [if_pos hequal]
      exact hrest.asymm a ha b hb hab
    · rename_i hequal
      rw [if_neg hequal]
      exact h.asymm a ha b hb hab
  trans a ha b hb c hc hba hcb := by
    have htrans := h.trans
    have hasymm := h.asymm
    have hrestTrans := hrest.trans
    unfold lexLess at hba hcb ⊢
    have hba' := heq b hb a ha
    have hcb' := heq c hc b hb
    have hca' := heq c hc a ha
    grind

end Lex

end Kavora.Lib
