import Mathlib.Data.List.Count
import Mathlib.Order.Basic
import Mathlib.Data.List.Basic
import Mathlib.Order.Lattice

/-!
# Admission to a number of slots

Work is admitted for intervals of time. The ends of the intervals that are not over are kept in a
list, which is enough to know how many intervals a time is in (`Counts`), from the time of the last
arrival on.

* `running`: how many intervals a time is in.
* `Counts.enter`: an interval that begins at its arrival.
* `Counts.delay`: an interval that begins when the first of the others ends; the count is right from
  the arrival on just if one interval ends there (`running_delay`, `Counts.delay_single`).
-/

namespace Kavora.Lib.Admission

variable {τ : Type} [LinearOrder τ]

/-- How many of the intervals a time is in: the begin belongs to an interval, the end does not. -/
def running (intervals : List (τ × τ)) (t : τ) : Nat :=
  intervals.countP fun interval => interval.1 ≤ t && t < interval.2

/-- How many of the ends are after a time. -/
def later (ends : List τ) (t : τ) : Nat := ends.countP fun finish => t < finish

/-- From a time on, these are the ends of the intervals that are not over. -/
def Counts (intervals : List (τ × τ)) (ends : List τ) (start : τ) : Prop :=
  ∀ t, start ≤ t → running intervals t = later ends t

variable {intervals : List (τ × τ)} {ends : List τ} {start admission finish t : τ}

/-! ## Ends -/

theorem later_le_length (ends : List τ) (t : τ) : later ends t ≤ ends.length :=
  List.countP_le_length

theorem later_eq_length (h : ∀ finish ∈ ends, t < finish) : later ends t = ends.length := by
  unfold later
  rw [List.countP_eq_length]
  intro finish hfinish
  exact decide_eq_true (h finish hfinish)

theorem later_perm {ends' : List τ} (h : ends.Perm ends') : later ends t = later ends' t :=
  h.countP_eq _

theorem later_concat (ends : List τ) (finish t : τ) :
    later (ends ++ [finish]) t = later ends t + if t < finish then 1 else 0 := by
  unfold later
  rw [List.countP_append, List.countP_singleton]
  simp

/-- The ends that are over do not count. -/
theorem later_filter (ends : List τ) (h : start ≤ t) :
    later (ends.filter fun finish => start < finish) t = later ends t := by
  unfold later
  rw [List.countP_filter]
  refine List.countP_congr fun finish _ => ?_
  simp only [Bool.and_eq_true, decide_eq_true_eq, and_iff_left_iff_imp]
  exact fun hlt => lt_of_le_of_lt h hlt

/-- Those that end first, and the others. -/
theorem length_filter_first (h : ∀ finish ∈ ends, admission ≤ finish) :
    (ends.filter fun finish => admission < finish).length +
      ends.countP (fun finish => finish = admission) = ends.length := by
  rw [← List.countP_eq_length_filter,
    List.length_eq_countP_add_countP fun finish => admission < finish]
  congr 1
  refine List.countP_congr fun finish hfinish => ?_
  simp only [decide_eq_true_eq, not_lt]
  constructor
  · intro heq
    exact le_of_eq heq
  · intro hle
    exact le_antisymm hle (h finish hfinish)

/-! ## Intervals -/

theorem running_concat (intervals : List (τ × τ)) (admission finish t : τ) :
    running (intervals ++ [(admission, finish)]) t =
      running intervals t + if admission ≤ t ∧ t < finish then 1 else 0 := by
  unfold running
  rw [List.countP_append, List.countP_singleton]
  simp

theorem running_le_append (intervals intervals' : List (τ × τ)) (t : τ) :
    running intervals t ≤ running (intervals ++ intervals') t := by
  unfold running
  rw [List.countP_append]
  exact Nat.le_add_right _ _

theorem Counts.nil (start : τ) : Counts [] [] start := fun _ _ => rfl

theorem Counts.mono {start' : τ} (h : Counts intervals ends start) (hle : start ≤ start') :
    Counts intervals ends start' :=
  fun t ht => h t (le_trans hle ht)

theorem Counts.perm {ends' : List τ} (h : Counts intervals ends start) (hperm : ends.Perm ends') :
    Counts intervals ends' start := by
  intro t ht
  rw [h t ht, later_perm hperm]

theorem Counts.filter (h : Counts intervals ends start) :
    Counts intervals (ends.filter fun finish => start < finish) start := by
  intro t ht
  rw [h t ht, later_filter ends ht]

/-! ## Steps -/

/-- An interval from the time of its arrival on. -/
theorem Counts.enter (h : Counts intervals ends start) (finish : τ) :
    Counts (intervals ++ [(start, finish)]) (ends ++ [finish]) start := by
  intro t ht
  rw [running_concat, later_concat, h t ht]
  simp only [ht, true_and]

/-- An interval that begins when the first of the others ends. -/
theorem Counts.delay (h : Counts intervals ends start) (hle : start ≤ admission) (finish : τ) :
    Counts (intervals ++ [(admission, finish)])
      ((ends.filter fun finish => admission < finish) ++ [finish]) admission :=
  (h.mono hle).filter.enter finish

/-- Up to its begin all the others run. -/
theorem running_delay (h : Counts intervals ends start) (hstart : start ≤ t) (ht : t < admission)
    (hfirst : ∀ finish ∈ ends, admission ≤ finish) (finish : τ) :
    running (intervals ++ [(admission, finish)]) t = ends.length := by
  rw [running_concat, if_neg fun hin => not_le_of_gt ht hin.1, h t hstart, Nat.add_zero]
  exact later_eq_length fun finish' hfinish' => lt_of_lt_of_le ht (hfirst finish' hfinish')

/-- If one of the others ends there, it leaves its place to the new interval. -/
theorem Counts.delay_single (h : Counts intervals ends start) (hle : start ≤ admission)
    (hlt : admission < finish) (hfirst : ∀ finish ∈ ends, admission ≤ finish)
    (hsingle : ends.countP (fun finish => finish = admission) = 1) :
    Counts (intervals ++ [(admission, finish)])
      ((ends.filter fun finish => admission < finish) ++ [finish]) start := by
  intro t ht
  rcases le_or_gt admission t with hadmitted | hwaiting
  · exact h.delay hle finish t hadmitted
  · rw [running_delay h ht hwaiting hfirst, later_concat, if_pos (lt_trans hwaiting hlt),
      later_eq_length, ← length_filter_first hfirst, hsingle]
    intro finish' hfinish'
    exact lt_trans hwaiting (of_decide_eq_true (List.mem_filter.mp hfinish').2)

/-- A bound that holds before an interval holds with it, if it holds from its arrival on. -/
theorem running_concat_le {max : Nat} (hbefore : ∀ t, running intervals t ≤ max)
    (hle : start ≤ admission)
    (hafter : ∀ t, start ≤ t → running (intervals ++ [(admission, finish)]) t ≤ max) (t : τ) :
    running (intervals ++ [(admission, finish)]) t ≤ max := by
  rcases le_or_gt start t with hstart | hearly
  · exact hafter t hstart
  · rw [running_concat, if_neg fun hin => not_le_of_gt (lt_of_lt_of_le hearly hle) hin.1]
    exact hbefore t

end Kavora.Lib.Admission
