import Kavora.Policy.StreamLemmas
import Mathlib.Data.Nat.Find

/-!
# Where an event may end

`findEventEnd` takes the first two adjacent line feeds of what it sees, and only without any the
first two pairs of a carriage return and a line feed. So the end of an event can depend on how far
the inspector sees.

* `Cut rest n`: an event of `rest` may end at `n`.
* `Reads`: the inspector reads a stream to its end, with any look-ahead at each event.
* `accept_append`: an event is accepted like its two parts if one of them has no data.
* `Unambiguous`: wherever an event may end at two places, one of the parts has no data.
* `Reads.unique`: an unambiguous stream has one verdict.
-/

namespace Kavora.Policy

open Lib StreamInspector

/-! ## Ends -/

/-- An event at the start of `rest` may end at `n`, by what is seen of `rest`. -/
def Cut (rest : Bytes) (n : Nat) : Prop := ∃ seen, findEventEnd (rest.take seen) = some n

theorem Whole.cut {event : Bytes} (h : Whole event) (rest : Bytes) :
    Cut (event ++ rest) event.length :=
  ⟨event.length, by rw [List.take_left']; exacts [h, rfl]⟩

theorem Cut.whole {rest : Bytes} {n : Nat} (h : Cut rest n) : Whole (rest.take n) := by
  obtain ⟨seen, hseen⟩ := h
  have hle := findEventEnd_le hseen
  rw [List.length_take] at hle
  have hwhole := whole_take hseen
  rwa [List.take_take, Nat.min_eq_left (by omega)] at hwhole

theorem Cut.pos {rest : Bytes} {n : Nat} (h : Cut rest n) : 0 < n ∧ n ≤ rest.length := by
  obtain ⟨seen, hseen⟩ := h
  have hle := findEventEnd_le hseen
  rw [List.length_take] at hle
  exact ⟨findEventEnd_pos hseen, by omega⟩

/-- An event ends at the first two line feeds, or at two pairs before them. -/
theorem cut_iff {rest : Bytes} {n : Nat} :
    Cut rest n ↔ (∃ j, position [lf, lf] rest = some j ∧ n = j + 2) ∨
      ∃ i, position [cr, lf, cr, lf] rest = some i ∧ n = i + 4 ∧
        ∀ j, position [lf, lf] rest = some j → i + 4 < j + 2 := by
  constructor
  · rintro ⟨seen, hseen⟩
    have hgrow : ∀ {pat : Bytes} {i : Nat}, position pat (rest.take seen) = some i →
        position pat rest = some i := by
      intro pat i h
      have := position_append h (rest.drop seen)
      rwa [List.take_append_drop] at this
    obtain ⟨j, hj, hn⟩ | ⟨hnone, i, hi, hn⟩ := findEventEnd_cases hseen
    · exact .inl ⟨j, hgrow hj, hn⟩
    · refine .inr ⟨i, hgrow hi, hn, fun j hj => ?_⟩
      by_contra hle
      have hlen := position_add_le hi
      simp only [List.length_cons, List.length_nil, List.length_take] at hlen
      -- the two line feeds would be among the bytes that are seen
      have hfound := position_take (by simp) hj
      simp only [List.length_cons, List.length_nil] at hfound
      have hsame : rest.take (j + 2) = (rest.take seen).take (j + 2) := by
        rw [List.take_take, Nat.min_eq_left (by omega)]
      rw [hsame] at hfound
      have := position_append hfound ((rest.take seen).drop (j + 2))
      rw [List.take_append_drop, hnone] at this
      cases this
  · rintro (⟨j, hj, rfl⟩ | ⟨i, hi, rfl, hbefore⟩)
    · refine ⟨rest.length, ?_⟩
      unfold findEventEnd
      rw [List.take_length, hj]
      rfl
    · refine ⟨i + 4, ?_⟩
      have hfound := position_take (by simp) hi
      simp only [List.length_cons, List.length_nil] at hfound
      have hnone : position [lf, lf] (rest.take (i + 4)) = none := by
        by_contra hne
        obtain ⟨j, hj⟩ := Option.ne_none_iff_exists'.mp hne
        have hlen := position_add_le hj
        have := position_append hj (rest.drop (i + 4))
        rw [List.take_append_drop] at this
        have := hbefore j this
        simp only [List.length_cons, List.length_nil, List.length_take] at hlen
        omega
      unfold findEventEnd
      rw [hnone, hfound]
      rfl

theorem findEventEnd_eq_none_iff {rest : Bytes} :
    findEventEnd rest = none ↔ ∀ n, ¬ Cut rest n := by
  constructor
  · intro hnone n hcut
    unfold findEventEnd at hnone
    obtain ⟨j, hj, -⟩ | ⟨i, hi, -⟩ := cut_iff.mp hcut
    · rw [hj] at hnone
      cases hnone
    · rw [hi] at hnone
      simp at hnone
  · intro hnone
    by_contra hne
    obtain ⟨n, hn⟩ := Option.ne_none_iff_exists'.mp hne
    exact hnone n ⟨rest.length, by rw [List.take_length]; exact hn⟩

/-! ## Events in two parts -/

/-- The values of the `data:` fields of an event. -/
def dataFields (event : Bytes) : List Bytes := (strLines event).filterMap dataLine

theorem eventData_of_utf8 {event : Bytes} (h : fromUtf8 event = true) :
    eventData event = .ok ([lf].intercalate (dataFields event)) := if_pos h

theorem eventData_of_not_utf8 {event : Bytes} (h : fromUtf8 event = false) :
    eventData event = .error (.protocolViolation, "SSE event is not UTF-8") :=
  if_neg (by rw [h]; exact Bool.false_ne_true)

/-- After a line feed the second part starts a line. -/
theorem dataFields_append {first : Bytes} (h : first.getLast? = some lf) (second : Bytes) :
    dataFields (first ++ second) = dataFields first ++ dataFields second := by
  unfold dataFields strLines
  rw [splitInclusive_append h, List.map_append, List.filterMap_append]

theorem fromUtf8_parts {first : Bytes} (h : first.getLast? = some lf) (second : Bytes) :
    fromUtf8 (first ++ second) = (fromUtf8 first && fromUtf8 second) := by
  obtain ⟨before, rfl⟩ := List.getLast?_eq_some_iff.mp h
  rw [List.append_assoc, List.singleton_append, fromUtf8_append_lf, fromUtf8_append_lf]
  simp [fromUtf8]

/-- A line feed before an event changes nothing. -/
theorem eventData_lf (event : Bytes) : eventData (lf :: event) = eventData event := by
  have hfields : dataFields (lf :: event) = dataFields event := by
    have hsplit : dataFields ([lf] ++ event) = dataFields [lf] ++ dataFields event :=
      dataFields_append rfl event
    rwa [show dataFields [lf] = [] by decide, List.nil_append] at hsplit
  have hutf8 : fromUtf8 (lf :: event) = fromUtf8 event := fromUtf8_append_lf [] event
  cases h : fromUtf8 event with
  | true => rw [eventData_of_utf8 h, eventData_of_utf8 (hutf8.trans h), hfields]
  | false => rw [eventData_of_not_utf8 h, eventData_of_not_utf8 (hutf8.trans h)]

namespace StreamInspector

/-- The inspector after an event that it accepts. -/
def accept (lib : Externals) (self : StreamInspector) (event : Bytes) : Option StreamInspector :=
  match self.inspectEvent lib event with
  | (.error _, _) => none
  | (.ok (), self) => some self

variable {lib : Externals} {s s' : StreamInspector} {event event' : Bytes}

theorem accept_eq_some_iff :
    s.accept lib event = some s' ↔ s.inspectEvent lib event = (.ok (), s') := by
  unfold accept
  rcases s.inspectEvent lib event with ⟨_ | ⟨⟩, s₁⟩ <;> simp

theorem accept_congr (h : eventData event = eventData event') :
    s.accept lib event = s.accept lib event' := by
  unfold accept inspectEvent
  rw [h]

theorem accept_error {e : EventError} (h : eventData event = .error e) :
    s.accept lib event = none := by
  unfold accept inspectEvent
  rw [h]

theorem accept_nil (h : eventData event = .ok []) : s.accept lib event = some s := by
  unfold accept inspectEvent
  rw [h]
  rfl

/-- An event is accepted like its two parts if one of them has no data. -/
theorem accept_append {first second : Bytes} (hlast : first.getLast? = some lf)
    (h : dataFields first = [] ∨ dataFields second = []) :
    s.accept lib (first ++ second) =
      (s.accept lib first).bind fun s₁ => s₁.accept lib second := by
  have hutf8 := fromUtf8_parts hlast second
  have hfields := dataFields_append hlast second
  have hjoin : ∀ event, fromUtf8 event = true → dataFields event = [] →
      eventData event = .ok [] := by
    intro event hevent hnone
    rw [eventData_of_utf8 hevent, hnone]
    rfl
  cases hfirst : fromUtf8 first with
  | false =>
    rw [hfirst, Bool.false_and] at hutf8
    rw [accept_error (eventData_of_not_utf8 hutf8), accept_error (eventData_of_not_utf8 hfirst)]
    rfl
  | true =>
    rw [hfirst, Bool.true_and] at hutf8
    cases hsecond : fromUtf8 second with
    | false =>
      rw [accept_error (eventData_of_not_utf8 (hutf8.trans hsecond))]
      cases s.accept lib first with
      | none => rfl
      | some s₁ => exact (accept_error (eventData_of_not_utf8 hsecond)).symm
    | true =>
      have hdata := eventData_of_utf8 (hutf8.trans hsecond)
      rw [hfields] at hdata
      obtain hnone | hnone := h
      · rw [accept_nil (hjoin first hfirst hnone), Option.bind_some]
        refine accept_congr (hdata.trans ?_)
        rw [hnone, List.nil_append, eventData_of_utf8 hsecond]
      · have hkeep : (fun s₁ : StreamInspector => s₁.accept lib second) = some :=
          funext fun s₁ => accept_nil (hjoin second hsecond hnone)
        rw [hkeep, Option.bind_fun_some]
        refine accept_congr (hdata.trans ?_)
        rw [hnone, List.append_nil, eventData_of_utf8 hfirst]

end StreamInspector

/-! ## Reading a stream -/

/-- The inspector reads a stream to its end, and whether it allows it. At each event it may see any
first bytes of the rest. -/
inductive Reads (lib : Externals) : StreamInspector → Bytes → Bool → Prop
  | finish {s : StreamInspector} {rest : Bytes} : findEventEnd rest = none →
    Reads lib s rest (s.sawDone && rest.all isAsciiWhitespace)
  | reject {s : StreamInspector} {rest : Bytes} {n : Nat} : Cut rest n →
    s.accept lib (rest.take n) = none → Reads lib s rest false
  | accept {s s' : StreamInspector} {rest : Bytes} {n : Nat} {allowed : Bool} : Cut rest n →
    s.accept lib (rest.take n) = some s' → Reads lib s' (rest.drop n) allowed →
    Reads lib s rest allowed

variable {lib : Externals} {s s' : StreamInspector} {rest : Bytes} {allowed : Bool}

/-- Accepted whole events are read. -/
theorem StreamInspector.Accepted.reads {events : List Bytes} (h : Accepted lib s events s')
    (hwhole : ∀ e ∈ events, Whole e) (hrest : Reads lib s' rest allowed) :
    Reads lib s (events.flatten ++ rest) allowed := by
  induction h with
  | nil => exact hrest
  | @cons s s₁ s₂ event events he _ ih =>
    have hcut := (hwhole event List.mem_cons_self).cut (events.flatten ++ rest)
    have htail := ih (fun e hmem => hwhole e (List.mem_cons_of_mem _ hmem)) hrest
    have haccept : s.accept lib ((event ++ (events.flatten ++ rest)).take event.length) =
        some s₁ := by
      rw [List.take_left' rfl]
      exact accept_eq_some_iff.mpr he
    rw [List.flatten_cons, List.append_assoc]
    refine .accept hcut haccept ?_
    rwa [List.drop_left' rfl]

/-- The ends after a line feed that no other one follows. -/
theorem cut_lf_cons {b : UInt8} (hb : b ≠ lf) {n : Nat} :
    Cut (lf :: b :: rest) n ↔ ∃ m, n = m + 1 ∧ Cut (b :: rest) m := by
  have hlf : position [lf, lf] (lf :: b :: rest) = (position [lf, lf] (b :: rest)).map (· + 1) :=
    position_cons (by simp [Ne.symm hb])
  have hcr : position [cr, lf, cr, lf] (lf :: b :: rest) =
      (position [cr, lf, cr, lf] (b :: rest)).map (· + 1) :=
    position_cons (by simp [show cr ≠ lf by decide])
  rw [cut_iff, hlf, hcr]
  constructor
  · rintro (⟨j, hj, rfl⟩ | ⟨i, hi, rfl, hbefore⟩)
    · obtain ⟨k, hk, rfl⟩ := Option.map_eq_some_iff.mp hj
      exact ⟨k + 2, by omega, cut_iff.mpr (.inl ⟨k, hk, rfl⟩)⟩
    · obtain ⟨k, hk, rfl⟩ := Option.map_eq_some_iff.mp hi
      refine ⟨k + 4, by omega, cut_iff.mpr (.inr ⟨k, hk, rfl, fun j hj => ?_⟩)⟩
      have := hbefore (j + 1) (by rw [hj]; rfl)
      omega
  · rintro ⟨m, rfl, hcut⟩
    obtain ⟨j, hj, rfl⟩ | ⟨i, hi, rfl, hbefore⟩ := cut_iff.mp hcut
    · exact .inl ⟨j + 1, by rw [hj]; rfl, by omega⟩
    · refine .inr ⟨i + 1, by rw [hi]; rfl, by omega, fun j hj => ?_⟩
      obtain ⟨k, hk, rfl⟩ := Option.map_eq_some_iff.mp hj
      have := hbefore k hk
      omega

/-- Two line feeds are an event. -/
theorem cut_lf_lf {n : Nat} : Cut (lf :: lf :: rest) n ↔ n = 2 := by
  have hlf : position [lf, lf] (lf :: lf :: rest) = some 0 := by
    rw [position, if_pos ⟨rest, rfl⟩]
  rw [cut_iff]
  constructor
  · rintro (⟨j, hj, rfl⟩ | ⟨i, hi, rfl, hbefore⟩)
    · rw [hlf] at hj
      cases hj
      rfl
    · have := hbefore 0 hlf
      omega
  · rintro rfl
    exact .inl ⟨0, hlf, rfl⟩

theorem reads_lf_lf : Reads lib s (lf :: lf :: rest) allowed ↔ Reads lib s rest allowed := by
  have hkeep : s.accept lib [lf, lf] = some s := accept_nil (by decide)
  constructor
  · intro h
    cases h with
    | finish hnone => exact absurd (cut_lf_lf.mpr rfl) (findEventEnd_eq_none_iff.mp hnone 2)
    | reject hcut hreject =>
      obtain rfl := cut_lf_lf.mp hcut
      exact absurd (hkeep.symm.trans hreject) nofun
    | accept hcut haccept hrest =>
      obtain rfl := cut_lf_lf.mp hcut
      obtain rfl := Option.some.inj (hkeep.symm.trans haccept)
      exact hrest
  · exact fun h => .accept (cut_lf_lf.mpr rfl) hkeep h

/-- A line feed at the start of the rest changes nothing. -/
theorem reads_lf : ∀ (rest : Bytes) {allowed : Bool},
    Reads lib s (lf :: rest) allowed ↔ Reads lib s rest allowed
  | [], allowed => by
    have hspace : [lf].all isAsciiWhitespace = ([] : Bytes).all isAsciiWhitespace := by decide
    have hnone : ∀ n, ¬ Cut [lf] n := by
      intro n hcut
      have hend := findEventEnd_eq_none_iff.mp (show findEventEnd [lf] = none by decide)
      exact hend n hcut
    have hnil : ∀ n, ¬ Cut [] n := by
      intro n hcut
      have := hcut.pos
      simp only [List.length_nil] at this
      omega
    constructor
    · intro h
      cases h with
      | finish hend => exact hspace ▸ .finish (by decide)
      | reject hcut => exact absurd hcut (hnone _)
      | accept hcut => exact absurd hcut (hnone _)
    · intro h
      cases h with
      | finish hend => exact hspace ▸ .finish (by decide)
      | reject hcut => exact absurd hcut (hnil _)
      | accept hcut => exact absurd hcut (hnil _)
  | b :: rest, allowed => by
    by_cases hb : b = lf
    · subst hb
      rw [reads_lf_lf, reads_lf rest]
    · have hdata : ∀ n, s.accept lib ((lf :: b :: rest).take (n + 1)) =
          s.accept lib ((b :: rest).take n) := by
        intro n
        rw [List.take_succ_cons]
        exact accept_congr (eventData_lf _)
      have hspace : (lf :: b :: rest).all isAsciiWhitespace =
          (b :: rest).all isAsciiWhitespace := by
        rw [List.all_cons, show isAsciiWhitespace lf = true by decide, Bool.true_and]
      constructor
      · intro h
        cases h with
        | finish hend =>
          rw [hspace]
          refine .finish (findEventEnd_eq_none_iff.mpr fun n hcut => ?_)
          exact findEventEnd_eq_none_iff.mp hend _ ((cut_lf_cons hb).mpr ⟨n, rfl, hcut⟩)
        | reject hcut hreject =>
          obtain ⟨m, rfl, hcut'⟩ := (cut_lf_cons hb).mp hcut
          exact .reject hcut' ((hdata m).symm.trans hreject)
        | accept hcut haccept hrest =>
          obtain ⟨m, rfl, hcut'⟩ := (cut_lf_cons hb).mp hcut
          exact .accept hcut' ((hdata m).symm.trans haccept) hrest
      · intro h
        cases h with
        | finish hend =>
          rw [← hspace]
          refine .finish (findEventEnd_eq_none_iff.mpr fun n hcut => ?_)
          obtain ⟨m, rfl, hcut'⟩ := (cut_lf_cons hb).mp hcut
          exact findEventEnd_eq_none_iff.mp hend m hcut'
        | reject hcut hreject =>
          exact .reject ((cut_lf_cons hb).mpr ⟨_, rfl, hcut⟩) ((hdata _).trans hreject)
        | accept hcut haccept hrest =>
          exact .accept ((cut_lf_cons hb).mpr ⟨_, rfl, hcut⟩) ((hdata _).trans haccept) hrest

/-! ## Two ends -/

/-- Past the first of two ends, the second one is an end again, or it is one line feed away. -/
theorem Cut.drop {n m : Nat} (hn : Cut rest n) (hm : Cut rest m) (hlt : n < m) :
    Cut (rest.drop n) (m - n) ∨ m = n + 1 ∧ rest.drop n = lf :: rest.drop m := by
  obtain ⟨j, hj, rfl⟩ | ⟨i, hi, rfl, hbefore⟩ := cut_iff.mp hn
  · obtain ⟨k, hk, rfl⟩ | ⟨i, -, rfl, hbefore⟩ := cut_iff.mp hm
    · obtain rfl : j = k := Option.some.inj (hj.symm.trans hk)
      omega
    · have := hbefore j hj
      omega
  · obtain ⟨k, hk, rfl⟩ | ⟨i', hi', rfl, -⟩ := cut_iff.mp hm
    · by_cases hki : k < i + 4
      · -- the last line feed of the pairs is the first one of the two
        obtain rfl : k = i + 3 := by omega
        obtain ⟨before, after, hrest, hlen⟩ := position_split hk
        have hdrop : rest.drop (i + 3) = [lf, lf] ++ after := by
          rw [hrest, List.drop_left' hlen]
        have hfirst : rest.drop (i + 4) = (rest.drop (i + 3)).drop 1 := by rw [List.drop_drop]
        have hsecond : rest.drop (i + 3 + 2) = (rest.drop (i + 3)).drop 2 := by rw [List.drop_drop]
        exact .inr ⟨rfl, by rw [hfirst, hsecond, hdrop]; rfl⟩
      · refine .inl (cut_iff.mpr (.inl ⟨k - (i + 4), position_drop hk (by omega), by omega⟩))
    · obtain rfl : i = i' := Option.some.inj (hi.symm.trans hi')
      omega

/-- The bytes of `input` from an event on, when the events before it end at some of their ends. -/
inductive Start (input : Bytes) : Bytes → Prop
  | here : Start input input
  | next {rest : Bytes} {n : Nat} : Start input rest → Cut rest n → Start input (rest.drop n)

/-- Wherever an event can end at two places, one of the two parts has no data. -/
def Unambiguous (input : Bytes) : Prop :=
  ∀ rest, Start input rest → ∀ n m, Cut rest n → Cut rest m → n < m →
    dataFields (rest.take n) = [] ∨ dataFields ((rest.take m).drop n) = []

theorem Start.drop {input : Bytes} {n : Nat} (hcut : Cut input n)
    (h : Start (input.drop n) rest) : Start input rest := by
  induction h with
  | here => exact .next .here hcut
  | next _ hnext ih => exact .next ih hnext

theorem Start.suffix {input : Bytes} (h : Start input rest) : rest <:+ input := by
  induction h with
  | here => exact List.suffix_refl _
  | next _ _ ih => exact (List.drop_suffix _ _).trans ih

theorem Unambiguous.drop {input : Bytes} {n : Nat} (h : Unambiguous input) (hcut : Cut input n) :
    Unambiguous (input.drop n) :=
  fun rest hstart => h rest (hstart.drop hcut)

/-- A stream without carriage returns is unambiguous. -/
theorem unambiguous_of_lf {input : Bytes} (h : cr ∉ input) : Unambiguous input := by
  intro rest hstart n m hn hm hlt
  have hpair : ∀ i, position [cr, lf, cr, lf] rest ≠ some i := by
    intro i hi
    obtain ⟨before, after, rfl, -⟩ := position_split hi
    exact h (hstart.suffix.subset (by simp))
  obtain ⟨j, hj, rfl⟩ | ⟨i, hi, -⟩ := cut_iff.mp hn
  · obtain ⟨k, hk, rfl⟩ | ⟨i, hi, -⟩ := cut_iff.mp hm
    · obtain rfl : j = k := Option.some.inj (hj.symm.trans hk)
      omega
    · exact absurd hi (hpair i)
  · exact absurd hi (hpair i)

/-- A reading can start with the event up to the first end. -/
theorem Reads.first {n : Nat} (h : Reads lib s rest allowed) (hcut : Cut rest n)
    (hleast : ∀ m, Cut rest m → n ≤ m)
    (hdata : ∀ m, Cut rest m → n < m →
      dataFields (rest.take n) = [] ∨ dataFields ((rest.take m).drop n) = []) :
    (s.accept lib (rest.take n) = none ∧ allowed = false) ∨
      ∃ s', s.accept lib (rest.take n) = some s' ∧ Reads lib s' (rest.drop n) allowed := by
  have hlast := (whole_last hcut.whole).1
  have hsplit : ∀ m, Cut rest m → n < m → s.accept lib (rest.take m) =
      (s.accept lib (rest.take n)).bind fun s₁ => s₁.accept lib ((rest.take m).drop n) := by
    intro m hm hlt
    have hparts : rest.take m = rest.take n ++ (rest.take m).drop n := by
      conv_lhs => rw [← List.take_append_drop n (rest.take m), List.take_take,
        Nat.min_eq_left hlt.le]
    rw [← accept_append hlast (hdata m hm hlt), ← hparts]
  cases h with
  | finish hnone => exact absurd hcut (findEventEnd_eq_none_iff.mp hnone n)
  | @reject _ _ m hm hreject =>
    obtain rfl | hlt := (hleast m hm).eq_or_lt
    · exact .inl ⟨hreject, rfl⟩
    rw [hsplit m hm hlt] at hreject
    cases haccept : s.accept lib (rest.take n) with
    | none => exact .inl ⟨rfl, rfl⟩
    | some s₁ =>
      rw [haccept, Option.bind_some, List.drop_take] at hreject
      refine .inr ⟨s₁, rfl, ?_⟩
      obtain hcut' | ⟨rfl, hlf⟩ := hcut.drop hm hlt
      · exact .reject hcut' hreject
      · rw [hlf, Nat.add_sub_cancel_left, List.take_succ_cons, List.take_zero,
          accept_nil (by decide)] at hreject
        cases hreject
  | @accept _ s₂ _ m _ hm haccept hrest =>
    obtain rfl | hlt := (hleast m hm).eq_or_lt
    · exact .inr ⟨s₂, haccept, hrest⟩
    rw [hsplit m hm hlt] at haccept
    obtain ⟨s₁, hfirst, hsecond⟩ := Option.bind_eq_some_iff.mp haccept
    rw [List.drop_take] at hsecond
    refine .inr ⟨s₁, hfirst, ?_⟩
    obtain hcut' | ⟨rfl, hlf⟩ := hcut.drop hm hlt
    · refine .accept hcut' hsecond ?_
      rwa [List.drop_drop, Nat.add_sub_cancel' hlt.le]
    · rw [hlf, Nat.add_sub_cancel_left, List.take_succ_cons, List.take_zero,
        accept_nil (by decide)] at hsecond
      obtain rfl := Option.some.inj hsecond
      rw [hlf]
      exact (reads_lf _).mpr hrest

/-- An unambiguous stream has one verdict, whichever ends are taken. -/
theorem Reads.unique {allowed' : Bool} (hunamb : Unambiguous rest)
    (h : Reads lib s rest allowed) (h' : Reads lib s rest allowed') : allowed = allowed' := by
  classical
  induction hlen : rest.length using Nat.strong_induction_on generalizing s rest with
  | _ k ih =>
    by_cases hend : ∃ n, Cut rest n
    · have hcut := Nat.find_spec hend
      have hleast : ∀ m, Cut rest m → Nat.find hend ≤ m := fun m hm => Nat.find_min' hend hm
      generalize Nat.find hend = n at hcut hleast
      have hdata := fun m => hunamb rest .here n m hcut
      have hshort : (rest.drop n).length < k := by
        have := hcut.pos
        rw [List.length_drop]
        omega
      obtain ⟨hnone, rfl⟩ | ⟨s₁, haccept, hrest⟩ := h.first hcut hleast hdata
      · obtain ⟨-, rfl⟩ | ⟨s₁, haccept, -⟩ := h'.first hcut hleast hdata
        · rfl
        · exact absurd (hnone.symm.trans haccept) nofun
      · obtain ⟨hnone, -⟩ | ⟨s₂, haccept', hrest'⟩ := h'.first hcut hleast hdata
        · exact absurd (hnone.symm.trans haccept) nofun
        · obtain rfl := Option.some.inj (haccept.symm.trans haccept')
          exact ih _ hshort (hunamb.drop hcut) hrest hrest' rfl
    · have hnone : ∀ n, ¬ Cut rest n := fun n hn => hend ⟨n, hn⟩
      cases h with
      | finish =>
        cases h' with
        | finish => rfl
        | reject hcut => exact absurd hcut (hnone _)
        | accept hcut => exact absurd hcut (hnone _)
      | reject hcut => exact absurd hcut (hnone _)
      | accept hcut => exact absurd hcut (hnone _)

end Kavora.Policy
