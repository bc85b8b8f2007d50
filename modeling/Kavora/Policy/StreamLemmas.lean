import Kavora.Policy.Stream
import Kavora.Policy.EngineLemmas
import Mathlib.Data.List.Flatten

/-!
# What one call of the stream inspector does

`inspectEvent` reads the configuration, `sawDone` and `semanticBytes`, and writes the last two. So
`inspect` on a chunk runs `inspectEvent` over the whole events at the start of the buffer and
nothing else of the state matters to it (`StreamInspector.scan` forgets the rest).
-/

namespace Kavora.Policy

open Lib

/-! ## Whole events -/

/-- An event up to and including its blank line. -/
def Whole (event : Bytes) : Prop := findEventEnd event = some event.length

instance (event : Bytes) : Decidable (Whole event) :=
  inferInstanceAs (Decidable (findEventEnd event = some event.length))

theorem findEventEnd_cases {input : Bytes} {n : Nat} (h : findEventEnd input = some n) :
    (∃ i, position [lf, lf] input = some i ∧ n = i + 2) ∨
      position [lf, lf] input = none ∧ ∃ i, position [cr, lf, cr, lf] input = some i ∧ n = i + 4 := by
  unfold findEventEnd at h
  cases hp : position [lf, lf] input with
  | some i =>
    rw [hp] at h
    exact .inl ⟨i, rfl, by simpa using h.symm⟩
  | none =>
    rw [hp] at h
    obtain ⟨i, hi, rfl⟩ := Option.map_eq_some_iff.mp (by simpa using h)
    exact .inr ⟨rfl, i, hi, rfl⟩

theorem findEventEnd_pos {input : Bytes} {n : Nat} (h : findEventEnd input = some n) : 0 < n := by
  rcases findEventEnd_cases h with ⟨i, _, rfl⟩ | ⟨_, i, _, rfl⟩ <;> omega

theorem findEventEnd_le {input : Bytes} {n : Nat} (h : findEventEnd input = some n) :
    n ≤ input.length := by
  rcases findEventEnd_cases h with ⟨i, hi, rfl⟩ | ⟨_, i, hi, rfl⟩
  · exact position_add_le hi
  · exact position_add_le hi

/-- The event that is cut off is whole. -/
theorem whole_take {input : Bytes} {n : Nat} (h : findEventEnd input = some n) :
    Whole (input.take n) := by
  have hn := findEventEnd_le h
  unfold Whole
  rw [List.length_take, Nat.min_eq_left hn]
  rcases findEventEnd_cases h with ⟨i, hi, rfl⟩ | ⟨hnone, i, hi, rfl⟩
  · have := position_take (by simp) hi
    simp only [List.length_cons, List.length_nil] at this
    simp [findEventEnd, this]
  · have := position_take (by simp) hi
    simp only [List.length_cons, List.length_nil] at this
    simp [findEventEnd, this, position_take_none hnone]

/-- A whole event ends with a blank line. -/
theorem whole_last (h : Whole event) :
    event.getLast? = some lf ∧ ∃ lines, strLines event = lines ++ [[]] := by
  rcases findEventEnd_cases h with ⟨i, hi, hlen⟩ | ⟨_, i, hi, hlen⟩
  · obtain ⟨l, rfl⟩ := position_end hi (by simpa using hlen.symm)
    have hl : (l ++ [lf]).getLast? = some lf := by simp
    refine ⟨by simp, (splitInclusive (l ++ [lf])).map stripLineEnd, ?_⟩
    rw [show l ++ [lf, lf] = (l ++ [lf]) ++ [lf] by simp, strLines, splitInclusive_append hl,
      List.map_append]
    rfl
  · obtain ⟨l, rfl⟩ := position_end hi (by simpa using hlen.symm)
    have hl : (l ++ [cr, lf]).getLast? = some lf := by simp
    refine ⟨by simp, (splitInclusive (l ++ [cr, lf])).map stripLineEnd, ?_⟩
    rw [show l ++ [cr, lf, cr, lf] = (l ++ [cr, lf]) ++ [cr, lf] by simp, strLines,
      splitInclusive_append hl, List.map_append]
    rfl

/-! ## One event -/

namespace StreamInspector

variable {lib : Externals} {s s' s'' : StreamInspector}

/-- What `inspect_event` reads: the state without the buffer and the verdict. -/
def scan (self : StreamInspector) : StreamInspector :=
  { self with pending := [], inspectedBytes := 0, terminal := none }

@[simp] theorem scan_scan : s.scan.scan = s.scan := rfl
@[simp] theorem scan_config : s.scan.config = s.config := rfl
@[simp] theorem scan_blockedTerms : s.scan.blockedTerms = s.blockedTerms := rfl
@[simp] theorem scan_semanticBytes : s.scan.semanticBytes = s.semanticBytes := rfl
@[simp] theorem scan_tokenBudget : s.scan.tokenBudget = s.tokenBudget := rfl
@[simp] theorem scan_sawDone : s.scan.sawDone = s.sawDone := rfl

section InspectStrings

variable {strings : List String}

theorem inspectStrings_pii (h : strings.any lib.emailIsMatch = true) :
    s.inspectStrings lib strings =
      (.error (.piiDetected, "response contains an email address"), s) :=
  if_pos h

theorem inspectStrings_blocked (h1 : ¬ strings.any lib.emailIsMatch = true)
    (h2 : (s.blockedTerms.any fun term => strings.any (containsTerm lib term)) = true) :
    s.inspectStrings lib strings =
      (.error (.contentBlocked, "response matches a blocked content term"), s) :=
  (if_neg h1).trans (if_pos h2)

theorem inspectStrings_clean (h1 : ¬ strings.any lib.emailIsMatch = true)
    (h2 : ¬ (s.blockedTerms.any fun term => strings.any (containsTerm lib term)) = true) :
    s.inspectStrings lib strings =
      (if s.tokenBudget > 0 ∧
          divCeil4 (saturatingAdd s.semanticBytes (semanticSize strings)) > s.tokenBudget then
        .error (.tokenBudgetExceeded, "response exceeds token budget")
      else .ok (),
      { s with semanticBytes := saturatingAdd s.semanticBytes (semanticSize strings) }) := by
  refine (if_neg h1).trans ((if_neg h2).trans ?_)
  by_cases h3 : s.tokenBudget > 0 ∧
      divCeil4 (saturatingAdd s.semanticBytes (semanticSize strings)) > s.tokenBudget
  · rw [if_pos h3]
    exact if_pos h3
  · rw [if_neg h3]
    exact if_neg h3

theorem inspectStrings_scan :
    s.scan.inspectStrings lib strings =
      ((s.inspectStrings lib strings).1, (s.inspectStrings lib strings).2.scan) := by
  by_cases h1 : strings.any lib.emailIsMatch = true
  · rw [inspectStrings_pii h1, inspectStrings_pii h1]
  by_cases h2 : (s.blockedTerms.any fun term => strings.any (containsTerm lib term)) = true
  · rw [inspectStrings_blocked h1 h2]
    exact inspectStrings_blocked (s := s.scan) h1 h2
  · rw [inspectStrings_clean h1 h2]
    exact inspectStrings_clean (s := s.scan) h1 h2

theorem inspectStrings_ok (h : s.inspectStrings lib strings = (.ok (), s')) :
    Clean lib s.blockedTerms strings ∧
      (s.tokenBudget = 0 ∨
        divCeil4 (saturatingAdd s.semanticBytes (semanticSize strings)) ≤ s.tokenBudget) ∧
      s' = { s with semanticBytes := saturatingAdd s.semanticBytes (semanticSize strings) } := by
  by_cases h1 : strings.any lib.emailIsMatch = true
  · rw [inspectStrings_pii h1] at h
    cases h
  by_cases h2 : (s.blockedTerms.any fun term => strings.any (containsTerm lib term)) = true
  · rw [inspectStrings_blocked h1 h2] at h
    cases h
  rw [inspectStrings_clean h1 h2] at h
  split at h
  · cases h
  cases h
  refine ⟨⟨?_, ?_⟩, by omega, rfl⟩
  · simpa using h1
  · simpa using h2

end InspectStrings

/-- `inspectEvent` neither reads nor writes what `scan` forgets. -/
theorem inspectEvent_scan (event : Bytes) :
    s.scan.inspectEvent lib event =
      ((s.inspectEvent lib event).1, (s.inspectEvent lib event).2.scan) := by
  unfold inspectEvent
  cases eventData event with
  | error e => rfl
  | ok data =>
    dsimp only
    by_cases h1 : data = []
    · rw [if_pos h1, if_pos h1]
    rw [if_neg h1, if_neg h1]
    by_cases h2 : data = utf8 "[DONE]"
    · rw [if_pos h2, if_pos h2]
      rfl
    rw [if_neg h2, if_neg h2]
    by_cases h3 : s.sawDone = true
    · rw [if_pos h3]
      exact if_pos h3
    rw [if_neg h3]
    refine Eq.trans (if_neg (c := s.scan.sawDone = true) h3) ?_
    cases lib.fromSlice data with
    | none => rfl
    | some value =>
      dsimp only
      by_cases h4 : value.jsonDepth > s.config.maxJsonDepth
      · rw [if_pos h4]
        exact if_pos h4
      · rw [if_neg h4]
        exact (if_neg h4).trans inspectStrings_scan

/-! ## Accepted events -/

/-- `inspectEvent` accepts the events one after another. -/
inductive Accepted (lib : Externals) : StreamInspector → List Bytes → StreamInspector → Prop
  | nil (s : StreamInspector) : Accepted lib s [] s
  | cons {s s' s'' : StreamInspector} {event : Bytes} {events : List Bytes} :
    s.inspectEvent lib event = (.ok (), s') → Accepted lib s' events s'' →
    Accepted lib s (event :: events) s''

theorem Accepted.append {es es' : List Bytes} (h : Accepted lib s es s')
    (h' : Accepted lib s' es' s'') : Accepted lib s (es ++ es') s'' := by
  induction h with
  | nil => exact h'
  | cons he _ ih => exact .cons he (ih h')

theorem Accepted.scan {es : List Bytes} (h : Accepted lib s es s') :
    Accepted lib s.scan es s'.scan := by
  induction h with
  | nil => exact .nil _
  | cons he _ ih => exact .cons (by rw [inspectEvent_scan, he]) ih

/-- A property that every accepted event keeps. -/
theorem Accepted.induct {P : StreamInspector → Prop}
    (step : ∀ s s' event, P s → s.inspectEvent lib event = (.ok (), s') → P s')
    {es : List Bytes} (h : Accepted lib s es s') (hs : P s) : P s' := by
  induction h with
  | nil => exact hs
  | cons he _ ih => exact ih (step _ _ _ hs he)

/-- What an accepted event is: no data, the end mark, or a JSON value whose strings are clean and
within the budget. -/
inductive EventOk (lib : Externals) (s : StreamInspector) (event : Bytes) : StreamInspector → Prop
  | empty : eventData event = .ok [] → EventOk lib s event s
  | done : eventData event = .ok (utf8 "[DONE]") → EventOk lib s event { s with sawDone := true }
  | value {data : Bytes} {value : Value} :
    eventData event = .ok data → data ≠ [] → data ≠ utf8 "[DONE]" → s.sawDone = false →
    lib.fromSlice data = some value → value.jsonDepth ≤ s.config.maxJsonDepth →
    Clean lib s.blockedTerms value.collectStrings →
    (s.tokenBudget = 0 ∨
      divCeil4 (saturatingAdd s.semanticBytes (semanticSize value.collectStrings)) ≤ s.tokenBudget) →
    EventOk lib s event
      { s with
        semanticBytes := saturatingAdd s.semanticBytes (semanticSize value.collectStrings) }

theorem inspectEvent_ok {event : Bytes} (h : s.inspectEvent lib event = (.ok (), s')) :
    EventOk lib s event s' := by
  unfold inspectEvent at h
  cases hd : eventData event with
  | error e => rw [hd] at h; cases h
  | ok data =>
    simp only [hd] at h
    by_cases h1 : data = []
    · rw [if_pos h1] at h
      cases h
      exact .empty (h1 ▸ hd)
    rw [if_neg h1] at h
    by_cases h2 : data = utf8 "[DONE]"
    · rw [if_pos h2] at h
      cases h
      exact .done (h2 ▸ hd)
    rw [if_neg h2] at h
    by_cases h3 : s.sawDone = true
    · rw [if_pos h3] at h
      cases h
    rw [if_neg h3] at h
    cases hv : lib.fromSlice data with
    | none => rw [hv] at h; cases h
    | some value =>
      simp only [hv] at h
      by_cases h4 : value.jsonDepth > s.config.maxJsonDepth
      · rw [if_pos h4] at h
        cases h
      rw [if_neg h4] at h
      obtain ⟨hclean, hbudget, rfl⟩ := inspectStrings_ok h
      exact .value hd h1 h2 (by simpa using h3) hv (by omega) hclean hbudget

/-- An accepted event changes the end mark and the count of semantic bytes only. -/
theorem EventOk.frame {event : Bytes} (h : EventOk lib s event s') :
    s' = { s with sawDone := s'.sawDone, semanticBytes := s'.semanticBytes } := by
  cases h <;> rfl

theorem Accepted.frame {es : List Bytes} (h : Accepted lib s es s') :
    s' = { s with sawDone := s'.sawDone, semanticBytes := s'.semanticBytes } := by
  induction h with
  | nil => rfl
  | cons he _ ih => rw [ih, (inspectEvent_ok he).frame]

/-- The JSON value of an event's data. -/
def eventValue (lib : Externals) (event : Bytes) : Option Value :=
  match eventData event with
  | .ok data => if data = [] ∨ data = utf8 "[DONE]" then none else lib.fromSlice data
  | .error _ => none

/-- The strings of an event that `inspectEvent` scans. -/
def eventStrings (lib : Externals) (event : Bytes) : List String :=
  ((eventValue lib event).map Value.collectStrings).getD []

theorem EventOk.clean {event : Bytes} (h : EventOk lib s event s') :
    Clean lib s.blockedTerms (eventStrings lib event) := by
  cases h with
  | empty hd => simp [eventStrings, eventValue, hd, Clean]
  | done hd => simp [eventStrings, eventValue, hd, Clean]
  | value hd h1 h2 _ hv _ hclean _ => simpa [eventStrings, eventValue, hd, h1, h2, hv] using hclean

/-- Every string of the accepted events is clean. -/
theorem Accepted.clean {es : List Bytes} (h : Accepted lib s es s') :
    ∀ e ∈ es, Clean lib s.blockedTerms (eventStrings lib e) := by
  induction h with
  | nil => simp
  | cons he _ ih =>
    have hok := inspectEvent_ok he
    rw [hok.frame] at ih
    intro e hmem
    rcases List.mem_cons.mp hmem with rfl | hmem
    · exact hok.clean
    · exact ih e hmem

/-! ## One chunk -/

theorem inspectLoop_ok {fuel n m : Nat} {rest : Bytes} (hfuel : rest.length ≤ fuel)
    (h : s.inspectLoop lib fuel rest n = (.ok m, s')) :
    ∃ events rest', Accepted lib s events s' ∧ (∀ e ∈ events, Whole e) ∧
      rest = events.flatten ++ rest' ∧ m = n + events.flatten.length ∧
      findEventEnd rest' = none := by
  induction fuel generalizing s rest n with
  | zero =>
    cases h
    have hrest : rest = [] := List.eq_nil_of_length_eq_zero (by omega)
    exact ⟨[], [], .nil _, by simp, by simpa using hrest, by simp, rfl⟩
  | succ fuel ih =>
    rw [inspectLoop] at h
    cases hend : findEventEnd rest with
    | none =>
      rw [hend] at h
      cases h
      exact ⟨[], rest, .nil _, by simp, by simp, by simp, hend⟩
    | some eventEnd =>
      simp only [hend] at h
      have hpos := findEventEnd_pos hend
      have hle := findEventEnd_le hend
      rcases hev : s.inspectEvent lib (rest.take eventEnd) with ⟨_ | ⟨⟩, s₁⟩
      · rw [hev] at h
        cases h
      · rw [hev] at h
        obtain ⟨events, rest', hacc, hwhole, hrest, hm, hnone⟩ :=
          ih (by rw [List.length_drop]; omega) h
        refine ⟨rest.take eventEnd :: events, rest', .cons hev hacc, ?_, ?_, ?_, hnone⟩
        · intro e he
          rcases List.mem_cons.mp he with rfl | he
          · exact whole_take hend
          · exact hwhole e he
        · rw [List.flatten_cons, List.append_assoc, ← hrest, List.take_append_drop]
        · rw [hm, List.flatten_cons, List.length_append, List.length_take, Nat.min_eq_left hle]
          omega

/-- What one call of `inspect` does. -/
inductive Inspected (lib : Externals) (s : StreamInspector) (chunk : Bytes) :
    StreamInspection → StreamInspector → Prop
  /-- The verdict is already there. -/
  | stopped {result : PolicyResult} : s.terminal = some result →
    Inspected lib s chunk (s.inspection result 0) s
  | terminated {r : StreamInspection} {s' : StreamInspector} : s.terminal = none →
    r.result.decision = .terminate → r.releaseBytes = 0 → s'.terminal = some r.result →
    Inspected lib s chunk r s'
  /-- Accepted whole events are released, and the rest has no complete event. -/
  | released {s' : StreamInspector} (events : List Bytes) : s.terminal = none →
    s'.terminal = none → s.pending ++ chunk = events.flatten ++ s'.pending →
    (∀ e ∈ events, Whole e) → findEventEnd s'.pending = none →
    Accepted lib s.scan events s'.scan →
    s'.inspectedBytes = saturatingAdd s.inspectedBytes chunk.length →
    s'.inspectedBytes ≤ s.maxResponseBytes →
    Inspected lib s chunk (s'.inspection s'.allow events.flatten.length) s'

theorem inspect_spec (lib : Externals) (s : StreamInspector) (chunk : Bytes) :
    Inspected lib s chunk (s.inspect lib chunk).1 (s.inspect lib chunk).2 := by
  unfold inspect
  cases ht : s.terminal with
  | some result => exact .stopped ht
  | none =>
    dsimp only
    by_cases hlimit : saturatingAdd s.inspectedBytes chunk.length > s.maxResponseBytes
    · rw [if_pos hlimit]
      exact .terminated ht rfl rfl rfl
    rw [if_neg hlimit]
    split
    · exact .terminated ht rfl rfl rfl
    · rename_i m s₁ hloop
      obtain ⟨events, rest, hacc, hwhole, hrest, hm, hnone⟩ := inspectLoop_ok (Nat.le_refl _) hloop
      have hframe := hacc.frame
      have hpending : s₁.pending = s.pending ++ chunk := by rw [hframe]
      have hdrop : s₁.pending.drop m = rest := by
        rw [hpending, hrest, hm]
        simp
      rw [show m = events.flatten.length by omega] at hdrop ⊢
      refine .released events ht ?_ ?_ hwhole ?_ hacc.scan ?_ ?_
      · rw [hframe]
      · rw [hdrop, ← hrest]
      · rw [hdrop, hnone]
      · rw [hframe]
      · have : s₁.inspectedBytes = saturatingAdd s.inspectedBytes chunk.length := by rw [hframe]
        rw [this]
        omega

theorem Inspected.releaseBytes_le {chunk : Bytes} {r : StreamInspection}
    (h : Inspected lib s chunk r s') : r.releaseBytes ≤ (s.pending ++ chunk).length := by
  cases h with
  | stopped => exact Nat.zero_le _
  | terminated _ _ hr _ => omega
  | released events _ _ hsplit =>
    rw [hsplit, List.length_append]
    exact Nat.le_add_right _ _

/-- What `finish` does. -/
inductive Finished (s : StreamInspector) : StreamInspection → StreamInspector → Prop
  | stopped {result : PolicyResult} : s.terminal = some result →
    Finished s (s.inspection result 0) s
  | terminated {r : StreamInspection} {s' : StreamInspector} : s.terminal = none →
    r.result.decision = .terminate → r.releaseBytes = 0 → s'.terminal = some r.result →
    Finished s r s'
  | released : s.terminal = none → s.sawDone = true →
    (∀ b ∈ s.pending, isAsciiWhitespace b = true) →
    Finished s ({ s with pending := [], terminal := none }.inspection s.allow s.pending.length)
      { s with pending := [], terminal := none }

theorem finish_spec (s : StreamInspector) : Finished s s.finish.1 s.finish.2 := by
  unfold finish
  cases ht : s.terminal with
  | some result => exact .stopped ht
  | none =>
    dsimp only
    by_cases hdone : s.sawDone = true ∧ s.pending.all isAsciiWhitespace = true
    · rw [if_pos hdone]
      exact .released ht hdone.1 (List.all_eq_true.mp hdone.2)
    · rw [if_neg hdone]
      exact .terminated ht rfl rfl rfl

theorem Finished.releaseBytes_le {r : StreamInspection} (h : Finished s r s') :
    r.releaseBytes ≤ s.pending.length := by
  cases h with
  | stopped => exact Nat.zero_le _
  | terminated _ _ hr _ => omega
  | released => exact Nat.le_refl _

/-- A close that is allowed releases the whole buffer. -/
theorem Finished.releaseBytes_eq {r : StreamInspection} (h : Finished s r s')
    (ht : s.terminal = none) (hd : r.result.decision = .allow) :
    r.releaseBytes = s.pending.length := by
  cases h with
  | stopped hs => rw [hs] at ht; cases ht
  | terminated _ hd' _ _ => rw [hd'] at hd; cases hd
  | released => rfl

end StreamInspector

end Kavora.Policy
