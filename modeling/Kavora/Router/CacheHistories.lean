import Kavora.Lib.System
import Kavora.Router.CacheMatch

/-!
# Histories of the KV index

The index keeps its entries in a map and a list, the IDs that it has seen in a set and a list, and a
sequence for each backend. Every path through an event or a match leaves the three in order.

* `kvHistories`: any events and matches on a new index.
* `HistoryInv`: the entries are `Indexed`, the IDs a `Window` of at most `4 * max`, and a backend
  without a sequence has the zero one.
* `observe_lastSequence`: an event that keeps the generation of a backend raises its sequence.
* `index_representation`: in every state of a history the parts agree.
-/

namespace Kavora.Router

open Lib Lib.Go

namespace KVEventProvider

variable {F : Type} {p p' : KVEventProvider F} {event : KVEvent} {now : Time}

/-! ## The IDs -/

/-- The window holds at most `4 * max` IDs. -/
theorem remember_length (h : p.Window) {eventKey : String} (hnew : eventKey ∉ p.seenEvents) :
    (p.remember eventKey).eventOrder.length ≤ 4 * p.max := by
  rw [(remember_spec h hnew).2, List.length_drop, List.length_append, List.length_singleton]
  omega

/-- The window after the checks for events seen before. -/
theorem accept_window {q : KVEventProvider F} (h : p.Window)
    (hlength : p.eventOrder.length ≤ 4 * p.max) (haccept : p.accept event = some q) :
    q.Window ∧ q.eventOrder.length ≤ 4 * q.max := by
  unfold accept at haccept
  split at haccept
  · split at haccept
    · cases haccept
    · rename_i hnew
      split at haccept
      · cases haccept
      · cases haccept
        exact ⟨(remember_spec h hnew).1, remember_length h hnew⟩
  · split at haccept
    · cases haccept
    · cases haccept
      exact ⟨h, hlength⟩

/-! ## The sequences -/

/-- An event accepted with a sequence is not behind. -/
theorem accept_not_behind {q : KVEventProvider F} (haccept : p.accept event = some q) :
    ¬ p.Behind event := by
  rintro ⟨hsequenced, hhas, hlt⟩
  unfold accept at haccept
  split at haccept
  · split at haccept
    · cases haccept
    · rw [if_pos ⟨hsequenced, hhas, hlt⟩] at haccept
      cases haccept
  · rw [if_pos ⟨hsequenced, hhas, hlt.le⟩] at haccept
    cases haccept

/-- An accepted event raises the sequence of its backend. -/
theorem advance_lastSequence {q : KVEventProvider F}
    (hzero : p.hasSequence event.backendID = false → p.lastSequence event.backendID = 0)
    (haccept : p.accept event = some q) :
    p.lastSequence event.backendID ≤ (q.advance event).lastSequence event.backendID := by
  obtain ⟨-, -, hlast⟩ := accept_fields haccept
  rw [advance_self.2, hlast]
  split
  · rename_i hsequenced
    cases hhas : p.hasSequence event.backendID with
    | false =>
      rw [hzero hhas]
      exact Nat.zero_le _
    | true => exact Nat.le_of_not_lt fun hlt => accept_not_behind haccept ⟨hsequenced, hhas, hlt⟩
  · exact le_rfl

/-- The first generation of a backend, or the same one, resets nothing. -/
theorem enterGeneration_same {backendID generation : String}
    (hsame : ¬ (generation ≠ "" ∧ p.generation backendID ≠ "" ∧
      p.generation backendID ≠ generation)) :
    (p.enterGeneration backendID generation).lastSequence = p.lastSequence ∧
      (p.enterGeneration backendID generation).hasSequence = p.hasSequence := by
  unfold enterGeneration
  rw [if_neg hsame]
  split
  · exact ⟨rfl, rfl⟩
  · exact ⟨rfl, rfl⟩

/-- A generation that stays resets nothing. -/
theorem enterGeneration_kept {backendID generation : String}
    (hkeeps : p.generation backendID = "" ∨
      (p.enterGeneration backendID generation).generation backendID = p.generation backendID) :
    (p.enterGeneration backendID generation).lastSequence = p.lastSequence ∧
      (p.enterGeneration backendID generation).hasSequence = p.hasSequence := by
  refine enterGeneration_same ?_
  rintro ⟨hgeneration, hset, hne⟩
  have hafter := hkeeps.resolve_left hset
  rw [enterGeneration_generation p backendID hgeneration] at hafter
  exact hne hafter.symm

/-- A backend without a sequence has the zero one. -/
def Zeroed (p : KVEventProvider F) : Prop :=
  ∀ backendID, p.hasSequence backendID = false → p.lastSequence backendID = 0

theorem Zeroed.enterGeneration (h : p.Zeroed) (backendID generation : String) :
    (p.enterGeneration backendID generation).Zeroed := by
  intro other hnone
  by_cases hother : other = backendID
  · subst hother
    by_cases hreset : generation ≠ "" ∧ p.generation other ≠ "" ∧ p.generation other ≠ generation
    · unfold KVEventProvider.enterGeneration
      rw [if_pos hreset]
      split
      · exact Function.update_self _ _ _
      · exact Function.update_self _ _ _
    · obtain ⟨hlast, hhas⟩ := enterGeneration_same hreset
      rw [hhas] at hnone
      rw [hlast]
      exact h other hnone
  · obtain ⟨-, hhas, hlast⟩ := p.enterGeneration_ne generation hother
    rw [hhas] at hnone
    rw [hlast]
    exact h other hnone

theorem Zeroed.advance (h : p.Zeroed) (event : KVEvent) : (p.advance event).Zeroed := by
  intro other hnone
  by_cases hother : other = event.backendID
  · subst hother
    rw [advance_self.1, Bool.or_eq_false_iff] at hnone
    rw [advance_self.2, hnone.1, if_neg Bool.false_ne_true]
    exact h _ hnone.2
  · obtain ⟨hhas, hlast⟩ := p.advance_ne hother
    rw [hhas] at hnone
    rw [hlast]
    exact h other hnone

/-- **An event that keeps the generation of a backend** never lowers its sequence. -/
theorem observe_lastSequence (hzero : p.Zeroed) {backendID : String}
    (hkeeps : p.generation backendID = "" ∨
      (p.observe now event).generation backendID = p.generation backendID) :
    p.lastSequence backendID ≤ (p.observe now event).lastSequence backendID := by
  by_cases hbackend : backendID = event.backendID
  swap
  · rw [(observe_ne p now hbackend).2.2]
  subst hbackend
  rcases p.observe_cases now event with hsame | hentered | ⟨q, haccept, happlied⟩
  · rw [hsame]
  · rw [hentered] at hkeeps ⊢
    exact (congrFun (enterGeneration_kept hkeeps).1 _).ge
  · rw [happlied] at hkeeps ⊢
    rw [apply_generation, advance_generation, (accept_fields haccept).1] at hkeeps
    obtain ⟨hlast, hhas⟩ := enterGeneration_kept hkeeps
    rw [apply_lastSequence, ← hlast]
    exact advance_lastSequence (hzero.enterGeneration _ _ _) haccept

/-! ## The invariant -/

/-- The parts of the index agree. -/
structure HistoryInv (p : KVEventProvider F) : Prop where
  indexed : p.Indexed
  window : p.Window
  length : p.eventOrder.length ≤ 4 * p.max
  zeroed : p.Zeroed

theorem HistoryInv.observe (h : p.HistoryInv) (now : Time) (event : KVEvent) :
    (p.observe now event).HistoryInv := by
  obtain ⟨hindexed, hmax, -⟩ := observe_spec h.indexed now event
  have hwindow : (p.enterGeneration event.backendID event.generation).Window :=
    h.window.of_eq enterGeneration_seenEvents enterGeneration_eventOrder
  have hlength : (p.enterGeneration event.backendID event.generation).eventOrder.length ≤
      4 * (p.enterGeneration event.backendID event.generation).max := by
    rw [enterGeneration_eventOrder, enterGeneration_max]
    exact h.length
  have hzeroed := h.zeroed.enterGeneration event.backendID event.generation
  rcases p.observe_cases now event with hsame | hentered | ⟨q, haccept, happlied⟩
  · rw [hsame]
    exact h
  · rw [hentered] at hindexed ⊢
    exact ⟨hindexed, hwindow, hlength, hzeroed⟩
  · obtain ⟨hqwindow, hqlength⟩ := accept_window hwindow hlength haccept
    have hqzeroed : q.Zeroed := by
      obtain ⟨-, hhas, hlast⟩ := accept_fields haccept
      intro backendID hnone
      rw [hhas] at hnone
      rw [hlast]
      exact hzeroed backendID hnone
    rw [happlied] at hindexed ⊢
    refine ⟨hindexed, hqwindow.of_eq (by simp) (by simp), ?_, fun backendID hnone => ?_⟩
    · rw [apply_eventOrder, advance_eventOrder, apply_max, (q.advance_entries _).2]
      exact hqlength
    · rw [apply_hasSequence] at hnone
      rw [apply_lastSequence]
      exact hqzeroed.advance _ backendID hnone

variable [Float64 F]

theorem HistoryInv.matchCache (h : p.HistoryInv) (now : Time) (request : CacheMatchRequest)
    (backendID : String) : (p.matchCache now request backendID).2.HistoryInv := by
  obtain ⟨entries, heq, hwf, hlength, -⟩ := matchCache_spec h.indexed now request backendID
  rw [heq]
  exact ⟨⟨hwf, hlength ▸ h.indexed.bound⟩, h.window.of_eq rfl rfl, h.length, h.zeroed⟩

theorem HistoryInv.new (max : Int) (ttl : Duration) (lambda : F) :
    (new max ttl lambda).HistoryInv where
  indexed := ⟨LinkedMap.empty_wf, Nat.zero_le _⟩
  window := new_window max ttl lambda
  length := Nat.zero_le _
  zeroed _ _ := rfl

end KVEventProvider

/-! ## Histories -/

open KVEventProvider

variable {F : Type} [Float64 F]

/-- A call of the index, with the time that it reads. -/
inductive KVCall where
  | observe (event : KVEvent) (now : Time)
  | matchCache (request : CacheMatchRequest) (backendID : String) (now : Time)

/-- The index after a call. -/
def KVEventProvider.after (p : KVEventProvider F) : KVCall → KVEventProvider F
  | .observe event now => p.observe now event
  | .matchCache request backendID now => (p.matchCache now request backendID).2

/-- Any calls on a new index. -/
def kvHistories : System (KVEventProvider F) KVCall where
  init p := ∃ max ttl lambda, p = .new max ttl lambda
  step p call p' := p' = p.after call

/-- The call leaves the generation of a backend that has one. -/
def KeepsGeneration (backendID : String) (p : KVEventProvider F) (call : KVCall) : Prop :=
  p.generation backendID = "" ∨ (p.after call).generation backendID = p.generation backendID

/-- The calls from a state on, while the generation of a backend stays. -/
def kvGeneration (p : KVEventProvider F) (backendID : String) : System (KVEventProvider F) KVCall :=
  System.restrict { init := fun q => q = p, step := kvHistories.step } (KeepsGeneration backendID)

theorem historyInv_after {p : KVEventProvider F} (h : p.HistoryInv) (call : KVCall) :
    (p.after call).HistoryInv := by
  cases call with
  | observe event now => exact h.observe now event
  | matchCache request backendID now => exact h.matchCache now request backendID

theorem historyInv_inductive : (kvHistories (F := F)).Inductive HistoryInv where
  init p hinit := by
    obtain ⟨max, ttl, lambda, rfl⟩ := hinit
    exact .new max ttl lambda
  step p call p' h hstep := by
    obtain rfl := hstep
    exact historyInv_after h call

/-- While the generation of a backend stays, its sequence never falls. -/
theorem lastSequence_le {p q : KVEventProvider F} (h : p.HistoryInv) {backendID : String}
    (hq : (kvGeneration p backendID).Reach q) :
    q.HistoryInv ∧ p.lastSequence backendID ≤ q.lastSequence backendID := by
  induction hq with
  | init hinit =>
    obtain rfl := hinit
    exact ⟨h, le_rfl⟩
  | step hreach hstep ih =>
    obtain ⟨hinv, hle⟩ := ih
    obtain ⟨rfl, hkeeps⟩ := hstep
    rename_i call
    refine ⟨historyInv_after hinv call, hle.trans ?_⟩
    cases call with
    | observe event now => exact observe_lastSequence hinv.zeroed hkeeps
    | matchCache request backendID' now =>
      obtain ⟨entries, heq, -⟩ := matchCache_spec hinv.indexed now request backendID'
      show _ ≤ (matchCache _ now request backendID').2.lastSequence backendID
      rw [heq]

/-- **The parts of the index agree** in every state of a history: the map and the list of the
entries, the set and the list of the IDs. From such a state on, the sequence of a backend does not
fall until its generation changes. -/
theorem index_representation {p : KVEventProvider F} (hp : kvHistories.Reach p) :
    (p.entries.values.keys.Perm (p.entries.view.map (·.key)) ∧
      (∀ key element, p.entries.values.lookup key = some element ↔
        ∃ entry, (element, entry) ∈ p.entries.order ∧ entry.key = key) ∧
      (p.entries.view.map (·.key)).Nodup ∧ p.entries.len ≤ p.max) ∧
    ((∀ eventKey, eventKey ∈ p.seenEvents ↔ eventKey ∈ p.eventOrder) ∧ p.eventOrder.Nodup ∧
      p.eventOrder.length ≤ 4 * p.max) ∧
    ∀ backendID q, (kvGeneration p backendID).Reach q →
      p.lastSequence backendID ≤ q.lastSequence backendID := by
  have h := historyInv_inductive.reach hp
  refine ⟨⟨h.indexed.wf.keys_perm, h.indexed.wf.lookup, h.indexed.wf.keys, ?_⟩,
    ⟨h.window.mem_iff, h.window.nodup, h.length⟩, fun backendID q hq => (lastSequence_le h hq).2⟩
  rw [h.indexed.wf.len_eq]
  exact h.indexed.bound

namespace HistorySample

local instance : Float64 Rat := .rational id

/-- A block of an engine, with its sequence. -/
def store (sequence : Nat) (cacheKey : String) : KVEvent where
  operation := .store
  backendID := "backend"
  cacheKey
  matchedTokens := 16
  totalTokens := 16
  sequence
  hasSequence := true
  generation := "pod-1"
  engineEventID := cacheKey
  observedAt := 1
  quality := .fresh

def stored : KVEventProvider Rat :=
  (KVEventProvider.new 100 300000000000 0).after (.observe (store 7 "k1") 1)

/-- The block of an older batch comes late. -/
def late : KVEventProvider Rat := stored.after (.observe (store 6 "k2") 2)

theorem stored_reach : kvHistories.Reach stored :=
  .step (i := .observe (store 7 "k1") 1) (.init ⟨100, 300000000000, 0, rfl⟩) rfl

theorem late_reach : (kvGeneration stored "backend").Reach late :=
  .step (i := .observe (store 6 "k2") 2) (.init rfl) ⟨rfl, .inr (by decide +kernel)⟩

theorem index_representation_late :
    stored.entries.values.keys.Perm (stored.entries.view.map (·.key)) ∧
      stored.eventOrder.length ≤ 4 * stored.max ∧
      stored.lastSequence "backend" ≤ late.lastSequence "backend" := by
  obtain ⟨⟨hkeys, -⟩, ⟨-, -, hlength⟩, hsequence⟩ := index_representation stored_reach
  exact ⟨hkeys, hlength, hsequence "backend" late late_reach⟩

end HistorySample

end Kavora.Router
