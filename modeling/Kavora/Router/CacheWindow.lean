import Kavora.Router.CacheProvider

/-!
# Events that the index has seen

The index keeps the IDs of the last `4 * max` events it accepted, and the last sequence of each
backend. An event with an ID in this window, or with a sequence behind the last one, is dropped.

* `KVEventProvider.observe_known`: an event that the index knows changes nothing.
* `KVEventProvider.redelivery_unchanged_iff`: when an event in the window changes nothing.
* `KVEventProvider.observe_window`: the index knows the event that it just observed.
-/

namespace Kavora.Router

open Lib Lib.Go BackendState

/-- An event with all that the handler and the adapter check: it names its backend, and a key
where its operation needs one. -/
structure KVEvent.Valid (event : KVEvent) : Prop where
  backendID : event.backendID ≠ ""
  cacheKey : event.effectiveOperation = .clear ∨ event.cacheKey ≠ ""
  engineEventID : event.engineEventID ≠ ""

namespace KVEventProvider

variable {F : Type} {p p' : KVEventProvider F} {event : KVEvent} {now : Time}

/-- The generation of the event is the current one of its backend. -/
def InGeneration (p : KVEventProvider F) (event : KVEvent) : Prop :=
  event.generation = "" ∨ p.generation event.backendID = event.generation

/-- The sequence of the event is behind the last one of its backend. -/
def Behind (p : KVEventProvider F) (event : KVEvent) : Prop :=
  event.sequenced = true ∧ p.hasSequence event.backendID = true ∧
    event.sequence < p.lastSequence event.backendID

/-- The index would drop the event. -/
def Knows (p : KVEventProvider F) (event : KVEvent) : Prop :=
  event.eventKey ∈ p.seenEvents ∨ p.Behind event

instance : Decidable (p.Behind event) := inferInstanceAs (Decidable (_ ∧ _ ∧ _))

instance : Decidable (p.Knows event) := inferInstanceAs (Decidable (_ ∨ _))

/-! ## What an operation leaves alone -/

@[simp] theorem remember_generation (eventKey : String) :
    (p.remember eventKey).generation = p.generation := rfl

@[simp] theorem remember_max (eventKey : String) : (p.remember eventKey).max = p.max := rfl

@[simp] theorem advance_generation : (p.advance event).generation = p.generation := by
  unfold advance
  split <;> rfl

@[simp] theorem advance_seenEvents : (p.advance event).seenEvents = p.seenEvents := by
  unfold advance
  split <;> rfl

@[simp] theorem advance_eventOrder : (p.advance event).eventOrder = p.eventOrder := by
  unfold advance
  split <;> rfl

@[simp] theorem apply_generation : (p.apply event).generation = p.generation := by
  unfold apply
  split
  · rfl
  · split <;> rfl
  · dsimp only
    split <;> rfl

@[simp] theorem apply_seenEvents : (p.apply event).seenEvents = p.seenEvents := by
  unfold apply
  split
  · rfl
  · split <;> rfl
  · dsimp only
    split <;> rfl

@[simp] theorem apply_eventOrder : (p.apply event).eventOrder = p.eventOrder := by
  unfold apply
  split
  · rfl
  · split <;> rfl
  · dsimp only
    split <;> rfl

theorem enterGeneration_generation (p : KVEventProvider F) (backendID : String)
    {generation : String} (h : generation ≠ "") :
    (p.enterGeneration backendID generation).generation backendID = generation := by
  simp [enterGeneration, h]

theorem enterGeneration_seenEvents {backendID generation : String} :
    (p.enterGeneration backendID generation).seenEvents = p.seenEvents := by
  unfold enterGeneration
  split <;> split <;> rfl

theorem enterGeneration_eventOrder {backendID generation : String} :
    (p.enterGeneration backendID generation).eventOrder = p.eventOrder := by
  unfold enterGeneration
  split <;> split <;> rfl

theorem enterGeneration_max {backendID generation : String} :
    (p.enterGeneration backendID generation).max = p.max := by
  unfold enterGeneration
  split <;> split <;> rfl

/-- An event of the current generation starts nothing new. -/
theorem enterGeneration_self (h : p.InGeneration event) :
    p.enterGeneration event.backendID event.generation = p := by
  unfold enterGeneration
  by_cases hempty : event.generation = ""
  · simp [hempty]
  · have hgen : p.generation event.backendID = event.generation := h.resolve_left hempty
    have hupdate : Function.update p.generation event.backendID event.generation = p.generation := by
      rw [← hgen, Function.update_eq_self]
    simp [hempty, hgen, hupdate]

/-! ## Dropping and accepting -/

/-- An event with an ID is dropped exactly when the index knows it. -/
theorem accept_eq (p : KVEventProvider F) {event : KVEvent} (hid : event.engineEventID ≠ "") :
    (p.Knows event ∧ p.accept event = none) ∨
      (¬ p.Knows event ∧ p.accept event = some (p.remember event.eventKey)) := by
  unfold accept
  rw [if_pos hid]
  by_cases hseen : event.eventKey ∈ p.seenEvents
  · exact .inl ⟨.inl hseen, if_pos hseen⟩
  · rw [if_neg hseen]
    by_cases hbehind : p.Behind event
    · exact .inl ⟨.inr hbehind, if_pos hbehind⟩
    · exact .inr ⟨fun h => h.elim hseen hbehind, if_neg hbehind⟩

/-- What an event does: nothing, a new generation only, or its operation after the checks for events
seen before. -/
theorem observe_cases (p : KVEventProvider F) (now : Time) (event : KVEvent) :
    p.observe now event = p ∨
      p.observe now event = p.enterGeneration event.backendID event.generation ∨
      ∃ q, (p.enterGeneration event.backendID event.generation).accept (event.withDefaults now) =
          some q ∧
        p.observe now event = (q.advance (event.withDefaults now)).apply (event.withDefaults now) := by
  unfold observe
  split
  · exact .inl rfl
  split
  · exact .inl rfl
  dsimp only
  split
  · exact .inr (.inl rfl)
  · rename_i q haccept
    exact .inr (.inr ⟨q, haccept, rfl⟩)

/-- An event that passes the first checks. -/
theorem observe_valid (h : event.Valid) :
    p.observe now event =
      match (p.enterGeneration event.backendID event.generation).accept (event.withDefaults now) with
      | none => p.enterGeneration event.backendID event.generation
      | some q => (q.advance (event.withDefaults now)).apply (event.withDefaults now) := by
  unfold observe
  rw [if_neg h.backendID, if_neg fun hskip => h.cacheKey.elim hskip.1 fun hkey => hkey hskip.2]
  rfl

/-- **An event that the index knows changes nothing.** -/
theorem observe_known (hid : event.engineEventID ≠ "") (hgen : p.InGeneration event)
    (hknows : p.Knows event) : p.observe now event = p := by
  unfold observe
  split
  · rfl
  · split
    · rfl
    · have henter : p.enterGeneration (event.withDefaults now).backendID
          (event.withDefaults now).generation = p := enterGeneration_self hgen
      have hdrop : p.accept (event.withDefaults now) = none := by
        obtain ⟨-, hdrop⟩ | ⟨hnot, -⟩ :=
          accept_eq p (show (event.withDefaults now).engineEventID ≠ "" from hid)
        · exact hdrop
        · exact absurd hknows hnot
      simp only [henter, hdrop]

/-- The clock is read for an event without a time only. -/
theorem observe_now (h : event.observedAt.isZero = false) (now now' : Time) :
    p.observe now event = p.observe now' event := by
  have hsame : event.withDefaults now = event.withDefaults now' := by simp [KVEvent.withDefaults, h]
  unfold observe
  rw [hsame]

/-- After an event its generation is the current one. -/
theorem observe_inGeneration (p : KVEventProvider F) (now : Time) (h : event.Valid) :
    (p.observe now event).InGeneration event := by
  by_cases hempty : event.generation = ""
  · exact .inl hempty
  · right
    rw [observe_valid h]
    have henter := enterGeneration_generation p event.backendID hempty
    obtain ⟨-, hdrop⟩ | ⟨-, haccept⟩ :=
      accept_eq (p.enterGeneration event.backendID event.generation)
        (show (event.withDefaults now).engineEventID ≠ "" from h.engineEventID)
    · rw [hdrop]
      exact henter
    · rw [haccept]
      simpa using henter

/-- **An event in the window changes nothing exactly in its own generation.** -/
theorem redelivery_unchanged_iff (now : Time) (h : event.Valid)
    (hseen : event.eventKey ∈ p.seenEvents) :
    p.observe now event = p ↔ p.InGeneration event := by
  constructor
  · intro hsame
    have hgeneration := observe_inGeneration p now h
    rwa [hsame] at hgeneration
  · intro hgeneration
    exact observe_known h.engineEventID hgeneration (.inl hseen)

namespace RedeliverySample

local instance : Float64 Rat := .rational id

/-- A block that an engine stores in a generation. -/
def store (generation engineEventID cacheKey : String) : KVEvent where
  operation := .store
  backendID := "backend"
  cacheKey
  matchedTokens := 16
  totalTokens := 16
  sequence := 0
  hasSequence := true
  generation
  engineEventID
  observedAt := 1
  quality := .fresh

def empty : KVEventProvider Rat := .new 100 300000000000 0

theorem redelivery_unchanged_in_generation :
    let p := empty.observe 1 (store "pod-1" "e1" "k1")
    p.observe 2 (store "pod-1" "e1" "k1") = p ↔ p.InGeneration (store "pod-1" "e1" "k1") :=
  redelivery_unchanged_iff 2 ⟨by decide, .inr (by decide), by decide⟩ (by decide +kernel)

/-- The engine restarts; then an event from before arrives again. The block of the new generation
is gone. -/
theorem redelivery_clears :
    let p := (empty.observe 1 (store "pod-1" "e1" "k1")).observe 2 (store "pod-2" "e2" "k2")
    (store "pod-1" "e1" "k1").eventKey ∈ p.seenEvents ∧
      (p.entries.find (backendKey "backend" "k2")).isSome = true ∧
      (p.observe 3 (store "pod-1" "e1" "k1")).entries.find (backendKey "backend" "k2") = none ∧
      p.observe 3 (store "pod-1" "e1" "k1") ≠ p := by
  intro p
  have hgone : (p.observe 3 (store "pod-1" "e1" "k1")).entries.find (backendKey "backend" "k2") =
      none := by
    decide +kernel
  have hheld : (p.entries.find (backendKey "backend" "k2")).isSome = true := by decide +kernel
  refine ⟨by decide +kernel, hheld, hgone, fun hsame => ?_⟩
  rw [hsame] at hgone
  rw [hgone] at hheld
  cases hheld

end RedeliverySample

/-! ## The window -/

/-- The window: the IDs in it, in the order they came. -/
structure Window (p : KVEventProvider F) : Prop where
  mem_iff : ∀ eventKey, eventKey ∈ p.seenEvents ↔ eventKey ∈ p.eventOrder
  nodup : p.eventOrder.Nodup

/-- Forgetting keeps the last `limit` IDs. -/
theorem forget_spec (limit : Nat) : ∀ (eventOrder : List String) (seenEvents : Finset String),
    (∀ eventKey, eventKey ∈ seenEvents ↔ eventKey ∈ eventOrder) → eventOrder.Nodup →
      (forget limit seenEvents eventOrder).2 = eventOrder.drop (eventOrder.length - limit) ∧
        ∀ eventKey, eventKey ∈ (forget limit seenEvents eventOrder).1 ↔
          eventKey ∈ (forget limit seenEvents eventOrder).2 := by
  intro eventOrder
  induction eventOrder with
  | nil => intro seenEvents hmem _; exact ⟨by simp [forget], by simpa [forget] using hmem⟩
  | cons oldest eventOrder ih =>
    intro seenEvents hmem hnodup
    obtain ⟨hnot, hnodup⟩ := List.nodup_cons.mp hnodup
    unfold forget
    by_cases hlimit : limit < eventOrder.length + 1
    · rw [if_pos hlimit]
      have hmem' : ∀ eventKey, eventKey ∈ seenEvents.erase oldest ↔ eventKey ∈ eventOrder := by
        intro eventKey
        rw [Finset.mem_erase, hmem, List.mem_cons]
        constructor
        · rintro ⟨hne, rfl | hold⟩
          · exact absurd rfl hne
          · exact hold
        · intro hold
          exact ⟨fun heq => hnot (heq ▸ hold), .inr hold⟩
      obtain ⟨horder, hseen⟩ := ih (seenEvents.erase oldest) hmem' hnodup
      refine ⟨?_, hseen⟩
      have hdrop : (oldest :: eventOrder).length - limit = eventOrder.length - limit + 1 := by
        rw [List.length_cons]
        omega
      rw [horder, hdrop, List.drop_succ_cons]
    · rw [if_neg hlimit]
      have hdrop : (oldest :: eventOrder).length - limit = 0 := by
        rw [List.length_cons]
        omega
      exact ⟨by rw [hdrop, List.drop_zero], hmem⟩

/-- A new ID enters the window at its end and pushes out the oldest ones. -/
theorem remember_spec (h : p.Window) {eventKey : String} (hnew : eventKey ∉ p.seenEvents) :
    (p.remember eventKey).Window ∧
      (p.remember eventKey).eventOrder =
        (p.eventOrder ++ [eventKey]).drop (p.eventOrder.length + 1 - p.max * 4) := by
  have hmem : ∀ key, key ∈ insert eventKey p.seenEvents ↔ key ∈ p.eventOrder ++ [eventKey] := by
    intro key
    rw [Finset.mem_insert, h.mem_iff, List.mem_append, List.mem_singleton, or_comm]
  have hnodup : (p.eventOrder ++ [eventKey]).Nodup := by
    rw [← List.concat_eq_append, List.nodup_concat]
    exact ⟨fun hold => hnew ((h.mem_iff eventKey).mpr hold), h.nodup⟩
  obtain ⟨horder, hseen⟩ := forget_spec (p.max * 4) _ _ hmem hnodup
  rw [List.length_append, List.length_singleton] at horder
  refine ⟨⟨hseen, ?_⟩, horder⟩
  show (forget _ _ _).2.Nodup
  rw [horder]
  exact hnodup.sublist (List.drop_sublist _ _)

theorem remember_self (h : p.Window) {eventKey : String} (hnew : eventKey ∉ p.seenEvents)
    (hmax : 0 < p.max) : eventKey ∈ (p.remember eventKey).seenEvents := by
  obtain ⟨hwindow, horder⟩ := remember_spec h hnew
  rw [hwindow.mem_iff, horder, List.drop_append_of_le_length (by omega)]
  simp

theorem new_window [Float64 F] (max : Int) (ttl : Duration) (lambda : F) :
    (new max ttl lambda).Window where
  mem_iff eventKey := by simp [new]
  nodup := List.nodup_nil

theorem Window.of_eq (h : p.Window) (hseen : p'.seenEvents = p.seenEvents)
    (horder : p'.eventOrder = p.eventOrder) : p'.Window where
  mem_iff := by rw [hseen, horder]; exact h.mem_iff
  nodup := by rw [horder]; exact h.nodup

/-- The window after an event, and the event in it. -/
theorem observe_window (now : Time) (h : event.Valid) (hwindow : p.Window) (hmax : 0 < p.max) :
    (p.observe now event).Window ∧ (p.observe now event).Knows event := by
  rw [observe_valid h]
  have henter : (p.enterGeneration event.backendID event.generation).Window :=
    hwindow.of_eq enterGeneration_seenEvents enterGeneration_eventOrder
  obtain ⟨hknows, hdrop⟩ | ⟨hnew, haccept⟩ :=
    accept_eq (p.enterGeneration event.backendID event.generation)
      (show (event.withDefaults now).engineEventID ≠ "" from h.engineEventID)
  · rw [hdrop]
    exact ⟨henter, hknows⟩
  · rw [haccept]
    have hnotSeen : (event.withDefaults now).eventKey ∉
        (p.enterGeneration event.backendID event.generation).seenEvents :=
      fun hseen => hnew (.inl hseen)
    refine ⟨(remember_spec henter hnotSeen).1.of_eq (by simp) (by simp), .inl ?_⟩
    simp only [apply_seenEvents, advance_seenEvents]
    exact remember_self henter hnotSeen (by rw [enterGeneration_max]; exact hmax)

end KVEventProvider

end Kavora.Router
