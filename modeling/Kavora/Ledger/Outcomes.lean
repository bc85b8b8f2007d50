import Kavora.Lib.System
import Kavora.Ledger.DecisionLedger

/-!
# Outcomes and prediction errors

The error of a prediction belongs to the outcome of its decision: `PredictionQuality` reads the two
together. `RecordOutcome` replaces the outcome each time, and the error only when the new outcome has
one, so an entry with an error stays consistent under `Harmless` outcomes only.

* `Decision.SelfConsistent`: the error of an entry is that of its outcome.
* `withOutcome_selfConsistent_iff`: the outcomes that keep an entry consistent.
* `ledgerRuns`: any decisions without an outcome, any outcomes, in any order.
-/

namespace Kavora.Ledger

open Lib Lib.Go
open Float64 (ofInt)

variable {F : Type} [Float64 F]

namespace Decision

/-- The error `e` is that of the outcome `o`, for the candidate `c` that served. -/
structure Explains (decision : Decision F) (e : PredictionError F) (o : DecisionOutcome F)
    (c : Candidate F) : Prop where
  outcome : decision.outcome = some o
  success : o.success = true
  positive : Float64.lt (ofInt 0) o.ttftMS = true
  candidate : candidateForBackend decision.candidates.toList o.actualBackend = some c
  actual : e.actualTTFTMS = o.ttftMS
  predicted : e.predictedTTFTMS = c.predictedTTFTMS
  version : e.predictorVersion = c.predictorVersion
  quality : e.evidenceQuality = c.evidenceQuality
  signed : e.ttftSignedMS = e.actualTTFTMS - e.predictedTTFTMS
  selected : decision.actualSelected = o.actualBackend

/-- The prediction error of a decision is that of its outcome and one of its candidates. -/
def SelfConsistent (decision : Decision F) : Prop :=
  ∀ e, decision.predictionError = some e → ∃ o c, decision.Explains e o c

/-- The outcome has an error: it succeeded, with a first token, on a candidate of the decision. -/
def HasError (decision : Decision F) (outcome : DecisionOutcome F) : Prop :=
  outcome.isBare = false ∧ outcome.success = true ∧ Float64.lt (ofInt 0) outcome.ttftMS = true ∧
    (candidateForBackend decision.candidates.toList outcome.actualBackend).isSome

/-- The entry has no error yet, or the outcome brings its own, or it says nothing new. -/
def Harmless (decision : Decision F) (outcome : DecisionOutcome F) : Prop :=
  decision.predictionError = none ∨ HasError decision outcome ∨
    (outcome.isBare = true ∧ outcome.actualBackend = decision.actualSelected)

variable {decision : Decision F} {outcome : DecisionOutcome F}

theorem withOutcome_bare (h : outcome.isBare = true) :
    decision.withOutcome outcome = { decision with actualSelected := outcome.actualBackend } := by
  unfold withOutcome
  dsimp only
  rw [if_pos h]

theorem withOutcome_error (h : HasError decision outcome) :
    ∃ c, candidateForBackend decision.candidates.toList outcome.actualBackend = some c ∧
      decision.withOutcome outcome =
        { decision with
          actualSelected := outcome.actualBackend
          outcome := some outcome
          predictorVersion := c.predictorVersion
          predictionError := some (predictionErrorOf c outcome) } := by
  obtain ⟨hbare, hsuccess, hpositive, hcandidate⟩ := h
  obtain ⟨c, hc⟩ := Option.isSome_iff_exists.mp hcandidate
  refine ⟨c, hc, ?_⟩
  unfold withOutcome
  dsimp only
  rw [hbare, if_neg Bool.false_ne_true, hc]
  dsimp only
  rw [hsuccess, hpositive, Bool.and_self, if_pos rfl]

theorem withOutcome_no_error (hbare : outcome.isBare = false) (h : ¬ HasError decision outcome) :
    decision.withOutcome outcome =
      { decision with actualSelected := outcome.actualBackend, outcome := some outcome } := by
  unfold withOutcome
  dsimp only
  rw [hbare, if_neg Bool.false_ne_true]
  cases hc : candidateForBackend decision.candidates.toList outcome.actualBackend with
  | none => rfl
  | some c =>
    dsimp only
    rw [if_neg]
    intro hboth
    obtain ⟨hsuccess, hpositive⟩ := Bool.and_eq_true_iff.mp hboth
    exact h ⟨hbare, hsuccess, hpositive, by rw [hc]; rfl⟩

theorem selfConsistent_of_none (h : decision.predictionError = none) : decision.SelfConsistent :=
  fun e he => by rw [h] at he; cases he

/-- An outcome with an error makes the entry consistent, whatever it was. -/
theorem withOutcome_of_hasError (h : HasError decision outcome) :
    (decision.withOutcome outcome).SelfConsistent := by
  obtain ⟨c, hc, heq⟩ := withOutcome_error h
  rw [heq]
  intro e he
  obtain rfl := Option.some.inj he
  exact ⟨outcome, c, rfl, h.2.1, h.2.2.1, hc, rfl, rfl, rfl, rfl, rfl, rfl⟩

/-- **The outcomes that keep an entry consistent.** -/
theorem withOutcome_selfConsistent_iff (h : decision.SelfConsistent) (outcome : DecisionOutcome F) :
    (decision.withOutcome outcome).SelfConsistent ↔ Harmless decision outcome := by
  by_cases herror : HasError decision outcome
  · exact ⟨fun _ => .inr (.inl herror), fun _ => withOutcome_of_hasError herror⟩
  cases hbare : outcome.isBare with
  | true =>
    rw [withOutcome_bare hbare]
    constructor
    · intro hafter
      cases he : decision.predictionError with
      | none => exact .inl he
      | some e =>
        -- The outcome of the entry stays, and with it the backend that the error is for.
        obtain ⟨o, c, hold⟩ := h e he
        obtain ⟨o', c', hnew⟩ := hafter e he
        have ho : o = o' := Option.some.inj (hold.outcome.symm.trans hnew.outcome)
        exact .inr (.inr ⟨hbare, by rw [hold.selected, ho]; exact hnew.selected⟩)
    · rintro (hnone | hfresh | ⟨-, hsame⟩)
      · exact selfConsistent_of_none hnone
      · exact absurd hfresh herror
      · rw [hsame]
        exact h
  | false =>
    rw [withOutcome_no_error hbare herror]
    constructor
    · intro hafter
      cases he : decision.predictionError with
      | none => exact .inl he
      | some e =>
        obtain ⟨o, c, hnew⟩ := hafter e he
        obtain rfl : outcome = o := Option.some.inj hnew.outcome
        exact absurd ⟨hbare, hnew.success, hnew.positive, by rw [hnew.candidate]; rfl⟩ herror
    · rintro (hnone | hfresh | ⟨hbare', -⟩)
      · exact selfConsistent_of_none hnone
      · exact absurd hfresh herror
      · rw [hbare] at hbare'
        cases hbare'

end Decision

/-! ## The ledger -/

namespace DecisionLedger

/-- Every entry is self-consistent. -/
def SelfConsistent (ledger : DecisionLedger F) : Prop :=
  ∀ id decision, ledger.entries id = some decision → decision.SelfConsistent

omit [Float64 F] in
/-- Eviction only drops entries. -/
theorem entries_of_evict {max : Nat} {order : List String} {entries : String → Option (Decision F)}
    {id : String} {decision : Decision F} (h : (evict max order entries).2 id = some decision) :
    entries id = some decision := by
  induction order generalizing entries with
  | nil => exact h
  | cons oldest order ih =>
    rw [evict] at h
    split at h
    · have hkept := ih h
      rw [Function.update_apply] at hkept
      split at hkept
      · cases hkept
      · exact hkept
    · exact h

theorem recordLocked_selfConsistent {ledger : DecisionLedger F} (h : ledger.SelfConsistent)
    {decision : Decision F} (hnone : decision.predictionError = none) :
    (ledger.recordLocked decision).SelfConsistent := by
  intro id entry hentry
  have hkept := entries_of_evict hentry
  rw [Function.update_apply] at hkept
  split at hkept
  · obtain rfl := Option.some.inj hkept
    exact Decision.selfConsistent_of_none hnone
  · exact h id entry hkept

/-- The outcome keeps the entry of its request consistent. -/
def Keeps (ledger : DecisionLedger F) (outcome : DecisionOutcome F) : Prop :=
  ∀ decision, ledger.entries outcome.requestID = some decision →
    Decision.Harmless decision outcome

theorem recordOutcomeLocked_selfConsistent_iff {ledger ledger' : DecisionLedger F}
    (h : ledger.SelfConsistent) {outcome : DecisionOutcome F}
    (hrecord : ledger.recordOutcomeLocked outcome = some ledger') :
    ledger'.SelfConsistent ↔ ledger.Keeps outcome := by
  obtain ⟨decision, hdecision, rfl⟩ := Option.map_eq_some_iff.mp hrecord
  have hiff := Decision.withOutcome_selfConsistent_iff (h _ _ hdecision) outcome
  constructor
  · intro hafter decision' hdecision'
    obtain rfl := Option.some.inj (hdecision.symm.trans hdecision')
    exact hiff.mp (hafter outcome.requestID _ (Function.update_self ..))
  · intro hkeeps id entry hentry
    dsimp only at hentry
    rw [Function.update_apply] at hentry
    split at hentry
    · obtain rfl := Option.some.inj hentry
      exact hiff.mpr (hkeeps _ hdecision)
    · exact h id entry hentry

end DecisionLedger

/-! ## Runs -/

variable [FloatText F]

/-- A ledger with the files of its journal. -/
structure LedgerState (F : Type) where
  ledger : DecisionLedger F
  directory : Directory

/-- A call with the time that dates its file and what the system does with its write. -/
inductive LedgerCall (F : Type) where
  | record (decision : Decision F) (now : Time) (write : FileWrite)
  | recordOutcome (outcome : DecisionOutcome F) (now : Time) (write : FileWrite)

/-- Any calls on a new ledger. A decision that is recorded has no outcome yet. -/
def ledgerRuns : System (LedgerState F) (LedgerCall F) where
  init s := ∃ max journal, s.ledger = .new max journal
  step s call s' :=
    match call with
    | .record decision now write =>
      decision.outcome = none ∧ decision.predictionError = none ∧
        s' = let result := s.ledger.record s.directory now write decision
          { ledger := result.1, directory := result.2 }
    | .recordOutcome outcome now write =>
      s' = let result := s.ledger.recordOutcome s.directory now write outcome
        { ledger := result.1, directory := result.2 }

/-- The step keeps the entries consistent. -/
def KeepsConsistent (s : LedgerState F) : LedgerCall F → Prop
  | .record _ _ _ => True
  | .recordOutcome outcome _ _ => outcome.requestID = "" ∨ s.ledger.Keeps outcome

omit [Float64 F] [FloatText F] in
theorem journalAppend_entries {α : Type} [Marshal α] (ledger : DecisionLedger F)
    (directory : Directory) (path : String) (value : α) (write : FileWrite) :
    (ledger.journalAppend directory path value write).1.entries = ledger.entries := by
  unfold DecisionLedger.journalAppend
  split <;> rfl

theorem record_selfConsistent {ledger : DecisionLedger F} (h : ledger.SelfConsistent)
    {decision : Decision F} (hnone : decision.predictionError = none) (directory : Directory)
    (now : Time) (write : FileWrite) :
    (ledger.record directory now write decision).1.SelfConsistent := by
  unfold DecisionLedger.record
  split
  · exact h
  · unfold DecisionLedger.SelfConsistent
    rw [journalAppend_entries]
    exact DecisionLedger.recordLocked_selfConsistent h hnone

theorem recordOutcome_selfConsistent_iff {ledger : DecisionLedger F} (h : ledger.SelfConsistent)
    (directory : Directory) (now : Time) (write : FileWrite) (outcome : DecisionOutcome F) :
    (ledger.recordOutcome directory now write outcome).1.SelfConsistent ↔
      outcome.requestID = "" ∨ ledger.Keeps outcome := by
  unfold DecisionLedger.recordOutcome
  by_cases hid : outcome.requestID = ""
  · rw [if_pos hid]
    exact ⟨fun _ => .inl hid, fun _ => h⟩
  rw [if_neg hid, or_iff_right hid]
  cases hrecord : ledger.recordOutcomeLocked outcome with
  | none =>
    refine ⟨fun _ decision hdecision => ?_, fun _ => h⟩
    have hnone := Option.map_eq_none_iff.mp hrecord
    rw [hnone] at hdecision
    cases hdecision
  | some ledger' =>
    dsimp only
    rw [← DecisionLedger.recordOutcomeLocked_selfConsistent_iff h hrecord]
    unfold DecisionLedger.SelfConsistent
    rw [journalAppend_entries]

theorem step_selfConsistent_iff {s s' : LedgerState F} (h : s.ledger.SelfConsistent)
    {call : LedgerCall F} (hstep : ledgerRuns.step s call s') :
    s'.ledger.SelfConsistent ↔ KeepsConsistent s call := by
  cases call with
  | record decision now write =>
    obtain ⟨-, hnone, rfl⟩ := hstep
    exact iff_of_true (record_selfConsistent h hnone _ _ _) trivial
  | recordOutcome outcome now write =>
    obtain rfl := hstep
    exact recordOutcome_selfConsistent_iff h _ _ _ _

/-- **The entries of a run stay consistent** if each of its outcomes is harmless, and an outcome that
is not leaves an entry that is not. -/
theorem ledger_consistent_iff :
    (∀ s : LedgerState F, (ledgerRuns.restrict KeepsConsistent).Reach s →
      s.ledger.SelfConsistent) ∧
    (∀ (s s' : LedgerState F) call, s.ledger.SelfConsistent → ledgerRuns.step s call s' →
      (s'.ledger.SelfConsistent ↔ KeepsConsistent s call)) := by
  refine ⟨fun s hs => ?_, fun s s' call h hstep => step_selfConsistent_iff h hstep⟩
  induction hs with
  | init hinit =>
    obtain ⟨max, journal, hledger⟩ := hinit
    rw [hledger]
    intro id decision hdecision
    cases hdecision
  | step _ hstep ih => exact (step_selfConsistent_iff ih hstep.1).mpr hstep.2

namespace OutcomeSample

local instance : Float64 Rat := .rational fun _ => 1

attribute [local instance] integerText

def decision : Decision Rat :=
  { Decision.zero with
    requestID := "req-1"
    candidates := .of
      [{ Candidate.zero with
          backendID := "gpu-1"
          predictedTTFTMS := 120
          evidenceQuality := "strict" }] }

def served : DecisionOutcome Rat :=
  { DecisionOutcome.zero with
    requestID := "req-1"
    actualBackend := "gpu-1"
    ttftMS := 150
    success := true
    statusCode := 200
    completedAt := 100000000000 }

def failed : DecisionOutcome Rat :=
  { DecisionOutcome.zero with
    requestID := "req-1"
    actualBackend := "gpu-1"
    statusCode := 502
    completedAt := 101000000000 }

/-- A new ledger with the decision. -/
def recorded : LedgerState Rat :=
  let result := (DecisionLedger.new 8 false).record ∅ 0 .notOpened decision
  { ledger := result.1, directory := result.2 }

/-- The ledger after an outcome. -/
def complete (s : LedgerState Rat) (outcome : DecisionOutcome Rat) : LedgerState Rat :=
  let result := s.ledger.recordOutcome s.directory 0 .notOpened outcome
  { ledger := result.1, directory := result.2 }

theorem reach_recorded : ledgerRuns.Reach recorded := by
  have hnew : ledgerRuns.Reach ({ ledger := .new 8 false, directory := ∅ } : LedgerState Rat) :=
    .init ⟨8, false, rfl⟩
  exact .step (i := .record decision 0 .notOpened) hnew ⟨rfl, rfl, rfl⟩

/-- The error of a served request stays when the outcome of a failure replaces its outcome. -/
theorem stale_error :
    ∃ s : LedgerState Rat, ledgerRuns.Reach s ∧ ¬ s.ledger.SelfConsistent := by
  have hserved : ledgerRuns.Reach (complete recorded served) :=
    .step (i := .recordOutcome served 0 .notOpened) reach_recorded rfl
  refine ⟨complete (complete recorded served) failed,
    .step (i := .recordOutcome failed 0 .notOpened) hserved rfl, fun h => ?_⟩
  have hstale : ((complete (complete recorded served) failed).ledger.entries
      "req-1").bind (fun decision =>
        decision.predictionError.bind fun _ => decision.outcome.map (·.success)) = some false := by
    decide +kernel
  obtain ⟨decision, hdecision, hstale⟩ := Option.bind_eq_some_iff.mp hstale
  obtain ⟨e, he, hstale⟩ := Option.bind_eq_some_iff.mp hstale
  obtain ⟨o, ho, hfailed⟩ := Option.map_eq_some_iff.mp hstale
  obtain ⟨o', c, hexplains⟩ := h "req-1" decision hdecision e he
  obtain rfl : o = o' := Option.some.inj (ho.symm.trans hexplains.outcome)
  rw [hexplains.success] at hfailed
  cases hfailed

end OutcomeSample

end Kavora.Ledger
