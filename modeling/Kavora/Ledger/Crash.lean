import Kavora.Ledger.Reopening

/-!
# A journal after a crash

The gateway may crash while it writes a line, after any number of its bytes.

* `crashRuns`: runs with crashes, and the records whose lines were written completely.
* `KeepsLines`: the steps that leave whole lines. A write starts on a new line, its line fits in the
  buffer of the reader, and a crash cuts it before its first byte or after its document.
* `journal_reopens`: after a run of such steps the journal opens and restores these records.
-/

namespace Kavora.Ledger

open Lib Lib.Go

variable {F : Type} [Float64 F] [FloatText F]

/-- What happens to a gateway. In a write `n` bytes of the line reach the file; if these are not
all of them, the gateway crashes. -/
inductive CrashEvent (F : Type) where
  | record (decision : Decision F) (now : Time) (n : Nat)
  | recordOutcome (outcome : DecisionOutcome F) (now : Time) (n : Nat)
  | crash
  | start (max : Int)

/-- The gateway's ledger, with the files that outlive it. -/
structure CrashState (F : Type) where
  /-- `none` if the gateway does not run. -/
  ledger : Option (DecisionLedger F)
  directory : Directory
  /-- The decisions of a file whose lines were written completely. -/
  decisions : String → List (Decision F)
  outcomes : String → List (DecisionOutcome F)

/-- The first `n` bytes of the line of a value have all of its document. -/
def Completes {α : Type} [Marshal α] (a : α) (n : Nat) : Prop :=
  ∃ doc ∈ Marshal.marshal a, (Utf8.encode doc.print).length ≤ n

instance {α : Type} [Marshal α] (a : α) (n : Nat) : Decidable (Completes a n) :=
  inferInstanceAs (Decidable (∃ doc ∈ Marshal.marshal a, _))

theorem not_completes {α : Type} [Marshal α] {a : α} {n : Nat} (h : Marshal.marshal a = none) :
    ¬ Completes a n := by
  rintro ⟨doc, hmem, -⟩
  rw [h] at hmem
  cases hmem

/-- The values of the files after one was written to the file `p`. -/
def addTo {α : Type} (values : String → List α) (p : String) (a : α) : String → List α :=
  Function.update values p (values p ++ [a])

/-- The ledger after a call, or `none` if the call was cut. -/
def afterCall (ledger : DecisionLedger F) : Option (DecisionLedger F) :=
  if ledger.err = some .write then none else some ledger

/-- Recording the decision writes a line. -/
def RecordWrites (ledger : DecisionLedger F) (decision : Decision F) : Prop :=
  decision.requestID ≠ "" ∧ ledger.journal = true ∧ ledger.err = none

/-- Recording the outcome writes a line. -/
def OutcomeWrites (ledger : DecisionLedger F) (outcome : DecisionOutcome F) : Prop :=
  outcome.requestID ≠ "" ∧ (ledger.entries outcome.requestID).isSome ∧ ledger.journal = true ∧
    ledger.err = none

instance (ledger : DecisionLedger F) (decision : Decision F) :
    Decidable (RecordWrites ledger decision) := inferInstanceAs (Decidable (_ ∧ _))

instance (ledger : DecisionLedger F) (outcome : DecisionOutcome F) :
    Decidable (OutcomeWrites ledger outcome) := inferInstanceAs (Decidable (_ ∧ _))

/-- Any run of a gateway that may crash and start again. -/
def crashRuns : System (CrashState F) (CrashEvent F) where
  init s := s = { ledger := none, directory := ∅, decisions := fun _ => [], outcomes := fun _ => [] }
  step s event s' :=
    match event with
    | .record decision now n => ∃ ledger, s.ledger = some ledger ∧
      let result := ledger.record s.directory now (.wrote n) decision
      s' =
        { s with
          ledger := afterCall result.1
          directory := result.2
          decisions :=
            if RecordWrites ledger decision ∧ Completes decision n then
              addTo s.decisions (path "decisions" now) decision
            else s.decisions }
    | .recordOutcome outcome now n => ∃ ledger, s.ledger = some ledger ∧
      let result := ledger.recordOutcome s.directory now (.wrote n) outcome
      s' =
        { s with
          ledger := afterCall result.1
          directory := result.2
          outcomes :=
            if OutcomeWrites ledger outcome ∧ Completes outcome n then
              addTo s.outcomes (path "outcomes" now) outcome
            else s.outcomes }
    | .crash => s' = { s with ledger := none }
    | .start max => ∃ ledger, DecisionLedger.reopen max s.directory = some ledger ∧
      s' = { s with ledger := some ledger }

/-- The journal opens and restores every record whose line was written completely. -/
def Reopens (s : CrashState F) : Prop :=
  (∀ max, DecisionLedger.reopen max s.directory = some (.restore max
    ((s.directory.glob "decisions").flatMap s.decisions)
    ((s.directory.glob "outcomes").flatMap s.outcomes))) ∧
  (∀ p, s.decisions p ≠ [] → p ∈ s.directory.glob "decisions") ∧
  ∀ p, s.outcomes p ≠ [] → p ∈ s.directory.glob "outcomes"

/-- A write that leaves whole lines: it starts on a new line, which fits in the buffer, and its
whole document reaches the file, unless nothing does. -/
def KeepsLine {α : Type} [Marshal α] (directory : Directory) (p : String) (a : α) (n : Nat) :
    Prop :=
  ∀ doc ∈ Marshal.marshal a, n = 0 ∨
    ((directory.index p [] = [] ∨ (directory.index p []).getLast? = some lf) ∧
      (Utf8.encode doc.print).length < maxLine ∧ (Utf8.encode doc.print).length ≤ n)

/-- The steps whose writes leave whole lines. -/
def KeepsLines (s : CrashState F) : CrashEvent F → Prop
  | .record decision now n => ∀ ledger ∈ s.ledger, RecordWrites ledger decision →
    KeepsLine s.directory (path "decisions" now) decision n
  | .recordOutcome outcome now n => ∀ ledger ∈ s.ledger, OutcomeWrites ledger outcome →
    KeepsLine s.directory (path "outcomes" now) outcome n
  | _ => True

/-! ## One write -/

section Write

variable {α : Type} [Marshal α] {directory : Directory} {kind p : String}
  {values : String → List α}

theorem append_frame (h : directory.Holds kind values) (hp : matchesKind kind p = false)
    {β : Type} [Marshal β] (b : β) (write : FileWrite) :
    (directory.append p b write).1.Holds kind values := by
  unfold Directory.append
  cases Marshal.marshal b with
  | none => exact h
  | some doc =>
    cases write with
    | notOpened => exact h
    | wrote n => exact h.frame hp _

/-- A write that leaves whole lines adds its value if its document reaches the file. -/
theorem append_holds {read : α → α} (hread : ReadsBack read) (h : directory.Holds kind values)
    (hp : matchesKind kind p = true) {a : α} {n : Nat} (hkeeps : KeepsLine directory p a n) :
    (directory.append p a (.wrote n)).1.Holds kind
      (if Completes a n then addTo values p a else values) := by
  unfold Directory.append
  cases hdoc : Marshal.marshal a with
  | none =>
    rw [if_neg (not_completes hdoc)]
    exact h
  | some doc =>
    have hpositive : 0 < (Utf8.encode doc.print).length := by
      have hne : Utf8.encode doc.print ≠ [] := Json.encode_print_ne_nil (hread hdoc).1
      exact List.length_pos_iff.mpr hne
    rcases hkeeps doc hdoc with rfl | ⟨hend, hfits, hn⟩
    · have hnot : ¬ Completes a 0 := by
        rintro ⟨doc', hmem, hle⟩
        rw [hdoc] at hmem
        cases hmem
        omega
      rw [if_neg hnot]
      refine h.insert hp ?_ fun _ _ => rfl
      rw [List.take_zero, List.append_nil]
      exact h.fileOf hp
    · have hcompletes : Completes a n := ⟨doc, hdoc, hn⟩
      rw [if_pos hcompletes]
      refine h.insert hp ?_ fun q hq => Function.update_of_ne hq _ _
      rw [addTo, Function.update_self]
      have hlines := (h.fileOf hp).lines hread hend
      refine hlines.write hdoc hfits ?_
      simp only [lineOf, List.length_append, List.length_singleton]
      omega

end Write

/-! ## Runs -/

namespace DecisionLedger

/-- The file that a call writes. -/
theorem record_directory (ledger : DecisionLedger F) (directory : Directory) (now : Time)
    (write : FileWrite) (decision : Decision F) :
    (ledger.record directory now write decision).2 =
      if RecordWrites ledger decision then
        (directory.append (path "decisions" now) decision write).1
      else directory := by
  unfold record
  by_cases hid : decision.requestID = ""
  · rw [if_pos hid, if_neg fun h => h.1 hid]
  rw [if_neg hid]
  unfold journalAppend
  by_cases hjournal : ledger.journal = true ∧ ledger.err = none
  · have hlocked : (ledger.recordLocked decision).journal = true ∧
        (ledger.recordLocked decision).err = none := hjournal
    rw [if_pos hlocked, if_pos ⟨hid, hjournal⟩]
  · have hlocked : ¬ ((ledger.recordLocked decision).journal = true ∧
        (ledger.recordLocked decision).err = none) := hjournal
    rw [if_neg hlocked, if_neg fun h => hjournal h.2]

theorem recordOutcome_directory (ledger : DecisionLedger F) (directory : Directory) (now : Time)
    (write : FileWrite) (outcome : DecisionOutcome F) :
    (ledger.recordOutcome directory now write outcome).2 =
      if OutcomeWrites ledger outcome then
        (directory.append (path "outcomes" now) outcome write).1
      else directory := by
  unfold recordOutcome recordOutcomeLocked
  by_cases hid : outcome.requestID = ""
  · rw [if_pos hid, if_neg fun h => h.1 hid]
  rw [if_neg hid]
  cases hentry : ledger.entries outcome.requestID with
  | none =>
    have hnot : ¬ OutcomeWrites ledger outcome := by
      rintro ⟨-, hsome, -⟩
      rw [hentry] at hsome
      cases hsome
    rw [if_neg hnot]
    rfl
  | some d =>
    have hsome : (ledger.entries outcome.requestID).isSome := by
      rw [hentry]
      rfl
    simp only [Option.map_some]
    unfold journalAppend
    by_cases hjournal : ledger.journal = true ∧ ledger.err = none
    · simp only [if_pos hjournal]
      rw [if_pos ⟨hid, hsome, hjournal⟩]
    · simp only [if_neg hjournal]
      rw [if_neg fun h => hjournal h.2.2]

end DecisionLedger

/-- The files hold the records whose lines were written completely. -/
structure CrashInv (s : CrashState F) : Prop where
  decisions : s.directory.Holds "decisions" s.decisions
  outcomes : s.directory.Holds "outcomes" s.outcomes

namespace CrashInv

variable [LawfulFloatText F] {s s' : CrashState F}

theorem record (h : CrashInv s) {decision : Decision F} {now : Time} {n : Nat}
    (hkeeps : KeepsLines s (.record decision now n))
    (hstep : crashRuns.step s (.record decision now n) s') : CrashInv s' := by
  obtain ⟨ledger, hledger, rfl⟩ := hstep
  have hdirectory := ledger.record_directory s.directory now (.wrote n) decision
  by_cases hwrites : RecordWrites ledger decision
  · rw [if_pos hwrites] at hdirectory
    constructor
    · simp only [hdirectory, hwrites, true_and]
      exact append_holds readsBack_decision h.decisions (matchesKind_path _ now)
        (hkeeps ledger hledger hwrites)
    · simp only [hdirectory]
      exact append_frame h.outcomes (matchesKind_decisions now) decision _
  · rw [if_neg hwrites] at hdirectory
    constructor
    · simp only [hdirectory, hwrites, false_and, if_false]
      exact h.decisions
    · simp only [hdirectory]
      exact h.outcomes

theorem recordOutcome (h : CrashInv s) {outcome : DecisionOutcome F} {now : Time} {n : Nat}
    (hkeeps : KeepsLines s (.recordOutcome outcome now n))
    (hstep : crashRuns.step s (.recordOutcome outcome now n) s') : CrashInv s' := by
  obtain ⟨ledger, hledger, rfl⟩ := hstep
  have hdirectory := ledger.recordOutcome_directory s.directory now (.wrote n) outcome
  by_cases hwrites : OutcomeWrites ledger outcome
  · rw [if_pos hwrites] at hdirectory
    constructor
    · simp only [hdirectory]
      exact append_frame h.decisions (matchesKind_outcomes now) outcome _
    · simp only [hdirectory, hwrites, true_and]
      exact append_holds readsBack_outcome h.outcomes (matchesKind_path _ now)
        (hkeeps ledger hledger hwrites)
  · rw [if_neg hwrites] at hdirectory
    constructor
    · simp only [hdirectory]
      exact h.decisions
    · simp only [hdirectory, hwrites, false_and, if_false]
      exact h.outcomes

/-- The files hold whole records in every run of such steps. -/
theorem inductive_inv : (crashRuns.restrict KeepsLines).Inductive (CrashInv (F := F)) where
  init s hs := by
    rw [show s = _ from hs]
    exact ⟨.empty, .empty⟩
  step s event s' h hstep := by
    obtain ⟨hstep, hkeeps⟩ := hstep
    cases event with
    | record decision now n => exact h.record hkeeps hstep
    | recordOutcome outcome now n => exact h.recordOutcome hkeeps hstep
    | crash =>
      rw [show s' = _ from hstep]
      exact ⟨h.decisions, h.outcomes⟩
    | start max =>
      obtain ⟨ledger, -, rfl⟩ := hstep
      exact ⟨h.decisions, h.outcomes⟩

end CrashInv

/-- **The journal opens again** and restores every complete record, in every run whose writes leave
whole lines. -/
theorem journal_reopens [LawfulFloatText F] {s : CrashState F}
    (hs : (crashRuns.restrict KeepsLines).Reach s) : Reopens s := by
  have h := CrashInv.inductive_inv.reach hs
  exact ⟨DecisionLedger.reopen_eq h.decisions h.outcomes, h.decisions.listed, h.outcomes.listed⟩

namespace CrashSample

open JournalSample (number decision lastDay)

attribute [local instance] number integerText

local instance : LawfulFloatText Rat := integerText_lawful

def down : CrashState Rat where
  ledger := none
  directory := ∅
  decisions _ := []
  outcomes _ := []

def up : CrashState Rat := { down with ledger := some (.new 0 true) }

/-- The gateway records a decision, of whose line `n` bytes reach the file. -/
def recordIn (s : CrashState Rat) (ledger : DecisionLedger Rat) (id : String) (now : Time)
    (n : Nat) : CrashState Rat :=
  let result := ledger.record s.directory now (.wrote n) (decision id)
  { s with
    ledger := afterCall result.1
    directory := result.2
    decisions :=
      if RecordWrites ledger (decision id) ∧ Completes (decision id) n then
        addTo s.decisions (path "decisions" now) (decision id)
      else s.decisions }

def recordCut (n : Nat) : CrashState Rat := recordIn up (.new 0 true) "a" lastDay n

theorem step_start : crashRuns.step down (.start 0) up := ⟨.new 0 true, rfl, rfl⟩

theorem step_record (n : Nat) :
    crashRuns.step up (.record (decision "a") lastDay n) (recordCut n) := ⟨.new 0 true, rfl, rfl⟩

/-- The ledger of the complete records. -/
def restored (s : CrashState Rat) : DecisionLedger Rat :=
  .restore 0 ((s.directory.glob "decisions").flatMap s.decisions)
    ((s.directory.glob "outcomes").flatMap s.outcomes)

/-- The gateway starts again and records a decision. -/
def recordAgain (s : CrashState Rat) (id : String) (now : Time) (n : Nat) : CrashState Rat :=
  recordIn { s with ledger := some (restored s) } (restored s) id now n

/-- The bytes of the document of a decision. -/
def documentLength (id : String) : Nat :=
  ((Marshal.marshal (decision id)).map fun doc => (Utf8.encode doc.print).length).getD 0

/-- Nothing of the first line reaches the file. -/
def cutBefore : CrashState Rat := recordAgain down "a" 0 0

/-- Of the second one all but its newline does. -/
def cutNewline : CrashState Rat := recordAgain cutBefore "a" 0 (documentLength "a")

/-- The third one is written on another day. -/
def nextDay : CrashState Rat := recordAgain cutNewline "b" lastDay maxLine

theorem reach_again {s : CrashState Rat} (hs : (crashRuns.restrict KeepsLines).Reach s)
    (hreopen : Reopens s) {id : String} {now : Time} {n : Nat}
    (hkeeps : KeepsLine s.directory (path "decisions" now) (decision id) n) :
    (crashRuns.restrict KeepsLines).Reach (recordAgain s id now n) := by
  have hstart : crashRuns.step s (.start 0) { s with ledger := some (restored s) } :=
    ⟨restored s, hreopen.1 0, rfl⟩
  have hrecord : crashRuns.step { s with ledger := some (restored s) }
      (.record (decision id) now n) (recordAgain s id now n) := ⟨restored s, rfl, rfl⟩
  exact (hs.step ⟨hstart, trivial⟩).step ⟨hrecord, fun _ _ _ => hkeeps⟩

theorem keeps_document {directory : Directory} {p id : String} {n : Nat}
    (hnew : directory.index p [] = []) (hfits : FitsLine (decision id))
    (hn : documentLength id ≤ n) : KeepsLine directory p (decision id) n := by
  intro doc hdoc
  have hlength : documentLength id = (Utf8.encode doc.print).length := by
    unfold documentLength
    rw [Option.mem_def.mp hdoc]
    rfl
  exact .inr ⟨.inl hnew, hfits doc hdoc, hlength ▸ hn⟩

/-- The gateway crashes before the first byte of a line and before the newline of another one. -/
theorem journal_reopens_after_crashes :
    cutBefore.ledger.isNone ∧ cutNewline.ledger.isNone ∧ Reopens nextDay ∧
    (DecisionLedger.reopen 0 nextDay.directory).map
      (fun ledger : DecisionLedger Rat => ledger.order) = some ["a", "b"] := by
  have hdown : (crashRuns.restrict KeepsLines).Reach down := .init rfl
  have hbefore : (crashRuns.restrict KeepsLines).Reach cutBefore :=
    reach_again hdown (journal_reopens hdown) fun _ _ => .inl rfl
  have hnewline : (crashRuns.restrict KeepsLines).Reach cutNewline :=
    reach_again hbefore (journal_reopens hbefore)
      (keeps_document (by decide +kernel) (by decide +kernel) (le_refl _))
  have hnext : (crashRuns.restrict KeepsLines).Reach nextDay :=
    reach_again hnewline (journal_reopens hnewline)
      (keeps_document (by decide +kernel) (by decide +kernel) (by decide +kernel))
  exact ⟨by decide +kernel, by decide +kernel, journal_reopens hnext, by decide +kernel⟩

/-- A crash after the first byte of a line: the journal does not open any more. -/
theorem cut_line_fails : crashRuns.Reach (recordCut 1) ∧
    (DecisionLedger.reopen 0 (recordCut 1).directory : Option (DecisionLedger Rat)).isNone := by
  have hdown : crashRuns.Reach down := .init rfl
  exact ⟨(hdown.step step_start).step (step_record 1), by decide +kernel⟩

end CrashSample

end Kavora.Ledger
