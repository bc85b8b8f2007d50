import Kavora.Ledger.Replay

/-!
# A reopened ledger equals the live one

* `journalRuns`: calls on a ledger whose writes succeed, and reopenings of its journal.
* `JournalInv`: the ledger is what its journal restores.
* `reopened_ledger_eq_live`: after any run whose days have years of four digits, a reopened ledger
  has the same entries in the same order.
-/

namespace Kavora.Ledger

open Lib Lib.Go

variable {F : Type}

/-! ## Writes that succeed -/

/-- A write that succeeds adds the line of the value. -/
theorem Directory.append_none {α : Type} [Marshal α] {directory : Directory} {p : String} {a : α}
    {write : FileWrite} (h : (directory.append p a write).2 = none) :
    ∃ doc, Marshal.marshal a = some doc ∧
      directory.append p a write =
        (AList.insert p (directory.index p [] ++ lineOf doc) directory, none) := by
  cases hdoc : Marshal.marshal a with
  | none =>
    simp only [Directory.append, hdoc] at h
    cases h
  | some doc =>
    refine ⟨doc, rfl, ?_⟩
    cases write with
    | notOpened =>
      simp only [Directory.append, hdoc] at h
      cases h
    | wrote n =>
      simp only [Directory.append, hdoc] at h ⊢
      have hn : ¬ n < (lineOf doc).length := by
        intro hn
        rw [if_pos hn] at h
        cases h
      rw [if_neg hn, List.take_of_length_le (not_lt.mp hn)]

namespace DecisionLedger

theorem journalAppend_none {α : Type} [Marshal α] {ledger : DecisionLedger F}
    {directory : Directory} {p : String} {a : α} {write : FileWrite}
    (hjournal : ledger.journal = true) (herr : ledger.err = none)
    (h : (ledger.journalAppend directory p a write).1.err = none) :
    ∃ doc, Marshal.marshal a = some doc ∧
      ledger.journalAppend directory p a write =
        (ledger, AList.insert p (directory.index p [] ++ lineOf doc) directory) := by
  unfold journalAppend at h ⊢
  rw [if_pos ⟨hjournal, herr⟩] at h ⊢
  obtain ⟨doc, hdoc, happend⟩ := Directory.append_none h
  refine ⟨doc, hdoc, ?_⟩
  rw [happend, ← herr]

theorem recordLocked_entries {ledger : DecisionLedger F} {d : Decision F} {id : String}
    (h : ((ledger.recordLocked d).entries id).isSome) :
    id = d.requestID ∨ (ledger.entries id).isSome := by
  have hevict : ∀ (order : List String) (entries : String → Option (Decision F)),
      ((evict ledger.max order entries).2 id).isSome → (entries id).isSome := by
    intro order
    induction order with
    | nil => exact fun entries h => h
    | cons k order ih =>
      intro entries h
      rw [evict] at h
      split at h
      · have hsome := ih _ h
        by_cases hk : id = k
        · subst hk
          rw [Function.update_self] at hsome
          cases hsome
        · rwa [Function.update_of_ne hk] at hsome
      · exact h
  have hsome := hevict _ _ h
  by_cases hid : id = d.requestID
  · exact .inl hid
  · rw [Function.update_of_ne hid] at hsome
    exact .inr hsome

theorem recordOutcomeLocked_some [Float64 F] {ledger ledger' : DecisionLedger F} {o : DecisionOutcome F}
    (h : ledger.recordOutcomeLocked o = some ledger') :
    (ledger.entries o.requestID).isSome ∧ ledger' = ledger.applyOutcome o := by
  have happly : ledger.applyOutcome o = ledger' := by
    unfold applyOutcome
    rw [h]
    rfl
  obtain ⟨d, hd, -⟩ := Option.map_eq_some_iff.mp h
  exact ⟨by rw [hd]; rfl, happly.symm⟩

theorem applyOutcome_entries [Float64 F] {ledger : DecisionLedger F} {o : DecisionOutcome F} {id : String}
    (h : ((ledger.applyOutcome o).entries id).isSome) : (ledger.entries id).isSome := by
  rw [applyOutcome_eq] at h
  by_cases hid : id = o.requestID
  · subst hid
    simpa [modifyEntry] using h
  · have hsome : (modifyEntry o.requestID (Decision.withOutcome o) ledger.entries id).isSome := h
    rwa [modifyEntry_ne hid] at hsome

end DecisionLedger

/-! ## Runs -/

variable [Float64 F] [FloatText F]

/-- A call with the time that dates its file and what the system does with its write. -/
inductive JournalCall (F : Type) where
  | record (decision : Decision F) (now : Time) (write : FileWrite)
  | recordOutcome (outcome : DecisionOutcome F) (now : Time) (write : FileWrite)
  | reopen

/-- The file that a call writes is of a year of four digits. -/
def JournalCall.FourDigits : JournalCall F → Prop
  | .record _ now _ => Ledger.FourDigits now
  | .recordOutcome _ now _ => Ledger.FourDigits now
  | .reopen => True

/-- A ledger with a journal, in a run without crashes. -/
structure JournalState (F : Type) where
  ledger : DecisionLedger F
  directory : Directory
  /-- The requests that were recorded. -/
  recorded : List String
  /-- The time of the last call. -/
  clock : Time

/-- The line of a value fits in the buffer of the reader. -/
def FitsLine {α : Type} [Marshal α] (a : α) : Prop :=
  ∀ doc ∈ Marshal.marshal a, (Utf8.encode doc.print).length < maxLine

instance {α : Type} [Marshal α] (a : α) : Decidable (FitsLine a) :=
  inferInstanceAs (Decidable (∀ doc ∈ Marshal.marshal a, _))

/-- Runs in which no request is recorded twice, no write fails, no line is too long and the clock
does not go backwards. -/
def journalRuns (max : Int) : System (JournalState F) (JournalCall F) where
  init s := s.ledger = .new max true ∧ s.directory = ∅ ∧ s.recorded = []
  step s call s' :=
    match call with
    | .record decision now write =>
      let result := s.ledger.record s.directory now write decision
      s.clock ≤ now ∧ decision.requestID ∉ s.recorded ∧ FitsLine decision ∧ result.1.err = none ∧
        s' =
          { ledger := result.1
            directory := result.2
            recorded := decision.requestID :: s.recorded
            clock := now }
    | .recordOutcome outcome now write =>
      let result := s.ledger.recordOutcome s.directory now write outcome
      s.clock ≤ now ∧ FitsLine outcome ∧ result.1.err = none ∧
        s' = { s with ledger := result.1, directory := result.2, clock := now }
    | .reopen => ∃ ledger, DecisionLedger.reopen max s.directory = some ledger ∧ s' = { s with ledger }

/-! ## The invariant -/

/-- The ledger is what its journal restores from `decisions` and `outcomes`. -/
structure JournalInv (max : Int) (s : JournalState F) (decisions : List (Decision F))
    (outcomes : List (DecisionOutcome F)) (decisionFiles : String → List (Decision F))
    (outcomeFiles : String → List (DecisionOutcome F)) : Prop where
  journal : s.ledger.journal = true
  err : s.ledger.err = none
  decided : Chronicle s.directory "decisions" s.clock decisions decisionFiles
  completed : Chronicle s.directory "outcomes" s.clock outcomes outcomeFiles
  known : ∀ o ∈ outcomes, o.requestID ∈ s.recorded
  entries : ∀ id, (s.ledger.entries id).isSome → id ∈ s.recorded
  ledger : s.ledger.normal = .restore max decisions outcomes

namespace JournalInv

open DecisionLedger

variable {max : Int} {s s' : JournalState F} {decisions : List (Decision F)}
  {outcomes : List (DecisionOutcome F)} {decisionFiles : String → List (Decision F)}
  {outcomeFiles : String → List (DecisionOutcome F)}

theorem init (h : (journalRuns max).init s) :
    JournalInv max s [] [] (fun _ => []) fun _ => [] := by
  obtain ⟨hledger, hdirectory, -⟩ := h
  refine ⟨?_, ?_, ?_, ?_, nofun, ?_, ?_⟩
  · rw [hledger]
    rfl
  · rw [hledger]
    rfl
  · rw [hdirectory]
    exact .empty _ _
  · rw [hdirectory]
    exact .empty _ _
  · intro id hid
    rw [hledger] at hid
    cases hid
  · rw [hledger]
    rfl

theorem record (h : JournalInv max s decisions outcomes decisionFiles outcomeFiles)
    {decision : Decision F} {now : Time} {write : FileWrite} (hnow : FourDigits now)
    (hstep : (journalRuns max).step s (.record decision now write) s') :
    ∃ decisions decisionFiles, JournalInv max s' decisions outcomes decisionFiles outcomeFiles := by
  obtain ⟨hclock, hfresh, hfits, herr, hs'⟩ := hstep
  by_cases hid : decision.requestID = ""
  · have hsame : s.ledger.record s.directory now write decision = (s.ledger, s.directory) :=
      if_pos hid
    rw [hsame] at hs'
    subst hs'
    exact ⟨decisions, decisionFiles, h.journal, h.err, h.decided.advance hclock,
      h.completed.advance hclock, fun o ho => List.mem_cons_of_mem _ (h.known o ho),
      fun id hentry => List.mem_cons_of_mem _ (h.entries id hentry), h.ledger⟩
  · have hrecord : s.ledger.record s.directory now write decision =
        (s.ledger.recordLocked decision).journalAppend s.directory (path "decisions" now)
          decision write := if_neg hid
    have hjournal : (s.ledger.recordLocked decision).journal = true := h.journal
    have herr' : (s.ledger.recordLocked decision).err = none := h.err
    rw [hrecord] at herr
    obtain ⟨doc, hdoc, happend⟩ := journalAppend_none hjournal herr' herr
    rw [hrecord, happend] at hs'
    subst hs'
    refine ⟨decisions ++ [decision], _, h.journal, h.err,
      h.decided.append hclock hnow hdoc (hfits doc hdoc),
      (h.completed.advance hclock).frame (matchesKind_decisions now) _,
      fun o ho => List.mem_cons_of_mem _ (h.known o ho), fun id hentry => ?_, ?_⟩
    · rcases recordLocked_entries hentry with rfl | hentry
      · exact List.mem_cons_self
      · exact List.mem_cons_of_mem _ (h.entries id hentry)
    · have hothers : ∀ o ∈ outcomes, decision.requestID ≠ o.requestID := fun o ho heq =>
        hfresh (heq ▸ h.known o ho)
      rw [normal_recordLocked, h.ledger, restore_decision max decisions hothers]

theorem recordOutcome (h : JournalInv max s decisions outcomes decisionFiles outcomeFiles)
    {outcome : DecisionOutcome F} {now : Time} {write : FileWrite} (hnow : FourDigits now)
    (hstep : (journalRuns max).step s (.recordOutcome outcome now write) s') :
    ∃ outcomes outcomeFiles, JournalInv max s' decisions outcomes decisionFiles outcomeFiles := by
  obtain ⟨hclock, hfits, herr, hs'⟩ := hstep
  have hignored (hsame : s.ledger.recordOutcome s.directory now write outcome =
      (s.ledger, s.directory)) : ∃ outcomes outcomeFiles,
        JournalInv max s' decisions outcomes decisionFiles outcomeFiles := by
    rw [hsame] at hs'
    subst hs'
    exact ⟨outcomes, outcomeFiles, h.journal, h.err, h.decided.advance hclock,
      h.completed.advance hclock, h.known, h.entries, h.ledger⟩
  by_cases hid : outcome.requestID = ""
  · exact hignored (if_pos hid)
  cases hfound : s.ledger.recordOutcomeLocked outcome with
  | none =>
    refine hignored ?_
    unfold DecisionLedger.recordOutcome
    rw [if_neg hid, hfound]
  | some ledger =>
    obtain ⟨hentry, rfl⟩ := recordOutcomeLocked_some hfound
    have hrecord : s.ledger.recordOutcome s.directory now write outcome =
        (s.ledger.applyOutcome outcome).journalAppend s.directory (path "outcomes" now)
          outcome write := by
      unfold DecisionLedger.recordOutcome
      rw [if_neg hid, hfound]
    have hjournal : (s.ledger.applyOutcome outcome).journal = true := by
      rw [applyOutcome_eq]
      exact h.journal
    have herr' : (s.ledger.applyOutcome outcome).err = none := by
      rw [applyOutcome_eq]
      exact h.err
    rw [hrecord] at herr
    obtain ⟨doc, hdoc, happend⟩ := journalAppend_none hjournal herr' herr
    rw [hrecord, happend] at hs'
    subst hs'
    refine ⟨outcomes ++ [outcome], _, hjournal, herr',
      (h.decided.advance hclock).frame (matchesKind_outcomes now) _,
      h.completed.append hclock hnow hdoc (hfits doc hdoc), fun o ho => ?_,
      fun id hid => h.entries id (applyOutcome_entries hid), ?_⟩
    · rcases List.mem_append.mp ho with ho | ho
      · exact h.known o ho
      · rw [List.mem_singleton.mp ho]
        exact h.entries _ hentry
    · rw [normal_applyOutcome, h.ledger, restore_outcome]

variable [LawfulFloatText F]

/-- The journal can be reopened. -/
theorem reopen_eq (h : JournalInv max s decisions outcomes decisionFiles outcomeFiles) :
    reopen max s.directory = some (.restore max decisions outcomes) := by
  rw [DecisionLedger.reopen_eq h.decided.holds h.completed.holds, h.decided.history_eq,
    h.completed.history_eq]

theorem reopen (h : JournalInv max s decisions outcomes decisionFiles outcomeFiles)
    (hstep : (journalRuns max).step s .reopen s') :
    JournalInv max s' decisions outcomes decisionFiles outcomeFiles := by
  obtain ⟨ledger, hledger, rfl⟩ := hstep
  rw [h.reopen_eq] at hledger
  cases hledger
  refine ⟨?_, ?_, h.decided, h.completed, h.known, fun id hid => h.entries id ?_,
    normal_restore max decisions outcomes⟩
  · rw [← h.ledger]
    exact h.journal
  · rw [← h.ledger]
    exact h.err
  · rw [← h.ledger] at hid
    simpa [normal] using hid

/-- The invariant of the runs. -/
theorem inductive_inv (max : Int) :
    ((journalRuns max).restrict fun _ call => call.FourDigits).Inductive fun s : JournalState F =>
      ∃ decisions outcomes decisionFiles outcomeFiles,
        JournalInv max s decisions outcomes decisionFiles outcomeFiles where
  init s hs := ⟨[], [], _, _, .init hs⟩
  step s call s' h hstep := by
    obtain ⟨decisions, outcomes, decisionFiles, outcomeFiles, h⟩ := h
    obtain ⟨hstep, hdigits⟩ := hstep
    cases call with
    | record decision now write =>
      obtain ⟨decisions, decisionFiles, h⟩ := h.record hdigits hstep
      exact ⟨_, _, _, _, h⟩
    | recordOutcome outcome now write =>
      obtain ⟨outcomes, outcomeFiles, h⟩ := h.recordOutcome hdigits hstep
      exact ⟨_, _, _, _, h⟩
    | reopen => exact ⟨_, _, _, _, h.reopen hstep⟩

end JournalInv

/-- **A reopened ledger equals the live one.** It has the same requests in the same order, and each
of them with the same decision, outcome and prediction error. -/
theorem reopened_ledger_eq_live [LawfulFloatText F] {max : Int} {s : JournalState F}
    (hs : ((journalRuns max).restrict fun _ call => call.FourDigits).Reach s) :
    ∃ ledger : DecisionLedger F, DecisionLedger.reopen max s.directory = some ledger ∧
      ledger.order = s.ledger.order ∧
      ∀ id, ledger.entries id = (s.ledger.entries id).map Decision.normal := by
  obtain ⟨decisions, outcomes, _, _, h⟩ := (JournalInv.inductive_inv max).reach hs
  refine ⟨_, h.reopen_eq, ?_, fun id => ?_⟩
  · rw [← h.ledger]
    rfl
  · rw [← h.ledger]
    rfl

namespace JournalSample

@[reducible]
def number : Float64 Rat := .rational fun _ => 1

attribute [local instance] number integerText

local instance : LawfulFloatText Rat := integerText_lawful

def decision (id : String) : Decision Rat := { Decision.zero with requestID := id }

/-- The end of the last day of the year 9999. -/
def lastDay : Time := 253402300799999999999

def start : JournalState Rat where
  ledger := .new 0 true
  directory := ∅
  recorded := []
  clock := lastDay

/-- A decision is recorded at a time. -/
def recordAt (s : JournalState Rat) (id : String) (now : Time) : JournalState Rat :=
  let result := s.ledger.record s.directory now (.wrote maxLine) (decision id)
  { ledger := result.1
    directory := result.2
    recorded := id :: s.recorded
    clock := now }

def outcome (id : String) : DecisionOutcome Rat :=
  { DecisionOutcome.zero with requestID := id, actualBackend := "b1", statusCode := 200 }

/-- An outcome is recorded at a time. -/
def outcomeAt (s : JournalState Rat) (id : String) (now : Time) : JournalState Rat :=
  let result := s.ledger.recordOutcome s.directory now (.wrote maxLine) (outcome id)
  { s with ledger := result.1, directory := result.2, clock := now }

/-- A ledger that keeps one request. -/
def single : JournalState Rat := { start with ledger := .new 1 true }

/-- The second request evicts the first one and is answered. -/
def evicted : JournalState Rat :=
  outcomeAt (recordAt (recordAt single "a" lastDay) "b" lastDay) "b" lastDay

theorem reach_evicted :
    ((journalRuns 1).restrict fun _ call => call.FourDigits).Reach evicted := by
  have hdigits : FourDigits lastDay := by decide
  have hstart : ((journalRuns 1).restrict fun _ call => call.FourDigits).Reach single :=
    .init ⟨rfl, rfl, rfl⟩
  have hfirst : (journalRuns 1).step single (.record (decision "a") lastDay (.wrote maxLine))
      (recordAt single "a" lastDay) :=
    ⟨le_refl _, by decide, by decide +kernel, by decide +kernel, rfl⟩
  have hsecond : (journalRuns 1).step (recordAt single "a" lastDay)
      (.record (decision "b") lastDay (.wrote maxLine))
      (recordAt (recordAt single "a" lastDay) "b" lastDay) :=
    ⟨le_refl _, by decide, by decide +kernel, by decide +kernel, rfl⟩
  have hthird : (journalRuns 1).step (recordAt (recordAt single "a" lastDay) "b" lastDay)
      (.recordOutcome (outcome "b") lastDay (.wrote maxLine)) evicted :=
    ⟨le_refl _, by decide +kernel, by decide +kernel, rfl⟩
  exact ((hstart.step ⟨hfirst, hdigits⟩).step ⟨hsecond, hdigits⟩).step ⟨hthird, hdigits⟩

/-- A ledger is reopened twice after an eviction and an outcome. -/
theorem reopened_ledger_eq_live_evicted : ∃ s : JournalState Rat,
    s.ledger.order = ["b"] ∧ s.ledger.entries "a" = none ∧
    ((s.ledger.entries "b").bind (·.outcome)).map (·.actualBackend) = some "b1" ∧
    ∃ ledger : DecisionLedger Rat, DecisionLedger.reopen 1 s.directory = some ledger ∧
      ledger.order = s.ledger.order ∧
      ∀ id, ledger.entries id = (s.ledger.entries id).map Decision.normal := by
  obtain ⟨ledger, hreopen, horder, hentries⟩ := reopened_ledger_eq_live reach_evicted
  have hstep : (journalRuns 1).step evicted .reopen { evicted with ledger } :=
    ⟨ledger, hreopen, rfl⟩
  refine ⟨{ evicted with ledger }, ?_, ?_, ?_,
    reopened_ledger_eq_live (reach_evicted.step ⟨hstep, trivial⟩)⟩
  · rw [horder]
    decide +kernel
  · rw [hentries]
    have hnone : (evicted.ledger.entries "a").isNone := by decide +kernel
    rw [Option.isNone_iff_eq_none.mp hnone]
    rfl
  · rw [hentries]
    decide +kernel

theorem step_first : (journalRuns 0).step start (.record (decision "a") lastDay (.wrote maxLine))
    (recordAt start "a" lastDay) :=
  ⟨le_refl _, by decide, by decide +kernel, by decide +kernel, rfl⟩

theorem step_second : (journalRuns 0).step (recordAt start "a" lastDay)
    (.record (decision "b") (lastDay + 1) (.wrote maxLine))
    (recordAt (recordAt start "a" lastDay) "b" (lastDay + 1)) :=
  ⟨by decide, by decide, by decide +kernel, by decide +kernel, rfl⟩

/-- The files of the years 9999 and 10000 are replayed in the wrong order. -/
theorem year_10000_replayed_first : ∃ s : JournalState Rat, (journalRuns 0).Reach s ∧
    s.ledger.order = ["a", "b"] ∧
    (DecisionLedger.reopen 0 s.directory).map (fun ledger : DecisionLedger Rat => ledger.order) =
      some ["b", "a"] := by
  refine ⟨recordAt (recordAt start "a" lastDay) "b" (lastDay + 1), ?_, by decide +kernel,
    by decide +kernel⟩
  have hstart : (journalRuns 0).Reach start := .init ⟨rfl, rfl, rfl⟩
  exact (hstart.step step_first).step step_second

end JournalSample

end Kavora.Ledger
