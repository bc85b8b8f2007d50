import Kavora.Ledger.Written

/-!
# Readers of the journal (`_read_jsonl` in `planner/`)

The evaluation of experiments and the fit of the predictor read the journal that the gateway
writes. Both split a file into lines with `splitlines`.

* `readJsonl`: the two readers.
* `readers_read_journal_iff`: they read the records that were appended unless a string of one of
  them has a U+0085, which ends a line for them and which the gateway does not escape.
-/

namespace Kavora.Planner

open Lib Lib.Go Ledger

/-- The readers of the journal. -/
inductive Reader where
  /-- `policy_evaluation.py`, which skips values that are no objects. -/
  | evaluation
  /-- `ttft_predictor.py`, which fails on them. -/
  | predictor
  deriving DecidableEq, Repr

/-- The value is a dict. -/
def isDict : Json → Bool
  | .object _ => true
  | _ => false

/-- The values of the lines of a file. -/
def readValues (content : Bytes) : Option (List Json) :=
  (Utf8.decode content).bind Json.readLines

/-- `_read_jsonl` on the contents of some files. -/
def readJsonl (reader : Reader) (contents : List Bytes) : Option (List Json) :=
  match contents.mapM readValues with
  | none => none
  | some values =>
    match reader with
    | .evaluation => some (values.flatten.filter isDict)
    | .predictor => if values.flatten.all isDict then some values.flatten else none

/-- `sorted(root.glob(f"{kind}-*.jsonl"))`, with the contents of the files. -/
def journalFiles (directory : Directory) (kind : String) : List Bytes :=
  (directory.glob kind).map fun p => directory.index p []

/-! ## Files of printed objects -/

/-- No string and no name of a document has a U+0085. -/
def Unbroken (doc : Json) : Prop := Json.nextLine ∉ doc.chars

instance (doc : Json) : Decidable (Unbroken doc) := inferInstanceAs (Decidable (_ ∉ _))

theorem readValues_jsonl {docs : List Json} (h : Json.IsJsonl docs) :
    readValues (Utf8.encode (Json.jsonl docs)) =
      if ∀ doc ∈ docs, Unbroken doc then some docs else none := by
  unfold readValues
  rw [Utf8.decode_encode]
  exact Json.readLines_eq h

theorem mapM_readValues {paths : List String} {content : String → Bytes}
    {docs : String → List Json} (hcontent : ∀ p ∈ paths, content p = Utf8.encode (Json.jsonl (docs p)))
    (hdocs : ∀ p ∈ paths, Json.IsJsonl (docs p)) :
    (paths.map content).mapM readValues =
      if ∀ doc ∈ paths.flatMap docs, Unbroken doc then some (paths.map docs) else none := by
  induction paths with
  | nil => rfl
  | cons p paths ih =>
    obtain ⟨hp, hpaths⟩ := List.forall_mem_cons.mp hcontent
    obtain ⟨hpdocs, hpathsdocs⟩ := List.forall_mem_cons.mp hdocs
    rw [List.map_cons, List.mapM_cons, hp, readValues_jsonl hpdocs, ih hpaths hpathsdocs]
    simp only [List.flatMap_cons, List.forall_mem_append, List.map_cons]
    by_cases hfirst : ∀ doc ∈ docs p, Unbroken doc
    · by_cases hrest : ∀ doc ∈ paths.flatMap docs, Unbroken doc
      · rw [if_pos hfirst, if_pos hrest, if_pos ⟨hfirst, hrest⟩]
        rfl
      · rw [if_pos hfirst, if_neg hrest, if_neg fun h => hrest h.2]
        rfl
    · have hnot : ¬ ((∀ doc ∈ docs p, Unbroken doc) ∧ ∀ doc ∈ paths.flatMap docs, Unbroken doc) :=
        fun h => hfirst h.1
      rw [if_neg hfirst, if_neg hnot]
      rfl

theorem isDict_of_isJsonl {docs : List Json} (h : Json.IsJsonl docs) : ∀ doc ∈ docs, isDict doc := by
  intro doc hdoc
  obtain ⟨-, members, rfl⟩ := h doc hdoc
  rfl

/-- What the readers make of the files of a kind. -/
theorem readJsonl_journal {α : Type} [Marshal α] {read : α → α} (hread : ReadsBack read)
    {directory : Directory} {kind : String} {values : String → List α} {docs : String → List Json}
    (h : directory.Written kind values docs) (reader : Reader) :
    readJsonl reader (journalFiles directory kind) =
      if ∀ doc ∈ (directory.glob kind).flatMap docs, Unbroken doc then
        ((directory.glob kind).flatMap values).mapM Marshal.marshal
      else none := by
  have hjsonl : Json.IsJsonl ((directory.glob kind).flatMap docs) := h.documents_glob.isJsonl hread
  have hall : ((directory.glob kind).flatMap docs).all isDict = true :=
    List.all_eq_true.mpr (isDict_of_isJsonl hjsonl)
  unfold readJsonl journalFiles
  rw [mapM_readValues h.content fun p _ => (h.documents p).isJsonl hread, h.documents_glob.mapM]
  by_cases hunbroken : ∀ doc ∈ (directory.glob kind).flatMap docs, Unbroken doc
  · rw [if_pos hunbroken, if_pos hunbroken]
    have hflatten : ((directory.glob kind).map docs).flatten = (directory.glob kind).flatMap docs :=
      rfl
    cases reader with
    | evaluation =>
      simp only [hflatten]
      rw [List.filter_eq_self.mpr (isDict_of_isJsonl hjsonl)]
    | predictor => simp only [hflatten, hall, if_true]
  · rw [if_neg hunbroken, if_neg hunbroken]

/-! ## Runs -/

section

variable {F : Type} [Float64 F] [FloatText F]

/-- The records of a kind in the order of the names of their files. -/
def inFileOrder {α : Type} (directory : Directory) (kind : String) (values : String → List α) :
    List α := (directory.glob kind).flatMap values

/-- A reader returns one object for each appended record. -/
def ReadsJournal (reader : Reader) (s : CrashState F) : Prop :=
  readJsonl reader (journalFiles s.directory "decisions") =
    (inFileOrder s.directory "decisions" s.decisions).mapM Marshal.marshal ∧
  readJsonl reader (journalFiles s.directory "outcomes") =
    (inFileOrder s.directory "outcomes" s.outcomes).mapM Marshal.marshal

/-- No string of a record has a U+0085. -/
def UnbrokenRecord {α : Type} [Marshal α] (a : α) : Prop := ∀ doc ∈ Marshal.marshal a, Unbroken doc

instance {α : Type} [Marshal α] (a : α) : Decidable (UnbrokenRecord a) :=
  inferInstanceAs (Decidable (∀ doc ∈ Marshal.marshal a, _))

/-- All documents are unbroken if all values are. -/
theorem unbroken_documents {α : Type} [Marshal α] {values : List α} {docs : List Json}
    (h : Documents values docs) :
    (∀ doc ∈ docs, Unbroken doc) ↔ ∀ a ∈ values, UnbrokenRecord a := by
  induction h with
  | nil => simp
  | @cons a doc values docs hdoc _ ih =>
    have hhead : UnbrokenRecord a ↔ Unbroken doc := by
      unfold UnbrokenRecord
      rw [hdoc]
      simp
    rw [List.forall_mem_cons, List.forall_mem_cons, hhead, ih]

/-- Every record is of a file of the journal. -/
theorem mem_inFileOrder {α : Type} [Marshal α] {directory : Directory} {kind : String}
    {values : String → List α} {docs : String → List Json}
    (h : directory.Written kind values docs) {a : α} :
    a ∈ inFileOrder directory kind values ↔ ∃ p, a ∈ values p := by
  unfold inFileOrder
  rw [List.mem_flatMap]
  constructor
  · rintro ⟨p, -, ha⟩
    exact ⟨p, ha⟩
  · rintro ⟨p, ha⟩
    exact ⟨p, h.listed p (List.ne_nil_of_mem ha), ha⟩

theorem readJsonl_eq_iff {α : Type} [Marshal α] {read : α → α} (hread : ReadsBack read)
    {directory : Directory} {kind : String} {values : String → List α} {docs : String → List Json}
    (h : directory.Written kind values docs) (reader : Reader) :
    readJsonl reader (journalFiles directory kind) =
        (inFileOrder directory kind values).mapM Marshal.marshal ↔
      ∀ p, ∀ a ∈ values p, UnbrokenRecord a := by
  have hunbroken : (∀ doc ∈ (directory.glob kind).flatMap docs, Unbroken doc) ↔
      ∀ p, ∀ a ∈ values p, UnbrokenRecord a := by
    rw [unbroken_documents h.documents_glob]
    constructor
    · intro hall p a ha
      exact hall a ((mem_inFileOrder h).mpr ⟨p, ha⟩)
    · intro hall a ha
      obtain ⟨p, ha⟩ := (mem_inFileOrder h).mp ha
      exact hall p a ha
  rw [readJsonl_journal hread h, ← hunbroken]
  unfold inFileOrder
  rw [h.documents_glob.mapM]
  by_cases hall : ∀ doc ∈ (directory.glob kind).flatMap docs, Unbroken doc
  · rw [if_pos hall]
    exact ⟨fun _ => hall, fun _ => rfl⟩
  · rw [if_neg hall]
    exact ⟨nofun, fun h => absurd h hall⟩

/-- **Both readers read the journal** if and only if no string of an appended record has a
U+0085. -/
theorem readers_read_journal_iff [LawfulFloatText F] {s : CrashState F}
    (hs : (crashRuns.restrict AppendsAll).Reach s) (reader : Reader) :
    ReadsJournal reader s ↔
      (∀ p, ∀ d ∈ s.decisions p, UnbrokenRecord d) ∧ ∀ p, ∀ o ∈ s.outcomes p, UnbrokenRecord o := by
  obtain ⟨⟨decisionDocs, hdecisions⟩, outcomeDocs, houtcomes⟩ := WrittenInv.inductive_inv.reach hs
  unfold ReadsJournal
  rw [readJsonl_eq_iff readsBack_decision hdecisions, readJsonl_eq_iff readsBack_outcome houtcomes]

end

namespace ReaderSample

open JournalSample (number decision lastDay)
open CrashSample (down up step_start)

attribute [local instance] number integerText

local instance : LawfulFloatText Rat := integerText_lawful

/-- The gateway records a decision for a tenant. -/
def recordFor (tenant : String) : CrashState Rat :=
  let d : Decision Rat := { decision "a" with tenantID := tenant }
  let ledger : DecisionLedger Rat := .new 0 true
  let result := ledger.record ∅ lastDay (.wrote maxLine) d
  { ledger := afterCall result.1
    directory := result.2
    decisions :=
      if RecordWrites ledger d ∧ Completes d maxLine then
        addTo (fun _ => []) (path "decisions" lastDay) d
      else fun _ => []
    outcomes := fun _ => [] }

theorem reach_recordFor (tenant : String)
    (h : AppendsWhole { decision "a" with tenantID := tenant } maxLine) :
    (crashRuns.restrict AppendsAll).Reach (recordFor tenant) := by
  have hdown : (crashRuns.restrict AppendsAll).Reach down := .init rfl
  have hup : (crashRuns.restrict AppendsAll).Reach up := hdown.step ⟨step_start, trivial⟩
  have hstep : crashRuns.step up
      (.record { decision "a" with tenantID := tenant } lastDay maxLine) (recordFor tenant) :=
    ⟨.new 0 true, rfl, rfl⟩
  exact hup.step ⟨hstep, fun _ _ _ => h⟩

/-- No record of a state has a string with a U+0085. -/
def UnbrokenRecords (s : CrashState Rat) : Prop :=
  (∀ p, ∀ d ∈ s.decisions p, UnbrokenRecord d) ∧ ∀ p, ∀ o ∈ s.outcomes p, UnbrokenRecord o

theorem unbroken_addTo {α : Type} [Marshal α] {values : String → List α} {p : String} {a : α}
    (h : ∀ q, ∀ b ∈ values q, UnbrokenRecord b) (ha : UnbrokenRecord a) :
    ∀ q, ∀ b ∈ addTo values p a q, UnbrokenRecord b := by
  intro q b hb
  by_cases hq : q = p
  · subst hq
    rw [addTo, Function.update_self] at hb
    rcases List.mem_append.mp hb with hold | hnew
    · exact h q b hold
    · rw [List.mem_singleton.mp hnew]
      exact ha
  · rw [addTo, Function.update_of_ne hq] at hb
    exact h q b hb

theorem unbroken_record {s : CrashState Rat} (h : UnbrokenRecords s) (now : Time)
    {d : Decision Rat} (hd : UnbrokenRecord d) : UnbrokenRecords (s.record now d) := by
  unfold CrashState.record
  cases s.ledger with
  | none => exact h
  | some ledger =>
    refine ⟨?_, h.2⟩
    dsimp only
    split
    · exact unbroken_addTo h.1 hd
    · exact h.1

theorem unbroken_recordOutcome {s : CrashState Rat} (h : UnbrokenRecords s) (now : Time)
    {o : DecisionOutcome Rat} (ho : UnbrokenRecord o) : UnbrokenRecords (s.recordOutcome now o) := by
  unfold CrashState.recordOutcome
  cases s.ledger with
  | none => exact h
  | some ledger =>
    refine ⟨h.1, ?_⟩
    dsimp only
    split
    · exact unbroken_addTo h.2 ho
    · exact h.2

/-- The name has a U+2028, which ends a line for the readers, too, but which the gateway escapes. -/
def first : Decision Rat := { decision "a" with tenantID := "ac\u2028me" }

def second : Decision Rat := { decision "b" with tenantID := "acme" }

def answered : DecisionOutcome Rat :=
  { DecisionOutcome.zero with requestID := "a", actualBackend := "b1" }

/-- Decisions of two days, and an outcome. -/
def journal : CrashState Rat :=
  ((up.record 0 first).record lastDay second).recordOutcome lastDay answered

theorem reach_journal : (crashRuns.restrict AppendsAll).Reach journal := by
  have hdown : (crashRuns.restrict AppendsAll).Reach down := .init rfl
  have hup : (crashRuns.restrict AppendsAll).Reach up := hdown.step ⟨step_start, trivial⟩
  have hfirst : (crashRuns.restrict AppendsAll).Reach (up.record 0 first) :=
    CrashState.reach_record hup fun _ _ _ => appendsWhole _
  have hsecond : (crashRuns.restrict AppendsAll).Reach
      ((up.record 0 first).record lastDay second) :=
    CrashState.reach_record hfirst fun _ _ _ => appendsWhole _
  exact CrashState.reach_recordOutcome hsecond fun _ _ _ => appendsWhole _

/-- Both readers return the records of both days. -/
theorem readers_read_journal_of_two_days :
    (inFileOrder journal.directory "decisions" journal.decisions).map (·.tenantID) =
        ["ac\u2028me", "acme"] ∧
      (inFileOrder journal.directory "outcomes" journal.outcomes).map (·.requestID) = ["a"] ∧
      ∀ reader, ReadsJournal reader journal := by
  have hup : UnbrokenRecords up := ⟨fun _ _ => nofun, fun _ _ => nofun⟩
  have hfirst : UnbrokenRecord first := by decide +kernel
  have hsecond : UnbrokenRecord second := by decide +kernel
  have hanswered : UnbrokenRecord answered := by decide +kernel
  have hjournal : UnbrokenRecords journal :=
    unbroken_recordOutcome (unbroken_record (unbroken_record hup 0 hfirst) lastDay hsecond) lastDay
      hanswered
  exact ⟨by decide +kernel, by decide +kernel, fun reader =>
    (readers_read_journal_iff reach_journal reader).mpr hjournal⟩

/-- A tenant whose name has a U+0085: no reader reads the journal any more. -/
theorem next_line_breaks_readers :
    (crashRuns.restrict AppendsAll).Reach (recordFor "ac\u0085me") ∧
      ∀ reader, readJsonl reader
        (journalFiles (recordFor "ac\u0085me").directory "decisions") = none := by
  refine ⟨reach_recordFor _ (by decide +kernel), fun reader => ?_⟩
  have hnone : (journalFiles (recordFor "ac\u0085me").directory "decisions").mapM readValues =
      none := by
    refine Option.isNone_iff_eq_none.mp ?_
    decide +kernel
  unfold readJsonl
  rw [hnone]

end ReaderSample

end Kavora.Planner
