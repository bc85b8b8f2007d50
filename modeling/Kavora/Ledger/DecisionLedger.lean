import Mathlib.Logic.Function.Basic
import Kavora.Ledger.Records
import Kavora.Lib.Lines

/-!
# The decision ledger and its journal (`gateway/internal/router/ledger.go`)

The ledger keeps the last decisions with their outcomes. A ledger with a journal appends each
decision and each outcome to a file of the day, and is rebuilt from these files.

* `DecisionLedger.record`, `DecisionLedger.recordOutcome`: the operations with their writes.
* `DecisionLedger.recent`: the last decisions.
* `DecisionLedger.reopen`: `NewDecisionLedgerWithJournal` on the files of a directory.
-/

namespace Kavora.Ledger

open Lib Lib.Go
open Float64 (ofInt)

/-! ## The journal -/

/-- The files of the journal's directory. -/
abbrev Directory := Map String Bytes

/-- Why a record is not in the journal. -/
inductive JournalError where
  | marshal | openFile | write
  deriving DecidableEq, Repr

/-- What the system does with a write: the file is not opened, or so many bytes reach it. -/
inductive FileWrite where
  | notOpened
  | wrote (n : Nat)
  deriving DecidableEq, Repr

/-- The file of a kind of records for the day of a time. -/
def path (kind : String) (now : Time) : String :=
  .ofList ((kind ++ "-").toList ++ Time.dateText now ++ ".jsonl".toList)

/-- The line of a document. -/
def lineOf (doc : Json) : Bytes := Utf8.encode doc.print ++ [lf]

/-- Appends the line of a value to a file, as far as the system writes it. -/
def Directory.append {α : Type} [Marshal α] (directory : Directory) (path : String) (value : α)
    (write : FileWrite) : Directory × Option JournalError :=
  match Marshal.marshal value with
  | none => (directory, some .marshal)
  | some doc =>
    match write with
    | .notOpened => (directory, some .openFile)
    | .wrote n =>
      (directory.insert path (directory.index path [] ++ (lineOf doc).take n),
        if n < (lineOf doc).length then some .write else none)

/-- Whether a name matches `kind-*.jsonl`. -/
def matchesKind (kind name : String) : Bool :=
  let start := (kind ++ "-").toList
  start.isPrefixOf name.toList && ".jsonl".toList.isSuffixOf (name.toList.drop start.length)

/-- `filepath.Glob` in a directory whose own path is no pattern (`FileSystem.replay_literal`), and
`sort.Strings`. -/
def Directory.glob (directory : Directory) (kind : String) : List String :=
  sortStrings (directory.keys.filter (matchesKind kind))

/-- The buffer of the scanner. -/
def maxLine : Nat := 4 * 1024 * 1024

/-- The lines of a file, one after the other; the first that fails ends it. -/
def replayFile {σ : Type} (target : σ → Bytes → Option σ) (s : σ) (content : Bytes) : Option σ :=
  (scanLines maxLine content).bind fun lines => lines.foldlM target s

/-- The lines of the files of a kind, one file after another. -/
def Directory.replay {σ : Type} (directory : Directory) (kind : String)
    (target : σ → Bytes → Option σ) (s : σ) : Option σ :=
  (directory.glob kind).foldlM (fun s path => replayFile target s (directory.index path [])) s

/-- `json.Unmarshal` into a new value. -/
def unmarshalBytes (α : Type) [Marshal α] (data : Bytes) : Option α :=
  (Json.parse (Utf8.runes data)).bind fun doc => Marshal.unmarshal doc Marshal.zero

/-! ## The ledger -/

/-- The last decisions, the oldest first. -/
structure DecisionLedger (F : Type) where
  max : Nat
  order : List String
  entries : String → Option (Decision F)
  /-- Whether there is a journal. -/
  journal : Bool
  err : Option JournalError

section

variable {F : Type} [Float64 F]

/-- The candidate of a decision for a backend. -/
def candidateForBackend (candidates : List (Candidate F)) (backendID : String) :
    Option (Candidate F) :=
  candidates.find? fun candidate => candidate.backendID = backendID

/-- The error of the prediction for a candidate. -/
def predictionErrorOf (candidate : Candidate F) (outcome : DecisionOutcome F) :
    PredictionError F :=
  let signed := outcome.ttftMS - candidate.predictedTTFTMS
  { predictorVersion := candidate.predictorVersion
    predictedTTFTMS := candidate.predictedTTFTMS
    actualTTFTMS := outcome.ttftMS
    ttftSignedMS := signed
    ttftAbsoluteMS := Float64.abs signed
    predictedCacheHitRatio := outcome.observedCacheHitRatio.map fun _ => candidate.prefixMatch
    actualCacheHitRatio := outcome.observedCacheHitRatio
    cacheHitAbsoluteError :=
      outcome.observedCacheHitRatio.map fun actual => Float64.abs (actual - candidate.prefixMatch)
    evidenceQuality := candidate.evidenceQuality }

/-- An outcome that says nothing but the backend. -/
def DecisionOutcome.isBare (outcome : DecisionOutcome F) : Bool :=
  outcome.completedAt.isZero && Float64.eq outcome.ttftMS (ofInt 0) &&
    Float64.eq outcome.e2eMS (ofInt 0) && outcome.statusCode == 0

/-- A decision with its outcome. -/
def Decision.withOutcome (outcome : DecisionOutcome F) (decision : Decision F) : Decision F :=
  let decision := { decision with actualSelected := outcome.actualBackend }
  if outcome.isBare then decision
  else
    let decision := { decision with outcome := some outcome }
    match candidateForBackend decision.candidates.toList outcome.actualBackend with
    | none => decision
    | some candidate =>
      if outcome.success && Float64.lt (ofInt 0) outcome.ttftMS then
        { decision with
          predictorVersion := candidate.predictorVersion
          predictionError := some (predictionErrorOf candidate outcome) }
      else decision

namespace DecisionLedger

/-- `NewDecisionLedger`, with a journal or without. -/
def new (max : Int) (journal : Bool) : DecisionLedger F where
  max := if max ≤ 0 then 4096 else max.toNat
  order := []
  entries _ := none
  journal
  err := none

/-- Drops the oldest entries beyond `max`. -/
def evict (max : Nat) : List String → (String → Option (Decision F)) →
    List String × (String → Option (Decision F))
  | [], entries => ([], entries)
  | id :: order, entries =>
    if (id :: order).length > max then evict max order (Function.update entries id none)
    else (id :: order, entries)

/-- `recordLocked`: the entry of a decision, and the oldest ones are dropped. -/
def recordLocked (ledger : DecisionLedger F) (decision : Decision F) : DecisionLedger F :=
  let order :=
    if (ledger.entries decision.requestID).isNone then ledger.order ++ [decision.requestID]
    else ledger.order
  let kept :=
    evict ledger.max order (Function.update ledger.entries decision.requestID (some decision))
  { ledger with order := kept.1, entries := kept.2 }

/-- The backend that has answered. -/
def updateActual (ledger : DecisionLedger F) (requestID backendID : String) : DecisionLedger F :=
  match ledger.entries requestID with
  | none => ledger
  | some decision =>
    { ledger with
      entries :=
        Function.update ledger.entries requestID
          (some { decision with actualSelected := backendID }) }

/-- `none` if no entry has the request ID. -/
def recordOutcomeLocked (ledger : DecisionLedger F) (outcome : DecisionOutcome F) :
    Option (DecisionLedger F) :=
  (ledger.entries outcome.requestID).map fun decision =>
    { ledger with
      entries :=
        Function.update ledger.entries outcome.requestID (some (decision.withOutcome outcome)) }

variable [FloatText F]

/-- Appends a value to the journal unless an earlier write failed. -/
def journalAppend {α : Type} [Marshal α] (ledger : DecisionLedger F) (directory : Directory)
    (path : String) (value : α) (write : FileWrite) : DecisionLedger F × Directory :=
  if ledger.journal ∧ ledger.err = none then
    let appended := directory.append path value write
    ({ ledger with err := appended.2 }, appended.1)
  else (ledger, directory)

/-- `Record`. -/
def record (ledger : DecisionLedger F) (directory : Directory) (now : Time) (write : FileWrite)
    (decision : Decision F) : DecisionLedger F × Directory :=
  if decision.requestID = "" then (ledger, directory)
  else (ledger.recordLocked decision).journalAppend directory (path "decisions" now) decision write

/-- `RecordOutcome`. -/
def recordOutcome (ledger : DecisionLedger F) (directory : Directory) (now : Time)
    (write : FileWrite) (outcome : DecisionOutcome F) : DecisionLedger F × Directory :=
  if outcome.requestID = "" then (ledger, directory)
  else
    match ledger.recordOutcomeLocked outcome with
    | none => (ledger, directory)
    | some ledger => ledger.journalAppend directory (path "outcomes" now) outcome write

/-- The last decisions, the newest first. -/
def recent (ledger : DecisionLedger F) (limit : Int) : List (Decision F) :=
  let limit := if limit ≤ 0 ∨ 1000 < limit then 20 else limit.toNat
  (ledger.order.reverse.take limit).map fun id => (ledger.entries id).getD .zero

/-- `NewDecisionLedgerWithJournal`, which fails if a file cannot be read. -/
def reopen (max : Int) (directory : Directory) : Option (DecisionLedger F) :=
  let decisions := directory.replay "decisions" (fun ledger data =>
    (unmarshalBytes (Decision F) data).map fun decision => ledger.recordLocked decision)
  let outcomes := directory.replay "outcomes" (fun ledger data =>
    (unmarshalBytes (DecisionOutcome F) data).map fun outcome =>
      (ledger.recordOutcomeLocked outcome).getD ledger)
  (decisions (new max true)).bind outcomes

end DecisionLedger

end

end Kavora.Ledger
