import Kavora.Lib.Go

/-!
# Backend snapshots (`gateway/internal/backendstate/client.go`)

A snapshot holds the signals that an exporter measured for a backend. A signal without a value, or
of quality missing or invalid, has no `value`.

* `validate`: the check of a snapshot that comes in; `validate_ok` says what it leaves
  (`Validated`).
-/

namespace Kavora.BackendState

open Lib Lib.Go

/-- The quality of a signal or of an event; `other` is any other text. -/
inductive Quality where
  | fresh | stale | missing | invalid
  | other (text : String)
  deriving DecidableEq, Repr

/-- The quality of a piece of evidence; `unset` is the empty text. -/
inductive EvidenceQuality where
  | unset | strict | estimated | fallback | missing
  deriving DecidableEq, Repr

/-- A value with its quality. -/
structure Signal (F : Type) where
  value : F
  hasValue : Bool
  quality : Quality
  source : String
  observedAtUnixMillis : Int
  semantics : String
  evidenceQuality : EvidenceQuality

/-- The state of a backend, as the exporter reports it. -/
structure Snapshot (F : Type) where
  schemaVersion : String
  backendID : String
  backend : String
  model : String
  instanceName : String
  modelGroup : String
  observedAtUnixMillis : Int
  signals : Map String (Signal F)
  snapshotHash : String

/-- The zero value, which a map of snapshots has for a backend without one. -/
def Snapshot.zero {F : Type} : Snapshot F where
  schemaVersion := ""
  backendID := ""
  backend := ""
  model := ""
  instanceName := ""
  modelGroup := ""
  observedAtUnixMillis := 0
  signals := ∅
  snapshotHash := ""

variable {F : Type}

/-- The quality of a signal's evidence, with its default. -/
def evidenceQualityOf (signal : Signal F) : EvidenceQuality :=
  if signal.evidenceQuality = .unset then .missing else signal.evidenceQuality

/-- `Value`: `none` where it is not ok. -/
def value (snapshot : Snapshot F) (name : String) : Option F :=
  match snapshot.signals.lookup name with
  | none => none
  | some signal =>
    if signal.hasValue = false ∨ signal.quality = .missing ∨ signal.quality = .invalid then none
    else some signal.value

/-! ## Validation -/

/-- The version that the gateway accepts. -/
def schemaVersion : String := "kavora.backend-state/v1"

/-- The text of a quality. -/
def Quality.text : Quality → String
  | .fresh => "fresh"
  | .stale => "stale"
  | .missing => "missing"
  | .invalid => "invalid"
  | .other text => text

/-- The text of a quality. -/
def EvidenceQuality.text : EvidenceQuality → String
  | .unset => ""
  | .strict => "strict"
  | .estimated => "estimated"
  | .fallback => "fallback"
  | .missing => "missing"

/-- The checks of one signal; `quote` is `%q`. Its evidence quality is a valid one by its type. -/
def validateSignal (quote : String → String) (name : String) (signal : Signal F) :
    Except String Unit :=
  match signal.quality with
  | .other quality => .error ("signal " ++ quote name ++ " has invalid quality " ++ quote quality)
  | quality =>
    if signal.observedAtUnixMillis ≤ 0 ∨ signal.source = "" then
      .error ("signal " ++ quote name ++ " is missing provenance")
    else if quality = .missing ∧ signal.hasValue then
      .error ("signal " ++ quote name ++ " marks missing but has a value")
    else if quality ≠ .missing ∧ signal.hasValue = false then
      .error ("signal " ++ quote name ++ " has no value but is " ++ quality.text)
    else .ok ()

/-- `Validate`. The order in which a map is read decides which signal an error names. -/
def validate (quote : String → String) (snapshot : Snapshot F) : Except String Unit :=
  if snapshot.schemaVersion ≠ schemaVersion then
    .error ("unsupported backend state schema " ++ quote snapshot.schemaVersion)
  else if snapshot.backendID = "" ∨ snapshot.backend = "" ∨ snapshot.model = "" then
    .error "backend state requires backend_id, backend, and model"
  else if snapshot.observedAtUnixMillis ≤ 0 then
    .error "backend state requires observed_at_unix_millis"
  else if snapshot.signals.entries = [] then .error "backend state requires signals"
  else forM snapshot.signals.entries fun entry => validateSignal quote entry.1 entry.2

/-- A signal that passed: it is missing exactly when it has no value. -/
structure ValidSignal (signal : Signal F) : Prop where
  quality : signal.quality = .fresh ∨ signal.quality = .stale ∨ signal.quality = .missing ∨
    signal.quality = .invalid
  hasValue : signal.hasValue = true ↔ signal.quality ≠ .missing

/-- A snapshot that passed. -/
structure Validated (snapshot : Snapshot F) : Prop where
  backendID : snapshot.backendID ≠ ""
  observedAt : 0 < snapshot.observedAtUnixMillis
  signals : ∀ name signal, snapshot.signals.lookup name = some signal → ValidSignal signal

theorem validateSignal_ok {quote : String → String} {name : String} {signal : Signal F}
    (h : validateSignal quote name signal = .ok ()) : ValidSignal signal := by
  unfold validateSignal at h
  split at h
  · cases h
  · rename_i quality hnot
    split at h
    · cases h
    split at h
    · cases h
    split at h
    · cases h
    rename_i hmissing hvalue
    constructor
    · cases hquality : signal.quality with
      | other text => exact absurd hquality (hnot text)
      | fresh | stale | missing | invalid => simp
    · constructor
      · exact fun hhas hq => hmissing ⟨hq, hhas⟩
      · intro hq
        by_contra hhas
        exact hvalue ⟨hq, Bool.eq_false_of_not_eq_true hhas⟩

theorem forM_ok {α ε : Type} {f : α → Except ε Unit} {l : List α} (h : forM l f = .ok ()) :
    ∀ a ∈ l, f a = .ok () := by
  induction l with
  | nil => exact fun _ hmem => absurd hmem List.not_mem_nil
  | cons a l ih =>
    rw [List.forM_cons] at h
    cases ha : f a with
    | error e =>
      rw [ha] at h
      cases h
    | ok u =>
      rw [ha] at h
      intro b hb
      obtain rfl | hb := List.mem_cons.mp hb
      · exact ha
      · exact ih h b hb

theorem validate_ok {quote : String → String} {snapshot : Snapshot F}
    (h : validate quote snapshot = .ok ()) : Validated snapshot := by
  unfold validate at h
  split at h
  · cases h
  split at h
  · cases h
  split at h
  · cases h
  split at h
  · cases h
  rename_i hnames hobserved _
  refine ⟨fun hid => hnames (.inl hid), not_le.mp hobserved, fun name signal hlookup => ?_⟩
  exact validateSignal_ok (forM_ok h ⟨name, signal⟩ (List.of_mem_dlookup hlookup))

end Kavora.BackendState
