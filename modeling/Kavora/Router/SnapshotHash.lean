import Kavora.Exporter.BackendState
import Kavora.Lib.Marshal
import Kavora.Lib.PyJson
import Kavora.Lib.Utf8

/-!
# The hash of a snapshot (`exporter/backend_state.py` and `gateway/internal/backendstate/client.go`)

The exporter stores the hash of a snapshot in it, and the gateway computes the hash of a snapshot
that it decoded. Each hashes the bytes that its own writer of JSON makes.

* `hashedData`, `emitted`: the bytes that the exporter hashes and the document that it emits.
* `decode`, `canonicalData`: the snapshot of a document and the bytes that the gateway hashes.
* `snapshot_hash_never_verified`: the bytes are never the same.
-/

namespace Kavora.BackendState

open Lib Lib.Go Lib.Json
open Float64 (ofInt)

/-! ## The exporter -/

section

variable {F : Type} [FloatText F] [PyRepr F]

/-- A member of a dict. -/
def item (name : String) (value : Json) : JsonText × Json :=
  ({ text := name, wellFormed := true }, value)

/-- The dict of a signal. -/
def signalDict (signal : Signal F) : Json :=
  .object
    [item "value" (.number (.ofList (PyRepr.repr signal.value))),
      item "has_value" (.bool signal.hasValue),
      item "quality" (ofString signal.quality.text),
      item "source" (ofString signal.source),
      item "observed_at_unix_millis" (.number (.ofList (intText signal.observedAtUnixMillis))),
      item "semantics" (ofString signal.semantics),
      item "evidence_quality" (ofString signal.evidenceQuality.text)]

/-- `body` before it has its hash. -/
def bodyItems (body : Snapshot F) : List (JsonText × Json) :=
  [item "schema_version" (ofString body.schemaVersion),
    item "backend_id" (ofString body.backendID),
    item "backend" (ofString body.backend),
    item "model" (ofString body.model),
    item "instance" (ofString body.instanceName),
    item "model_group" (ofString body.modelGroup),
    item "observed_at_unix_millis" (.number (.ofList (intText body.observedAtUnixMillis))),
    item "signals" (.object (body.signals.entries.map fun entry => item entry.1 (signalDict entry.2)))]

/-- `canonical`. -/
def hashedData (body : Snapshot F) : Bytes := Utf8.encode (dumps (.object (bodyItems body)))

/-- The document of a snapshot. A number that is not finite has none: Python writes it as a name that
is no JSON. -/
def emitted (snapshot : Snapshot F) : Option Json :=
  if snapshot.signals.entries.all fun entry => FloatText.isFinite entry.2.value then
    some (.object (bodyItems snapshot ++ [item "snapshot_hash" (ofString snapshot.snapshotHash)]))
  else none

end

/-! ## The gateway -/

/-- The quality of a text. -/
def Quality.ofText : String → Quality
  | "fresh" => .fresh
  | "stale" => .stale
  | "missing" => .missing
  | "invalid" => .invalid
  | text => .other text

/-- The evidence quality of a text; `none` for a text that `Validate` does not accept. -/
def EvidenceQuality.ofText : String → Option EvidenceQuality
  | "" => some .unset
  | "strict" => some .strict
  | "estimated" => some .estimated
  | "fallback" => some .fallback
  | "missing" => some .missing
  | _ => none

instance : Marshal Quality where
  zero := .other ""
  marshal quality := some (ofString quality.text)
  unmarshal doc quality :=
    match doc with
    | .string t => some (.ofText t.text)
    | .null => some quality
    | _ => none

instance : Marshal EvidenceQuality where
  zero := .unset
  marshal quality := some (ofString quality.text)
  unmarshal doc quality :=
    match doc with
    | .string t => EvidenceQuality.ofText t.text
    | .null => some quality
    | _ => none

/-- A field of type `int64`. -/
def int64Field {S : Type} (name : String) (get : S → Int) (set : Int → S → S) : Go.Field S :=
  field name (fun s => Int64.ofInt (get s)) fun n s => set n.toInt s

section

variable {F : Type} [Float64 F] [FloatText F]

namespace Signal

/-- The zero value. -/
def zero : Signal F where
  value := ofInt 0
  hasValue := false
  quality := .other ""
  source := ""
  observedAtUnixMillis := 0
  semantics := ""
  evidenceQuality := .unset

/-- The fields of its JSON object. -/
def fields : List (Go.Field (Signal F)) :=
  [ field "value" value fun a s => { s with value := a },
    field "has_value" hasValue fun a s => { s with hasValue := a },
    field "quality" quality fun a s => { s with quality := a },
    field "source" source fun a s => { s with source := a },
    int64Field "observed_at_unix_millis" observedAtUnixMillis
      fun a s => { s with observedAtUnixMillis := a },
    field "semantics" semantics fun a s => { s with semantics := a },
    omitempty "evidence_quality" (· = EvidenceQuality.unset) evidenceQuality
      fun a s => { s with evidenceQuality := a } ]

instance : Marshal (Signal F) where
  zero := zero
  marshal := marshalStruct fields
  unmarshal := unmarshalStruct fields

end Signal

/-- A map is written with its keys in order, and each value is read into a new one. -/
instance : Marshal (Map String (Signal F)) where
  zero := ∅
  marshal m :=
    ((m.entries.insertionSort fun entry entry' => entry.1 ≤ entry'.1).mapM fun entry =>
      (Marshal.marshal entry.2).map fun doc => item entry.1 doc).map .object
  unmarshal doc m :=
    match doc with
    | .object ms =>
      ms.foldlM (fun m member =>
        (Marshal.unmarshal member.2 Signal.zero).map fun signal => m.insert member.1.text signal) m
    | .null => some ∅
    | _ => none

namespace Snapshot

/-- The fields of the struct in `CanonicalHash`. -/
def orderedFields : List (Go.Field (Snapshot F)) :=
  [ field "schema_version" schemaVersion fun a s => { s with schemaVersion := a },
    field "backend_id" backendID fun a s => { s with backendID := a },
    field "backend" backend fun a s => { s with backend := a },
    field "model" model fun a s => { s with model := a },
    field "instance" instanceName fun a s => { s with instanceName := a },
    field "model_group" modelGroup fun a s => { s with modelGroup := a },
    int64Field "observed_at_unix_millis" observedAtUnixMillis
      fun a s => { s with observedAtUnixMillis := a },
    field "signals" signals fun a s => { s with signals := a } ]

/-- The fields of its JSON object, of which the hash is the last. -/
def fields : List (Go.Field (Snapshot F)) :=
  orderedFields ++ [field "snapshot_hash" snapshotHash fun a s => { s with snapshotHash := a }]

end Snapshot

/-! ## Reading a member -/

section

variable {S : Type} {fields : List (Go.Field S)} {name : String} {value : Json}
  {members : List (JsonText × Json)} {f : Go.Field S} {s s' : S}

theorem foldlM_item (hfield : findField fields name = some f) (hassign : f.assign value s = some s') :
    (item name value :: members).foldlM (assignMember fields) s =
      members.foldlM (assignMember fields) s' := by
  have hmember : assignMember fields s (item name value) = f.assign value s := by
    rw [assignMember, item, hfield]
  rw [List.foldlM_cons, hmember, hassign]
  rfl

theorem foldlM_none (hfield : findField fields name = some f) (hassign : f.assign value s = none) :
    (item name value :: members).foldlM (assignMember fields) s = none := by
  have hmember : assignMember fields s (item name value) = f.assign value s := by
    rw [assignMember, item, hfield]
  rw [List.foldlM_cons, hmember, hassign]
  rfl

theorem parseInt64_of_fits {n : Int} (h : -2 ^ 63 ≤ n ∧ n < 2 ^ 63) :
    (parseInt64 (String.ofList (intText n)).toList).map Int64.toInt = some n := by
  rw [String.toList_ofList]
  unfold parseInt64
  rw [parseInt_intText]
  dsimp only
  rw [if_pos h, Option.map_some, Int64.toInt_ofInt_of_le h.1 h.2]

theorem assign_int64 {get : S → Int} {set : Int → S → S} {n : Int} (h : -2 ^ 63 ≤ n ∧ n < 2 ^ 63) :
    (int64Field name get set).assign (.number (.ofList (intText n))) s = some (set n s) := by
  obtain ⟨n', hn', hn⟩ := Option.map_eq_some_iff.mp (parseInt64_of_fits h)
  refine (congrArg (Option.map _) hn').trans ?_
  show some (set n'.toInt s) = _
  rw [hn]

theorem assign_int64_none {get : S → Int} {set : Int → S → S} {n : Int}
    (h : ¬ (-2 ^ 63 ≤ n ∧ n < 2 ^ 63)) :
    (int64Field name get set).assign (.number (.ofList (intText n))) s = none := by
  have hparse : parseInt64 (String.ofList (intText n)).toList = none := by
    rw [String.toList_ofList]
    unfold parseInt64
    rw [parseInt_intText]
    exact if_neg h
  exact congrArg (Option.map _) hparse

end

/-- Why a snapshot is refused. -/
inductive DecodeError where
  | unmarshal
  | invalid (text : String)
  deriving DecidableEq, Repr

/-- `Decode` of the document that the data is; `quote` is `%q`. -/
def decode (quote : String → String) (doc : Json) : Except DecodeError (Snapshot F) :=
  if 10000 < doc.nesting then .error .unmarshal
  else
    match unmarshalStruct Snapshot.fields doc .zero with
    | none => .error .unmarshal
    | some snapshot =>
      match validate quote snapshot with
      | .error err => .error (.invalid err)
      | .ok () => .ok snapshot

/-- What `CanonicalHash` hashes; there is nothing if `json.Marshal` fails. -/
def canonicalData (snapshot : Snapshot F) : Bytes :=
  match marshalStruct Snapshot.orderedFields snapshot with
  | some doc => Utf8.encode (print doc)
  | none => []

/-- The hash of a snapshot without its hash. -/
def canonicalHash (sha256 : Bytes → String) (snapshot : Snapshot F) : String :=
  sha256 (canonicalData snapshot)

end

/-! ## The bytes of both sides -/

section

variable {F : Type} [Float64 F] [FloatText F] [PyRepr F]

omit [Float64 F] [FloatText F] in
/-- The exporter writes the backend first. -/
theorem hashedData_start (body : Snapshot F) : ∃ rest,
    hashedData body = Utf8.encode ('{' :: '"' :: 'b' :: rest) := by
  have hkeys : (bodyItems body).map (·.1.text) = ["schema_version", "backend_id", "backend", "model",
      "instance", "model_group", "observed_at_unix_millis", "signals"] := rfl
  have hmem : "backend" ∈ (bodyItems body).map (·.1.text) := by
    rw [hkeys]
    decide
  have hleast : ∀ key ∈ (bodyItems body).map (·.1.text), "backend" ≤ key := by
    rw [hkeys]
    decide
  obtain ⟨rest, hrest⟩ := dumps_first hmem hleast
  have hquote : pyQuote "backend" = '"' :: 'b' :: "ackend\"".toList := by decide
  rw [hquote] at hrest
  exact ⟨"ackend\"".toList ++ rest, congrArg Utf8.encode hrest⟩

omit [PyRepr F] in
/-- The gateway writes the version of the schema first. -/
theorem canonicalData_start (snapshot : Snapshot F) : canonicalData snapshot = [] ∨
    ∃ rest, canonicalData snapshot = Utf8.encode ('{' :: '"' :: 's' :: rest) := by
  unfold canonicalData
  cases hdoc : marshalStruct Snapshot.orderedFields snapshot with
  | none => exact .inl rfl
  | some doc =>
    obtain ⟨ms, hms, rfl⟩ := Option.map_eq_some_iff.mp hdoc
    rw [Snapshot.orderedFields, members] at hms
    split at hms
    · rename_i hmember _
      cases hmember
    · rename_i first ms' hmember hrest
      cases hms
      have hquote : quote "schema_version" = '"' :: 's' :: "chema_version\"".toList := by decide
      refine .inr ⟨"chema_version\"".toList ++ ':' :: (print first ++ printMembers ms'), ?_⟩
      refine congrArg Utf8.encode ?_
      show print (.object ((⟨"schema_version", true⟩, first) :: ms')) = _
      rw [print, hquote]
      rfl
    · cases hms

theorem canonicalData_ne (snapshot body : Snapshot F) : canonicalData snapshot ≠ hashedData body := by
  obtain ⟨rest, hrest⟩ := hashedData_start body
  rw [hrest]
  rcases canonicalData_start snapshot with hnil | ⟨rest', hrest'⟩
  · rw [hnil]
    intro heq
    have hruns := congrArg Utf8.runes heq
    rw [Utf8.runes_encode] at hruns
    cases hruns
  · rw [hrest']
    intro heq
    have hruns := congrArg Utf8.runes heq
    rw [Utf8.runes_encode, Utf8.runes_encode] at hruns
    cases hruns

/-- The snapshot of the exporter with its hash. -/
def hashedSnapshot (sha256 : Bytes → String) (snap : Exporter.DerivedSnapshot F)
    (args : Exporter.SnapshotArgs F) : Snapshot F :=
  Exporter.snapshotFromDerived snap { args with hash := fun body => sha256 (hashedData body) }

omit [FloatText F] in
/-- The stored hash is that of the bytes of the snapshot without it. -/
theorem snapshotHash_eq (sha256 : Bytes → String) (snap : Exporter.DerivedSnapshot F)
    (args : Exporter.SnapshotArgs F) :
    (hashedSnapshot sha256 snap args).snapshotHash =
      sha256 (hashedData (hashedSnapshot sha256 snap args)) := rfl

/-- **The hash of a snapshot is never verified**: the gateway hashes other bytes than the exporter. -/
theorem snapshot_hash_never_verified (quote : String → String) (sha256 : Bytes → String)
    (snap : Exporter.DerivedSnapshot F) (args : Exporter.SnapshotArgs F) :
    ¬ ∃ doc, ∃ snapshot : Snapshot F, emitted (hashedSnapshot sha256 snap args) = some doc ∧
      decode quote doc = .ok snapshot ∧
        canonicalData snapshot = hashedData (hashedSnapshot sha256 snap args) := by
  rintro ⟨doc, snapshot, -, -, heq⟩
  exact canonicalData_ne snapshot _ heq

end

namespace SnapshotHashSample

open Exporter

local instance : Float64 Rat := .rational fun _ => 1

/-- Whole numbers, which Python writes with a point. -/
local instance : FloatText Rat where
  isFinite x := x.den = 1
  format x := intText x.num
  parseFloat text := (parseInt (text.takeWhile (· ≠ '.'))).map Rat.ofInt

local instance : PyRepr Rat := ⟨fun x => intText x.num ++ ['.', '0']⟩

/-- A backend without load. -/
def derived : DerivedSnapshot Rat where
  backend := "vllm"
  model := "m"
  instanceName := "local"
  modelGroup := ""
  totalBlocks := 64
  activeBlocks := 0
  reusableCachedBlocks := 0
  freeUncachedBlocks := 64
  duplicateCachedBlocks := 0
  prefixBlocks := 0
  hiddenReuseReadyPerc := 0
  effectiveResidencyPerc := 0
  coldFreePerc := 1
  cacheHitRatio := none
  prefixHitsMetricName := ""
  prefixQueriesMetricName := ""
  prefixMetricSemantics := "missing"
  prefixMetricComparability := "missing"
  prefixMetricBasis := "missing"
  prefixEvidenceQuality := .missing
  blockEvidenceQuality := .strict
  queueDepth := some 0
  runningRequests := none

def args : SnapshotArgs Rat where
  backendID := none
  observedAtUnixMillis := some 1000
  stale := false
  now := 2000
  hash _ := ""

/-- The gateway accepts the snapshot, and hashes other bytes. -/
theorem snapshot_hash_differs : ∃ doc, ∃ snapshot : Snapshot Rat,
    emitted (hashedSnapshot (fun _ => "") derived args) = some doc ∧
      decode (fun s => s) doc = .ok snapshot ∧
        canonicalData snapshot ≠ hashedData (hashedSnapshot (fun _ => "") derived args) :=
  ⟨_, _, rfl, rfl, canonicalData_ne _ _⟩

end SnapshotHashSample

end Kavora.BackendState
