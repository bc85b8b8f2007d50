import Kavora.Lib.Bytes
import Kavora.Router.CacheProvider

/-!
# The adapter for vLLM's KV events (`engine_events/vllm.py`)

The adapter turns a batch of engine events into events for the gateway. It numbers them by
generation, sequence and index, and keeps the last committed batch in a checkpoint file.

* `VLLMEventAdapter.prepare`: the events of one batch, or the error that is raised.
* `VLLMEventAdapter.commit`: the adapter and the file after a batch.
* `Event.decode`: what the gateway's handler reads from the JSON of an event.

A payload is the value that `msgspec` decodes from it; one that does not decode raises.
-/

namespace Kavora.EngineEvents

open Lib Lib.Go Router BackendState

/-- A decoded value; `T` is Python's `float`. -/
inductive PyValue (T : Type) where
  | none
  | bool (b : Bool)
  | int (n : Int)
  | float (x : T)
  | str (s : String)
  | bytes (data : Bytes)
  | list (values : List (PyValue T))
  | dict (members : List (PyValue T × PyValue T))

/-- Python's `float`, and what the gateway makes of a printed time. `none` is an exception or a
text that is rejected. -/
class PyFloat (T : Type) where
  zero : T
  lt : T → T → Bool
  /-- `x >= 0`. -/
  nonneg : T → Bool
  /-- `int(x * 1000)`. -/
  millis : T → Option Int
  /-- `_rfc3339`. -/
  rfc3339 : T → Option String
  /-- `float(value)`. -/
  ofValue : PyValue T → Option T
  /-- `int(value)`. -/
  toInt : PyValue T → Option Int
  /-- `repr(value)`. -/
  repr : PyValue T → String
  /-- The time that the gateway decodes. -/
  parseTime : String → Option Time
  ofValue_float : ∀ x, ofValue (.float x) = some x
  toInt_int : ∀ n, toInt (.int n) = some n
  /-- A time from 1970 on is not the zero time. -/
  parse_nonzero : ∀ x text time, nonneg x = true → rfc3339 x = some text →
    parseTime text = some time → time.isZero = false

/-- The text of a second of the first ten of 1970. -/
def secondText (second : Nat) : String := "1970-01-01T00:00:0" ++ toString second ++ ".000Z"

/-- Whole seconds; only those of the first ten of 1970 print, and only scalars have their `repr`. -/
@[reducible]
def PyFloat.wholeSeconds : PyFloat Nat where
  zero := 0
  lt x y := x < y
  nonneg _ := true
  millis x := some (x * 1000)
  rfc3339 x := if x < 10 then some (secondText x) else none
  ofValue
    | .float x => some x
    | .int n => if 0 ≤ n then some n.toNat else none
    | .bool b => some b.toNat
    | _ => none
  toInt
    | .float x => some x
    | .int n => some n
    | .bool b => some b.toNat
    | _ => none
  repr
    | .none => "None"
    | .bool b => if b then "True" else "False"
    | .int n => toString n
    | .float x => toString x ++ ".0"
    | .str s => "'" ++ s ++ "'"
    | .bytes _ => "b''"
    | .list _ => "[]"
    | .dict _ => "\x7b\x7d"
  parseTime text :=
    ((List.range 10).find? fun second => text = secondText second).map fun (second : Nat) =>
      Time.unixMilli (second * 1000)
  ofValue_float _ := rfl
  toInt_int _ := rfl
  parse_nonzero x text time _ _ hparse := by
    obtain ⟨second, -, rfl⟩ := Option.map_eq_some_iff.mp hparse
    refine decide_eq_false fun hzero => ?_
    have hzero : (second * 1000 : Int) * 1000000 = -62135596800000000000 := hzero
    omega

/-- The exceptions of `prepare`: a `ValueError`, a `SequenceGap`, or one of a conversion. -/
inductive AdapterError where
  | value (text : String)
  | sequenceGap (expected received : Nat)
  | conversion
  deriving DecidableEq, Repr

/-- The dictionary of an event. -/
structure Event where
  operation : Operation
  backendID : String
  cacheKey : String
  matchedTokens : Int
  totalTokens : Int
  sequence : Nat
  hasSequence : Bool
  generation : String
  engineEventID : String
  observedAt : String
  quality : Quality
  deriving DecidableEq, Repr

/-- The events of a batch, before it is committed. -/
structure PreparedBatch (T : Type) where
  sequence : Nat
  timestamp : T
  generation : String
  events : List Event
  duplicate : Bool

/-- The checkpoint file. -/
structure Checkpoint (T : Type) where
  backendID : String
  configuredGeneration : String
  generation : String
  lastSequence : Nat
  lastTimestamp : T

/-- The adapter, with the last batch that it committed. -/
structure VLLMEventAdapter (T : Type) where
  backendID : String
  configuredGeneration : String
  generation : String
  lastSequence : Option Nat
  lastTimestamp : T

/-! ## Cache keys -/

/-- A digit of a hexadecimal number below 16. -/
def hexDigit (n : Nat) : Char := if n < 10 then .ofNat (48 + n) else .ofNat (87 + n)

/-- `data.hex()`. -/
def hex (data : Bytes) : String :=
  .ofList (data.flatMap fun b => [hexDigit (b.toNat / 16), hexDigit (b.toNat % 16)])

/-- `_cache_key`. A bool is an int to `isinstance` and prints as its name. -/
def cacheKey {T : Type} : PyValue T → Except AdapterError String
  | .bytes data => .ok ("vllm:block:" ++ hex data)
  | .bool b => .ok ("vllm:block:" ++ if b then "True" else "False")
  | .int n =>
    if 0 ≤ n then .ok ("vllm:block:" ++ toString n)
    else .error (.value "vLLM block hash must be bytes or a non-negative integer")
  | _ => .error (.value "vLLM block hash must be bytes or a non-negative integer")

namespace VLLMEventAdapter

variable {T : Type} [PyFloat T]

/-! ## The checkpoint -/

/-- `_load_checkpoint`: what the file holds for this adapter. -/
def load (backendID configuredGeneration : String) (file : Option (Checkpoint T)) :
    VLLMEventAdapter T :=
  match file with
  | some checkpoint =>
    if checkpoint.backendID ≠ backendID ∨
        checkpoint.configuredGeneration ≠ configuredGeneration then
      { backendID, configuredGeneration, generation := configuredGeneration, lastSequence := none
        lastTimestamp := PyFloat.zero }
    else
      { backendID, configuredGeneration, generation := checkpoint.generation
        lastSequence := some checkpoint.lastSequence
        lastTimestamp := checkpoint.lastTimestamp }
  | none =>
    { backendID, configuredGeneration, generation := configuredGeneration, lastSequence := none
      lastTimestamp := PyFloat.zero }

/-- `VLLMEventAdapter(backend_id, generation, checkpoint_path)`. -/
def new (backendID generation : String) (file : Option (Checkpoint T)) :
    Except AdapterError (VLLMEventAdapter T) :=
  if backendID = "" ∨ generation = "" then
    .error (.value "backend_id and generation are required")
  else .ok (load backendID generation file)

/-- `commit`: the adapter and the file after a batch. -/
def commit (a : VLLMEventAdapter T) (prepared : PreparedBatch T) (file : Option (Checkpoint T)) :
    VLLMEventAdapter T × Option (Checkpoint T) :=
  if prepared.duplicate then (a, file)
  else
    ({ a with
       generation := prepared.generation
       lastSequence := some prepared.sequence
       lastTimestamp := prepared.timestamp },
      some
        { backendID := a.backendID
          configuredGeneration := a.configuredGeneration
          generation := prepared.generation
          lastSequence := prepared.sequence
          lastTimestamp := prepared.timestamp })

/-! ## Preparing a batch -/

/-- How a batch follows the last committed one. -/
inductive Position where
  | next
  | restart
  | duplicate
  | gap (expected : Nat)
  deriving DecidableEq, Repr

/-- Where a batch stands after the last committed one. -/
def position (a : VLLMEventAdapter T) (sequence : Nat) (timestamp : T) : Position :=
  match a.lastSequence with
  | none => .next
  | some last =>
    if sequence = 0 ∧ PyFloat.lt a.lastTimestamp timestamp then .restart
    else if sequence ≤ last then .duplicate
    else if sequence ≠ last + 1 then .gap (last + 1)
    else .next

/-- What all events of a batch share. -/
structure Header (T : Type) where
  sequence : Nat
  generation : String
  timestamp : T

/-- The ID of an event: the generation, the batch and the number in it. -/
def engineEventID (generation : String) (sequence eventIndex : Nat) : String :=
  generation ++ ":" ++ toString sequence ++ ":" ++ toString eventIndex

/-- `_event`. -/
def event (a : VLLMEventAdapter T) (header : Header T) (operation : Operation) (eventIndex : Nat)
    (cacheKey : String) (tokens : Int) : Except AdapterError Event :=
  match PyFloat.rfc3339 header.timestamp with
  | none => .error .conversion
  | some observedAt =>
    .ok
      { operation
        backendID := a.backendID
        cacheKey
        matchedTokens := tokens
        totalTokens := tokens
        sequence := header.sequence
        hasSequence := true
        generation := header.generation
        engineEventID := engineEventID header.generation header.sequence eventIndex
        observedAt
        quality := .fresh }

/-- One event for each block hash of an engine event. -/
def blockEvents (a : VLLMEventAdapter T) (header : Header T) (operation : Operation)
    (eventIndex : Nat) (tokens : Int) : Nat → List (PyValue T) → Except AdapterError (List Event)
  | _, [] => .ok []
  | blockIndex, blockHash :: blockHashes => do
    let key ← cacheKey blockHash
    let event ← a.event header operation (eventIndex * 1000000 + blockIndex) key tokens
    let events ← a.blockEvents header operation eventIndex tokens (blockIndex + 1) blockHashes
    return event :: events

/-- The events of one engine event. -/
def engineEvent (a : VLLMEventAdapter T) (header : Header T) (eventIndex : Nat) :
    PyValue T → Except AdapterError (List Event)
  | .list (.str "BlockStored" :: fields) =>
    match fields with
    | .list blockHashes :: _ :: _ :: blockSize :: _ =>
      match PyFloat.toInt blockSize with
      | none => .error .conversion
      | some blockSize =>
        if blockSize ≤ 0 then .error (.value "BlockStored block_size must be positive")
        else a.blockEvents header .store eventIndex blockSize 0 blockHashes
    | _ => .error (.value "invalid BlockStored event")
  | .list (.str "BlockRemoved" :: fields) =>
    match fields with
    | .list blockHashes :: _ => a.blockEvents header .remove eventIndex 0 0 blockHashes
    | _ => .error (.value "invalid BlockRemoved event")
  | .list (.str "AllBlocksCleared" :: _) => do
    let event ← a.event header .clear (eventIndex * 1000000) "" 0
    return [event]
  | .list (eventType :: _) =>
    .error (.value ("unsupported vLLM KV event type " ++ PyFloat.repr eventType))
  | _ => .error (.value "invalid vLLM KV event")

/-- The events of some raw events, in order; the first that fails ends it. -/
def engineEvents (a : VLLMEventAdapter T) (header : Header T) :
    Nat → List (PyValue T) → Except AdapterError (List Event)
  | _, [] => .ok []
  | eventIndex, raw :: raws => do
    let events ← a.engineEvent header eventIndex raw
    let rest ← a.engineEvents header (eventIndex + 1) raws
    return events ++ rest

/-- The events of a batch; a restart opens with a clear. -/
def batchEvents (a : VLLMEventAdapter T) (header : Header T) (restart : Bool)
    (raws : List (PyValue T)) : Except AdapterError (List Event) := do
  let opening ← if restart then (a.event header .clear 0 "" 0).map ([·]) else .ok []
  let events ← a.engineEvents header 1 raws
  return opening ++ events

/-- `prepare`: the events of a payload, or why it is refused. -/
def prepare (a : VLLMEventAdapter T) (sequence : Int) (payload : PyValue T) :
    Except AdapterError (PreparedBatch T) :=
  match payload with
  | .list (first :: .list raws :: _) =>
    match PyFloat.ofValue first with
    | none => .error .conversion
    | some timestamp =>
      if ¬ (0 ≤ sequence ∧ sequence < 2 ^ 64) ∨ PyFloat.nonneg timestamp = false then
        .error (.value "invalid vLLM sequence or timestamp")
      else
        let sequence := sequence.toNat
        match a.position sequence timestamp with
        | .duplicate =>
          .ok { sequence, timestamp, generation := a.generation, events := [], duplicate := true }
        | .gap expected => .error (.sequenceGap expected sequence)
        | .restart =>
          match PyFloat.millis timestamp with
          | none => .error .conversion
          | some ms =>
            let generation := "auto-" ++ toString ms
            (a.batchEvents { sequence, generation, timestamp } true raws).map fun events =>
              { sequence, timestamp, generation, events, duplicate := false }
        | .next =>
          let generation := a.generation
          (a.batchEvents { sequence, generation, timestamp } false raws).map fun events =>
            { sequence, timestamp, generation, events, duplicate := false }
  | _ => .error (.value "invalid vLLM KV EventBatch payload")

/-- `process`. -/
def process (a : VLLMEventAdapter T) (sequence : Int) (payload : PyValue T)
    (file : Option (Checkpoint T)) :
    Except AdapterError (List Event × VLLMEventAdapter T × Option (Checkpoint T)) :=
  (a.prepare sequence payload).map fun prepared =>
    (prepared.events, a.commit prepared file)

end VLLMEventAdapter

/-! ## The handler of the gateway (`/v1/admin/cache-events` in `webui/handler.go`) -/

/-- `json.Decode` into a `KVEvent`; `none` where a number or the time does not fit. -/
def Event.decode (T : Type) [PyFloat T] (event : Event) : Option KVEvent :=
  if event.matchedTokens < -2 ^ 63 ∨ event.matchedTokens ≥ 2 ^ 63 ∨
      event.totalTokens < -2 ^ 63 ∨ event.totalTokens ≥ 2 ^ 63 ∨ event.sequence ≥ 2 ^ 64 then none
  else
    (PyFloat.parseTime T event.observedAt).map fun observedAt =>
      { operation := event.operation
        backendID := event.backendID
        cacheKey := event.cacheKey
        matchedTokens := event.matchedTokens
        totalTokens := event.totalTokens
        sequence := event.sequence
        hasSequence := event.hasSequence
        generation := event.generation
        engineEventID := event.engineEventID
        observedAt
        quality := event.quality }

/-- The checks of the handler. -/
def validEvent (event : KVEvent) : Bool :=
  event.backendID ≠ "" && (event.effectiveOperation = .clear || event.cacheKey ≠ "") &&
    (event.effectiveOperation = .store || event.effectiveOperation = .remove ||
      event.effectiveOperation = .clear) &&
    0 ≤ event.matchedTokens && 0 ≤ event.totalTokens &&
    !(0 < event.totalTokens && event.totalTokens < event.matchedTokens)

/-- One event posted to a gateway whose provider is a `KVEventProvider`; `none` is an error
status. -/
def post {F : Type} (T : Type) [PyFloat T] (p : KVEventProvider F) (now : Time) (event : Event) :
    Option (KVEventProvider F) :=
  match event.decode T with
  | none => none
  | some event => if validEvent event then some (p.observe now event) else none

end Kavora.EngineEvents
