import Kavora.Policy.Proto

/-!
# The unary request policy (`policy-engine/src/policy.rs`)

`evaluate` checks one complete request: its size, the depth of its JSON values, its strings (email
expression and blocked terms) and its token budget.

The engine links `serde_json`, `regex`, `sha2` and Rust's Unicode tables. What it uses of them is
the record `Externals`, an argument of every function that needs it. The JSON byte fields of a
request have the type `J`; the strings of a value keep the order of `serde_json`'s map.
-/

namespace Kavora.Policy

open Lib

/-! ## JSON values -/

/-- `serde_json::Value`; a number is what `serde_json` prints for it. -/
inductive Value where
  | null
  | bool (b : Bool)
  | number (text : String)
  | string (s : String)
  | array (values : List Value)
  | object (members : List (String × Value))
  deriving Repr

namespace Value

mutual

/-- `collect_strings`: every string value, at any depth. -/
def collectStrings : Value → List String
  | .string s => [s]
  | .array values => collectStringsList values
  | .object members => collectStringsMembers members
  | _ => []

/-- Those of some values. -/
def collectStringsList : List Value → List String
  | [] => []
  | v :: vs => v.collectStrings ++ collectStringsList vs

/-- Those of some members, without their names. -/
def collectStringsMembers : List (String × Value) → List String
  | [] => []
  | (_, v) :: ms => v.collectStrings ++ collectStringsMembers ms

end

mutual

/-- The depth of a value; a scalar has depth 1. -/
def jsonDepth : Value → Nat
  | .array values => 1 + maxDepthList values
  | .object members => 1 + maxDepthMembers members
  | _ => 1

/-- `values.iter().map(json_depth).max().unwrap_or(0)`. -/
def maxDepthList : List Value → Nat
  | [] => 0
  | v :: vs => max v.jsonDepth (maxDepthList vs)

/-- The greatest depth of some members. -/
def maxDepthMembers : List (String × Value) → Nat
  | [] => 0
  | (_, v) :: ms => max v.jsonDepth (maxDepthMembers ms)

end

end Value

/-! ## What the engine links -/

/-- A message whose content was parsed. -/
structure CanonicalMessage where
  role : String
  content : Value
  name : Option String

/-- A request whose parts were parsed. -/
structure CanonicalRequest where
  model : String
  messages : List CanonicalMessage
  tools : Value
  generationParameters : Value

/-- The libraries of the policy engine. -/
structure Externals where
  /-- `serde_json::from_slice`. -/
  fromSlice : Bytes → Option Value
  /-- `email_regex().is_match`. -/
  emailIsMatch : String → Bool
  /-- `str::to_lowercase`. -/
  toLowercase : String → String
  /-- `serde_json::to_vec` of the canonical request. -/
  toVec : CanonicalRequest → Bytes
  /-- `Sha256::digest`. -/
  sha256 : Bytes → Bytes

/-- The configuration of the policy. -/
structure Config where
  maxRequestBytes : Nat
  maxJsonDepth : Nat
  blockedTerms : List String
  policyVersion : String
  deriving DecidableEq, Repr

/-- The configuration without an environment. -/
def Config.default : Config where
  maxRequestBytes := 1048576
  maxJsonDepth := 64
  blockedTerms := []
  policyVersion := "policy-v1"

/-- The engine, with the blocked terms in lower case. -/
structure PolicyEngine where
  config : Config
  blockedTerms : List String

/-- `cache_key::calculate`. -/
def calculate (lib : Externals) (request : CanonicalRequest) : Bytes :=
  lib.sha256 (lib.toVec request)

/-! ## Sizes and bounded JSON -/

/-- How the engine reads the JSON byte fields of a request: their length and their value. -/
structure JsonField (J : Type) where
  len : J → Nat
  fromSlice : J → Option Value

/-- The byte fields as the wire carries them. -/
def JsonField.wire (lib : Externals) : JsonField Bytes where
  len := List.length
  fromSlice := lib.fromSlice

section Engine

variable {J : Type} (field : JsonField J)

/-- The limit of the engine, or that of the request if it has a smaller one. -/
def effectiveMaxRequestBytes (config : Config) (context : RequestContext) : Nat :=
  if context.maxRequestBytes = 0 then config.maxRequestBytes
  else min config.maxRequestBytes context.maxRequestBytes

/-- The bytes of a request. -/
def requestSize (request : ModelRequest J) : Nat :=
  saturatingAdd
    (saturatingAdd
      (request.messages.foldl (fun size message =>
          saturatingAdd
            (saturatingAdd (saturatingAdd size message.role.utf8ByteSize)
              (field.len message.contentJson))
            ((message.name.map String.utf8ByteSize).getD 0))
        request.model.utf8ByteSize)
      (field.len request.toolsJson))
    (field.len request.generationParametersJson)

/-- A JSON field, if it is not too deep. -/
def parseBoundedJson (encoded : J) (maxDepth : Nat) : Except String Value :=
  if field.len encoded = 0 then .error "JSON fields must not be empty"
  else match field.fromSlice encoded with
    | none => .error "invalid JSON field"
    | some value =>
      if value.jsonDepth > maxDepth then .error "JSON field exceeds configured depth"
      else .ok value

/-- `div_ceil(4)`: bytes to tokens. -/
def divCeil4 (n : Nat) : Nat := (n + 3) / 4

/-- A string value that contains a blocked term. -/
def containsTerm (lib : Externals) (term value : String) : Bool :=
  strContains (lib.toLowercase value) term

namespace PolicyEngine

/-- `new` prepares the blocked terms. -/
def new (lib : Externals) (config : Config) : PolicyEngine where
  config := config
  blockedTerms := config.blockedTerms.map lib.toLowercase

/-- A result that blocks. -/
def failure (self : PolicyEngine) (code : PolicyErrorCode) (reason : String) : PolicyResult where
  decision := .block
  errorCode := code
  reason := reason
  matchedRuleIds := []
  cacheKey := []
  estimatedTokens := 0
  policyVersion := self.config.policyVersion

/-- A result that blocks by a rule. -/
def blocked (self : PolicyEngine) (code : PolicyErrorCode) (reason ruleId : String)
    (estimatedTokens : Nat) : PolicyResult :=
  { self.failure code reason with matchedRuleIds := [ruleId], estimatedTokens }

/-- One message of the request with its parsed content. -/
def parseMessage (self : PolicyEngine) (message : ChatMessage J) : Except String CanonicalMessage :=
  if message.role = "" then .error "message role is required"
  else do
    let content ← parseBoundedJson field message.contentJson self.config.maxJsonDepth
    pure { role := message.role, content, name := message.name }

/-- The strings that the policy scans. -/
def textValues (messages : List CanonicalMessage) (tools generation : Value) : List String :=
  messages.flatMap (·.content.collectStrings) ++ tools.collectStrings ++ generation.collectStrings

/-- The verdict on the strings and the size of a request whose JSON is parsed. -/
def judge (lib : Externals) (self : PolicyEngine) (context : RequestContext) (size : Nat)
    (request : CanonicalRequest) : PolicyResult :=
  let values := textValues request.messages request.tools request.generationParameters
  if values.any lib.emailIsMatch then
    self.blocked .piiDetected "request contains an email address" "pii.email" 0
  else match self.blockedTerms.findIdx? (fun term => values.any (containsTerm lib term)) with
    | some index =>
      self.blocked .contentBlocked "request matches a blocked content term"
        ("content.term." ++ toString index) 0
    | none =>
      let estimatedTokens := divCeil4 size
      if context.tokenBudget > 0 ∧ estimatedTokens > context.tokenBudget then
        { self.failure .tokenBudgetExceeded "request exceeds token budget" with estimatedTokens }
      else
        { decision := .allow
          errorCode := .unspecified
          reason := ""
          matchedRuleIds := []
          cacheKey := calculate lib request
          estimatedTokens
          policyVersion := self.config.policyVersion }

/-- The rules on a request that is not too large. -/
def evaluateValidated (lib : Externals) (self : PolicyEngine) (context : RequestContext)
    (request : ModelRequest J) : Except String PolicyResult := do
  if request.model = "" ∨ request.messages = [] then
    throw "model and messages are required"
  let messages ← request.messages.mapM (self.parseMessage field)
  let tools ← parseBoundedJson field request.toolsJson self.config.maxJsonDepth
  let generationParameters ←
    parseBoundedJson field request.generationParametersJson self.config.maxJsonDepth
  return self.judge lib context (requestSize field request)
    { model := request.model, messages, tools, generationParameters }

/-- `evaluate`: the result for a request. -/
def evaluate (lib : Externals) (self : PolicyEngine) (input : EvaluateRequestRequest J) :
    PolicyResult :=
  match input.context, input.request with
  | none, _ => self.failure .invalidArgument "missing request context"
  | _, none => self.failure .invalidArgument "missing model request"
  | some context, some request =>
    if requestSize field request > effectiveMaxRequestBytes self.config context then
      self.failure .requestTooLarge "request exceeds configured byte limit"
    else match self.evaluateValidated field lib context request with
      | .ok result => result
      | .error reason => self.failure .invalidArgument reason

end PolicyEngine

end Engine

end Kavora.Policy
