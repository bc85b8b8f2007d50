import Kavora.EngineEvents.VLLMHash
import Kavora.Lib.JsonStream
import Kavora.Lib.PyDict

/-!
# The hash resolver as a service (`engine_events/vllm_hash.py`, `gateway/internal/gateway/cachekeys.go`)

The gateway sends the body of a request to the service, which has vLLM tokenize it and answers with the
cache keys of its full blocks. The gateway reads at most `2 ^ 20` bytes of the answer and checks it.

* `TokenizeHashService.resolve`, `cacheKeysApp`: the service.
* `resolve`: the gateway's side, `HTTPVLLMCacheKeyResolver.Resolve`.
* `resolve_app`: the gateway gets the keys of all the full blocks or an error.

A token of `/tokenize` that is a bool, which Python takes for an integer, counts as 0 or 1.
-/

namespace Kavora.EngineEvents

open Lib Lib.Go

/-! ## The service -/

/-- What the service fails with: an error that it answers with 502, or one that it does not catch. -/
inductive ServiceError where
  | caught
  | uncaught
  deriving DecidableEq, Repr

/-- `message.get("content") if isinstance(message, dict) else None` is a list with a part that is no
text. -/
def multimodal (message : Json) : Bool :=
  match message.member "content" with
  | some (.array parts) => parts.any fun part => !Json.isText (part.member "type") "text"
  | _ => false

/-- What `for message in …` goes through; strings stand for the characters and the keys. -/
def iterate : Option Json → Except ServiceError (List Json)
  | none => .ok []
  | some (.array values) => .ok values
  | some (.string _) => .ok []
  | some (.object _) => .ok []
  | some _ => .error .uncaught

/-- `request.get(name) is not None` -/
def given (request : Json) (name : String) : Bool :=
  match request.member name with
  | none => false
  | some .null => false
  | some _ => true

/-- `_validate_supported_request` -/
def validateSupportedRequest (request : Json) : Except ServiceError Unit := do
  if ["cache_salt", "prompt_embeds", "lora_request"].any (given request) then throw .caught
  let messages ← iterate (request.member "messages")
  if messages.any multimodal then throw .caught

/-- The body that is sent to `/tokenize`. -/
def tokenizePayload (request : Json) : Json :=
  .object (["model", "messages", "tools"].filterMap fun name =>
    (request.member name).map fun value => Go.member name value)

/-- What comes of the call of `/tokenize`. -/
inductive TokenizeReply where
  /-- An error of the transport or the status, or a body that is no JSON. -/
  | failed
  | answered (body : Json)

/-- The tokens of an answer; `none` if they are no list of integers from 0 on. -/
def tokensOf (body : Json) : Option (List Int) :=
  match body.member "tokens" with
  | some (.array tokens) => tokens.mapM fun token => (token.toInt).filter (0 ≤ ·)
  | _ => none

variable {H : Type}

/-- The service: a hasher behind a tokenizer. -/
structure TokenizeHashService (H : Type) where
  hasher : VLLMBlockHasher H
  tokenize : Json → TokenizeReply

namespace TokenizeHashService

/-- `request` is a dict. -/
def resolve (service : TokenizeHashService H) (request : Json) : Except ServiceError HashResult := do
  validateSupportedRequest request
  match service.tokenize (tokenizePayload request) with
  | .failed => throw .caught
  | .answered (.object members) =>
    match tokensOf (.object members) with
    | none => throw .caught
    | some tokens => return service.hasher.hashTokens tokens
  | .answered _ => throw .uncaught

end TokenizeHashService

/-- The document of an answer. Its keys need no escapes, so that Python and Go write it alike. -/
def resultDocument (result : HashResult) : Json :=
  .object
    [ Go.member "cache_keys" (.array (result.cacheKeys.map ofString)),
      Go.member "token_count" (.number (toString result.tokenCount)),
      Go.member "full_blocks" (.number (toString result.fullBlocks))]

/-- The status and the body of the app's answer to a request. The body of an error is left out. -/
def cacheKeysApp (service : TokenizeHashService H) (request : Json) : Nat × Bytes :=
  match service.resolve request with
  | .ok result => (200, Utf8.encode (resultDocument result).print)
  | .error .caught => (502, [])
  | .error .uncaught => (500, [])

/-! ## The gateway -/

/-- What the gateway reads of the service's answer. -/
structure ResolvedCacheKeys where
  cacheKeys : List String
  tokenCount : Int64
  fullBlocks : Int64
  deriving DecidableEq

namespace ResolvedCacheKeys

/-- The fields of its JSON object. -/
def fields : List (Go.Field ResolvedCacheKeys) :=
  [ field "cache_keys" cacheKeys fun a s => { s with cacheKeys := a },
    field "token_count" tokenCount fun a s => { s with tokenCount := a },
    field "full_blocks" fullBlocks fun a s => { s with fullBlocks := a } ]

instance : Marshal ResolvedCacheKeys where
  zero := { cacheKeys := [], tokenCount := 0, fullBlocks := 0 }
  marshal := marshalStruct fields
  unmarshal := unmarshalStruct fields

end ResolvedCacheKeys

/-- A key with something behind the prefix. -/
def validKey (key : String) : Bool :=
  decide ((utf8 "vllm:block:").length < (utf8 key).length) && hasPrefix key "vllm:block:"

/-- `Resolve` on an answer with a status and a body. -/
def resolve (statusCode : Nat) (body : Bytes) : Option ResolvedCacheKeys :=
  if statusCode < 200 ∨ statusCode ≥ 300 then none
  else
    match decodeBytes ResolvedCacheKeys (body.take (2 ^ 20)) with
    | none => none
    | some result =>
      if result.tokenCount < 0 ∨ result.fullBlocks < 0 ∨
          result.fullBlocks.toInt ≠ result.cacheKeys.length then none
      else if result.cacheKeys.all validKey then some result
      else none

/-! ## The answer of the service -/

section

variable (result : HashResult)

theorem readableValues_ofString (l : List String) : Json.ReadableValues (l.map ofString) := by
  induction l with
  | nil => trivial
  | cons s l ih => exact ⟨rfl, ih⟩

theorem resultDocument_readable : (resultDocument result).Readable := by
  have hnumber : ∀ n : Nat, Json.isNumber (toString n).toList = true := fun n => by
    rw [natText_toList]
    exact isNumber_toDigits n
  exact ⟨rfl, readableValues_ofString _, rfl, hnumber _, rfl, hnumber _, trivial⟩

theorem resultDocument_nesting : (resultDocument result).nesting ≤ 2 := by
  have hkeys : Json.nestingList (result.cacheKeys.map ofString) = 0 := by
    induction result.cacheKeys with
    | nil => rfl
    | cons key keys ih =>
      rw [List.map_cons, Json.nestingList, ih]
      rfl
  simp [resultDocument, Json.nesting, Json.nestingMembers, hkeys, Go.member]

theorem unmarshalList_ofString (l : List String) :
    unmarshalList (α := String) (.array (l.map ofString)) = some l := by
  show (l.map ofString).mapM _ = _
  induction l with
  | nil => rfl
  | cons s l ih =>
    rw [List.map_cons, List.mapM_cons, ih]
    rfl

theorem parseInt64_toString (n : Nat) :
    parseInt64 (toString n).toList = if n < 2 ^ 63 then some (Int64.ofInt n) else none := by
  have htext : (toString n).toList = intText n := by
    rw [natText_toList, intText, if_neg (by omega), Int.natAbs_natCast]
  unfold parseInt64
  rw [htext, parseInt_intText]
  dsimp only
  by_cases hlt : n < 2 ^ 63
  · rw [if_pos hlt, if_pos ⟨by omega, by omega⟩]
  · rw [if_neg hlt, if_neg (by omega)]

/-- What the gateway reads in the answer. -/
theorem readValue_resultDocument :
    readValue ResolvedCacheKeys (resultDocument result) =
      if result.tokenCount < 2 ^ 63 ∧ result.fullBlocks < 2 ^ 63 then
        some
          { cacheKeys := result.cacheKeys
            tokenCount := Int64.ofInt result.tokenCount
            fullBlocks := Int64.ofInt result.fullBlocks }
      else none := by
  have hnesting := resultDocument_nesting result
  unfold readValue
  rw [if_neg (by omega)]
  have hkeys : (field "cache_keys" ResolvedCacheKeys.cacheKeys
      fun a s => { s with cacheKeys := a }).assign (.array (result.cacheKeys.map ofString))
      Marshal.zero = some { cacheKeys := result.cacheKeys, tokenCount := 0, fullBlocks := 0 } := by
    show (unmarshalList (.array (result.cacheKeys.map ofString))).map _ = _
    rw [unmarshalList_ofString]
    rfl
  show List.foldlM (assignMember ResolvedCacheKeys.fields) _ _ = _
  rw [foldlM_known rfl, hkeys, Option.bind_some, foldlM_known rfl]
  show ((parseInt64 (toString result.tokenCount).toList).map _).bind _ = _
  rw [parseInt64_toString]
  by_cases htokens : result.tokenCount < 2 ^ 63
  · rw [if_pos htokens, Option.map_some, Option.bind_some, foldlM_known rfl]
    show ((parseInt64 (toString result.fullBlocks).toList).map _).bind _ = _
    rw [parseInt64_toString]
    by_cases hblocks : result.fullBlocks < 2 ^ 63
    · rw [if_pos hblocks, if_pos ⟨htokens, hblocks⟩]
      rfl
    · rw [if_neg hblocks, if_neg fun h => hblocks h.2]
      rfl
  · rw [if_neg htokens, if_neg fun h => htokens h.1]
    rfl

end

/-! ## ASCII -/

/-- All characters of a text are ASCII. -/
def Ascii (text : List Char) : Prop := ∀ c ∈ text, c.toNat < 128

theorem Ascii.of_all {text : List Char} (h : text.all (·.toNat < 128) = true) : Ascii text :=
  fun c hc => of_decide_eq_true (List.all_eq_true.mp h c hc)

theorem ascii_hexDigit {n : Nat} (hn : n < 16) :
    (Json.hexDigit n).toNat < 128 ∧ (hexDigit n).toNat < 128 := by
  have hall : ∀ n < 16, (Json.hexDigit n).toNat < 128 ∧ (hexDigit n).toNat < 128 := by decide
  exact hall n hn

theorem ascii_escapeChar {c : Char} (hc : c.toNat < 128) :
    Ascii (Json.escapeChar c) := by
  have hunit : Ascii (Json.escapeUnit c.toNat) := by
    simp only [Ascii, Json.escapeUnit, List.mem_cons, List.not_mem_nil, or_false]
    rintro c' (rfl | rfl | rfl | rfl | rfl | rfl)
    · decide
    · decide
    · exact (ascii_hexDigit (by omega)).1
    · exact (ascii_hexDigit (by omega)).1
    · exact (ascii_hexDigit (by omega)).1
    · exact (ascii_hexDigit (by omega)).1
  unfold Json.escapeChar
  split_ifs
  all_goals first
    | exact hunit
    | exact .of_all rfl
    | exact List.forall_mem_singleton.mpr hc

theorem ascii_quote {s : String} (h : Ascii s.toList) : Ascii (Json.quote s) := by
  intro c hc
  simp only [Json.quote, List.mem_cons, List.mem_append, List.mem_flatMap, List.not_mem_nil,
    or_false] at hc
  rcases hc with rfl | ⟨c', hc', hc⟩ | rfl
  · decide
  · exact ascii_escapeChar (h c' hc') c hc
  · decide

theorem ascii_natText (n : Nat) : Ascii (toString n).toList := by
  intro c hc
  rw [natText_toList] at hc
  have hdigit := Nat.isDigit_of_mem_toDigits (by decide) (by decide) hc
  simp only [Char.isDigit, Bool.and_eq_true, decide_eq_true_eq] at hdigit
  have hle : c.val.toNat ≤ 57 := hdigit.2
  have hvalue : c.toNat = c.val.toNat := rfl
  omega

theorem ascii_encoded (external : ExternalBlockHash) : Ascii external.encoded.toList := by
  cases external with
  | bytes data =>
    intro c hc
    rw [ExternalBlockHash.encoded, hex, String.toList_ofList] at hc
    obtain ⟨b, -, hc⟩ := List.mem_flatMap.mp hc
    have hb := b.toNat_lt
    simp only [List.mem_cons, List.not_mem_nil, or_false] at hc
    rcases hc with rfl | rfl
    · exact (ascii_hexDigit (by omega)).2
    · exact (ascii_hexDigit (by omega)).2
  | int n =>
    cases n with
    | ofNat n => exact ascii_natText n
    | negSucc n =>
      intro c hc
      have htext : (toString (Int.negSucc n)).toList = '-' :: (toString (n + 1)).toList :=
        String.toList_append
      rw [ExternalBlockHash.encoded, htext] at hc
      rcases List.mem_cons.mp hc with rfl | hc
      · decide
      · exact ascii_natText _ c hc

theorem ascii_printValues {l : List String} (h : ∀ s ∈ l, Ascii s.toList) :
    Ascii (Json.printValues (l.map ofString)) := by
  induction l with
  | nil =>
    intro c hc
    obtain rfl := List.mem_singleton.mp hc
    decide
  | cons s l ih =>
    obtain ⟨hs, hl⟩ := List.forall_mem_cons.mp h
    intro c hc
    rw [List.map_cons, Json.printValues] at hc
    rcases List.mem_cons.mp hc with rfl | hc
    · decide
    · rcases List.mem_append.mp hc with hc | hc
      · exact ascii_quote hs c hc
      · exact ih hl c hc

theorem Ascii.append {text text' : List Char} (h : Ascii text) (h' : Ascii text') :
    Ascii (text ++ text') := List.forall_mem_append.mpr ⟨h, h'⟩

theorem ascii_resultDocument {result : HashResult} (h : ∀ key ∈ result.cacheKeys, Ascii key.toList) :
    Ascii (resultDocument result).print := by
  have hkeys : Ascii (Json.array (result.cacheKeys.map ofString)).print := by
    cases hlist : result.cacheKeys with
    | nil => exact .of_all rfl
    | cons key keys =>
      rw [hlist] at h
      obtain ⟨hkey, hkeys⟩ := List.forall_mem_cons.mp h
      have htext : (Json.array ((key :: keys).map ofString)).print =
          '[' :: (Json.quote key ++ Json.printValues (keys.map ofString)) := rfl
      rw [htext]
      exact List.forall_mem_cons.mpr ⟨by decide,
        Ascii.append (ascii_quote hkey) (ascii_printValues hkeys)⟩
  have hprint : (resultDocument result).print =
      "\x7b\"cache_keys\":".toList ++ ((Json.array (result.cacheKeys.map ofString)).print ++
        (",\"token_count\":".toList ++ ((toString result.tokenCount).toList ++
          (",\"full_blocks\":".toList ++ ((toString result.fullBlocks).toList ++ "\x7d".toList))))) := by
    simp [resultDocument, Json.print, Json.printMembers, Go.member, Json.quote, Json.escapeChar]
  rw [hprint]
  exact .append (.of_all rfl) (.append hkeys (.append (.of_all rfl) (.append (ascii_natText _)
    (.append (.of_all rfl) (.append (ascii_natText _) (.of_all rfl))))))

/-! ## What the gateway gets -/

theorem length_utf8 (s : String) : (utf8 s).length = s.utf8ByteSize := Array.length_toList

theorem validKey_iff (encoded : String) : validKey ("vllm:block:" ++ encoded) = true ↔ encoded ≠ "" := by
  have hmarked : hasPrefix ("vllm:block:" ++ encoded) "vllm:block:" = true := by
    unfold hasPrefix
    rw [String.toList_append]
    exact List.isPrefixOf_iff_prefix.mpr (List.prefix_append _ _)
  have hempty : encoded.utf8ByteSize = 0 ↔ encoded = "" := String.utf8ByteSize_eq_zero_iff
  unfold validKey
  rw [hmarked, length_utf8, length_utf8, String.utf8ByteSize_append, Bool.and_true,
    decide_eq_true_eq, ne_eq, ← hempty]
  omega

theorem ofInt_toInt {n : Nat} (h : n < 2 ^ 63) : (Int64.ofInt n).toInt = n := by
  rw [Int64.toInt_ofInt]
  exact Go.wrap64_of_fits (by omega) (by omega)

/-- The answer of the service to a request that it could resolve. -/
theorem resolve_resultDocument {hashed : HashResult} (hascii : ∀ key ∈ hashed.cacheKeys, Ascii key.toList)
    (hblocks : hashed.fullBlocks = hashed.cacheKeys.length)
    (htokens : hashed.fullBlocks ≤ hashed.tokenCount) (result : ResolvedCacheKeys) :
    resolve 200 (Utf8.encode (resultDocument hashed).print) = some result ↔
      (Utf8.encode (resultDocument hashed).print).length ≤ 2 ^ 20 ∧
      (∀ key ∈ hashed.cacheKeys, validKey key = true) ∧ result.cacheKeys = hashed.cacheKeys ∧
      result.tokenCount.toInt = hashed.tokenCount ∧ result.fullBlocks.toInt = hashed.fullBlocks := by
  have hobject : ∃ members, resultDocument hashed = .object members := ⟨_, rfl⟩
  unfold resolve
  rw [if_neg (by omega)]
  by_cases hlength : (Utf8.encode (resultDocument hashed).print).length ≤ 2 ^ 20
  · rw [List.take_of_length_le hlength, decodeBytes_printed (resultDocument_readable hashed),
      readValue_resultDocument]
    by_cases hfits : hashed.tokenCount < 2 ^ 63
    · have hcount := ofInt_toInt hfits
      have hfull := ofInt_toInt (n := hashed.fullBlocks) (by omega)
      have hconsistent : ¬ (Int64.ofInt hashed.tokenCount < 0 ∨ Int64.ofInt hashed.fullBlocks < 0 ∨
          (Int64.ofInt hashed.fullBlocks).toInt ≠ hashed.cacheKeys.length) := by
        have hzero : (0 : Int64).toInt = 0 := rfl
        rw [Int64.lt_iff_toInt_lt, Int64.lt_iff_toInt_lt, hcount, hfull, hzero]
        omega
      rw [if_pos ⟨hfits, by omega⟩]
      dsimp only
      rw [if_neg hconsistent]
      simp only [List.all_eq_true]
      constructor
      · intro h
        split at h
        · rename_i hvalid
          cases h
          exact ⟨hlength, hvalid, rfl, hcount, hfull⟩
        · cases h
      · rintro ⟨-, hvalid, hkeys, htoken, hblock⟩
        rw [if_pos hvalid]
        obtain ⟨keys, tokenCount, fullBlocks⟩ := result
        dsimp only at hkeys htoken hblock
        rw [hkeys, Int64.toInt_inj.mp (htoken.trans hcount.symm),
          Int64.toInt_inj.mp (hblock.trans hfull.symm)]
    · rw [if_neg fun h => hfits h.1]
      refine ⟨fun h => (by cases h), fun h => ?_⟩
      have htoken := h.2.2.2.1
      have hsmall := result.tokenCount.toInt_lt
      omega
  · obtain ⟨members, hmembers⟩ := hobject
    have hreadable := resultDocument_readable hashed
    have hprint := ascii_resultDocument hascii
    rw [hmembers] at hlength hreadable hprint ⊢
    rw [decodeBytes_cut hreadable hprint (by omega)]
    refine ⟨fun h => ?_, fun h => absurd h.1 hlength⟩
    cases h

/-- What the service resolves. -/
theorem resolve_ok {service : TokenizeHashService H} {request : Json} {hashed : HashResult} :
    service.resolve request = .ok hashed ↔ validateSupportedRequest request = .ok () ∧
      ∃ members tokens,
        service.tokenize (tokenizePayload request) = .answered (.object members) ∧
        tokensOf (.object members) = some tokens ∧ hashed = service.hasher.hashTokens tokens := by
  unfold TokenizeHashService.resolve
  cases validateSupportedRequest request with
  | error err => simp [bind, Except.bind]
  | ok _ =>
    cases service.tokenize (tokenizePayload request) with
    | failed => simp [bind, Except.bind, throw, throwThe, MonadExceptOf.throw]
    | answered body =>
      cases body with
      | object members =>
        cases htokens : tokensOf (.object members) <;>
          simp [htokens, bind, Except.bind, throw, throwThe, MonadExceptOf.throw, pure, Except.pure,
            eq_comm]
      | _ => simp [bind, Except.bind, throw, throwThe, MonadExceptOf.throw]

/-- **The gateway gets the keys of all the full blocks, or an error**: a request that the service does
not support, a failed call, an empty hash and an answer of more than `2 ^ 20` bytes leave it without
keys. -/
theorem resolve_app (service : TokenizeHashService H) (request : Json) (result : ResolvedCacheKeys) :
    resolve (cacheKeysApp service request).1 (cacheKeysApp service request).2 = some result ↔
      validateSupportedRequest request = .ok () ∧ ∃ members tokens,
        service.tokenize (tokenizePayload request) = .answered (.object members) ∧
        tokensOf (.object members) = some tokens ∧
        (cacheKeysApp service request).2.length ≤ 2 ^ 20 ∧
        (∀ block ∈ service.hasher.utils.blocks service.hasher.blockSize tokens,
          (service.hasher.utils.published block).encoded ≠ "") ∧
        result.cacheKeys = (service.hasher.utils.blocks service.hasher.blockSize tokens).map
          service.hasher.utils.key ∧
        result.tokenCount.toInt = tokens.length ∧
        result.fullBlocks.toInt = (tokens.length / service.hasher.blockSize : Nat) := by
  cases hresolve : service.resolve request with
  | error err =>
    have hnone : resolve (cacheKeysApp service request).1 (cacheKeysApp service request).2 = none := by
      unfold cacheKeysApp
      rw [hresolve]
      cases err <;> rfl
    rw [hnone]
    refine ⟨fun h => (by cases h), ?_⟩
    rintro ⟨hvalid, members, tokens, htokenize, htokens, -⟩
    rw [resolve_ok.mpr ⟨hvalid, members, tokens, htokenize, htokens, rfl⟩] at hresolve
    cases hresolve
  | ok hashed =>
    have happ : cacheKeysApp service request = (200, Utf8.encode (resultDocument hashed).print) := by
      unfold cacheKeysApp
      rw [hresolve]
    obtain ⟨hvalid, members, tokens, htokenize, htokens, rfl⟩ := resolve_ok.mp hresolve
    have hkeys : (service.hasher.hashTokens tokens).cacheKeys = _ :=
      VLLMBlockHasher.hashTokens_keys tokens
    have hascii : ∀ key ∈ (service.hasher.hashTokens tokens).cacheKeys, Ascii key.toList := by
      intro key hkey
      rw [hkeys] at hkey
      obtain ⟨block, -, rfl⟩ := List.mem_map.mp hkey
      unfold KVCacheUtils.key
      rw [String.toList_append]
      exact Ascii.append (.of_all rfl) (ascii_encoded _)
    have hblocks : (service.hasher.hashTokens tokens).fullBlocks =
        (service.hasher.hashTokens tokens).cacheKeys.length := by
      rw [hkeys, List.length_map, KVCacheUtils.blocks_length]
      rfl
    have hfewer : (service.hasher.hashTokens tokens).fullBlocks ≤
        (service.hasher.hashTokens tokens).tokenCount := Nat.div_le_self _ _
    have hvalidKeys : (∀ key ∈ (service.hasher.hashTokens tokens).cacheKeys, validKey key = true) ↔
        ∀ block ∈ service.hasher.utils.blocks service.hasher.blockSize tokens,
          (service.hasher.utils.published block).encoded ≠ "" := by
      rw [hkeys, List.forall_mem_map]
      exact forall₂_congr fun block _ => validKey_iff _
    rw [happ, resolve_resultDocument hascii hblocks hfewer, hvalidKeys, hkeys]
    constructor
    · rintro ⟨hlength, hencoded, hresult, hcount, hfull⟩
      exact ⟨hvalid, members, tokens, htokenize, htokens, hlength, hencoded, hresult, hcount, hfull⟩
    · rintro ⟨-, members', tokens', htokenize', htokens', hlength, hencoded, hresult, hcount, hfull⟩
      obtain rfl : members = members' := by
        rw [htokenize] at htokenize'
        exact Json.object.inj (TokenizeReply.answered.inj htokenize')
      obtain rfl : tokens = tokens' := by
        rw [htokens] at htokens'
        exact Option.some.inj htokens'
      exact ⟨hlength, hencoded, hresult, hcount, hfull⟩

end Kavora.EngineEvents
