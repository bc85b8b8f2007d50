import Kavora.EngineEvents.VLLM

/-!
# The hash resolver (`engine_events/vllm_hash.py`)

The resolver hashes the tokens of a request as vLLM does: block after block, each with the hash of
the block before it. What is imported of vLLM is a `KVCacheUtils`.

* `VLLMBlockHasher.hashTokens`: the cache keys of the full blocks of some tokens.
* `KVCacheUtils.blocks`: these blocks, as pairs of the parent's hash and the block's tokens;
  `hashTokens_keys` says that the keys are theirs.
* `KVCacheUtils.Exact`: a published hash tells its block. Then so does its cache key
  (`Exact.key_injective`).
-/

namespace Kavora.EngineEvents

open Lib Lib.Go

/-- `bytes | int`, as `maybe_convert_block_hash` returns it. -/
inductive ExternalBlockHash where
  | bytes (data : Bytes)
  | int (n : Int)
  deriving DecidableEq, Repr

/-- `vllm.v1.core.kv_cache_utils` with the hash function that is chosen by its name. -/
structure KVCacheUtils (H : Type) where
  hashBlockTokens : Option H → List Int → H
  maybeConvertBlockHash : H → ExternalBlockHash

/-- The keys of the full blocks of a prompt. -/
structure HashResult where
  cacheKeys : List String
  tokenCount : Nat
  fullBlocks : Nat
  deriving DecidableEq, Repr

/-- A `VLLMBlockHasher`; its constructor rejects a block size that is not positive. -/
structure VLLMBlockHasher (H : Type) where
  blockSize : Nat
  utils : KVCacheUtils H
  positive : 0 < blockSize

/-- `external.hex()` or `str(external)`. -/
def ExternalBlockHash.encoded : ExternalBlockHash → String
  | .bytes data => hex data
  | .int n => toString n

/-- A hash as it stands in a decoded payload. -/
def ExternalBlockHash.value {T : Type} : ExternalBlockHash → PyValue T
  | .bytes data => .bytes data
  | .int n => .int n

namespace VLLMBlockHasher

variable {H : Type}

/-- The loop over the full blocks; `count` of them are left. -/
def cacheKeysFrom (hasher : VLLMBlockHasher H) (tokenIDs : List Int) :
    Nat → Nat → Option H → List String
  | 0, _, _ => []
  | count + 1, blockIndex, parent =>
    let start := blockIndex * hasher.blockSize
    let block := (tokenIDs.drop start).take hasher.blockSize
    let parent := hasher.utils.hashBlockTokens parent block
    let external := hasher.utils.maybeConvertBlockHash parent
    ("vllm:block:" ++ external.encoded) ::
      hasher.cacheKeysFrom tokenIDs count (blockIndex + 1) (some parent)

/-- `hash_tokens`: one key for each full block. -/
def hashTokens (hasher : VLLMBlockHasher H) (tokenIDs : List Int) : HashResult :=
  let fullBlocks := tokenIDs.length / hasher.blockSize
  { cacheKeys := hasher.cacheKeysFrom tokenIDs fullBlocks 0 none
    tokenCount := tokenIDs.length
    fullBlocks }

end VLLMBlockHasher

/-! ## Blocks -/

/-- A block: the hash of the block before it and its tokens. -/
abbrev Block (H : Type) := Option H × List Int

namespace KVCacheUtils

variable {H : Type} {utils : KVCacheUtils H}

/-- The hash of a block after its parent. -/
def hash (utils : KVCacheUtils H) (block : Block H) : H :=
  utils.hashBlockTokens block.1 block.2

/-- What the engine publishes of a block. -/
def published (utils : KVCacheUtils H) (block : Block H) : ExternalBlockHash :=
  utils.maybeConvertBlockHash (utils.hash block)

/-- The key under which a block is published. -/
def key (utils : KVCacheUtils H) (block : Block H) : String :=
  "vllm:block:" ++ (utils.published block).encoded

/-- The blocks of a list of token blocks. -/
def chain (utils : KVCacheUtils H) : Option H → List (List Int) → List (Block H)
  | _, [] => []
  | parent, tokens :: rest =>
    (parent, tokens) :: utils.chain (some (utils.hashBlockTokens parent tokens)) rest

/-- The full blocks of some tokens. -/
def blocks (utils : KVCacheUtils H) (blockSize : Nat) (tokens : List Int) : List (Block H) :=
  utils.chain none <| (List.range (tokens.length / blockSize)).map fun i =>
    (tokens.drop (i * blockSize)).take blockSize

theorem chain_length : ∀ (parent : Option H) (tokens : List (List Int)),
    (utils.chain parent tokens).length = tokens.length
  | _, [] => rfl
  | _, _ :: rest => congrArg (· + 1) (chain_length _ rest)

@[simp] theorem blocks_length (blockSize : Nat) (tokens : List Int) :
    (utils.blocks blockSize tokens).length = tokens.length / blockSize := by
  rw [blocks, chain_length, List.length_map, List.length_range]

/-- The block hash in its published form is an injective function of the parent's hash and the
tokens, and all of it is bytes, or all of it non-negative integers. -/
structure Exact (utils : KVCacheUtils H) : Prop where
  injective : Function.Injective utils.published
  uniform : (∀ block, ∃ data, utils.published block = .bytes data) ∨
    ∀ block, ∃ n : Nat, utils.published block = .int n

end KVCacheUtils

/-! ## Keys -/

theorem hexDigit_injective {n m : Nat} (hn : n < 16) (hm : m < 16)
    (h : hexDigit n = hexDigit m) : n = m := by
  have hall : ∀ n < 16, ∀ m < 16, hexDigit n = hexDigit m → n = m := by decide
  exact hall n hn m hm h

theorem hexChars_injective : Function.Injective fun data : Bytes =>
    data.flatMap fun b => [hexDigit (b.toNat / 16), hexDigit (b.toNat % 16)]
  | [], [], _ => rfl
  | [], _ :: _, h => by cases h
  | _ :: _, [], h => by cases h
  | b :: data, b' :: data', h => by
    obtain ⟨hhigh, h⟩ := List.cons.inj h
    obtain ⟨hlow, h⟩ := List.cons.inj h
    have hb := b.toNat_lt
    have hb' := b'.toNat_lt
    have hhigh := hexDigit_injective (by omega) (by omega) hhigh
    have hlow := hexDigit_injective (by omega) (by omega) hlow
    have hbyte : b = b' := UInt8.toNat_inj.mp (by omega)
    rw [hbyte, hexChars_injective h]

theorem hex_injective : Function.Injective hex :=
  fun _ _ h => hexChars_injective (String.ofList_injective h)

namespace KVCacheUtils

variable {H : Type} {utils : KVCacheUtils H}

/-- A cache key tells its block. -/
theorem Exact.key_injective (h : utils.Exact) : Function.Injective utils.key := by
  intro block block' hkey
  have hencoded : (utils.published block).encoded = (utils.published block').encoded :=
    (String.append_right_inj "vllm:block:").mp hkey
  refine h.injective ?_
  rcases h.uniform with hbytes | hints
  · obtain ⟨data, hdata⟩ := hbytes block
    obtain ⟨data', hdata'⟩ := hbytes block'
    rw [hdata, hdata'] at hencoded ⊢
    rw [hex_injective hencoded]
  · obtain ⟨n, hn⟩ := hints block
    obtain ⟨n', hn'⟩ := hints block'
    rw [hn, hn'] at hencoded ⊢
    rw [natText_injective hencoded]

theorem key_ne (utils : KVCacheUtils H) (block : Block H) : utils.key block ≠ "" := by
  intro h
  have h := congrArg String.toList h
  unfold key at h
  rw [String.toList_append] at h
  cases h

/-- The adapter gives a published hash the same key. -/
theorem Exact.cacheKey_published {T : Type} (h : utils.Exact) (block : Block H) :
    cacheKey (T := T) (utils.published block).value = .ok (utils.key block) := by
  unfold key
  rcases h.uniform with hbytes | hints
  · obtain ⟨data, hdata⟩ := hbytes block
    rw [hdata]
    rfl
  · obtain ⟨n, hn⟩ := hints block
    rw [hn]
    dsimp only [ExternalBlockHash.value, cacheKey]
    rw [if_pos (Int.natCast_nonneg n)]
    rfl

end KVCacheUtils

/-! ## The resolver's keys -/

namespace VLLMBlockHasher

variable {H : Type} {hasher : VLLMBlockHasher H}

/-- The loop from a block on gives the keys of the blocks from there. -/
theorem cacheKeysFrom_eq (tokenIDs : List Int) : ∀ (count blockIndex : Nat) (parent : Option H),
    hasher.cacheKeysFrom tokenIDs count blockIndex parent =
      (hasher.utils.chain parent ((List.range' blockIndex count).map fun i =>
        (tokenIDs.drop (i * hasher.blockSize)).take hasher.blockSize)).map hasher.utils.key
  | 0, _, _ => rfl
  | count + 1, blockIndex, parent => by
    rw [List.range'_succ, List.map_cons]
    exact congrArg _ (cacheKeysFrom_eq tokenIDs count (blockIndex + 1) _)

/-- The cache keys of some tokens are those of their full blocks. -/
theorem hashTokens_keys (tokenIDs : List Int) :
    (hasher.hashTokens tokenIDs).cacheKeys =
      (hasher.utils.blocks hasher.blockSize tokenIDs).map hasher.utils.key := by
  unfold hashTokens KVCacheUtils.blocks
  rw [List.range_eq_range']
  exact cacheKeysFrom_eq tokenIDs _ 0 none

end VLLMBlockHasher

end Kavora.EngineEvents
