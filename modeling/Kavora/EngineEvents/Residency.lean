import Mathlib.Data.Set.Image
import Kavora.EngineEvents.Prepared
import Kavora.EngineEvents.VLLMHash

/-!
# Resident blocks

An engine stores blocks, removes them and clears them all. Its history says which ones are
resident. What the adapter makes of the history says the same of their cache keys.

* `resident`: the resident blocks after a history.
* `Publishes`: the engine event of an operation.
* `Keyed`: an event whose key and tokens are those of a block.
* `engineEvents_keys`: the adapter's events do to the keys what the operations do to the blocks.
-/

namespace Kavora.EngineEvents

open Lib Router

/-- What an engine does to its blocks. -/
inductive BlockOperation (H : Type) where
  | stored (blocks : List (Block H))
  | removed (blocks : List (Block H))
  | cleared

section

variable {H : Type}

/-- The resident blocks after an operation. -/
def BlockOperation.apply (resident : Set (Block H)) : BlockOperation H → Set (Block H)
  | .stored blocks => resident ∪ {block | block ∈ blocks}
  | .removed blocks => resident \ {block | block ∈ blocks}
  | .cleared => ∅

/-- The blocks that are in the engine's cache after its operations. -/
def resident (history : List (BlockOperation H)) : Set (Block H) :=
  history.foldl BlockOperation.apply ∅

end

/-- The keys of a backend after an event. -/
def applyKey (keys : Set String) (event : Event) : Set String :=
  match event.operation with
  | .clear => ∅
  | .remove => keys \ {event.cacheKey}
  | _ => insert event.cacheKey keys

variable {T H : Type} [PyFloat T]

/-- The engine event of an operation. -/
def Publishes (utils : KVCacheUtils H) (blockSize : Nat) (raw : PyValue T) :
    BlockOperation H → Prop
  | .stored blocks => ∃ parent tokens size rest,
    raw = .list (.str "BlockStored" ::
      .list (blocks.map fun block => (utils.published block).value) ::
        parent :: tokens :: size :: rest) ∧ PyFloat.toInt size = some (blockSize : Int)
  | .removed blocks => ∃ rest,
    raw = .list (.str "BlockRemoved" ::
      .list (blocks.map fun block => (utils.published block).value) :: rest)
  | .cleared => ∃ rest, raw = .list (.str "AllBlocksCleared" :: rest)

/-- An event names a key where its operation needs one, and stores blocks of one size. -/
structure Keyed (blockSize : Nat) (event : Event) : Prop where
  key : event.operation = .clear ∨ event.cacheKey ≠ ""
  tokens : event.operation = .store → event.matchedTokens = blockSize

variable {a : VLLMEventAdapter T} {header : VLLMEventAdapter.Header T} {utils : KVCacheUtils H}
  {blockSize : Nat}

/-- An event that names a block. -/
def Names (utils : KVCacheUtils H) (operation : Operation) (tokens : Int) (block : Block H)
    (event : Event) : Prop :=
  event.operation = operation ∧ event.cacheKey = utils.key block ∧ event.matchedTokens = tokens

/-- The events of some blocks. -/
theorem blockEvents_names (h : utils.Exact) {operation : Operation} {eventIndex : Nat}
    {tokens : Int} : ∀ {blocks : List (Block H)} {blockIndex : Nat} {events : List Event},
    a.blockEvents header operation eventIndex tokens blockIndex
        (blocks.map fun block => (utils.published block).value) = .ok events →
    List.Forall₂ (Names utils operation tokens) blocks events
  | [], _, _, hevents => by
    cases hevents
    exact .nil
  | block :: blocks, blockIndex, events, hevents => by
    obtain ⟨key, hkey, hevents⟩ := bind_ok hevents
    obtain ⟨event, hevent, hevents⟩ := bind_ok hevents
    obtain ⟨rest, hrest, hevents⟩ := bind_ok hevents
    cases hevents
    rw [h.cacheKey_published] at hkey
    cases hkey
    obtain ⟨_, -, rfl⟩ := VLLMEventAdapter.event_ok hevent
    exact .cons ⟨rfl, rfl, rfl⟩ (blockEvents_names h hrest)

omit [PyFloat T] in
theorem keyed_of_names {operation : Operation} {tokens : Int} {blocks : List (Block H)}
    {events : List Event} (h : List.Forall₂ (Names utils operation tokens) blocks events)
    (htokens : operation = .store → tokens = blockSize) :
    ∀ event ∈ events, Keyed blockSize event := by
  induction h with
  | nil => exact List.forall_mem_nil _
  | @cons block event blocks events hevent _ ih =>
    obtain ⟨hoperation, hkey, hmatched⟩ := hevent
    refine List.forall_mem_cons.mpr ⟨⟨.inr ?_, fun hstore => ?_⟩, ih⟩
    · rw [hkey]
      exact KVCacheUtils.key_ne utils block
    · rw [hmatched]
      exact htokens (hoperation.symm.trans hstore)

/-- Events that store blocks. -/
theorem foldl_store {tokens : Int} {blocks : List (Block H)} {events : List Event}
    (h : List.Forall₂ (Names utils .store tokens) blocks events) (residents : Set (Block H)) :
    events.foldl applyKey (utils.key '' residents) =
      utils.key '' (residents ∪ {block | block ∈ blocks}) := by
  induction h generalizing residents with
  | nil => simp
  | @cons block event blocks events hevent _ ih =>
    obtain ⟨hoperation, hkey, -⟩ := hevent
    have hstep : applyKey (utils.key '' residents) event =
        utils.key '' (insert block residents) := by
      unfold applyKey
      rw [hoperation, hkey, Set.image_insert_eq]
    rw [List.foldl_cons, hstep, ih]
    congr 1
    ext other
    simp only [Set.mem_union, Set.mem_insert_iff, Set.mem_ofPred_eq, List.mem_cons]
    tauto

/-- Events that remove blocks. -/
theorem foldl_remove (hexact : utils.Exact) {tokens : Int} {blocks : List (Block H)}
    {events : List Event} (h : List.Forall₂ (Names utils .remove tokens) blocks events)
    (residents : Set (Block H)) :
    events.foldl applyKey (utils.key '' residents) =
      utils.key '' (residents \ {block | block ∈ blocks}) := by
  induction h generalizing residents with
  | nil => simp
  | @cons block event blocks events hevent _ ih =>
    obtain ⟨hoperation, hkey, -⟩ := hevent
    have hstep : applyKey (utils.key '' residents) event =
        utils.key '' (residents \ {block}) := by
      unfold applyKey
      rw [hoperation, hkey, Set.image_sdiff hexact.key_injective, Set.image_singleton]
    rw [List.foldl_cons, hstep, ih]
    congr 1
    ext other
    simp only [Set.mem_sdiff, Set.mem_singleton_iff, Set.mem_ofPred_eq, List.mem_cons]
    tauto

theorem engineEvent_stored (eventIndex : Nat) (blockHashes : List (PyValue T))
    (parent tokens size : PyValue T) (rest : List (PyValue T)) :
    a.engineEvent header eventIndex
        (.list (.str "BlockStored" :: .list blockHashes :: parent :: tokens :: size :: rest)) =
      match PyFloat.toInt size with
      | none => .error .conversion
      | some blockSize =>
        if blockSize ≤ 0 then .error (.value "BlockStored block_size must be positive")
        else a.blockEvents header .store eventIndex blockSize 0 blockHashes :=
  rfl

/-- The events of one engine event. -/
theorem engineEvent_keys (hexact : utils.Exact) {eventIndex : Nat} {raw : PyValue T}
    {operation : BlockOperation H} (hraw : Publishes utils blockSize raw operation)
    {events : List Event} (hevents : a.engineEvent header eventIndex raw = .ok events) :
    (∀ event ∈ events, Keyed blockSize event) ∧
      ∀ residents, events.foldl applyKey (utils.key '' residents) =
        utils.key '' operation.apply residents := by
  cases operation with
  | stored blocks =>
    obtain ⟨parent, tokens, size, rest, rfl, hsize⟩ := hraw
    rw [engineEvent_stored, hsize] at hevents
    dsimp only at hevents
    split at hevents
    · cases hevents
    have hnames := blockEvents_names hexact hevents
    exact ⟨keyed_of_names hnames fun _ => rfl, foldl_store hnames⟩
  | removed blocks =>
    obtain ⟨rest, rfl⟩ := hraw
    have hnames := blockEvents_names hexact hevents
    exact ⟨keyed_of_names hnames nofun, foldl_remove hexact hnames⟩
  | cleared =>
    obtain ⟨rest, rfl⟩ := hraw
    obtain ⟨event, hevent, hevents⟩ := bind_ok hevents
    cases hevents
    obtain ⟨_, -, rfl⟩ := VLLMEventAdapter.event_ok hevent
    refine ⟨fun event hmem => ?_, fun residents => (Set.image_empty _).symm⟩
    obtain rfl := List.mem_singleton.mp hmem
    exact ⟨.inl rfl, nofun⟩

/-- The adapter's events do to the keys what the engine does to the blocks. -/
theorem engineEvents_keys (hexact : utils.Exact) {raws : List (PyValue T)}
    {operations : List (BlockOperation H)}
    (hraws : List.Forall₂ (Publishes utils blockSize) raws operations) :
    ∀ {eventIndex : Nat} {events : List Event},
      a.engineEvents header eventIndex raws = .ok events →
      (∀ event ∈ events, Keyed blockSize event) ∧
        ∀ residents, events.foldl applyKey (utils.key '' residents) =
          utils.key '' operations.foldl BlockOperation.apply residents := by
  induction hraws with
  | nil =>
    intro eventIndex events hevents
    cases hevents
    exact ⟨List.forall_mem_nil _, fun _ => rfl⟩
  | cons hraw _ ih =>
    intro eventIndex events hevents
    obtain ⟨first, hfirst, hevents⟩ := bind_ok hevents
    obtain ⟨rest, hrest, hevents⟩ := bind_ok hevents
    cases hevents
    obtain ⟨hkeyed, hkeys⟩ := engineEvent_keys hexact hraw hfirst
    obtain ⟨hkeyed', hkeys'⟩ := ih hrest
    refine ⟨fun event hevent => ?_, fun residents => ?_⟩
    · rcases List.mem_append.mp hevent with hevent | hevent
      · exact hkeyed event hevent
      · exact hkeyed' event hevent
    · rw [List.foldl_append, hkeys, hkeys', List.foldl_cons]

end Kavora.EngineEvents
