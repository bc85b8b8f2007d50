import Mathlib.Data.Finset.Insert
import Mathlib.Data.List.Rotate
import Kavora.Lib.Go

/-!
# The backend registry (`gateway/internal/backend/registry.go`)

The registry knows the backends with their weights and health. `Registry.candidates` offers the
enabled, healthy backends of a model in a weighted rotation.

* `Registry.Offers`: the backends that the registry offers for a model.
* `candidates_spec`: the rotation has each of them once.
-/

namespace Kavora.Backends

open Lib Lib.Go

/-- The parts of a parsed URL that are checked, and its text. -/
structure Url where
  scheme : String
  host : String
  text : String
  deriving DecidableEq

/-- A backend as the configuration has it. -/
structure Config where
  id : String
  url : String
  enabled : Option Bool
  weight : Int
  models : List String
  healthPath : String
  attributes : Map String String

/-- A normalized backend. -/
structure Backend where
  id : String
  url : Url
  weight : Nat
  models : Finset String
  healthPath : String
  attributes : Map String String

/-- A backend in the registry, with its switches. -/
structure Entry where
  backend : Backend
  enabled : Bool
  healthy : Bool

/-- The entries are stored under the IDs of their backends, which have a weight. -/
structure Registry where
  entries : Map String Entry
  cursor : Nat
  key_eq : ∀ id entry, entries.lookup id = some entry → entry.backend.id = id
  weight_pos : ∀ id entry, entries.lookup id = some entry → 0 < entry.backend.weight

/-- What the package links: `url.Parse` and `%q`. -/
structure Externals where
  parseUrl : String → Option Url
  quote : String → String

/-! ## Building a registry -/

/-- The set of the trimmed models. -/
def normalizeModels : List String → Except String (Finset String)
  | [] => .ok ∅
  | model :: models =>
    if trimSpace model = "" then .error "models must not contain empty values"
    else (normalizeModels models).map (insert (trimSpace model))

/-- The trimmed attributes, in the order of the range. -/
def normalizeAttributes (attributes : Map String String) :
    List (Σ _ : String, String) → Except String (Map String String)
  | [] => .ok attributes
  | m :: rest =>
    if trimSpace m.1 = "" ∨ trimSpace m.2 = "" then
      .error "attributes must not contain empty keys or values"
    else normalizeAttributes (attributes.insert (trimSpace m.1) (trimSpace m.2)) rest

/-- A backend with its defaults, if its configuration is valid. -/
def normalize (env : Externals) (config : Config) : Except String Backend :=
  let id := trimSpace config.id
  if id = "" then .error "id is required"
  else match env.parseUrl config.url with
    | none => .error "url must be an absolute HTTP URL"
    | some url =>
      if url.scheme = "" ∨ url.host = "" ∨ url.scheme ≠ "http" ∧ url.scheme ≠ "https" then
        .error "url must be an absolute HTTP URL"
      else if config.weight < 0 then .error "weight must not be negative"
      else match normalizeModels config.models with
        | .error e => .error e
        | .ok models =>
          match normalizeAttributes ∅ config.attributes.entries with
          | .error e => .error e
          | .ok attributes =>
            .ok
              { id, url, models, attributes
                weight := if config.weight = 0 then 1 else config.weight.toNat
                healthPath := if config.healthPath = "" then "/healthz" else config.healthPath }

theorem normalize_weight {env : Externals} {config : Config} {backend : Backend}
    (h : normalize env config = .ok backend) : 0 < backend.weight := by
  unfold normalize at h
  dsimp only at h
  split at h
  · cases h
  split at h
  · cases h
  split at h
  · cases h
  split at h
  · cases h
  rename_i hneg
  split at h
  · cases h
  split at h
  · cases h
  cases h
  dsimp only
  split
  · exact Nat.one_pos
  · omega

namespace Registry

/-- The registry before the first backend. -/
def empty : Registry where
  entries := ∅
  cursor := 0
  key_eq := by simp
  weight_pos := by simp

/-- An entry under the ID of its backend. -/
def insertEntry (registry : Registry) (entry : Entry) (hweight : 0 < entry.backend.weight) :
    Registry :=
  { registry with
    entries := registry.entries.insert entry.backend.id entry
    key_eq := by
      intro id entry' hentry
      by_cases hid : id = entry.backend.id
      · subst hid
        rw [AList.lookup_insert] at hentry
        cases hentry
        rfl
      · rw [AList.lookup_insert_ne hid] at hentry
        exact registry.key_eq id entry' hentry
    weight_pos := by
      intro id entry' hentry
      by_cases hid : id = entry.backend.id
      · subst hid
        rw [AList.lookup_insert] at hentry
        cases hentry
        exact hweight
      · rw [AList.lookup_insert_ne hid] at hentry
        exact registry.weight_pos id entry' hentry }

/-- Adds a backend whose ID is not taken yet. -/
def add (env : Externals) (registry : Registry) (index : Nat) (config : Config) :
    Except String Registry :=
  match hbackend : normalize env config with
  | .error e => .error ("backend " ++ toString index ++ ": " ++ e)
  | .ok backend =>
    if backend.id ∈ registry.entries then
      .error ("duplicate backend ID " ++ env.quote backend.id)
    else
      .ok (registry.insertEntry
        { backend, enabled := config.enabled.getD true, healthy := true }
        (normalize_weight hbackend))

/-- Adds backends in their order; the first that fails ends it. -/
def addAll (env : Externals) : Registry → Nat → List Config → Except String Registry
  | registry, _, [] => .ok registry
  | registry, index, config :: configs =>
    match registry.add env index config with
    | .error e => .error e
    | .ok registry => addAll env registry (index + 1) configs

/-- `New`: there is at least one backend. -/
def new (env : Externals) (configs : List Config) : Except String Registry :=
  if configs = [] then .error "at least one backend is required"
  else addAll env empty 0 configs

/-! ## Health -/

/-- The health of a backend, if it is registered. -/
def setHealthy (registry : Registry) (id : String) (healthy : Bool) : Registry :=
  match hentry : registry.entries.lookup id with
  | none => registry
  | some entry => registry.insertEntry { entry with healthy } (registry.weight_pos id entry hentry)

/-- `MarkFailure`. -/
def markFailure (registry : Registry) (id : String) : Registry := registry.setHealthy id false

/-- `MarkSuccess`. -/
def markSuccess (registry : Registry) (id : String) : Registry := registry.setHealthy id true

end Registry

/-! ## Candidates -/

/-- A backend without a list of models serves all of them. -/
def «matches» (backend : Backend) (model : String) : Bool :=
  backend.models = ∅ || model ∈ backend.models

/-- The loop that takes the backends of the weighted list from `start` on, each once, until there
are `target`; `none` when it runs out of `fuel` or indexes out of range. -/
def selectLoop (weighted : List Backend) (start target : Nat) :
    Nat → Nat → List String → List Backend → Option (List Backend)
  | 0, _, _, ordered => if ordered.length < target then none else some ordered
  | fuel + 1, index, seen, ordered =>
    if ordered.length < target then
      match weighted[(start + index) % weighted.length]? with
      | none => none
      | some candidate =>
        if candidate.id ∈ seen then selectLoop weighted start target fuel (index + 1) seen ordered
        else
          selectLoop weighted start target fuel (index + 1) (candidate.id :: seen)
            (ordered ++ [candidate])
    else some ordered

namespace Registry

/-- The backends that can serve a model, by ID. -/
def matching (registry : Registry) (model : String) : List Backend :=
  (sortStrings registry.entries.keys).filterMap fun id =>
    match registry.entries.lookup id with
    | none => none
    | some current =>
      if current.enabled ∧ current.healthy ∧ «matches» current.backend model then
        some current.backend
      else none

/-- Each of them as often as its weight. -/
def weighted (registry : Registry) (model : String) : List Backend :=
  (registry.matching model).flatMap fun backend => List.replicate backend.weight backend

/-- `Candidates`: the backends of a model, from the cursor on. -/
def candidates (registry : Registry) (model : String) : List Backend × Registry :=
  let weighted := registry.weighted model
  let target := (registry.matching model).length
  if weighted.length = 0 then ([], registry)
  else
    let start := registry.cursor % weighted.length
    ((selectLoop weighted start target weighted.length 0 [] []).getD [],
      { registry with cursor := (registry.cursor + 1) % 2 ^ 64 })

/-- The registry offers a backend for a model: enabled, healthy and serving the model. -/
def Offers (registry : Registry) (model : String) (backend : Backend) : Prop :=
  ∃ entry, registry.entries.lookup backend.id = some entry ∧ entry.backend = backend ∧
    entry.enabled ∧ entry.healthy ∧ «matches» backend model

end Registry

/-! ## The rotation -/

/-- The first backend of each ID, outside those seen. -/
def firsts : List String → List Backend → List Backend
  | _, [] => []
  | seen, backend :: backends =>
    if backend.id ∈ seen then firsts seen backends
    else backend :: firsts (backend.id :: seen) backends

theorem firsts_subset {seen : List String} {l : List Backend} : firsts seen l ⊆ l := by
  induction l generalizing seen with
  | nil => exact List.Subset.refl _
  | cons b l ih =>
    rw [firsts]
    split
    · exact List.subset_cons_of_subset _ ih
    · exact List.cons_subset_cons _ ih

theorem firsts_not_seen {seen : List String} {l : List Backend} :
    ∀ b ∈ firsts seen l, b.id ∉ seen := by
  induction l generalizing seen with
  | nil => simp [firsts]
  | cons b l ih =>
    rw [firsts]
    split
    · exact ih
    · rename_i hb
      intro b' hb'
      rcases List.mem_cons.mp hb' with rfl | hb'
      · exact hb
      · exact fun hmem => ih b' hb' (List.mem_cons_of_mem _ hmem)

theorem firsts_nodup {seen : List String} {l : List Backend} :
    ((firsts seen l).map (·.id)).Nodup := by
  induction l generalizing seen with
  | nil => exact List.nodup_nil
  | cons b l ih =>
    rw [firsts]
    split
    · exact ih
    · refine List.nodup_cons.mpr ⟨fun hmem => ?_, ih⟩
      obtain ⟨b', hb', heq⟩ := List.mem_map.mp hmem
      exact firsts_not_seen b' hb' (heq ▸ List.mem_cons_self)

/-- Every ID that is not seen is taken. -/
theorem exists_firsts {seen : List String} {l : List Backend} {b : Backend} (hb : b ∈ l)
    (hseen : b.id ∉ seen) : ∃ b' ∈ firsts seen l, b'.id = b.id := by
  induction l generalizing seen with
  | nil => cases hb
  | cons a l ih =>
    rw [firsts]
    by_cases hid : b.id = a.id
    · rw [if_neg (hid ▸ hseen)]
      exact ⟨a, List.mem_cons_self, hid.symm⟩
    · have hbl : b ∈ l := by
        rcases List.mem_cons.mp hb with rfl | hb
        · exact absurd rfl hid
        · exact hb
      split
      · exact ih hbl hseen
      · have hnew : b.id ∉ a.id :: seen := by simp [hid, hseen]
        obtain ⟨b', hb', heq⟩ := ih hbl hnew
        exact ⟨b', List.mem_cons_of_mem _ hb', heq⟩

/-- The loop takes the first backend of each ID in the rotated list. -/
theorem selectLoop_eq (weighted : List Backend) (start target : Nat) :
    ∀ (rest : List Backend) (index : Nat) (seen : List String) (ordered : List Backend),
      (weighted.rotate start).drop index = rest →
      ordered.length + (firsts seen rest).length = target →
      selectLoop weighted start target rest.length index seen ordered =
        some (ordered ++ firsts seen rest)
  | [], index, seen, ordered, _, htarget => by
    have hdone : ¬ ordered.length < target := by
      rw [← htarget]
      simp [firsts]
    rw [List.length_nil, selectLoop, if_neg hdone, firsts, List.append_nil]
  | b :: rest, index, seen, ordered, hrest, htarget => by
    have hindex : index < weighted.length := by
      have hlen := congrArg List.length hrest
      rw [List.length_drop, List.length_rotate, List.length_cons] at hlen
      omega
    have hcand : weighted[(start + index) % weighted.length]? = some b := by
      rw [Nat.add_comm, ← List.getElem?_rotate hindex, ← List.head?_drop, hrest]
      rfl
    have hrest' : (weighted.rotate start).drop (index + 1) = rest := by
      rw [← List.drop_drop, hrest]
      rfl
    rw [List.length_cons, selectLoop]
    by_cases hmore : ordered.length < target
    · rw [if_pos hmore, hcand]
      dsimp only
      by_cases hseen : b.id ∈ seen
      · rw [firsts, if_pos hseen] at htarget ⊢
        rw [if_pos hseen]
        exact selectLoop_eq _ _ _ _ _ _ _ hrest' htarget
      · rw [firsts, if_neg hseen] at htarget ⊢
        rw [List.length_cons] at htarget
        have htarget' : (ordered ++ [b]).length + (firsts (b.id :: seen) rest).length = target := by
          rw [List.length_append, List.length_singleton]
          omega
        rw [if_neg hseen, selectLoop_eq _ _ _ _ _ _ _ hrest' htarget', List.append_assoc]
        rfl
    · have hnil : firsts seen (b :: rest) = [] := List.eq_nil_of_length_eq_zero (by omega)
      rw [if_neg hmore, hnil, List.append_nil]

/-- A loop that ends takes the same backends with more fuel. -/
theorem selectLoop_fuel {weighted : List Backend} {start target fuel fuel' index : Nat}
    {seen : List String} {ordered result : List Backend} (hfuel : fuel ≤ fuel')
    (h : selectLoop weighted start target fuel index seen ordered = some result) :
    selectLoop weighted start target fuel' index seen ordered = some result := by
  induction fuel generalizing fuel' index seen ordered with
  | zero =>
    rw [selectLoop] at h
    split at h
    · cases h
    · rename_i hdone
      cases fuel' with
      | zero => rwa [selectLoop, if_neg hdone]
      | succ fuel' => rwa [selectLoop, if_neg hdone]
  | succ fuel ih =>
    obtain ⟨fuel', rfl⟩ : ∃ n, fuel' = n + 1 := ⟨fuel' - 1, by omega⟩
    rw [selectLoop] at h ⊢
    split at h
    · rename_i hmore
      rw [if_pos hmore]
      cases hcandidate : weighted[(start + index) % weighted.length]? with
      | none =>
        rw [hcandidate] at h
        cases h
      | some candidate =>
        rw [hcandidate] at h
        dsimp only at h ⊢
        split at h
        · rename_i hseen
          rw [if_pos hseen]
          exact ih (by omega) h
        · rename_i hseen
          rw [if_neg hseen]
          exact ih (by omega) h
    · rename_i hdone
      rwa [if_neg hdone]

theorem map_filterMap_sublist {α β : Type} {f : α → Option β} {g : β → α}
    (h : ∀ a b, f a = some b → g b = a) {l : List α} : ((l.filterMap f).map g).Sublist l := by
  induction l with
  | nil => exact List.Sublist.refl _
  | cons a l ih =>
    cases hf : f a with
    | none =>
      rw [List.filterMap_cons_none hf]
      exact ih.cons a
    | some b =>
      rw [List.filterMap_cons_some hf, List.map_cons, h a b hf]
      exact ih.cons_cons a

namespace Registry

variable {registry : Registry} {model : String}

/-- The backend of an ID, if it can serve the model. -/
theorem serving_some {id : String} {b : Backend}
    (h : (match registry.entries.lookup id with
      | none => none
      | some current =>
        if current.enabled ∧ current.healthy ∧ «matches» current.backend model then
          some current.backend
        else none) = some b) :
    ∃ entry, registry.entries.lookup id = some entry ∧ entry.backend = b ∧ b.id = id ∧
      entry.enabled ∧ entry.healthy ∧ «matches» b model := by
  cases hentry : registry.entries.lookup id with
  | none =>
    rw [hentry] at h
    cases h
  | some current =>
    rw [hentry] at h
    dsimp only at h
    split at h
    · rename_i hok
      cases h
      exact ⟨current, rfl, rfl, registry.key_eq id current hentry, hok⟩
    · cases h

theorem mem_matching {b : Backend} : b ∈ registry.matching model ↔ registry.Offers model b := by
  unfold matching Offers
  rw [List.mem_filterMap]
  constructor
  · rintro ⟨id, -, hsome⟩
    obtain ⟨entry, hentry, hbackend, hid, hok⟩ := serving_some hsome
    rw [← hid] at hentry
    exact ⟨entry, hentry, hbackend, hok⟩
  · rintro ⟨entry, hentry, rfl, hok⟩
    refine ⟨entry.backend.id, ?_, ?_⟩
    · rw [mem_sortStrings, ← AList.mem_keys, ← AList.lookup_isSome, hentry]
      rfl
    · rw [hentry]
      exact if_pos hok

theorem matching_nodup : ((registry.matching model).map (·.id)).Nodup := by
  have hkeys : (sortStrings registry.entries.keys).Nodup :=
    sortStrings_nodup registry.entries.keys_nodup
  refine hkeys.sublist (map_filterMap_sublist fun id b hsome => ?_)
  obtain ⟨-, -, -, hid, -⟩ := serving_some hsome
  exact hid

theorem mem_weighted {b : Backend} : b ∈ registry.weighted model ↔ b ∈ registry.matching model := by
  unfold weighted
  rw [List.mem_flatMap]
  constructor
  · rintro ⟨b', hb', hrep⟩
    rw [List.eq_of_mem_replicate hrep]
    exact hb'
  · intro hb
    obtain ⟨entry, hentry, rfl, -⟩ := mem_matching.mp hb
    have hweight := registry.weight_pos _ entry hentry
    exact ⟨_, hb, List.mem_replicate.mpr ⟨Nat.ne_of_gt hweight, rfl⟩⟩

/-- The first backends of a rotation of the weighted list are those that match. -/
theorem firsts_perm (registry : Registry) (model : String) (start : Nat) :
    (firsts [] ((registry.weighted model).rotate start)).Perm (registry.matching model) := by
  refine (List.perm_ext_iff_of_nodup firsts_nodup.of_map matching_nodup.of_map).mpr fun b => ?_
  have hmem : ∀ b, b ∈ (registry.weighted model).rotate start ↔ b ∈ registry.matching model := by
    intro b
    rw [List.mem_rotate, mem_weighted]
  constructor
  · intro hb
    exact (hmem b).mp (firsts_subset hb)
  · intro hb
    obtain ⟨b', hb', heq⟩ := exists_firsts ((hmem b).mpr hb) List.not_mem_nil
    have hb'' := (hmem b').mp (firsts_subset hb')
    rwa [← List.inj_on_of_nodup_map matching_nodup hb'' hb heq]

/-- One turn around the weighted list meets the backends that match. -/
theorem selectLoop_turn (registry : Registry) (model : String) (start : Nat) :
    selectLoop (registry.weighted model) start (registry.matching model).length
        (registry.weighted model).length 0 [] [] =
      some (firsts [] ((registry.weighted model).rotate start)) := by
  have hloop := selectLoop_eq (registry.weighted model) start (registry.matching model).length _ 0
    [] [] rfl (by rw [List.drop_zero, (firsts_perm registry model start).length_eq, List.length_nil,
      Nat.zero_add])
  rwa [List.drop_zero, List.length_rotate] at hloop

theorem candidates_eq (registry : Registry) (model : String) :
    (registry.candidates model).1 =
      firsts [] ((registry.weighted model).rotate
        (registry.cursor % (registry.weighted model).length)) := by
  unfold candidates
  dsimp only
  split
  · rename_i hempty
    rw [List.eq_nil_of_length_eq_zero hempty]
    rfl
  · rw [selectLoop_turn]
    rfl

/-- The candidates of a model: each backend that the registry offers, once. -/
theorem candidates_spec (registry : Registry) (model : String) :
    ((registry.candidates model).1.map (·.id)).Nodup ∧
      ∀ b, b ∈ (registry.candidates model).1 ↔ registry.Offers model b := by
  rw [candidates_eq]
  exact ⟨firsts_nodup, fun b => (firsts_perm _ _ _).mem_iff.trans mem_matching⟩

end Registry

end Kavora.Backends
