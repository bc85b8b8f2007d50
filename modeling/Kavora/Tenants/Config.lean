import Kavora.Lib.GoString
import Kavora.Policy.Proto

/-!
# Tenants and their API keys (`gateway/internal/tenant`)

A file lists tenants with their API keys. The keys are kept by their digests; a request carries its
key after `Bearer` in a header, which is split at white space.

* `validateTenant`, `load`: a registry from the entries of a file.
* `bearerToken`, `Registry.authenticate`: the tenant of a header (`Registry.accepts`).
* `Loaded`: what `load` makes of the entries; `load_spec`.
* `configured_keys_work_iff`: the listed keys that authenticate, and that nothing else does.
-/

namespace Kavora.Tenants

open Lib Lib.GoString
open Lib.Go (Map Float64)
open Lib.Go.Float64 (ofInt)
open Policy (FailMode)

/-- A tenant as the configuration has it. -/
structure TenantConfig (F : Type) where
  id : Bytes
  apiKeys : List Bytes
  maxConcurrent : Int64
  tokenBudget : UInt64
  policyFailMode : Bytes
  /-- In the order of the range. -/
  routingRequirements : List (Bytes × Bytes)
  ttftSLOMS : F

/-- A tenant, with its defaults. -/
structure Tenant (F : Type) where
  id : Bytes
  maxConcurrent : Int64
  tokenBudget : UInt64
  policyFailMode : FailMode
  routingRequirements : Map Bytes Bytes
  ttftSLOMS : F

/-- The tenants, by the hashes of their keys. -/
structure Registry (F : Type) where
  byAPIKey : Map Bytes (Tenant F)
  tenants : List (Tenant F)

/-- What the package links: the YAML decoder, `sha256.Sum256` and `%q`. -/
structure Externals (F : Type) where
  decode : Bytes → Except String (List (TenantConfig F))
  sha256 : Bytes → Bytes
  quote : Bytes → String

/-- The bytes of a text. -/
def bytes (text : String) : Bytes := Utf8.encode text.toList

variable {F : Type} [Float64 F]

/-! ## Loading -/

/-- The trimmed requirements. -/
def normalizeRequirements (requirements : Map Bytes Bytes) :
    List (Bytes × Bytes) → Except String (Map Bytes Bytes)
  | [] => .ok requirements
  | (key, value) :: rest =>
    if trimSpace key = [] ∨ trimSpace value = [] then
      .error "routing_requirements must not contain empty keys or values"
    else normalizeRequirements (requirements.insert (trimSpace key) (trimSpace value)) rest

/-- The mode of a text, which may be in any case and have spaces around it. -/
def failModeOf (text : Bytes) : Option FailMode :=
  let text := toLower (trimSpace text)
  if text = bytes "open" then some .open else if text = bytes "closed" then some .closed else none

/-- A tenant, if its configuration is valid. -/
def validateTenant (config : TenantConfig F) : Except String (Tenant F) :=
  let id := trimSpace config.id
  if id = [] then .error "id is required"
  else if config.apiKeys.length = 0 then .error "at least one API key is required"
  else if ∃ apiKey ∈ config.apiKeys, trimSpace apiKey = [] then
    .error "API keys must not be empty"
  else if config.maxConcurrent ≤ 0 then .error "max_concurrent must be positive"
  else if config.tokenBudget = 0 then .error "token_budget must be positive"
  else if Float64.lt config.ttftSLOMS (ofInt 0) then .error "ttft_slo_ms must not be negative"
  else
    match normalizeRequirements ∅ config.routingRequirements with
    | .error err => .error err
    | .ok routingRequirements =>
      match failModeOf config.policyFailMode with
      | none => .error "policy_fail_mode must be open or closed"
      | some policyFailMode =>
        .ok
          { id
            maxConcurrent := config.maxConcurrent
            tokenBudget := config.tokenBudget
            policyFailMode
            routingRequirements
            ttftSLOMS := config.ttftSLOMS }

/-- The loop over the keys of a tenant. -/
def registerKeys (sha256 : Bytes → Bytes) (tenant : Tenant F) :
    List Bytes → Map Bytes (Tenant F) → Except String (Map Bytes (Tenant F))
  | [], byAPIKey => .ok byAPIKey
  | apiKey :: apiKeys, byAPIKey =>
    if (byAPIKey.lookup (sha256 apiKey)).isSome then .error "duplicate API key"
    else registerKeys sha256 tenant apiKeys (byAPIKey.insert (sha256 apiKey) tenant)

/-- The loop over the tenants of a file. -/
def loadTenants (env : Externals F) (index : Nat) (seenIDs : List Bytes) (registry : Registry F) :
    List (TenantConfig F) → Except String (Registry F)
  | [] => .ok registry
  | entry :: entries =>
    match validateTenant entry with
    | .error err => .error ("tenant " ++ toString index ++ ": " ++ err)
    | .ok tenant =>
      if tenant.id ∈ seenIDs then .error ("duplicate tenant ID " ++ env.quote tenant.id)
      else
        match registerKeys env.sha256 tenant entry.apiKeys registry.byAPIKey with
        | .error err => .error err
        | .ok byAPIKey =>
          loadTenants env (index + 1) (tenant.id :: seenIDs)
            { byAPIKey, tenants := registry.tenants ++ [tenant] } entries

/-- `Load`: the registry of a configuration file. -/
def load (env : Externals F) (content : Bytes) : Except String (Registry F) :=
  match env.decode content with
  | .error err => .error ("decode tenant config: " ++ err)
  | .ok entries =>
    if entries.length = 0 then .error "tenant config must define at least one tenant"
    else loadTenants env 0 [] { byAPIKey := ∅, tenants := [] } entries

/-! ## Requests -/

/-- The token of an `Authorization` header. -/
def bearerToken (header : Bytes) : Option Bytes :=
  match fields header with
  | [scheme, token] =>
    if equalFold scheme (bytes "Bearer") = false ∨ token = [] then none else some token
  | _ => none

namespace Registry

variable (env : Externals F) (registry : Registry F)

/-- `Authenticate`: the tenant of a key. -/
def authenticate (apiKey : Bytes) : Option (Tenant F) :=
  if apiKey = [] then none else registry.byAPIKey.lookup (env.sha256 apiKey)

/-- The tenant of a request with this `Authorization`. -/
def accepts (header : Bytes) : Option (Tenant F) :=
  (bearerToken header).bind (registry.authenticate env)

end Registry

/-! ## What is loaded -/

theorem trimSpace_nil : trimSpace [] = [] := rfl

theorem validateTenant_ok {config : TenantConfig F} {tenant : Tenant F}
    (h : validateTenant config = .ok tenant) : ∀ apiKey ∈ config.apiKeys, apiKey ≠ [] := by
  unfold validateTenant at h
  dsimp only at h
  split at h
  · cases h
  split at h
  · cases h
  split at h
  · cases h
  rename_i hkeys
  rintro apiKey hmem rfl
  exact hkeys ⟨[], hmem, trimSpace_nil⟩

omit [Float64 F] in
/-- The keys of a tenant are new, and theirs are the new digests. -/
theorem registerKeys_spec {sha256 : Bytes → Bytes} {tenant : Tenant F} {apiKeys : List Bytes}
    {byAPIKey after : Map Bytes (Tenant F)}
    (h : registerKeys sha256 tenant apiKeys byAPIKey = .ok after) :
    (apiKeys.map sha256).Nodup ∧
      (∀ apiKey ∈ apiKeys, byAPIKey.lookup (sha256 apiKey) = none) ∧
      ∀ digest owner, after.lookup digest = some owner ↔
        byAPIKey.lookup digest = some owner ∨
          owner = tenant ∧ ∃ apiKey ∈ apiKeys, sha256 apiKey = digest := by
  induction apiKeys generalizing byAPIKey with
  | nil =>
    cases h
    exact ⟨List.nodup_nil, nofun, fun digest owner => by simp⟩
  | cons apiKey apiKeys ih =>
    rw [registerKeys] at h
    split at h
    · cases h
    rename_i hnew
    have hnone : byAPIKey.lookup (sha256 apiKey) = none := by
      rwa [Option.not_isSome_iff_eq_none] at hnew
    obtain ⟨hnodup, hfresh, hlookup⟩ := ih h
    have hother : ∀ apiKey' ∈ apiKeys, sha256 apiKey' ≠ sha256 apiKey := by
      intro apiKey' hmem heq
      have hlost := hfresh apiKey' hmem
      rw [heq, AList.lookup_insert] at hlost
      cases hlost
    refine ⟨?_, ?_, fun digest owner => ?_⟩
    · rw [List.map_cons, List.nodup_cons]
      refine ⟨fun hmem => ?_, hnodup⟩
      obtain ⟨apiKey', hmem, heq⟩ := List.mem_map.mp hmem
      exact hother apiKey' hmem heq
    · rw [List.forall_mem_cons]
      refine ⟨hnone, fun apiKey' hmem => ?_⟩
      have hkept := hfresh apiKey' hmem
      rwa [AList.lookup_insert_ne (hother apiKey' hmem)] at hkept
    · rw [hlookup, List.exists_mem_cons_iff]
      by_cases hdigest : digest = sha256 apiKey
      · subst hdigest
        rw [AList.lookup_insert, hnone]
        simp only [Option.some.injEq, true_or, and_true, reduceCtorEq, false_or]
        constructor
        · rintro (rfl | ⟨rfl, -⟩) <;> rfl
        · rintro rfl
          exact .inl rfl
      · rw [AList.lookup_insert_ne hdigest]
        simp only [Ne.symm hdigest, false_or]

/-- The registry of entries. -/
structure Loaded (env : Externals F) (registry : Registry F) (entries : List (TenantConfig F)) :
    Prop where
  validated : entries.map validateTenant = registry.tenants.map .ok
  ids : (registry.tenants.map (·.id)).Nodup
  digests : ((entries.flatMap (·.apiKeys)).map env.sha256).Nodup
  lookup : ∀ digest tenant, registry.byAPIKey.lookup digest = some tenant ↔
    ∃ entry ∈ entries, validateTenant entry = .ok tenant ∧
      ∃ apiKey ∈ entry.apiKeys, env.sha256 apiKey = digest

section

variable {env : Externals F} {registry : Registry F} {entries : List (TenantConfig F)}

theorem Loaded.tenant (h : Loaded env registry entries) {entry : TenantConfig F}
    (hentry : entry ∈ entries) : ∃ tenant, validateTenant entry = .ok tenant := by
  have hmem : validateTenant entry ∈ registry.tenants.map .ok :=
    h.validated ▸ List.mem_map_of_mem hentry
  obtain ⟨tenant, -, heq⟩ := List.mem_map.mp hmem
  exact ⟨tenant, heq.symm⟩

/-- Different entries are different tenants. -/
theorem Loaded.entry_unique (h : Loaded env registry entries) {entry entry' : TenantConfig F}
    (hentry : entry ∈ entries) (hentry' : entry' ∈ entries) {tenant : Tenant F}
    (hvalid : validateTenant entry = .ok tenant) (hvalid' : validateTenant entry' = .ok tenant) :
    entry = entry' := by
  have hids : (entries.map fun entry => (validateTenant entry).map (·.id)).Nodup := by
    have hmap : entries.map (fun entry => (validateTenant entry).map (·.id)) =
        (registry.tenants.map (·.id)).map .ok := by
      have hboth := congrArg (List.map (Except.map (·.id))) h.validated
      rw [List.map_map, List.map_map] at hboth
      rw [List.map_map]
      exact hboth
    rw [hmap]
    exact h.ids.map fun _ _ heq => Except.ok.inj heq
  exact List.inj_on_of_nodup_map hids hentry hentry' (by rw [hvalid, hvalid'])

theorem Loaded.step (h : Loaded env registry entries) {entry : TenantConfig F} {tenant : Tenant F}
    (hvalid : validateTenant entry = .ok tenant) (hid : tenant.id ∉ registry.tenants.map (·.id))
    {byAPIKey : Map Bytes (Tenant F)}
    (hkeys : registerKeys env.sha256 tenant entry.apiKeys registry.byAPIKey = .ok byAPIKey) :
    Loaded env { byAPIKey, tenants := registry.tenants ++ [tenant] } (entries ++ [entry]) := by
  obtain ⟨hnodup, hfresh, hlookup⟩ := registerKeys_spec hkeys
  constructor
  · rw [List.map_append, List.map_append, h.validated, List.map_singleton, List.map_singleton,
      hvalid]
  · rw [List.map_append, List.map_singleton, List.nodup_append]
    refine ⟨h.ids, List.nodup_singleton _, fun id hmem id' hmem' heq => ?_⟩
    rw [List.mem_singleton.mp hmem'] at heq
    exact hid (heq ▸ hmem)
  · rw [List.flatMap_append, List.flatMap_singleton, List.map_append, List.nodup_append]
    refine ⟨h.digests, hnodup, fun digest hmem digest' hmem' heq => ?_⟩
    -- a digest of an earlier entry has a tenant, one of this entry has none
    obtain ⟨apiKey, hkey, rfl⟩ := List.mem_map.mp hmem
    obtain ⟨apiKey', hkey', rfl⟩ := List.mem_map.mp hmem'
    obtain ⟨earlier, hearlier, hkey⟩ := List.mem_flatMap.mp hkey
    obtain ⟨owner, howner⟩ := h.tenant hearlier
    have hsome := (h.lookup _ owner).mpr ⟨earlier, hearlier, howner, apiKey, hkey, rfl⟩
    rw [heq, hfresh apiKey' hkey'] at hsome
    cases hsome
  · intro digest owner
    rw [hlookup, h.lookup]
    constructor
    · rintro (⟨earlier, hearlier, hrest⟩ | ⟨rfl, hkey⟩)
      · exact ⟨earlier, List.mem_append_left _ hearlier, hrest⟩
      · exact ⟨entry, List.mem_append_right _ List.mem_cons_self, hvalid, hkey⟩
    · rintro ⟨found, hfound, hrest⟩
      rcases List.mem_append.mp hfound with hearlier | hlast
      · exact .inl ⟨found, hearlier, hrest⟩
      · rw [List.mem_singleton.mp hlast, hvalid] at hrest
        exact .inr ⟨(Except.ok.inj hrest.1).symm, hrest.2⟩

theorem loadTenants_loaded {index : Nat} {seenIDs : List Bytes} {rest : List (TenantConfig F)}
    {after : Registry F} (h : Loaded env registry entries)
    (hseen : ∀ id, id ∈ seenIDs ↔ id ∈ registry.tenants.map (·.id))
    (hload : loadTenants env index seenIDs registry rest = .ok after) :
    Loaded env after (entries ++ rest) := by
  induction rest generalizing index seenIDs registry entries with
  | nil =>
    cases hload
    rw [List.append_nil]
    exact h
  | cons entry rest ih =>
    rw [loadTenants] at hload
    split at hload
    · cases hload
    rename_i tenant hvalid
    split at hload
    · cases hload
    rename_i hid
    split at hload
    · cases hload
    rename_i byAPIKey hkeys
    have hnext := ih (h.step hvalid (fun hmem => hid ((hseen _).mpr hmem)) hkeys)
      (fun id => by
        rw [List.mem_cons, hseen, List.map_append, List.map_singleton, List.mem_append,
          List.mem_singleton, or_comm])
      hload
    rwa [List.append_assoc] at hnext

theorem load_spec {content : Bytes} (h : load env content = .ok registry) :
    ∃ entries, env.decode content = .ok entries ∧ Loaded env registry entries := by
  unfold load at h
  split at h
  · cases h
  rename_i entries hdecode
  split at h
  · cases h
  have hempty : Loaded env ({ byAPIKey := ∅, tenants := [] } : Registry F) [] :=
    ⟨rfl, List.nodup_nil, List.nodup_nil, fun digest tenant => by simp⟩
  exact ⟨entries, hdecode, loadTenants_loaded hempty (fun id => by simp) h⟩

/-! ## What authenticates -/

/-- A key that authenticates is listed for its tenant. -/
theorem Loaded.authenticate_iff (h : Loaded env registry entries)
    (hsha : Function.Injective env.sha256) (token : Bytes) (tenant : Tenant F) :
    registry.authenticate env token = some tenant ↔
      ∃ entry ∈ entries, validateTenant entry = .ok tenant ∧ token ∈ entry.apiKeys := by
  unfold Registry.authenticate
  constructor
  · intro hsome
    split at hsome
    · cases hsome
    obtain ⟨entry, hentry, hvalid, apiKey, hkey, hdigest⟩ := (h.lookup _ _).mp hsome
    exact ⟨entry, hentry, hvalid, hsha hdigest ▸ hkey⟩
  · rintro ⟨entry, hentry, hvalid, hkey⟩
    rw [if_neg (validateTenant_ok hvalid token hkey)]
    exact (h.lookup _ _).mpr ⟨entry, hentry, hvalid, token, hkey, rfl⟩

omit [Float64 F] in
theorem accepts_iff (env : Externals F) (registry : Registry F) (header : Bytes)
    (tenant : Tenant F) :
    registry.accepts env header = some tenant ↔
      ∃ scheme token, fields header = [scheme, token] ∧ equalFold scheme (bytes "Bearer") = true ∧
        registry.authenticate env token = some tenant := by
  unfold Registry.accepts bearerToken
  rw [Option.bind_eq_some_iff]
  constructor
  · rintro ⟨token, htoken, hauthenticated⟩
    split at htoken
    · rename_i scheme token' hfields
      split at htoken
      · cases htoken
      rename_i hcheck
      rw [not_or, Bool.not_eq_false] at hcheck
      obtain rfl := Option.some.inj htoken
      exact ⟨scheme, token', hfields, hcheck.1, hauthenticated⟩
    · cases htoken
  · rintro ⟨scheme, token, hfields, hscheme, hauthenticated⟩
    have hne : token ≠ [] := by
      rintro rfl
      cases hauthenticated
    refine ⟨token, ?_, hauthenticated⟩
    rw [hfields]
    dsimp only
    rw [if_neg (by rw [not_or, Bool.not_eq_false]; exact ⟨hscheme, hne⟩)]

/-- The header of a key has the scheme and the fields of the key. -/
theorem fields_bearer (key : Bytes) :
    fields (bytes "Bearer " ++ key) = bytes "Bearer" :: fields key := by
  have hword : ∀ c ∈ "Bearer".toList, Go.isSpace c = false := by
    rw [show "Bearer".toList = ['B', 'e', 'a', 'r', 'e', 'r'] from rfl]
    simp only [List.forall_mem_cons]
    exact ⟨rfl, rfl, rfl, rfl, rfl, rfl, List.forall_mem_nil _⟩
  exact @fields_word "Bearer".toList (by decide) hword ' ' rfl key

/-- The header of a listed key is accepted for its tenant just if one field of the key is all of it,
and a key of the tenant. -/
theorem Loaded.accepts_bearer_iff (h : Loaded env registry entries)
    (hsha : Function.Injective env.sha256) {entry : TenantConfig F} (hentry : entry ∈ entries)
    {tenant : Tenant F} (hvalid : validateTenant entry = .ok tenant) (key : Bytes) :
    registry.accepts env (bytes "Bearer " ++ key) = some tenant ↔
      ∃ token ∈ entry.apiKeys, fields key = [token] := by
  rw [accepts_iff, fields_bearer]
  constructor
  · rintro ⟨scheme, token, hfields, -, hauthenticated⟩
    obtain ⟨found, hfound, hvalid', hkey⟩ := (h.authenticate_iff hsha _ _).mp hauthenticated
    rw [h.entry_unique hfound hentry hvalid' hvalid] at hkey
    exact ⟨token, hkey, (List.cons.inj hfields).2⟩
  · rintro ⟨token, hkey, hfields⟩
    exact ⟨bytes "Bearer", token, by rw [hfields], by decide,
      (h.authenticate_iff hsha _ _).mpr ⟨entry, hentry, hvalid, hkey⟩⟩

/-- **The configured keys that work, and only those.** A listed key works just if it has no white
space, or another key of its tenant is left when its white space is dropped. -/
theorem configured_keys_work_iff (hsha : Function.Injective env.sha256) {content : Bytes}
    (h : load env content = .ok registry) :
    ∃ entries, env.decode content = .ok entries ∧ (entries.flatMap (·.apiKeys)).Nodup ∧
      (∀ entry ∈ entries, ∃ tenant, validateTenant entry = .ok tenant ∧
        ∀ key ∈ entry.apiKeys,
          (registry.accepts env (bytes "Bearer " ++ key) = some tenant ↔
            ∃ token ∈ entry.apiKeys, fields key = [token])) ∧
      ∀ header tenant, registry.accepts env header = some tenant →
        ∃ entry ∈ entries, validateTenant entry = .ok tenant ∧
          ∃ token ∈ entry.apiKeys, ∃ scheme, fields header = [scheme, token] ∧
            equalFold scheme (bytes "Bearer") = true := by
  obtain ⟨entries, hdecode, hloaded⟩ := load_spec h
  refine ⟨entries, hdecode, .of_map _ hloaded.digests, fun entry hentry => ?_,
    fun header tenant haccepts => ?_⟩
  · obtain ⟨tenant, hvalid⟩ := hloaded.tenant hentry
    exact ⟨tenant, hvalid, fun key _ => hloaded.accepts_bearer_iff hsha hentry hvalid key⟩
  · obtain ⟨scheme, token, hfields, hscheme, hauthenticated⟩ := (accepts_iff _ _ _ _).mp haccepts
    obtain ⟨entry, hentry, hvalid, hkey⟩ :=
      (hloaded.authenticate_iff hsha _ _).mp hauthenticated
    exact ⟨entry, hentry, hvalid, token, hkey, scheme, hfields, hscheme⟩

/-- A listed key without white space works. -/
theorem plain_key_works (hsha : Function.Injective env.sha256) {content : Bytes}
    (h : load env content = .ok registry) :
    ∃ entries, env.decode content = .ok entries ∧
      ∀ entry ∈ entries, ∃ tenant, validateTenant entry = .ok tenant ∧
        ∀ key ∈ entry.apiKeys, (∀ m ∈ marked 0 false key, m.2 = false) →
          registry.accepts env (bytes "Bearer " ++ key) = some tenant := by
  obtain ⟨entries, hdecode, hloaded⟩ := load_spec h
  refine ⟨entries, hdecode, fun entry hentry => ?_⟩
  obtain ⟨tenant, hvalid⟩ := hloaded.tenant hentry
  refine ⟨tenant, hvalid, fun key hkey hplain => ?_⟩
  rw [hloaded.accepts_bearer_iff hsha hentry hvalid]
  exact ⟨key, hkey, fields_plain (validateTenant_ok hvalid key hkey) hplain⟩

end

namespace ConfigSample

local instance : Float64 Rat := .rational fun _ => 1

/-- A tenant with a key that has a space inside. -/
def entry : TenantConfig Rat where
  id := bytes "team-alpha"
  apiKeys := [bytes "alpha-secret", bytes "alpha secret"]
  maxConcurrent := 3
  tokenBudget := 4096
  policyFailMode := bytes "closed"
  routingRequirements := []
  ttftSLOMS := 0

def content : Bytes :=
  bytes ("tenants:\n  - id: team-alpha\n    api_keys: [alpha-secret, alpha secret]\n" ++
    "    max_concurrent: 3\n    token_budget: 4096\n    policy_fail_mode: closed\n")

def env : Externals Rat where
  decode text := if text = content then .ok [entry] else .error "EOF"
  sha256 data := data
  quote _ := "\"team-alpha\""

theorem decode_content : env.decode content = .ok [entry] := by
  simp only [env, if_true]

theorem load_content : ∃ registry, load env content = .ok registry := by
  have hok : (loadTenants env 0 [] { byAPIKey := ∅, tenants := [] } [entry]).toOption.isSome =
      true := by
    decide +kernel
  have hload : load env content =
      loadTenants env 0 [] { byAPIKey := ∅, tenants := [] } [entry] := by
    unfold load
    rw [decode_content]
    rfl
  rw [hload]
  cases hresult : loadTenants env 0 [] { byAPIKey := ∅, tenants := [] } [entry] with
  | error err =>
    rw [hresult] at hok
    cases hok
  | ok registry => exact ⟨registry, rfl⟩

theorem configured_keys_sample :
    ∃ registry entries, load env content = .ok registry ∧ env.decode content = .ok entries ∧
      ∀ entry ∈ entries, ∃ tenant, validateTenant entry = .ok tenant ∧
        ∀ key ∈ entry.apiKeys,
          (registry.accepts env (bytes "Bearer " ++ key) = some tenant ↔
            ∃ token ∈ entry.apiKeys, fields key = [token]) := by
  obtain ⟨registry, hload⟩ := load_content
  obtain ⟨entries, hdecode, -, hkeys, -⟩ :=
    configured_keys_work_iff (fun _ _ heq => heq : Function.Injective env.sha256) hload
  exact ⟨registry, entries, hload, hdecode, hkeys⟩

/-- The key with a space is listed and never works. -/
theorem key_with_space_fails :
    ∃ registry, load env content = .ok registry ∧ env.decode content = .ok [entry] ∧
      bytes "alpha secret" ∈ entry.apiKeys ∧
      registry.accepts env (bytes "Bearer " ++ bytes "alpha secret") = none := by
  obtain ⟨registry, hload⟩ := load_content
  have htoken : bearerToken (bytes "Bearer " ++ bytes "alpha secret") = none := by decide +kernel
  refine ⟨registry, hload, decode_content, List.mem_cons_of_mem _ List.mem_cons_self, ?_⟩
  unfold Registry.accepts
  rw [htoken]
  rfl

end ConfigSample

end Kavora.Tenants
