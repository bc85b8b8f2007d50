import Kavora.Lib.LinkedMap

/-!
# Affinity of tenants and cache keys to backends (`gateway/internal/router/affinity.go`)

A bounded table with expiry: `get` drops an expired entry and moves a live one to the front, `put`
adds or renews one and evicts from the back.
-/

namespace Kavora.Router

open Lib Lib.Go

/-- The backend of a tenant's key, for a time. -/
structure AffinityEntry where
  key : String
  tenant : String
  backend : String
  expires : Time
  deriving DecidableEq, Repr

/-- The affinity table, the last used entry first. -/
structure Affinity where
  max : Nat
  ttl : Duration
  table : LinkedMap String AffinityEntry

namespace Affinity

/-- `NewAffinity`, with its defaults. -/
def new (max : Int) (ttl : Duration) : Affinity where
  max := if max ≤ 0 then 1024 else max.toNat
  ttl := if ttl ≤ 0 then 300000000000 else ttl
  table := .empty

/-- The key of the map. -/
def composite (tenant key : String) : String := tenant ++ "\x00" ++ key

/-- `Get`, which drops an entry that has expired. -/
def get (a : Affinity) (tenant key : String) (now : Time) : Option String × Affinity :=
  match a.table.find (composite tenant key) with
  | none => (none, a)
  | some (element, entry) =>
    if now.before entry.expires then
      (some entry.backend, { a with table := a.table.moveToFront element })
    else (none, { a with table := a.table.delete entry.key element })

/-- `Put`, which drops the entry that was used longest ago. -/
def put (a : Affinity) (tenant key backend : String) (now : Time) : Affinity :=
  let entry : AffinityEntry :=
    { key := composite tenant key, tenant, backend, expires := now.add a.ttl }
  match a.table.find entry.key with
  | some (old, _) => { a with table := (a.table.setValue old entry).moveToFront old }
  | none =>
    let table := a.table.pushFront entry.key entry
    { a with table := table.evict (·.key) a.max table.len }

/-- `InvalidateBackend`. -/
def invalidateBackend (a : Affinity) (backend : String) : Affinity :=
  { a with table := a.table.deleteWhere fun _ entry => entry.backend = backend }

/-- `Len`. -/
def len (a : Affinity) : Nat := a.table.len

/-- The backend that the table holds for a tenant and a key, expired or not. -/
def mapping (a : Affinity) (tenant key : String) : Option String :=
  (a.table.find (composite tenant key)).map (·.2.backend)

/-- A read adds and rebinds no mapping. -/
theorem mapping_get {a : Affinity} {tenant key tenant' key' backend : String} {now : Time}
    (h : (a.get tenant key now).2.mapping tenant' key' = some backend) :
    a.mapping tenant' key' = some backend := by
  unfold get at h
  split at h
  · exact h
  · split at h
    · rwa [mapping, LinkedMap.find_moveToFront] at h
    · obtain ⟨x, hx, rfl⟩ := Option.map_eq_some_iff.mp h
      rw [mapping, LinkedMap.find_of_delete hx]
      rfl

end Affinity

end Kavora.Router
