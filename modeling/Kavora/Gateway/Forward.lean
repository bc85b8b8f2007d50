import Kavora.Gateway.BackendCandidates

/-!
# Calling the backends of a request (`Server.forward` in `server.go`)

`forward` calls the candidates in order until one answers with a 2xx status, and marks each of them
in the registry. Here it starts after the stream of a streaming request is opened, and ends before
the answer is passed on.

* `attempted`: the backends that are called.
* `tryBackends_healthy`: the flags after the loop: a called backend is healthy if it answered 2xx.
* `forward_health_iff`: the flags change only through failures of backends if and only if every
  called backend answered 2xx or failed by itself.
-/

namespace Kavora.Gateway

open Lib Lib.Go Router Backends

/-- What comes of the call of one backend. -/
inductive Attempt where
  /-- `http.NewRequestWithContext` fails. -/
  | unbuilt
  /-- `httpClient.Do` fails, with the context of the request ended or live. -/
  | failed (ended : Bool)
  | answered (statusCode : Nat)
  deriving DecidableEq, Repr

namespace Attempt

/-- The answer is passed on. -/
def success : Attempt → Bool
  | .answered statusCode => 200 ≤ statusCode && statusCode < 300
  | _ => false

/-- The backend itself failed: no connection for a live request, or a 5xx answer. -/
def Attributable : Attempt → Prop
  | .unbuilt => False
  | .failed ended => ended = false
  | .answered statusCode => 500 ≤ statusCode ∧ statusCode < 600

instance (attempt : Attempt) : Decidable attempt.Attributable := by
  cases attempt <;> unfold Attributable <;> infer_instance

end Attempt

/-- What `forward` comes to: the backend that was called last, and whether its answer is passed on.
No backend is the empty ID. -/
structure Forwarded where
  actualBackend : String
  served : Bool
  deriving DecidableEq, Repr

section Forward

variable {F : Type}

namespace Server

/-- A change of the registry, if there is one. -/
def mark (server : Server F) (change : Registry → Registry) : Server F :=
  { server with backends := server.backends.map change }

/-- The flag of a backend; `none` if the server does not know it. -/
def healthy (server : Server F) (id : String) : Option Bool :=
  server.backends.bind fun registry => (registry.entries.lookup id).map (·.healthy)

/-- The loop over the candidates; `attempts` says what comes of the call of each. -/
def tryBackends (attempts : String → Attempt) :
    List Backend → String → Server F → Forwarded × Server F
  | [], actualBackend, server => ({ actualBackend, served := false }, server)
  | candidate :: candidates, _, server =>
    match attempts candidate.id with
    | .unbuilt =>
      tryBackends attempts candidates candidate.id (server.mark (·.markFailure candidate.id))
    | .failed _ =>
      tryBackends attempts candidates candidate.id (server.mark (·.markFailure candidate.id))
    | .answered statusCode =>
      if statusCode < 200 ∨ statusCode ≥ 300 then
        tryBackends attempts candidates candidate.id (server.mark (·.markFailure candidate.id))
      else
        ({ actualBackend := candidate.id, served := true },
          server.mark (·.markSuccess candidate.id))

variable [Float64 F]

/-- `forward`: the candidates are called one after the other until one answers. -/
def forward (env : Router.Externals F) (server : Server F) (call : Call F)
    (attempts : String → Attempt) : Forwarded × Server F :=
  let (candidates, _, server) := backendCandidates env server call
  server.tryBackends attempts candidates ""

end Server

/-- The candidates up to the first that answers 2xx. -/
def attempted (attempts : String → Attempt) : List Backend → List Backend
  | [] => []
  | candidate :: candidates =>
    if (attempts candidate.id).success then [candidate]
    else candidate :: attempted attempts candidates

/-! ## The flags -/

theorem setHealthy_healthy (registry : Registry) (id id' : String) (healthy : Bool) :
    ((registry.setHealthy id healthy).entries.lookup id').map (·.healthy) =
      if id' = id then (registry.entries.lookup id).map fun _ => healthy
      else (registry.entries.lookup id').map (·.healthy) := by
  unfold Registry.setHealthy
  split
  · rename_i hnone
    split
    · rename_i hid
      rw [hid, hnone]
      rfl
    · rfl
  · rename_i entry hentry
    have hkey : entry.backend.id = id := registry.key_eq id entry hentry
    show ((registry.entries.insert entry.backend.id _).lookup id').map _ = _
    split
    · rename_i hid
      rw [hid, hkey, AList.lookup_insert, hentry]
      rfl
    · rename_i hid
      rw [AList.lookup_insert_ne (by rw [hkey]; exact hid)]

namespace Server

theorem mark_healthy (server : Server F) (id id' : String) (healthy : Bool) :
    (server.mark (·.setHealthy id healthy)).healthy id' =
      if id' = id then (server.healthy id).map fun _ => healthy else server.healthy id' := by
  unfold Server.healthy mark
  cases server.backends with
  | none => split <;> rfl
  | some registry =>
    rw [Option.map_some, Option.bind_some, Option.bind_some, Option.bind_some,
      setHealthy_healthy, Option.map_map]
    rfl

theorem tryBackends_cons (attempts : String → Attempt) (candidate : Backend)
    (candidates : List Backend) (actualBackend : String) (server : Server F) :
    server.tryBackends attempts (candidate :: candidates) actualBackend =
      if (attempts candidate.id).success then
        ({ actualBackend := candidate.id, served := true },
          server.mark (·.setHealthy candidate.id true))
      else
        (server.mark (·.setHealthy candidate.id false)).tryBackends attempts candidates
          candidate.id := by
  rw [tryBackends]
  cases attempts candidate.id with
  | unbuilt => rfl
  | failed ended => rfl
  | answered statusCode =>
    by_cases hrange : statusCode < 200 ∨ statusCode ≥ 300
    · have hsuccess : (Attempt.answered statusCode).success = false := by
        simp only [Attempt.success, Bool.and_eq_false_iff, decide_eq_false_iff_not]
        omega
      rw [hsuccess]
      exact if_pos hrange
    · have hsuccess : (Attempt.answered statusCode).success = true := by
        simp only [Attempt.success, Bool.and_eq_true, decide_eq_true_eq]
        omega
      rw [hsuccess]
      exact if_neg hrange

/-- **The flags after the loop**: those of the called backends say whether they answered 2xx. -/
theorem tryBackends_healthy (attempts : String → Attempt) (candidates : List Backend)
    (actualBackend : String) (server : Server F) (id : String) :
    (server.tryBackends attempts candidates actualBackend).2.healthy id =
      if id ∈ (attempted attempts candidates).map (·.id) then
        (server.healthy id).map fun _ => (attempts id).success
      else server.healthy id := by
  induction candidates generalizing actualBackend server with
  | nil => rfl
  | cons candidate candidates ih =>
    rw [tryBackends_cons, attempted]
    by_cases hsuccess : (attempts candidate.id).success = true
    · rw [if_pos hsuccess, if_pos hsuccess, mark_healthy, List.map_singleton]
      by_cases hid : id = candidate.id
      · rw [if_pos hid, if_pos (List.mem_singleton.mpr hid), hid, hsuccess]
      · rw [if_neg hid, if_neg fun hmem => hid (List.mem_singleton.mp hmem)]
    · rw [if_neg hsuccess, if_neg hsuccess, ih, mark_healthy, List.map_cons]
      rw [Bool.not_eq_true] at hsuccess
      by_cases hid : id = candidate.id
      · rw [if_pos hid, if_pos (List.mem_cons.mpr (.inl hid)), Option.map_map, hid, hsuccess]
        -- a second call of the same backend would fail again
        split <;> rfl
      · rw [if_neg hid]
        by_cases hmem : id ∈ (attempted attempts candidates).map (·.id)
        · rw [if_pos hmem, if_pos (List.mem_cons_of_mem _ hmem)]
        · rw [if_neg hmem, if_neg fun hcons => (List.mem_cons.mp hcons).elim hid hmem]

end Server

/-! ## The candidates are healthy -/

theorem attempted_subset (attempts : String → Attempt) (candidates : List Backend) :
    attempted attempts candidates ⊆ candidates := by
  induction candidates with
  | nil => exact List.Subset.refl _
  | cons candidate candidates ih =>
    rw [attempted]
    split
    · exact List.cons_subset_cons _ (List.nil_subset _)
    · exact List.cons_subset_cons _ ih

theorem candidates_entries (registry : Registry) (model : String) :
    (registry.candidates model).2.entries = registry.entries := by
  unfold Registry.candidates
  dsimp only
  split
  · rfl
  · rfl

variable [Float64 F]

/-- A candidate of a server with a registry is offered by it. -/
theorem offers_of_mem {env : Router.Externals F} {server : Server F} {call : Call F}
    {registry : Registry} (hregistry : server.backends = some registry) {backend : Backend}
    (h : backend ∈ (backendCandidates env server call).1) :
    registry.Offers call.model backend := by
  obtain ⟨hnodup, hoffers⟩ := registry.candidates_spec call.model
  unfold backendCandidates Server.registryCandidates at h
  rw [hregistry] at h
  dsimp only at h
  split at h
  · exact (hoffers backend).mp h
  · rename_i c _
    have hmem := (dispatch_perm env c call hnodup).mem_iff.mp h
    exact (hoffers backend).mp (List.mem_of_mem_filter hmem)

theorem healthy_of_mem {env : Router.Externals F} {server : Server F} {call : Call F}
    {registry : Registry} (hregistry : server.backends = some registry) {backend : Backend}
    (h : backend ∈ (backendCandidates env server call).1) :
    server.healthy backend.id = some true := by
  obtain ⟨entry, hentry, -, -, hhealthy, -⟩ := offers_of_mem hregistry h
  unfold Server.healthy
  rw [hregistry, Option.bind_some, hentry, Option.map_some, hhealthy]

/-- Finding the candidates changes no flag. -/
theorem backendCandidates_healthy (env : Router.Externals F) (server : Server F) (call : Call F)
    (id : String) : (backendCandidates env server call).2.2.healthy id = server.healthy id := by
  have hregistry : (server.registryCandidates call.model).2.healthy id = server.healthy id := by
    unfold Server.registryCandidates Server.healthy
    cases hbackends : server.backends with
    | none => simp only [hbackends]
    | some registry => simp only [Option.bind_some, candidates_entries]
  rw [← hregistry]
  unfold backendCandidates
  dsimp only
  split <;> rfl

/-! ## Failures of backends -/

/-- The backends that a request is sent to. -/
def Server.attempted (env : Router.Externals F) (server : Server F) (call : Call F)
    (attempts : String → Attempt) : List Backend :=
  Gateway.attempted attempts (backendCandidates env server call).1

/-- The flags after a request are those before it, except for backends that failed by themselves. -/
def Server.HealthKept (env : Router.Externals F) (server : Server F) (call : Call F)
    (attempts : String → Attempt) : Prop :=
  ∀ id, (server.forward env call attempts).2.healthy id ≠ server.healthy id →
    id ∈ (server.attempted env call attempts).map (·.id) ∧ (attempts id).Attributable

/-- Every backend that a request is sent to answers 2xx or fails by itself. -/
def Server.NoClientFailure (env : Router.Externals F) (server : Server F) (call : Call F)
    (attempts : String → Attempt) : Prop :=
  ∀ backend ∈ server.attempted env call attempts,
    (attempts backend.id).success ∨ (attempts backend.id).Attributable

/-- **Only failures of backends change their flags** if and only if every backend that the request
is sent to answers 2xx or fails by itself. -/
theorem forward_health_iff (env : Router.Externals F) (server : Server F) (call : Call F)
    (attempts : String → Attempt) :
    server.HealthKept env call attempts ↔
      server.backends = none ∨ server.NoClientFailure env call attempts := by
  have hafter : ∀ id, (server.forward env call attempts).2.healthy id =
      if id ∈ (server.attempted env call attempts).map (·.id) then
        (server.healthy id).map fun _ => (attempts id).success
      else server.healthy id := by
    intro id
    unfold Server.forward Server.attempted
    dsimp only
    rw [Server.tryBackends_healthy, backendCandidates_healthy]
  constructor
  · intro hkept
    cases hregistry : server.backends with
    | none => exact .inl rfl
    | some registry =>
      refine .inr fun backend hbackend => ?_
      by_cases hsuccess : (attempts backend.id).success = true
      · exact .inl hsuccess
      · have hmem : backend.id ∈ (server.attempted env call attempts).map (·.id) :=
          List.mem_map_of_mem hbackend
        have hbefore := healthy_of_mem hregistry (attempted_subset _ _ hbackend)
        refine .inr (hkept backend.id ?_).2
        rw [hafter, if_pos hmem, hbefore]
        simpa using hsuccess
  · intro hcondition id hchanged
    rw [hafter] at hchanged
    split at hchanged
    · rename_i hmem
      refine ⟨hmem, ?_⟩
      obtain ⟨backend, hbackend, rfl⟩ := List.mem_map.mp hmem
      cases hregistry : server.backends with
      | none =>
        have hunknown : server.healthy backend.id = none := by
          unfold Server.healthy
          rw [hregistry]
          rfl
        rw [hunknown] at hchanged
        exact absurd rfl hchanged
      | some registry =>
        have hbefore := healthy_of_mem hregistry (attempted_subset _ _ hbackend)
        rw [hbefore, Option.map_some] at hchanged
        have hall := hcondition.resolve_left (by rw [hregistry]; exact Option.some_ne_none _)
        refine (hall backend hbackend).resolve_left fun hsuccess => hchanged ?_
        rw [hsuccess]
    · exact absurd rfl hchanged

end Forward

namespace ForwardSample

local instance : Float64 Rat := .rational fun _ => 1

def server : Server Rat where
  backends := some ShadowSample.registry
  router := some ShadowSample.controller
  backendURL := ShadowSample.url

/-- The client closes its connection while the first backend is called. -/
def cancelled (_ : String) : Attempt := .failed true

/-- One request whose client goes away leaves no backend for the next one. -/
theorem cancelled_clears_all :
    (∀ id, ¬ (cancelled id).Attributable) ∧
      server.healthy "a" = some true ∧ server.healthy "b" = some true ∧
      (server.forward ShadowSample.env ShadowSample.call cancelled).2.healthy "a" = some false ∧
      (server.forward ShadowSample.env ShadowSample.call cancelled).2.healthy "b" = some false ∧
      ((server.forward ShadowSample.env ShadowSample.call cancelled).2.registryCandidates
        "m").1.length = 0 ∧
      ¬ server.HealthKept ShadowSample.env ShadowSample.call cancelled := by
  refine ⟨fun id h => Bool.noConfusion (h : true = false), by decide +kernel, by decide +kernel,
    by decide +kernel, by decide +kernel, by decide +kernel, fun hkept => ?_⟩
  have hattributable := (hkept "a" (by decide +kernel)).2
  exact absurd hattributable (by decide)

/-- A request that `b` refuses. -/
example : (server.forward ShadowSample.env ShadowSample.call fun id =>
    .answered (if id = "b" then 422 else 200)).2.healthy "b" = some false := by
  decide +kernel

end ForwardSample

end Kavora.Gateway
