import Kavora.Gateway.AffinityRuns
import Kavora.Gateway.StatePolls
import Kavora.Lib.Except
import Kavora.Router.PredictorArtifact
import Kavora.Webui.Handler

/-!
# The start of the gateway (`loadRouter` in `gateway/cmd/gateway/main.go`)

The router is made of the environment and of the files that it names. The gateway does not start when
a part of it is missing or refused.

* `loadRouter`: the router at the start; `loadRouter_ok` says what its parts are.
* `started_unexposed`: no request is sent where the router wants it before the rollout is approved.
-/

namespace Kavora.Gateway

open Lib Lib.Go Router BackendState Webui
open Float64 (ofInt)
open Ledger (DecisionLedger)

/-! ## The environment -/

/-- The variables and the files, and what reads them. -/
structure Environment (F : Type) where
  /-- Empty for a variable that is not set. -/
  getenv : String → String
  readFile : String → Option Bytes
  /-- The files of the journal's directory, if it can be made. -/
  journalFiles : String → Option Ledger.Directory
  /-- `time.ParseDuration`. -/
  parseDuration : String → Option Duration
  /-- `strconv.ParseFloat`. -/
  parseFloat : String → Option F
  /-- `yaml.Unmarshal` into the configuration of a lifecycle. -/
  lifecycleYaml : Bytes → Option (LifecycleConfig F)
  /-- `yaml.Unmarshal` into the configuration of an experiment. -/
  experimentYaml : Bytes → Option (Experiment.Config F)
  /-- `%q`. -/
  quote : String → String

/-- Why the gateway does not start. -/
inductive StartError where
  | openJournal | restoreJournal
  | readPredictor | loadPredictor (err : LoadError)
  | duration (name : String) | number (name : String)
  | fidelity
  | readLifecycle | decodeLifecycle | lifecycle (err : String)
  | readExperiment | decodeExperiment | experiment (err : String)
  | readState | decodeState | state (err : String)

namespace Environment

section

variable {F : Type} (env : Environment F)

/-- A variable of the environment, or a default. -/
def environmentOrDefault (name fallback : String) : String :=
  if env.getenv name ≠ "" then env.getenv name else fallback

/-- A positive duration of the environment, or a default. -/
def environmentDuration (name : String) (fallback : Duration) : Except StartError Duration :=
  if env.getenv name = "" then .ok fallback
  else
    match env.parseDuration (env.getenv name) with
    | none => .error (.duration name)
    | some parsed => if parsed ≤ 0 then .error (.duration name) else .ok parsed

variable [Float64 F]

/-- A number of the environment that is not negative, or a default. -/
def environmentNonNegativeFloat (name : String) (fallback : F) : Except StartError F :=
  if env.getenv name = "" then .ok fallback
  else
    match env.parseFloat (env.getenv name) with
    | none => .error (.number name)
    | some parsed => if Float64.lt parsed (ofInt 0) then .error (.number name) else .ok parsed

/-- The file that a variable names, if it names one. -/
def configured {α : Type} (name : String) (missing : StartError) (load : Bytes → Except StartError α) :
    Except StartError (Option α) :=
  if env.getenv name = "" then .ok none
  else
    match env.readFile (env.getenv name) with
    | none => .error missing
    | some data => (load data).map some

/-- The lifecycle of a file. -/
def loadLifecycle (data : Bytes) : Except StartError (Lifecycle F) :=
  match env.lifecycleYaml data with
  | none => .error .decodeLifecycle
  | some config => (Lifecycle.new config).mapError .lifecycle

/-- `experiment.Load`. -/
def loadExperiment (data : Bytes) : Except StartError (Experiment.Controller F) :=
  match env.experimentYaml data with
  | none => .error .decodeExperiment
  | some config => (Experiment.Controller.new env.parseDuration config).mapError .experiment

/-- The provider for a fidelity. -/
def loadProvider (maxStateAge : Duration) : Except StartError (CacheStateProvider F) :=
  let fidelity := env.environmentOrDefault "KAVORA_CACHE_FIDELITY" "affinity"
  if fidelity = "none" then .ok .noCache
  else if fidelity = "affinity" then
    .ok (.affinity (some { affinity := .shared, confidence := clamp01 (ofInt 65 / ofInt 100) }))
  else if fidelity = "shadow" then
    .ok (.shadowIndex (some { confidence := clamp01 (ofInt 55 / ofInt 100), maxAge := maxStateAge }))
  else if fidelity = "exact" ∨ fidelity = "kv-events" then
    (env.environmentNonNegativeFloat "KAVORA_CACHE_CONFIDENCE_LAMBDA" (ofInt 1 / ofInt 10)).map
      fun lambda => .kvEvents (some (.new 65536 maxStateAge lambda))
  else .error .fidelity

variable [FloatText F]

/-- The ledger of `configureOutcomeGrounding`. -/
def loadLedger : Except StartError (DecisionLedger F) :=
  let directory := env.environmentOrDefault "KAVORA_DECISION_JOURNAL_DIR" "results/state"
  if directory = "off" ∨ directory = "disabled" then .ok (.new 4096 false)
  else
    match env.journalFiles directory with
    | none => .error .openJournal
    | some files =>
      match DecisionLedger.reopen 4096 files with
      | none => .error .restoreJournal
      | some ledger => .ok ledger

end

end Environment

section

variable {F : Type} [Float64 F] [FloatText F]

/-- The predictor of an artifact. -/
def loadPredictor (data : Bytes) : Except StartError (TTFTPredictor F) :=
  match Json.parse (Utf8.runes data) with
  | none => .error (.loadPredictor .unmarshal)
  | some doc => ((loadTTFTPredictor doc).map (·.1)).mapError .loadPredictor

/-- The snapshots of the state file: a list, or one. -/
def loadSnapshots (data : Bytes) : Except StartError (List (Snapshot F)) :=
  match unmarshalBytes (List (Snapshot F)) data with
  | some snapshots => .ok snapshots
  | none =>
    match unmarshalBytes (Snapshot F) data with
    | some snapshot => .ok [snapshot]
    | none => .error .decodeState

/-- `NewController`: a mode that it does not know is static. -/
def newController (mode : String) (affinity : Option Affinity) : Controller F where
  mode :=
    if mode = "load-aware" then .loadAware
    else if mode = "shadow" then .shadow
    else if mode = "enforced" then .enforced
    else .static
  states := ∅
  cache :=
    { affinity
      provider :=
        match affinity with
        | none => .noCache
        | some _ =>
          .affinity (some { affinity := .shared, confidence := clamp01 (ofInt 65 / ofInt 100) }) }
  predictor := .default
  lifecycle := none
  experiment := none
  maxStateAge := 0
  stateLambda := ofInt 1 / ofInt 10

/-- The initial states are set; the first that is refused stops the gateway. -/
def setStatesOrFail (quote : String → String) (c : Controller F) (snapshots : List (Snapshot F)) :
    Except StartError (Controller F) :=
  snapshots.foldlM (fun c snapshot => (c.setState quote snapshot).mapError .state) c

/-- The router at the start, with its ledger. -/
def loadRouter (env : Environment F) : Except StartError (ControlPlane F) := do
  let affinity := Affinity.new 4096 300000000000
  let c := newController (env.getenv "KAVORA_ROUTING_MODE") (some affinity)
  let ledger ← env.loadLedger
  let predictor ← env.configured "KAVORA_TTFT_PREDICTOR_PATH" .readPredictor loadPredictor
  let maxStateAge ← env.environmentDuration "KAVORA_BACKEND_STATE_MAX_AGE" 10000000000
  let provider ← env.loadProvider maxStateAge
  let lifecycle ←
    env.configured "KAVORA_ROUTING_LIFECYCLE_CONFIG" .readLifecycle env.loadLifecycle
  let experiment ← env.configured "KAVORA_EXPERIMENT_CONFIG" .readExperiment env.loadExperiment
  let snapshots ← env.configured "KAVORA_BACKEND_STATE_FILE" .readState loadSnapshots
  let c :=
    { c with
      predictor := predictor.getD c.predictor
      maxStateAge
      cache := { c.cache with provider }
      lifecycle
      experiment }
  let c ← setStatesOrFail env.quote c (snapshots.getD [])
  pure { controller := c, ledger }

/-! ## What is loaded -/

/-- The parts of a router at the start. -/
structure Loaded (env : Environment F) (cp : ControlPlane F) : Prop where
  ledger : env.loadLedger = .ok cp.ledger
  lifecycle : env.configured "KAVORA_ROUTING_LIFECYCLE_CONFIG" .readLifecycle env.loadLifecycle =
    .ok cp.controller.lifecycle
  affinity : cp.controller.cache.affinity = some (.new 4096 300000000000)
  provider : env.loadProvider cp.controller.maxStateAge = .ok cp.controller.cache.provider
  validated : cp.controller.Validated

omit [Float64 F] [FloatText F] in
/-- Setting states leaves the rest of the router. -/
theorem setStatesOrFail_ok {quote : String → String} {c c' : Controller F}
    {snapshots : List (Snapshot F)} (h : setStatesOrFail quote c snapshots = .ok c') :
    c' = { c with states := c'.states } ∧ (c.Validated → c'.Validated) := by
  induction snapshots generalizing c with
  | nil =>
    cases h
    exact ⟨rfl, id⟩
  | cons snapshot snapshots ih =>
    unfold setStatesOrFail at h
    rw [List.foldlM_cons] at h
    obtain ⟨next, hnext, hrest⟩ := bind_ok h
    obtain ⟨heq, hvalid⟩ := ih hrest
    cases hset : c.setState quote snapshot with
    | error err =>
      rw [hset] at hnext
      cases hnext
    | ok stored =>
      rw [hset] at hnext
      cases hnext
      refine ⟨?_, fun h => hvalid (Controller.setState_validated h hset)⟩
      unfold Controller.setState at hset
      split at hset
      · cases hset
      · cases hset
        rw [heq]

theorem loadRouter_ok {env : Environment F} {cp : ControlPlane F} (h : loadRouter env = .ok cp) :
    Loaded env cp := by
  unfold loadRouter at h
  obtain ⟨ledger, hledger, h⟩ := bind_ok h
  obtain ⟨predictor, -, h⟩ := bind_ok h
  obtain ⟨maxStateAge, -, h⟩ := bind_ok h
  obtain ⟨provider, hprovider, h⟩ := bind_ok h
  obtain ⟨lifecycle, hlifecycle, h⟩ := bind_ok h
  obtain ⟨experiment, -, h⟩ := bind_ok h
  obtain ⟨snapshots, -, h⟩ := bind_ok h
  obtain ⟨c, hset, h⟩ := bind_ok h
  obtain ⟨heq, hvalid⟩ := setStatesOrFail_ok hset
  cases h
  have hnone : ∀ id state, (∅ : Map String (Snapshot F)).lookup id ≠ some state := by
    intro id state hlookup
    rw [AList.lookup_empty] at hlookup
    cases hlookup
  refine ⟨hledger, ?_, ?_, ?_, hvalid fun id state hlookup => absurd hlookup (hnone id state)⟩
  · rw [heq]
    exact hlifecycle
  · rw [heq]
    rfl
  · rw [heq]
    exact hprovider

/-- The lifecycle at the start is that of the file. -/
theorem Loaded.lifecycle_file {env : Environment F} {cp : ControlPlane F} (h : Loaded env cp)
    {data : Bytes} {config : LifecycleConfig F}
    (hname : env.getenv "KAVORA_ROUTING_LIFECYCLE_CONFIG" ≠ "")
    (hread : env.readFile (env.getenv "KAVORA_ROUTING_LIFECYCLE_CONFIG") = some data)
    (hconfig : env.lifecycleYaml data = some config) :
    ∃ lifecycle, Lifecycle.new config = .ok lifecycle ∧
      cp.controller.lifecycle = some lifecycle := by
  have hlifecycle := h.lifecycle
  unfold Environment.configured Environment.loadLifecycle at hlifecycle
  rw [if_neg hname, hread] at hlifecycle
  dsimp only at hlifecycle
  rw [hconfig] at hlifecycle
  dsimp only at hlifecycle
  cases hnew : Lifecycle.new config with
  | error err =>
    rw [hnew] at hlifecycle
    cases hlifecycle
  | ok lifecycle =>
    rw [hnew] at hlifecycle
    exact ⟨lifecycle, rfl, (Except.ok.inj hlifecycle).symm⟩

/-! ## No exposure without an approval -/

omit [FloatText F] in
/-- An enforced decision comes from a rollout that is exposed. -/
theorem plan_enforced {ext : Router.Externals F} {c : Controller F} {lifecycle : Lifecycle F}
    (h : c.lifecycle = some lifecycle) {now : Time} {clock : Nat → Time}
    {request : RoutingRequest F} {backends : List BackendDescriptor}
    (henforced : (c.plan ext now clock request backends).1.enforced = true) :
    lifecycle.stage = .canary ∨ lifecycle.stage = .enforced := by
  have hrollout : (c.rollout ext request.requestID now).enforced = true := by
    unfold Controller.plan at henforced
    dsimp only at henforced
    rwa [(select_eq _ _ _ _).2] at henforced
  have hstage : lifecycle.enforces request.requestID = true := by
    unfold Controller.rollout Controller.stageRollout at hrollout
    rw [h] at hrollout
    dsimp only at hrollout
    split at hrollout
    · exact hrollout
    · rw [Option.isSome_some, if_pos rfl, Bool.and_eq_true] at hrollout
      exact hrollout.1
  unfold Lifecycle.enforces at hstage
  rw [Bool.or_eq_true, Bool.and_eq_true, decide_eq_true_eq, decide_eq_true_eq] at hstage
  rcases hstage with henforced | ⟨hcanary, -⟩
  · exact .inr henforced
  · exact .inl hcanary

variable [Rounding F] [QueryFloat F]

/-- **A gateway whose lifecycle file requires human approval sends no request where the router wants
it** before somebody with the token has approved the rollout in shadow, whatever else its environment
says, whatever the admin API is sent and whatever the gateway does. -/
theorem started_unexposed {env : Environment F} {cp : ControlPlane F}
    (hstart : loadRouter env = .ok cp) {data : Bytes} {config : LifecycleConfig F}
    (hname : env.getenv "KAVORA_ROUTING_LIFECYCLE_CONFIG" ≠ "")
    (hread : env.readFile (env.getenv "KAVORA_ROUTING_LIFECYCLE_CONFIG") = some data)
    (hconfig : env.lifecycleYaml data = some config)
    (hrequired : config.requireHumanApproval = true) (adminToken : String)
    (steps : List (ControlPlane.Step F)) (ext : Router.Externals F) (now : Time)
    (clock : Nat → Time) (request : RoutingRequest F) (backends : List BackendDescriptor)
    (cacheKey : String) :
    let planned := (cp.run adminToken steps).controller.plan ext now clock request backends
    (planned.2.preferredIDsForDecision planned.1 cacheKey).1 ≠ [] →
      ∃ before time sent after approvedBy, steps = before ++ .request time sent :: after ∧
        ControlPlane.Approves adminToken sent approvedBy ∧
        ∃ shadow, (cp.run adminToken before).controller.lifecycle = some shadow ∧
          shadow.stage = .shadow := by
  intro planned hpreferred
  obtain ⟨started, hnew, hstarted⟩ := (loadRouter_ok hstart).lifecycle_file hname hread hconfig
  obtain ⟨lifecycle, hlifecycle, happroved⟩ :=
    ControlPlane.exposure_approved adminToken hnew hrequired hstarted steps
  have henforced : planned.1.enforced = true := by
    rcases planned.2.preferredIDs_cases planned.1 cacheKey with hnone | ⟨henforced, -, -⟩
    · rw [hnone] at hpreferred
      exact absurd rfl hpreferred
    · exact henforced
  obtain ⟨before, time, sent, after, hsplit, happroves, hshadow⟩ :=
    happroved (plan_enforced hlifecycle henforced)
  exact ⟨before, time, sent, after, lifecycle.approvedBy, hsplit, happroves, hshadow⟩

end

end Kavora.Gateway
