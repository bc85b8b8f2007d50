import Kavora.Gateway.StatePolls
import Kavora.Lib.System
import Kavora.Router.Readings

/-!
# From the scrapes of the exporters to the plans of the gateway

Each exporter scrapes in its own time, and may be restarted. The gateway asks one of them after the
other; an answer is on its way while the exporters go on, and may be lost.

* `Feed.system`: the exporters, the answer on its way, and the controller.
* `Feed.plan_measured`: every number that a plan reads of a backend is one of a scrape.
* `Feed.never_older`: a stored snapshot is never replaced by an older one.
-/

namespace Kavora.Exporter

open Lib.Go BackendState

namespace Settings

variable {F : Type} [Float64 F]

/-- The backend of all snapshots of an exporter. -/
def id (settings : Settings F) : String :=
  (settings.snapshot (∅ : Metrics F) 0).backendID

theorem snapshot_id (settings : Settings F) (metrics : Metrics F) (millis : Int) :
    (settings.snapshot metrics millis).backendID = settings.id := by
  unfold id snapshot snapshotFromDerived derive computeDerived
  cases settings.adapter <;> rfl

end Settings

end Kavora.Exporter

namespace Kavora.Gateway

open Lib Lib.Go Lib.Json Router BackendState Exporter
open Float64 (ofInt)

/-- The exporters `ι` and the gateway that polls them. -/
structure Feed (ι F : Type) where
  exporters : ι → Service F
  /-- What each exporter has scraped, the oldest first. -/
  scrapes : ι → List (Scrape F)
  /-- The answer on its way to the gateway. -/
  inFlight : Option StateReply
  controller : Controller F

namespace Feed

variable {ι F : Type} [DecidableEq ι] [Float64 F] [FloatText F] [PyRepr F] [PyFixed F]

/-- The steps of the exporters, of the polls and of the requests. -/
inductive Action (ι F : Type) where
  | scrape (i : ι) (scrape : Scrape F)
  | restart (i : ι)
  | ask (i : ι)
  | lose
  | take
  /-- The gateway serves requests. -/
  | serve (controller : Controller F)

variable (settings : ι → Settings F) (writer : Json.Writer) (quote : String → String)

/-- One step. A plan changes the controller, but not its snapshots. -/
def step (f : Feed ι F) : Action ι F → Feed ι F → Prop
  | .scrape i scrape, f' => f' =
    { f with
      exporters := Function.update f.exporters i ((f.exporters i).poll (settings i) scrape)
      scrapes := Function.update f.scrapes i (f.scrapes i ++ [scrape]) }
  | .restart i, f' => f' =
    { f with exporters := Function.update f.exporters i (.new (f.exporters i).files) }
  | .ask i, f' => f.inFlight = none ∧ f' =
    { f with inFlight := some (answerState writer (f.exporters i).backendStateSnapshot) }
  | .lose, f' => (f' = { f with inFlight := some .unreachable }) ∨
    f' = { f with inFlight := some .broken }
  | .take, f' => ∃ reply, f.inFlight = some reply ∧ f' =
    { f with inFlight := none, controller := (pollBackendState quote f.controller reply).1 }
  | .serve controller, f' => controller.states = f.controller.states ∧
    f' = { f with controller }

/-- Every process has just started. -/
def system : System (Feed ι F) (Action ι F) where
  init f := (∀ i, ∃ files, f.exporters i = .new files) ∧ f.scrapes = (fun _ => []) ∧
    f.inFlight = none ∧ f.controller.states = ∅
  step := step settings writer quote

/-! ## Where a snapshot comes from -/

/-- The snapshot of a scrape of this exporter. -/
def Collected (settings : ι → Settings F) (f : Feed ι F) (i : ι) (snapshot : Snapshot F) : Prop :=
  ∃ metrics millis saved, Scrape.collected metrics millis saved ∈ f.scrapes i ∧
    snapshot = (settings i).snapshot metrics millis

/-- A reply without a snapshot, which leaves the controller alone. -/
def Silent (quote : String → String) (reply : StateReply) : Prop :=
  ∀ c : Controller F, (pollBackendState quote c reply).1 = c

/-- Every snapshot comes from a scrape. -/
structure Sourced (f : Feed ι F) : Prop where
  current : ∀ i snapshot, (f.exporters i).backendState = some snapshot →
    Collected settings f i snapshot
  inFlight : ∀ reply, f.inFlight = some reply → Silent (F := F) quote reply ∨
    ∃ i snapshot, Collected settings f i snapshot ∧ reply = answerState writer (some snapshot)
  stored : ∀ id state, f.controller.states.lookup id = some state →
    ∃ i snapshot, Collected settings f i snapshot ∧ Carried writer snapshot ∧
      snapshot.backendID = id ∧ state = received snapshot

variable {settings writer quote} {f f' : Feed ι F} {action : Action ι F}

omit [FloatText F] [PyRepr F] in
theorem poll_backendState (settings : Settings F) (s : Service F) (scrape : Scrape F) :
    (s.poll settings scrape).backendState = (scrape.snapshot settings <|> s.backendState) := by
  cases scrape with
  | failed => rfl
  | collected metrics millis saved => cases saved <;> rfl

omit [DecidableEq ι] [FloatText F] [PyRepr F] [PyFixed F] in
theorem Collected.mono {i : ι} {snapshot : Snapshot F} (h : Collected settings f i snapshot)
    (hscrapes : ∀ i, ∀ scrape ∈ f.scrapes i, scrape ∈ f'.scrapes i) :
    Collected settings f' i snapshot := by
  obtain ⟨metrics, millis, saved, hmem, hsnapshot⟩ := h
  exact ⟨metrics, millis, saved, hscrapes i _ hmem, hsnapshot⟩

/-- No step forgets a scrape. -/
theorem step_scrapes (hstep : step settings writer quote f action f') (i : ι) :
    ∀ scrape ∈ f.scrapes i, scrape ∈ f'.scrapes i := by
  intro scrape hmem
  cases action with
  | scrape j new =>
    subst hstep
    show scrape ∈ Function.update f.scrapes j (f.scrapes j ++ [new]) i
    by_cases hij : i = j
    · subst hij
      rw [Function.update_self]
      exact List.mem_append_left _ hmem
    · rwa [Function.update_of_ne hij]
  | restart => subst hstep; exact hmem
  | ask => obtain ⟨-, rfl⟩ := hstep; exact hmem
  | lose => rcases hstep with rfl | rfl <;> exact hmem
  | take => obtain ⟨reply, -, rfl⟩ := hstep; exact hmem
  | serve => obtain ⟨-, rfl⟩ := hstep; exact hmem

omit [DecidableEq ι] [PyFixed F] in
/-- What a snapshot on its way does to the controller. -/
theorem Collected.taken [LawfulPyRepr F] {i : ι} {snapshot : Snapshot F}
    (h : Collected settings f i snapshot) (writer : Json.Writer) (quote : String → String)
    (c : Controller F) :
    (pollBackendState quote c (answerState writer (some snapshot))).1 = c ∨
      Carried writer snapshot ∧
        (pollBackendState quote c (answerState writer (some snapshot))).1.states =
          c.states.insert snapshot.backendID (received snapshot) := by
  obtain ⟨metrics, millis, saved, -, rfl⟩ := h
  obtain ⟨hcarried, hfailed⟩ := poll_answer writer quote c (settings i) metrics millis
  by_cases hc : Carried writer ((settings i).snapshot metrics millis)
  · refine .inr ⟨hc, ?_⟩
    rw [hcarried hc]
  · obtain ⟨failure, hpoll⟩ := hfailed hc
    refine .inl ?_
    rw [hpoll]

theorem sourced_step [LawfulPyRepr F] (h : Sourced settings writer quote f)
    (hstep : step settings writer quote f action f') : Sourced settings writer quote f' := by
  have hkept : ∀ {i snapshot}, Collected settings f i snapshot → Collected settings f' i snapshot :=
    fun hcollected => hcollected.mono (step_scrapes hstep)
  -- The parts of the state that a step leaves alone.
  have hcurrent : f'.exporters = f.exporters → ∀ i snapshot,
      (f'.exporters i).backendState = some snapshot → Collected settings f' i snapshot := by
    intro hexporters i snapshot hsnapshot
    rw [hexporters] at hsnapshot
    exact hkept (h.current i snapshot hsnapshot)
  have hflight : f'.inFlight = f.inFlight → ∀ reply, f'.inFlight = some reply →
      Silent (F := F) quote reply ∨
        ∃ i snapshot, Collected settings f' i snapshot ∧ reply = answerState writer (some snapshot) := by
    intro hinFlight reply hreply
    rw [hinFlight] at hreply
    rcases h.inFlight reply hreply with hsilent | ⟨i, snapshot, hcollected, hanswer⟩
    · exact .inl hsilent
    · exact .inr ⟨i, snapshot, hkept hcollected, hanswer⟩
  have hstored : f'.controller.states = f.controller.states → ∀ id state,
      f'.controller.states.lookup id = some state →
      ∃ i snapshot, Collected settings f' i snapshot ∧ Carried writer snapshot ∧
        snapshot.backendID = id ∧ state = received snapshot := by
    intro hstates id state hstate
    rw [hstates] at hstate
    obtain ⟨i, snapshot, hcollected, hcarried⟩ := h.stored id state hstate
    exact ⟨i, snapshot, hkept hcollected, hcarried⟩
  cases action with
  | scrape i scrape =>
    subst hstep
    refine ⟨fun j snapshot hsnapshot => ?_, hflight rfl, hstored rfl⟩
    by_cases hij : j = i
    · subst hij
      have hpoll : ((f.exporters j).poll (settings j) scrape).backendState = some snapshot := by
        simpa using hsnapshot
      rw [poll_backendState] at hpoll
      cases scrape with
      | failed => exact hkept (h.current j snapshot hpoll)
      | collected metrics millis saved =>
        cases hpoll
        refine ⟨metrics, millis, saved, ?_, rfl⟩
        simp
    · have hold : (f.exporters j).backendState = some snapshot := by
        simpa [hij] using hsnapshot
      exact hkept (h.current j snapshot hold)
  | restart i =>
    subst hstep
    refine ⟨fun j snapshot hsnapshot => ?_, hflight rfl, hstored rfl⟩
    by_cases hij : j = i
    · subst hij
      have hnew : (Service.new (f.exporters j).files : Service F).backendState = some snapshot := by
        simpa using hsnapshot
      cases hnew
    · have hold : (f.exporters j).backendState = some snapshot := by
        simpa [hij] using hsnapshot
      exact hkept (h.current j snapshot hold)
  | ask i =>
    obtain ⟨-, rfl⟩ := hstep
    refine ⟨hcurrent rfl, fun reply hreply => ?_, hstored rfl⟩
    obtain rfl := Option.some.inj hreply
    cases hsnapshot : (f.exporters i).backendState with
    | none =>
      refine .inl fun c => ?_
      unfold Service.backendStateSnapshot
      rw [hsnapshot]
      rfl
    | some snapshot =>
      refine .inr ⟨i, snapshot, hkept (h.current i snapshot hsnapshot), ?_⟩
      unfold Service.backendStateSnapshot
      rw [hsnapshot]
  | lose =>
    rcases hstep with rfl | rfl
    · refine ⟨hcurrent rfl, fun reply hreply => ?_, hstored rfl⟩
      obtain rfl := Option.some.inj hreply
      exact .inl fun _ => rfl
    · refine ⟨hcurrent rfl, fun reply hreply => ?_, hstored rfl⟩
      obtain rfl := Option.some.inj hreply
      exact .inl fun _ => rfl
  | take =>
    obtain ⟨reply, hreply, rfl⟩ := hstep
    refine ⟨hcurrent rfl, fun reply hnone => ?_, ?_⟩
    · cases hnone
    rcases h.inFlight reply hreply with hsilent | ⟨i, snapshot, hcollected, rfl⟩
    · exact hstored (congrArg Controller.states (hsilent f.controller))
    · rcases hcollected.taken writer quote f.controller with hsame | ⟨hcarried, hinsert⟩
      · exact hstored (congrArg Controller.states hsame)
      · intro id state hstate
        dsimp only at hstate
        rw [hinsert] at hstate
        by_cases hid : id = snapshot.backendID
        · subst hid
          rw [AList.lookup_insert] at hstate
          exact ⟨i, snapshot, hkept hcollected, hcarried, rfl, (Option.some.inj hstate).symm⟩
        · rw [AList.lookup_insert_ne hid] at hstate
          obtain ⟨j, old, hold, hrest⟩ := h.stored id state hstate
          exact ⟨j, old, hkept hold, hrest⟩
  | serve c =>
    obtain ⟨hstates, rfl⟩ := hstep
    exact ⟨hcurrent rfl, hflight rfl, hstored hstates⟩

theorem sourced_inductive [LawfulPyRepr F] :
    (system settings writer quote).Inductive (Sourced settings writer quote) where
  init f hinit := by
    obtain ⟨hexporters, -, hinFlight, hstates⟩ := hinit
    refine ⟨fun i snapshot hsnapshot => ?_, fun reply hreply => ?_, fun id state hstate => ?_⟩
    · obtain ⟨files, hnew⟩ := hexporters i
      rw [hnew] at hsnapshot
      cases hsnapshot
    · rw [hinFlight] at hreply
      cases hreply
    · rw [hstates] at hstate
      cases hstate
  step _ _ _ h hstep := sourced_step h hstep

/-! ## What a plan reads -/

/-- The numbers of a backend of which nothing is stored. -/
structure Unmeasured (c : Controller F) (candidate : Candidate F) : Prop where
  states : c.states.lookup candidate.backendID = none
  stateConfidence : candidate.stateConfidence = ofInt 0
  queueDepth : candidate.queueDepth = ofInt 0
  kvPressure : candidate.kvPressure = ofInt 0
  recentPrefillRate : candidate.recentPrefillRate = ofInt 0

/-- The numbers of a scrape. The exporters have no signal of a rate. -/
structure Measured (c : Controller F) (now : Time) (settings : Settings F) (metrics : Metrics F)
    (millis : Int) (candidate : Candidate F) : Prop where
  backendID : candidate.backendID = settings.id
  stateConfidence : candidate.stateConfidence =
    if c.maxStateAge ≤ 0 ∨ ageAt now (Time.unixMilli millis) ≤ c.maxStateAge then
      confidenceForAge (ageAt now (Time.unixMilli millis)) c.stateLambda
    else ofInt 0
  queueDepth : candidate.queueDepth = (settings.adapter.collect metrics).queueDepth.getD (ofInt 0)
  kvPressure : candidate.kvPressure = ofInt 1 - Router.clamp01 (settings.derive metrics).coldFreePerc
  recentPrefillRate : candidate.recentPrefillRate = ofInt 0

omit [FloatText F] [PyRepr F] [PyFixed F] in
theorem eq_zero_zero [Float64.Lawful F] : Float64.eq (ofInt 0 : F) (ofInt 0) = true := by
  have hnan : Float64.isNaN (ofInt 0 : F) = false := Float64.Lawful.ofInt_not_nan 0
  unfold Float64.isNaN at hnan
  rwa [Bool.not_eq_false'] at hnan

omit [FloatText F] [PyRepr F] [PyFixed F] in
/-- A signal that a state does not have. -/
theorem signalValue_absent {state : Snapshot F} {name : String}
    (h : state.signals.lookup name = none) : signalValue state name = ofInt 0 := by
  unfold signalValue value
  rw [h]

omit [FloatText F] [PyRepr F] [PyFixed F] in
theorem prefillRate_absent {state : Snapshot F}
    (hrecent : state.signals.lookup "recent_prefill_tokens_per_second" = none)
    (hrate : state.signals.lookup "prefill_tokens_per_second" = none) :
    Controller.prefillRate state = ofInt 0 := by
  unfold Controller.prefillRate
  rw [signalValue_absent hrecent, signalValue_absent hrate]
  exact ite_self _

omit [FloatText F] [PyRepr F] [PyFixed F] in
/-- A signal of a scrape. -/
theorem signalValue_signal {state : Snapshot F} {name : String} {given : Option F} {source : String}
    {millis : Int} {semantics : String} {evidence : EvidenceQuality}
    (h : state.signals.lookup name = some (signal given source millis semantics evidence false)) :
    signalValue state name = given.getD (ofInt 0) := by
  unfold signalValue value
  rw [h]
  cases given <;> rfl

omit [FloatText F] [PyRepr F] [PyFixed F] in
theorem unmeasured_of_reads [Float64.Lawful F] {c : Controller F} {now : Time}
    {candidate : Candidate F} (hnone : c.states.lookup candidate.backendID = none)
    (h : candidate.Reads c now (c.states.index candidate.backendID .zero)) :
    Unmeasured c candidate := by
  have hzero : c.states.index candidate.backendID .zero = .zero := by
    unfold Map.index
    rw [hnone]
    rfl
  rw [hzero] at h
  refine ⟨hnone, h.stateConfidence, h.queueDepth, h.kvPressure.trans ?_,
    h.recentPrefillRate.trans (prefillRate_absent rfl rfl)⟩
  unfold Controller.pressure
  dsimp only
  rw [signalValue_absent rfl, if_pos eq_zero_zero]
  rfl

omit [FloatText F] [PyRepr F] [PyFixed F] in
theorem measured_of_reads [Float64.Lawful F] {c : Controller F} {now : Time} {settings : Settings F}
    {metrics : Metrics F} {millis : Int} {candidate : Candidate F}
    (hid : settings.id = candidate.backendID) (hmillis : 0 < millis)
    (h : candidate.Reads c now (received (settings.snapshot metrics millis))) :
    Measured c now settings metrics millis candidate := by
  have hlookup : ∀ name, (received (settings.snapshot metrics millis)).signals.lookup name =
      (signals (settings.derive metrics) millis false).lookup name := fun name => received_lookup _ name
  refine ⟨hid.symm, h.stateConfidence.trans ?_, h.queueDepth.trans ?_, h.kvPressure.trans ?_,
    h.recentPrefillRate.trans (prefillRate_absent (hlookup _) (hlookup _))⟩
  · exact if_pos hmillis
  · exact signalValue_signal (hlookup "queue_depth")
  · unfold Controller.pressure value
    dsimp only
    rw [signalValue_absent (hlookup "kv_pressure"), if_pos eq_zero_zero, hlookup]
    rfl

/-- **Every number that a plan reads of a backend is one of a scrape** of an exporter of this
backend. -/
theorem plan_measured [LawfulPyRepr F] [Float64.Lawful F]
    (hf : (system settings writer quote).Reach f) (env : Externals F) (now : Time)
    (clock : Nat → Time) (request : RoutingRequest F) (backends : List BackendDescriptor)
    {candidate : Candidate F}
    (hmem : candidate ∈ (f.controller.plan env now clock request backends).1.candidates)
    (heligible : candidate.eligible = true) :
    Unmeasured f.controller candidate ∨
      ∃ i metrics millis saved, Scrape.collected metrics millis saved ∈ f.scrapes i ∧
        Carried writer ((settings i).snapshot metrics millis) ∧
        Measured f.controller now (settings i) metrics millis candidate := by
  have hreads := Controller.plan_reads env clock backends hmem heligible
  cases hstate : f.controller.states.lookup candidate.backendID with
  | none => exact .inl (unmeasured_of_reads hstate hreads)
  | some state =>
    obtain ⟨i, snapshot, ⟨metrics, millis, saved, hscrape, rfl⟩, hcarried, hid, rfl⟩ :=
      (sourced_inductive.reach hf).stored _ state hstate
    refine .inr ⟨i, metrics, millis, saved, hscrape, hcarried, ?_⟩
    have hindex : f.controller.states.index candidate.backendID .zero =
        received ((settings i).snapshot metrics millis) := by
      unfold Map.index
      rw [hstate]
      rfl
    rw [hindex] at hreads
    rw [Settings.snapshot_id] at hid
    exact measured_of_reads hid hcarried.observedAt.1 hreads

/-! ## The order of the snapshots -/

/-- The clock of an exporter does not go back. -/
def InOrder (settings : ι → Settings F) (f : Feed ι F) : Action ι F → Prop
  | .scrape i (.collected _ millis _) => ∀ snapshot, Collected settings f i snapshot →
    snapshot.observedAtUnixMillis ≤ millis
  | _ => True

/-- What is stored is no newer than what is on its way, and this is no newer than what its exporter
has. -/
structure Ordered (settings : ι → Settings F) (writer : Json.Writer) (quote : String → String)
    (f : Feed ι F) : Prop where
  inFlight : ∀ reply, f.inFlight = some reply → Silent (F := F) quote reply ∨
    ∃ i snapshot, Collected settings f i snapshot ∧ reply = answerState writer (some snapshot) ∧
      (∀ state, f.controller.states.lookup snapshot.backendID = some state →
        state.observedAtUnixMillis ≤ snapshot.observedAtUnixMillis) ∧
      ∀ current, (f.exporters i).backendState = some current →
        snapshot.observedAtUnixMillis ≤ current.observedAtUnixMillis
  stored : ∀ i current, (f.exporters i).backendState = some current →
    ∀ state, f.controller.states.lookup current.backendID = some state →
      state.observedAtUnixMillis ≤ current.observedAtUnixMillis

omit [DecidableEq ι] [FloatText F] [PyRepr F] [PyFixed F] in
/-- Snapshots of one backend come from one exporter. -/
theorem Collected.same (hids : Function.Injective fun i => (settings i).id) {i j : ι}
    {snapshot snapshot' : Snapshot F} (h : Collected settings f i snapshot)
    (h' : Collected settings f j snapshot') (hid : snapshot.backendID = snapshot'.backendID) :
    i = j := by
  obtain ⟨metrics, millis, saved, -, rfl⟩ := h
  obtain ⟨metrics', millis', saved', -, rfl⟩ := h'
  rw [Settings.snapshot_id, Settings.snapshot_id] at hid
  exact hids hid

theorem ordered_step [LawfulPyRepr F] (hids : Function.Injective fun i => (settings i).id)
    (hsourced : Sourced settings writer quote f) (h : Ordered settings writer quote f)
    (hstep : step settings writer quote f action f') (horder : InOrder settings f action) :
    Ordered settings writer quote f' := by
  have hkept : ∀ {i snapshot}, Collected settings f i snapshot → Collected settings f' i snapshot :=
    fun hcollected => hcollected.mono (step_scrapes hstep)
  cases action with
  | scrape i scrape =>
    subst hstep
    -- What the exporters have after the scrape: what they had, or its snapshot.
    have hcurrent : ∀ j current,
        (Function.update f.exporters i ((f.exporters i).poll (settings i) scrape) j).backendState =
          some current →
        (f.exporters j).backendState = some current ∨
          j = i ∧ current.backendID = (settings i).id ∧ ∀ snapshot, Collected settings f i snapshot →
            snapshot.observedAtUnixMillis ≤ current.observedAtUnixMillis := by
      intro j current hcurrent
      by_cases hij : j = i
      · subst hij
        rw [Function.update_self, poll_backendState] at hcurrent
        cases scrape with
        | failed => exact .inl hcurrent
        | collected metrics millis saved =>
          cases hcurrent
          exact .inr ⟨rfl, Settings.snapshot_id _ _ _, horder⟩
      · rw [Function.update_of_ne hij] at hcurrent
        exact .inl hcurrent
    constructor
    · intro reply hreply
      rcases h.inFlight reply hreply with
        hsilent | ⟨j, snapshot, hcollected, hanswer, hstored, hless⟩
      · exact .inl hsilent
      · refine .inr ⟨j, snapshot, hkept hcollected, hanswer, hstored, fun current hnow => ?_⟩
        rcases hcurrent j current hnow with hold | ⟨rfl, -, hnew⟩
        · exact hless current hold
        · exact hnew snapshot hcollected
    · intro j current hnow state hstate
      rcases hcurrent j current hnow with hold | ⟨rfl, hid, hnew⟩
      · exact h.stored j current hold state hstate
      · obtain ⟨k, snapshot, hcollected, -, hsame, rfl⟩ := hsourced.stored _ state hstate
        have hk : k = j := by
          obtain ⟨metrics, millis, saved, -, rfl⟩ := hcollected
          rw [Settings.snapshot_id, hid] at hsame
          exact hids hsame
        subst hk
        exact hnew snapshot hcollected
  | restart i =>
    subst hstep
    have hcurrent : ∀ j current,
        (Function.update f.exporters i (.new (f.exporters i).files) j).backendState = some current →
        (f.exporters j).backendState = some current := by
      intro j current hcurrent
      by_cases hij : j = i
      · subst hij
        rw [Function.update_self] at hcurrent
        cases hcurrent
      · rwa [Function.update_of_ne hij] at hcurrent
    constructor
    · intro reply hreply
      rcases h.inFlight reply hreply with
        hsilent | ⟨j, snapshot, hcollected, hanswer, hstored, hless⟩
      · exact .inl hsilent
      · exact .inr ⟨j, snapshot, hkept hcollected, hanswer, hstored, fun current hnow =>
          hless current (hcurrent j current hnow)⟩
    · exact fun j current hnow => h.stored j current (hcurrent j current hnow)
  | ask i =>
    obtain ⟨-, rfl⟩ := hstep
    refine ⟨fun reply hreply => ?_, h.stored⟩
    obtain rfl := Option.some.inj hreply
    unfold Service.backendStateSnapshot
    cases hsnapshot : (f.exporters i).backendState with
    | none => exact .inl fun _ => rfl
    | some snapshot =>
      refine .inr ⟨i, snapshot, hkept (hsourced.current i snapshot hsnapshot), rfl,
        h.stored i snapshot hsnapshot, fun current hcurrent => ?_⟩
      rw [Option.some.inj (hsnapshot.symm.trans hcurrent)]
  | lose =>
    rcases hstep with rfl | rfl
    · refine ⟨fun reply hreply => ?_, h.stored⟩
      obtain rfl := Option.some.inj hreply
      exact .inl fun _ => rfl
    · refine ⟨fun reply hreply => ?_, h.stored⟩
      obtain rfl := Option.some.inj hreply
      exact .inl fun _ => rfl
  | take =>
    obtain ⟨reply, hreply, rfl⟩ := hstep
    refine ⟨fun reply hnone => (by cases hnone), fun j current hcurrent state hstate => ?_⟩
    rcases h.inFlight reply hreply with hsilent | ⟨i, snapshot, hcollected, rfl, -, hless⟩
    · dsimp only at hstate
      rw [hsilent] at hstate
      exact h.stored j current hcurrent state hstate
    · dsimp only at hstate
      rcases hcollected.taken writer quote f.controller with hsame | ⟨-, hinsert⟩
      · rw [hsame] at hstate
        exact h.stored j current hcurrent state hstate
      · rw [hinsert] at hstate
        by_cases hid : current.backendID = snapshot.backendID
        · rw [hid, AList.lookup_insert] at hstate
          obtain rfl := Option.some.inj hstate
          obtain rfl := (hsourced.current j current hcurrent).same hids hcollected hid
          exact hless current hcurrent
        · rw [AList.lookup_insert_ne hid] at hstate
          exact h.stored j current hcurrent state hstate
  | serve c =>
    obtain ⟨hstates, rfl⟩ := hstep
    constructor
    · intro reply hreply
      rcases h.inFlight reply hreply with
        hsilent | ⟨j, snapshot, hcollected, hanswer, hstored, hless⟩
      · exact .inl hsilent
      · refine .inr ⟨j, snapshot, hkept hcollected, hanswer, fun state hstate => ?_, hless⟩
        dsimp only at hstate
        rw [hstates] at hstate
        exact hstored state hstate
    · intro j current hcurrent state hstate
      dsimp only at hstate
      rw [hstates] at hstate
      exact h.stored j current hcurrent state hstate

theorem ordered_inductive [LawfulPyRepr F] (hids : Function.Injective fun i => (settings i).id) :
    ((system settings writer quote).restrict (InOrder settings)).Inductive fun f =>
      Sourced settings writer quote f ∧ Ordered settings writer quote f where
  init f hinit := by
    refine ⟨sourced_inductive.init f hinit, fun reply hreply => ?_, fun i current hcurrent => ?_⟩
    · obtain ⟨-, -, hinFlight, -⟩ := hinit
      rw [hinFlight] at hreply
      cases hreply
    · obtain ⟨files, hnew⟩ := hinit.1 i
      rw [hnew] at hcurrent
      cases hcurrent
  step _ _ _ h hstep := ⟨sourced_step h.1 hstep.1, ordered_step hids h.1 h.2 hstep.1 hstep.2⟩

/-- A step keeps a stored snapshot or puts a newer one in its place. -/
theorem step_newer [LawfulPyRepr F] (h : Ordered settings writer quote f)
    (hstep : step settings writer quote f action f') {id : String} {state : Snapshot F}
    (hstate : f.controller.states.lookup id = some state) :
    ∃ state', f'.controller.states.lookup id = some state' ∧
      state.observedAtUnixMillis ≤ state'.observedAtUnixMillis := by
  cases action with
  | scrape => subst hstep; exact ⟨state, hstate, le_rfl⟩
  | restart => subst hstep; exact ⟨state, hstate, le_rfl⟩
  | ask => obtain ⟨-, rfl⟩ := hstep; exact ⟨state, hstate, le_rfl⟩
  | lose => rcases hstep with rfl | rfl <;> exact ⟨state, hstate, le_rfl⟩
  | serve c =>
    obtain ⟨hstates, rfl⟩ := hstep
    exact ⟨state, (congrArg (AList.lookup id) hstates).trans hstate, le_rfl⟩
  | take =>
    obtain ⟨reply, hreply, rfl⟩ := hstep
    dsimp only
    rcases h.inFlight reply hreply with hsilent | ⟨i, snapshot, hcollected, rfl, hstored, -⟩
    · rw [hsilent]
      exact ⟨state, hstate, le_rfl⟩
    · rcases hcollected.taken writer quote f.controller with hsame | ⟨-, hinsert⟩
      · rw [hsame]
        exact ⟨state, hstate, le_rfl⟩
      · rw [hinsert]
        by_cases hid : id = snapshot.backendID
        · subst hid
          exact ⟨_, AList.lookup_insert _, hstored state hstate⟩
        · rw [AList.lookup_insert_ne hid]
          exact ⟨state, hstate, le_rfl⟩

/-- **A stored snapshot is never replaced by an older one**, and never lost, if the exporters have
backends of their own and clocks that do not go back. -/
theorem never_older [LawfulPyRepr F] (hids : Function.Injective fun i => (settings i).id)
    (hf : ((system settings writer quote).restrict (InOrder settings)).Reach f)
    (hrun : (((system settings writer quote).restrict (InOrder settings)).after f).Reach f')
    {id : String} {state : Snapshot F} (hstate : f.controller.states.lookup id = some state) :
    ∃ state', f'.controller.states.lookup id = some state' ∧
      state.observedAtUnixMillis ≤ state'.observedAtUnixMillis := by
  induction hrun with
  | init hinit =>
    subst hinit
    exact ⟨state, hstate, le_rfl⟩
  | step hprefix hstep ih =>
    obtain ⟨state', hstate', hle⟩ := ih
    have hordered := ((ordered_inductive hids).reach (hf.trans hprefix)).2
    obtain ⟨state'', hstate'', hle'⟩ := step_newer hordered hstep.1 hstate'
    exact ⟨state'', hstate'', hle.trans hle'⟩

end Feed

namespace StateFeedSample

open StatePollsSample
open SelectionSample (env request)

local instance : Float64 Rat := .rational fun _ => 1
local instance : Float64.Lawful Rat := Float64.rational_lawful _
local instance : FloatText Rat := pointText
local instance : PyRepr Rat := pointRepr
local instance : LawfulPyRepr Rat := pointRepr_lawful
local instance : PyFixed Rat := ⟨fun _ _ => ""⟩

def settings : Unit → Settings Rat := fun _ => StatePollsSample.settings

def started : Feed Unit Rat where
  exporters _ := .new { backendState := none, advice := [] }
  scrapes _ := []
  inFlight := none
  controller := StatePollsSample.controller

def scraped (f : Feed Unit Rat) (millis : Int) : Feed Unit Rat :=
  { f with
    exporters := Function.update f.exporters ()
      ((f.exporters ()).poll (settings ()) (.collected metrics millis (.ok 1)))
    scrapes := Function.update f.scrapes () (f.scrapes () ++ [.collected metrics millis (.ok 1)]) }

/-- A scrape and a poll. -/
def turn (f : Feed Unit Rat) (millis : Int) : Feed Unit Rat :=
  { scraped f millis with
    inFlight := none
    controller := (pollBackendState id f.controller
      (answerState .go ((scraped f millis).exporters ()).backendStateSnapshot)).1 }

theorem turn_reach {S : System (Feed Unit Rat) (Feed.Action Unit Rat)}
    (hS : ∀ f action f', ((Feed.system settings .go id).restrict (Feed.InOrder settings)).step f
      action f' → S.step f action f')
    {f : Feed Unit Rat} {millis : Int} (hf : S.Reach f) (hnone : f.inFlight = none)
    (horder : ∀ snapshot, Feed.Collected settings f () snapshot →
      snapshot.observedAtUnixMillis ≤ millis) : S.Reach (turn f millis) := by
  have hscraped : S.Reach (scraped f millis) :=
    .step hf (hS _ (.scrape () (.collected metrics millis (.ok 1))) _ ⟨rfl, horder⟩)
  have hasked : S.Reach { scraped f millis with
      inFlight := some (answerState .go ((scraped f millis).exporters ()).backendStateSnapshot) } :=
    .step hscraped (hS _ (.ask ()) _ ⟨⟨hnone, rfl⟩, trivial⟩)
  exact .step hasked (hS _ .take _ ⟨⟨_, rfl, rfl⟩, trivial⟩)

theorem started_init : (Feed.system settings .go id).init started :=
  ⟨fun _ => ⟨_, rfl⟩, rfl, rfl, rfl⟩

theorem started_order (millis : Int) : ∀ snapshot, Feed.Collected settings started () snapshot →
    snapshot.observedAtUnixMillis ≤ millis := by
  rintro snapshot ⟨metrics, at', saved, hmem, -⟩
  cases hmem

theorem scraped_state (f : Feed Unit Rat) (millis : Int) :
    ((scraped f millis).exporters ()).backendStateSnapshot =
      some (StatePollsSample.settings.snapshot metrics millis) := by
  unfold scraped Service.backendStateSnapshot
  dsimp only
  rw [Function.update_self, Feed.poll_backendState]
  rfl

theorem turn_takes (f : Feed Unit Rat) (millis : Int) : (turn f millis).controller =
    (pollBackendState id f.controller
      (answerState .go (some (StatePollsSample.settings.snapshot metrics millis)))).1 := by
  rw [turn, scraped_state]

theorem turn_controller : (turn started 1000).controller =
    { StatePollsSample.controller with
      states := (∅ : Map String (Snapshot Rat)).insert "vllm:local"
        (received (StatePollsSample.settings.snapshot metrics 1000)) } := by
  have hanswer := (poll_answer .go id started.controller StatePollsSample.settings
    metrics 1000).1 carried
  rw [turn_takes, hanswer]
  rfl

theorem turn_lookup : (turn started 1000).controller.states.lookup "vllm:local" =
    some (received (StatePollsSample.settings.snapshot metrics 1000)) := by
  rw [turn_controller]
  exact AList.lookup_insert _

/-- The plan knows of the three waiting requests. -/
theorem plan_measured_waiting :
    ∃ candidate ∈ ((turn started 1000).controller.plan env (Time.unixMilli 2000)
      (fun _ => Time.unixMilli 2000) request [⟨"vllm:local", ∅⟩]).1.candidates,
      candidate.queueDepth = 3 := by
  obtain ⟨candidate, hmem, hid, heligible⟩ := (Controller.plan_eligible_iff env
    (turn started 1000).controller (Time.unixMilli 2000) (fun _ => Time.unixMilli 2000) request
    [⟨"vllm:local", ∅⟩] "vllm:local").mpr
      ⟨_, List.mem_singleton_self _, rfl, by rw [turn_controller]; rfl⟩
  have hreach : (Feed.system settings .go id).Reach (turn started 1000) :=
    turn_reach (fun _ _ _ h => h.1) (.init started_init) rfl (started_order 1000)
  refine ⟨candidate, hmem, ?_⟩
  rcases Feed.plan_measured hreach env (Time.unixMilli 2000) (fun _ => Time.unixMilli 2000) request
    [⟨"vllm:local", ∅⟩] hmem heligible with hnone | ⟨i, m, millis, saved, hscrape, -, hmeasured⟩
  · have hlookup := hnone.states
    rw [hid, turn_lookup] at hlookup
    cases hlookup
  · cases List.mem_singleton.mp hscrape
    exact hmeasured.queueDepth

/-- The snapshot of the first turn gives way to that of the second. -/
theorem never_older_turns : ∃ state,
    (turn (turn started 1000) 2000).controller.states.lookup "vllm:local" = some state ∧
      1000 ≤ state.observedAtUnixMillis := by
  have hreach : ((Feed.system settings .go id).restrict (Feed.InOrder settings)).Reach
      (turn started 1000) :=
    turn_reach (fun _ _ _ h => h) (.init started_init) rfl (started_order 1000)
  have horder : ∀ snapshot, Feed.Collected settings (turn started 1000) () snapshot →
      snapshot.observedAtUnixMillis ≤ 2000 := by
    rintro snapshot ⟨m, millis, saved, hmem, rfl⟩
    cases List.mem_singleton.mp hmem
    exact (by decide : (1000 : Int) ≤ 2000)
  have hrun := turn_reach
    (S := ((Feed.system settings .go id).restrict (Feed.InOrder settings)).after (turn started 1000))
    (fun _ _ _ h => h) (.init rfl) rfl horder
  exact Feed.never_older (fun _ _ _ => rfl) hreach hrun turn_lookup

end StateFeedSample

end Kavora.Gateway
