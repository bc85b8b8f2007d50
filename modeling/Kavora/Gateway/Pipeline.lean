import Kavora.Gateway.ForwardStream
import Kavora.Gateway.PolicyClient
import Kavora.Policy.Ascii
import Kavora.Policy.Feed

/-!
# The stream policy pipeline

The handler `forwardStream`, its policy session and the service's `check_stream` loop as one
system. A step is one read of the response body with the policy call on it, the close, or one round
of the unchecked copy. The environment chooses what is read, the faults of the policy calls and the
failures of client writes.

A run without errors of policy calls refines a run of the stream inspector (`Sim`): the bytes read
are its input and the bytes written are what it released. So `Feed.Inv` holds of the pipeline, and
the handler's buffer is the inspector's buffer (`Aligned`).
-/

namespace Kavora.Gateway

open Lib Policy

/-- A stream of one request. -/
structure Setup (J : Type) where
  field : JsonField J
  lib : Externals
  service : PolicyGrpcService
  config : StreamConfig
  context : RequestContext
  request : ModelRequest J
  /-- The status of the backend's response. -/
  status : Nat
  /-- As `parseRequest` fills the context. -/
  maxResponseBytes_eq : context.maxResponseBytes = config.maxResponseBytes

/-- A response between the backend, the policy service and the client. -/
structure Pipeline where
  gateway : ForwardStream
  session : StreamSession
  server : CheckStream
  /-- The part of the body that was read. -/
  input : Bytes
  /-- The responses of the policy calls. -/
  replies : List StreamCheckResponse

/-- The steps of the gateway, with what the system does in them. -/
inductive Label where
  | read (data : Bytes) (readErr writeErr : Bool) (fault : Fault)
  | close (fault : Fault)
  | copy (data : Bytes) (readErr writeErr : Bool)

namespace Pipeline

variable {J : Type}

/-- The gateway reads a part of the body and has it checked. -/
def read (setup : Setup J) (s : Pipeline) (data : Bytes) (readErr writeErr : Bool)
    (fault : Fault) : Pipeline :=
  if data = [] then
    { s with
      gateway :=
        s.gateway.read setup.config setup.context.failMode setup.status data readErr none writeErr }
  else
    let (reply, session, server) := s.session.check setup.lib J s.server data fault
    { gateway := s.gateway.read setup.config setup.context.failMode setup.status data readErr
        reply.toOption writeErr
      session
      server
      input := s.input ++ data
      replies := s.replies ++ reply.toOption.toList }

/-- At the end of the body the gateway closes the check. -/
def close (setup : Setup J) (s : Pipeline) (fault : Fault) : Pipeline :=
  let (reply, session, server) := s.session.close setup.lib J s.server fault
  { gateway := s.gateway.close setup.context.failMode setup.status reply.toOption
    session
    server
    input := s.input
    replies := s.replies ++ reply.toOption.toList }

/-- The gateway copies a part of the body without a check. -/
def copy (s : Pipeline) (data : Bytes) (readErr writeErr : Bool) : Pipeline :=
  { s with gateway := s.gateway.copy data readErr writeErr, input := s.input ++ data }

/-- The steps that a phase allows. -/
inductive Step (setup : Setup J) (s : Pipeline) : Label → Pipeline → Prop
  | read {data : Bytes} {readErr writeErr : Bool} {fault : Fault} :
    s.gateway.phase = .reading → data.length ≤ setup.config.streamChunkBytes →
    Step setup s (.read data readErr writeErr fault) (s.read setup data readErr writeErr fault)
  | close {fault : Fault} : s.gateway.phase = .closing →
    Step setup s (.close fault) (s.close setup fault)
  | copy {data : Bytes} {readErr writeErr : Bool} : s.gateway.phase = .copying →
    Step setup s (.copy data readErr writeErr) (s.copy data readErr writeErr)

/-- The pipeline after an `OpenStream` that returned a session. -/
def Opened (setup : Setup J) (s : Pipeline) : Prop :=
  ∃ supportsStream fault result,
    openStream setup.field setup.lib setup.service supportsStream
        { context := some setup.context, request := some setup.request } fault =
      .ok (some (s.session, s.server), result) ∧
    s.gateway = ForwardStream.init true setup.status ∧ s.input = [] ∧ s.replies = []

/-- Any run of the gateway, from an opened check. -/
def system (setup : Setup J) : System Pipeline Label where
  init := Opened setup
  step := Step setup

/-- The policy call of a step returns no error. -/
def NoError (setup : Setup J) (s : Pipeline) : Label → Prop
  | .read data _ _ fault =>
    data = [] ∨ ∃ response, (s.session.check setup.lib J s.server data fault).1 = .ok response
  | .close fault => ∃ response, (s.session.close setup.lib J s.server fault).1 = .ok response
  | .copy .. => True

/-- Every decision so far is `ALLOW`. -/
def Allowed (s : Pipeline) : Prop :=
  ∀ response ∈ s.replies, ∃ result, response.result = some result ∧ result.decision = .allow

/-- The bytes that the policy released so far. -/
def releasedBytes (s : Pipeline) : Nat := (s.replies.map (·.releaseBytes)).sum

/-! ## The invariant -/

/-- The inspector of an opened stream. -/
def inspector₀ (setup : Setup J) : StreamInspector :=
  setup.service.inspector setup.lib setup.context (setup.service.engine.evaluate setup.field
    setup.lib { context := some setup.context, request := some setup.request })

/-- The pipeline's view of a run of the inspector. -/
structure Sim (setup : Setup J) (s : Pipeline) (f : Feed) : Prop where
  reach : (Feed.system setup.lib (inspector₀ setup)).Reach f
  inspector : f.inspector = s.server.inspector
  input : f.input = s.input
  released : f.released = s.gateway.writer.body

/-- The three parties agree. -/
structure Aligned (s : Pipeline) : Prop where
  requestId : s.session.requestId = s.server.requestId
  sequence : s.session.sequence = s.server.expectedSequence
  pending : s.gateway.pending = s.server.inspector.pending
  terminal : s.server.inspector.terminal = none
  released : s.gateway.writer.body.length = s.releasedBytes
  inspected : s.gateway.writer.body.length + s.gateway.pending.length =
    s.server.inspector.inspectedBytes

/-- The handler is in its read loop or about to close. -/
structure Live (setup : Setup J) (s : Pipeline) : Prop extends Aligned s where
  phase : s.gateway.phase = .reading ∨ s.gateway.phase = .closing
  allowed : s.Allowed
  closed : s.session.closed = false
  running : s.server.running = true
  limit : s.server.inspector.maxResponseBytes = setup.config.maxResponseBytes
  inspectedBytes_le : s.server.inspector.inspectedBytes ≤ setup.config.maxResponseBytes
  sequence_le : s.session.sequence ≤ s.server.inspector.inspectedBytes + 1

/-- The returns of a run without errors of policy calls. -/
def Returns (exit : Exit) : Prop :=
  exit = .finished ∨ exit = .terminated ∨ exit = .closeTerminated ∨ exit = .bufferFull ∨
    exit = .writeError

/-- What was written is a prefix of what was read, and accepted whole events. -/
structure Written (setup : Setup J) (s : Pipeline) (exit : Option Exit) : Prop where
  body_initial : s.gateway.writer.body <+: s.input
  delivered : ∃ events s₁ tail, Delivered setup.lib (inspector₀ setup) s.gateway.writer.body
    (exit = some .finished) events s₁ tail

/-- The invariant of the runs without errors of policy calls. -/
inductive Inv (setup : Setup J) (s : Pipeline) : Prop
  | live {f : Feed} : Live setup s → Sim setup s f → f.closed = false → Inv setup s
  | returned {exit : Exit} : s.gateway.phase = .done exit → Returns exit →
    (s.Allowed → Aligned s) → Written setup s (some exit) → Inv setup s

variable {setup : Setup J} {s : Pipeline} {f : Feed}

theorem inspector₀_scan : (inspector₀ setup).scan = inspector₀ setup := rfl

theorem Sim.inv (h : Sim setup s f) : Feed.Inv setup.lib (inspector₀ setup) f :=
  Feed.Reach.inv inspector₀_scan h.reach

theorem Sim.written (h : Sim setup s f) (hf : f.closed = false) (exit : Option Exit) :
    Written setup s exit := by
  have hinv := h.inv
  obtain ⟨events, s₁, tail, hdel, htail⟩ := hinv.delivered
  obtain ⟨rfl, _⟩ := htail hf
  refine ⟨?_, events, s₁, [], ⟨hdel.accepted, hdel.whole, ?_, .inl rfl⟩⟩
  · rw [← h.released, ← h.input]
    exact hinv.released_initial
  · rw [← h.released]
    exact hdel.released_eq

theorem Written.mono {s' : Pipeline} {exit : Option Exit} (h : Written setup s exit)
    (hbody : s'.gateway.writer.body = s.gateway.writer.body) (hinput : s.input <+: s'.input) :
    Written setup s' exit where
  body_initial := hbody ▸ h.body_initial.trans hinput
  delivered := hbody ▸ h.delivered

/-- A response with another decision ends `Allowed`. -/
theorem not_allowed {replies : List StreamCheckResponse} {response : StreamCheckResponse}
    {result : PolicyResult} (hreplies : s.replies = replies ++ [response])
    (hr : response.result = some result) (hd : result.decision ≠ .allow) : ¬ s.Allowed := by
  intro h
  obtain ⟨result', hr', hd'⟩ := h response (by simp [hreplies])
  rw [hr] at hr'
  cases hr'
  exact hd hd'

/-- The next message of a session that agrees with the service passes the loop's test. -/
theorem Aligned.not_mismatch (h : Aligned s) {message : StreamCheckRequest J}
    (hid : message.requestId = s.session.requestId)
    (hseq : message.sequence = s.session.sequence) : ¬ s.server.mismatch message := by
  rw [CheckStream.mismatch, hid, hseq, h.requestId, h.sequence]
  simp

/-- A state after an allowed reply: the handler goes on or returns. -/
theorem Inv.of_aligned (haligned : Aligned s) (hsim : Sim setup s f) (hf : f.closed = false)
    {readErr : Bool} (hphase : s.gateway.phase = .done .writeError ∨
      s.gateway.phase = .done .bufferFull ∨ s.gateway.phase = if readErr then .closing else .reading)
    (hlive : s.gateway.phase = .reading ∨ s.gateway.phase = .closing → Live setup s) :
    Inv setup s := by
  rcases hphase with hphase | hphase | hphase
  · exact .returned hphase (by simp [Returns]) (fun _ => haligned) (hsim.written hf _)
  · exact .returned hphase (by simp [Returns]) (fun _ => haligned) (hsim.written hf _)
  · refine .live (hlive ?_) hsim hf
    rw [hphase]
    cases readErr
    · exact .inl rfl
    · exact .inr rfl

/-! ## Steps -/

theorem Inv.init (h : Opened setup s) : Inv setup s := by
  obtain ⟨_, _, result, hopen, hgateway, hinput, hreplies⟩ := h
  obtain ⟨rfl, -, hsession, hserver⟩ := openStream_ok hopen
  refine .live (f := { inspector := inspector₀ setup, input := [], released := [], closed := false })
    ?_ ⟨.init rfl, by rw [hserver]; rfl, hinput.symm, by rw [hgateway]; rfl⟩ rfl
  refine
    { requestId := by rw [hsession, hserver]
      sequence := by rw [hsession, hserver]
      pending := by rw [hgateway, hserver]; rfl
      terminal := by rw [hserver]; rfl
      released := by rw [releasedBytes, hgateway, hreplies]; rfl
      inspected := by rw [hgateway, hserver]; rfl
      phase := by rw [hgateway]; exact .inl rfl
      allowed := by rw [Allowed, hreplies]; simp
      closed := by rw [hsession]
      running := by rw [hserver]
      limit := ?_
      inspectedBytes_le := by rw [hserver]; exact Nat.zero_le _
      sequence_le := by rw [hsession]; exact Nat.le_add_left _ _ }
  have hpos := setup.config.maxResponseBytes_pos
  rw [hserver, ← setup.maxResponseBytes_eq]
  exact if_neg (by rw [setup.maxResponseBytes_eq]; omega)

/-- A read without data. -/
theorem Inv.read_nil (h : Live setup s) (hsim : Sim setup s f) (hf : f.closed = false)
    (readErr writeErr : Bool) (fault : Fault) :
    Inv setup (s.read setup [] readErr writeErr fault) := by
  refine .live ?_ ⟨hsim.reach, hsim.inspector, hsim.input, hsim.released⟩ hf
  refine { h with phase := ?_ }
  cases readErr
  · exact .inl rfl
  · exact .inr rfl

/-- What a call of `Check` without an error answers. -/
theorem Live.check {data : Bytes} {fault : Fault} {response : StreamCheckResponse}
    {session : StreamSession} {server : CheckStream} (h : Live setup s)
    (hcheck : s.session.check setup.lib J s.server data fault = (.ok response, session, server)) :
    response = streamResponse s.server.requestId s.server.expectedSequence
        (s.server.inspector.inspect setup.lib data).1 ∧
      server = (s.server.answer false (s.server.inspector.inspect setup.lib data)).2 ∧
      session = { s.session with sequence := (s.session.sequence + 1) % 2 ^ 64 } := by
  obtain ⟨_, hstep, hsession⟩ := StreamSession.check_ok hcheck
  rw [CheckStream.step_chunk (h.not_mismatch rfl rfl) rfl] at hstep
  have hresponse := congrArg Prod.fst hstep
  rw [CheckStream.answer_response] at hresponse
  cases hresponse
  exact ⟨rfl, (congrArg Prod.snd hstep).symm, hsession⟩

/-- What a call of `Close` without an error answers. -/
theorem Live.close {fault : Fault} {response : StreamCheckResponse}
    {session : StreamSession} {server : CheckStream} (h : Live setup s)
    (hclose : s.session.close setup.lib J s.server fault = (.ok response, session, server)) :
    response = streamResponse s.server.requestId s.server.expectedSequence
        s.server.inspector.finish.1 ∧
      server = { s.server with inspector := s.server.inspector.finish.2, running := false } ∧
      session = { s.session with closed := true } := by
  obtain ⟨_, hstep, hsession⟩ := StreamSession.close_ok hclose
  rw [CheckStream.step_close (h.not_mismatch rfl rfl) rfl] at hstep
  have hresponse := congrArg Prod.fst hstep
  have hserver := congrArg Prod.snd hstep
  rw [CheckStream.answer_response] at hresponse
  rw [CheckStream.answer_close] at hserver
  cases hresponse
  exact ⟨rfl, hserver.symm, hsession⟩

/-- Both ends count the messages alike. -/
theorem sequence_succ {n : Nat} (h : n + 1 < 2 ^ 64) : (n + 1) % 2 ^ 64 = saturatingAdd n 1 := by
  rw [Nat.mod_eq_of_lt h, saturatingAdd_eq]
  exact Nat.le_sub_one_of_lt h

/-- While the stream is open everything read was written or is pending. -/
theorem Live.input_eq (h : Live setup s) (hsim : Sim setup s f) :
    s.input = s.gateway.writer.body ++ s.server.inspector.pending := by
  have hinput := hsim.inv.input_eq (by rw [hsim.inspector, h.terminal])
  rwa [hsim.input, hsim.released, hsim.inspector] at hinput

/-- A response that releases the whole events of a chunk keeps the parties in agreement. -/
theorem Live.aligned_released (h : Live setup s) {data : Bytes} {events : List Bytes}
    {inspector : StreamInspector} {gateway : ForwardStream} {response : StreamCheckResponse}
    (hsplit : s.server.inspector.pending ++ data = events.flatten ++ inspector.pending)
    (hterminal : inspector.terminal = none)
    (hinspected : inspector.inspectedBytes = s.server.inspector.inspectedBytes + data.length)
    (hn : response.releaseBytes = events.flatten.length)
    (hbody : gateway.writer.body = s.gateway.writer.body ++ events.flatten)
    (hrest : gateway.pending = inspector.pending) :
    Aligned
      { gateway
        session := { s.session with sequence := (s.session.sequence + 1) % 2 ^ 64 }
        server := { s.server with
          inspector
          expectedSequence := saturatingAdd s.server.expectedSequence 1 }
        input := s.input ++ data
        replies := s.replies ++ [response] } where
  requestId := h.requestId
  sequence := by
    have hlt := setup.config.maxResponseBytes_lt
    have hle := h.inspectedBytes_le
    have hseq := h.sequence_le
    rw [← h.sequence]
    exact sequence_succ (by omega)
  pending := hrest
  terminal := hterminal
  released := by simp [releasedBytes, hbody, h.released, hn]
  inspected := by
    have hlength := congrArg List.length hsplit
    have hbefore := h.inspected
    rw [h.pending] at hbefore
    simp only [List.length_append] at hlength
    simp only [hbody, hrest, List.length_append]
    omega

/-- A read with data whose `Check` returns no error. -/
theorem Inv.read_data (h : Live setup s) (hsim : Sim setup s f) (hf : f.closed = false)
    {data : Bytes} (hdata : data ≠ []) (readErr writeErr : Bool) (fault : Fault)
    {response : StreamCheckResponse} {session : StreamSession} {server : CheckStream}
    (hcheck : s.session.check setup.lib J s.server data fault = (.ok response, session, server)) :
    Inv setup (s.read setup data readErr writeErr fault) := by
  obtain ⟨hresponse, hserver, hsession⟩ := h.check hcheck
  have hspec := StreamInspector.inspect_spec setup.lib s.server.inspector data
  have hfeed : (Feed.system setup.lib (inspector₀ setup)).Reach (f.chunk setup.lib data) :=
    .step (i := .chunk data) hsim.reach ⟨hf, rfl⟩
  have hread : s.read setup data readErr writeErr fault =
      { gateway := s.gateway.read setup.config setup.context.failMode setup.status data readErr
          (some response) writeErr
        session
        server
        input := s.input ++ data
        replies := s.replies ++ [response] } := by
    rw [read, if_neg hdata, hcheck]
    rfl
  rw [hread]
  simp only [Feed.chunk, hsim.inspector, hsim.input, hsim.released] at hfeed
  generalize s.server.inspector.inspect setup.lib data = out at hspec hresponse hserver hfeed
  obtain ⟨r, inspector⟩ := out
  dsimp only at hspec hresponse hserver hfeed
  cases hspec with
  | stopped ht => exact absurd ht (by rw [h.terminal]; simp)
  | terminated _ hd _ _ =>
    have hr : response.result = some r.result := by rw [hresponse]; rfl
    have hne : r.result.decision ≠ .allow := by rw [hd]; decide
    obtain ⟨hphase, hbody⟩ := s.gateway.read_refused setup.config setup.context.failMode
      setup.status readErr writeErr hdata (ForwardStream.verdict_some hr (by rw [hd]; decide)) hne
    refine .returned hphase (.inr (.inl rfl)) (fun hall => ?_)
      ((hsim.written hf _).mono hbody (List.prefix_append _ _))
    exact absurd hall (not_allowed rfl hr hne)
  | released events ht ht' hsplit _ _ hacc hbytes hle =>
    have hr : response.result = some inspector.allow := by rw [hresponse]; rfl
    have hn : response.releaseBytes = events.flatten.length := by rw [hresponse]; rfl
    have hpending : s.gateway.pending ++ data = events.flatten ++ inspector.pending := by
      rw [h.pending, hsplit]
    rw [CheckStream.answer_continue rfl] at hserver
    obtain ⟨hbody, hrest, hphase⟩ := s.gateway.read_allowed setup.config setup.context.failMode
      setup.status readErr writeErr hdata (ForwardStream.verdict_some hr nofun) rfl
      (by rw [hn, hpending, List.length_append]; omega)
    rw [hn, hpending, List.take_left] at hbody
    rw [hn, hpending, List.drop_left] at hrest
    generalize s.gateway.read setup.config setup.context.failMode setup.status data readErr
      (some response) writeErr = gateway at hbody hrest hphase ⊢
    have hlt := setup.config.maxResponseBytes_lt
    have hinspected : inspector.inspectedBytes =
        s.server.inspector.inspectedBytes + data.length := by
      rw [h.limit] at hle
      rw [saturatingAdd, u64Max] at hbytes
      omega
    have hpos := List.length_pos_of_ne_nil hdata
    have hlimit : inspector.maxResponseBytes = s.server.inspector.maxResponseBytes :=
      (congrArg StreamInspector.maxResponseBytes hacc.frame : inspector.scan.maxResponseBytes = _)
    have hseq := h.sequence_le
    have hle' := h.inspectedBytes_le
    subst hsession hserver
    have hinput : (s.input ++ data).take (s.gateway.writer.body.length + events.flatten.length) =
        gateway.writer.body := by
      rw [h.input_eq hsim, Feed.take_released, hsplit, hbody, List.take_left]
    have haligned := h.aligned_released hsplit ht' hinspected hn hbody hrest
    refine .of_aligned haligned ⟨hfeed, rfl, rfl, hinput⟩ rfl hphase fun hphase =>
      { haligned with
        phase := hphase
        allowed := ?_
        closed := h.closed
        running := h.running
        limit := hlimit.trans h.limit
        inspectedBytes_le := h.limit ▸ hle
        sequence_le := ?_ }
    · intro r hr'
      rcases List.mem_append.mp hr' with hr' | hr'
      · exact h.allowed r hr'
      · rw [List.mem_singleton.mp hr']
        exact ⟨_, hr, rfl⟩
    · dsimp only
      omega

/-- A close whose `Close` returns no error. -/
theorem Inv.close (h : Live setup s) (hsim : Sim setup s f) (hf : f.closed = false)
    (fault : Fault) {response : StreamCheckResponse} {session : StreamSession}
    {server : CheckStream}
    (hclose : s.session.close setup.lib J s.server fault = (.ok response, session, server)) :
    Inv setup (s.close setup fault) := by
  obtain ⟨hresponse, hserver, hsession⟩ := h.close hclose
  have hspec := StreamInspector.finish_spec s.server.inspector
  have hfeed : (Feed.system setup.lib (inspector₀ setup)).Reach f.finish :=
    .step (i := .finish) hsim.reach ⟨hf, rfl⟩
  have hclosed : s.close setup fault =
      { gateway := s.gateway.close setup.context.failMode setup.status (some response)
        session
        server
        input := s.input
        replies := s.replies ++ [response] } := by
    rw [Pipeline.close, hclose]
    rfl
  rw [hclosed]
  simp only [Feed.finish, hsim.inspector, hsim.input, hsim.released] at hfeed
  generalize s.server.inspector.finish = out at hspec hresponse hserver hfeed
  obtain ⟨r, inspector⟩ := out
  dsimp only at hspec hresponse hserver hfeed
  cases hspec with
  | stopped ht => exact absurd ht (by rw [h.terminal]; simp)
  | terminated _ hd _ _ =>
    have hr : response.result = some r.result := by rw [hresponse]; rfl
    have hne : r.result.decision ≠ .allow := by rw [hd]; decide
    obtain ⟨hphase, hbody⟩ := s.gateway.close_refused setup.context.failMode setup.status
      (ForwardStream.verdict_some hr (by rw [hd]; decide)) hne
    refine .returned hphase (by simp [Returns]) (fun hall => ?_)
      ((hsim.written hf _).mono hbody (List.prefix_refl _))
    exact absurd hall (not_allowed rfl hr hne)
  | released ht hdone hspace =>
    have hr : response.result = some s.server.inspector.allow := by rw [hresponse]; rfl
    have hn : response.releaseBytes = s.gateway.pending.length := by rw [hresponse, h.pending]; rfl
    obtain ⟨hphase, hbody, hrest⟩ := s.gateway.close_allowed setup.context.failMode setup.status
      (ForwardStream.verdict_some hr nofun) rfl hn
    have hinput : s.input = s.gateway.writer.body ++ s.gateway.pending := by
      rw [h.pending]
      exact h.input_eq hsim
    subst hsession hserver
    refine .returned hphase (.inl rfl) (fun _ => ?_) ?_
    · exact
        { requestId := h.requestId
          sequence := h.sequence
          pending := hrest
          terminal := rfl
          released := by simp [releasedBytes, hbody, h.released, hn]
          inspected := by
            rw [← h.inspected, hbody, hrest, List.length_append]
            rfl }
    · obtain ⟨events, s₁, tail, hdel, -⟩ := (Feed.Reach.inv inspector₀_scan hfeed).delivered
      have hreleased : s.input.take (s.gateway.writer.body.length +
          s.server.inspector.pending.length) = s.input := by
        rw [← h.pending, ← List.length_append, ← hinput, List.take_length]
      rw [StreamInspector.inspection, hreleased] at hdel
      have hbody' := hbody.trans hinput.symm
      refine ⟨?_, events, s₁, tail, ?_⟩
      · exact hbody' ▸ List.prefix_refl _
      · rw [hbody']
        exact hdel

theorem Inv.step {s' : Pipeline} {label : Label} (h : Inv setup s) (hstep : Step setup s label s')
    (hok : NoError setup s label) : Inv setup s' := by
  cases h with
  | returned hphase _ _ _ => cases hstep <;> simp_all
  | @live f hlive hsim hf =>
    cases hstep with
    | @read data readErr writeErr fault _ _ =>
      by_cases hdata : data = []
      · subst hdata
        exact .read_nil hlive hsim hf readErr writeErr fault
      · obtain ⟨response, hresponse⟩ := hok.resolve_left hdata
        exact .read_data hlive hsim hf hdata readErr writeErr fault (Prod.ext hresponse rfl)
    | @close fault _ =>
      obtain ⟨response, hresponse⟩ := hok
      exact .close hlive hsim hf fault (Prod.ext hresponse rfl)
    | copy hphase => rcases hlive.phase with hp | hp <;> rw [hp] at hphase <;> cases hphase

/-- The runs in which no policy call returns an error keep the invariant. -/
theorem inductive_inv (setup : Setup J) :
    ((system setup).restrict (NoError setup)).Inductive (Inv setup) where
  init _ h := .init h
  step _ _ _ h hstep := h.step hstep.1 hstep.2

theorem Inv.written (h : Inv setup s) :
    Written setup s (if s.gateway.phase = .done .finished then some .finished else none) := by
  cases h with
  | live hlive hsim hf => exact hsim.written hf _
  | @returned exit hphase _ _ hwritten =>
    rw [hphase]
    by_cases he : exit = .finished
    · rw [if_pos (by rw [he])]
      exact he ▸ hwritten
    · rw [if_neg (by simpa using he)]
      obtain ⟨hpre, events, s₁, tail, hdel⟩ := hwritten
      exact ⟨hpre, events, s₁, tail, by simpa [he] using hdel⟩

theorem Inv.aligned (h : Inv setup s) (hall : s.Allowed) : Aligned s := by
  cases h with
  | live hlive _ _ => exact hlive.toAligned
  | returned _ _ haligned _ => exact haligned hall

theorem Inv.live_of_phase (h : Inv setup s)
    (hphase : s.gateway.phase = .reading ∨ s.gateway.phase = .closing) : Live setup s := by
  cases h with
  | live hlive _ _ => exact hlive
  | returned hdone _ _ _ => rw [hdone] at hphase; simp at hphase

/-- The client's check of an answer of the loop. -/
theorem Aligned.valid (h : Aligned s) (inspection : StreamInspection) :
    validateStreamResponse (streamResponse s.server.requestId s.server.expectedSequence inspection)
      s.session.requestId s.session.sequence = .ok () := by
  simp [validateStreamResponse, streamResponse, h.requestId, h.sequence]

/-- In these runs the policy calls fail by faults only. -/
theorem Live.noError (h : Live setup s) :
    (∀ data readErr writeErr, NoError setup s (.read data readErr writeErr .none)) ∧
      NoError setup s (.close .none) := by
  constructor
  · intro data _ _
    refine .inr ⟨_, StreamSession.check_no_fault h.closed h.running ?_
      (h.valid (s.server.inspector.inspect setup.lib data).1)⟩
    rw [CheckStream.step_chunk (h.not_mismatch rfl rfl) rfl, CheckStream.answer_response]
  · refine ⟨_, StreamSession.close_no_fault h.closed h.running ?_
      (h.valid s.server.inspector.finish.1)⟩
    rw [CheckStream.step_close (h.not_mismatch rfl rfl) rfl, CheckStream.answer_response]

/-! ## The agreement of the three parties -/

/-- In every run without errors of policy calls:

* the client was written a prefix of the body, made of accepted whole events, and at a close white
  space after the end mark;
* as long as every decision is `ALLOW`, the handler's buffer is as long as the inspector's, which is
  the inspected bytes less the released ones, and both ends of the session count alike;
* a release count is never larger than the buffer, and an allowed close releases all of it;
* the service's test of request ID and sequence passes, and the handler never returns with a
  protocol error. -/
theorem stream_agreement (setup : Setup J) {s : Pipeline}
    (hs : ((system setup).restrict (NoError setup)).Reach s) :
    (s.gateway.writer.body <+: s.input ∧ ∃ events s₁ tail,
      StreamInspector.Accepted setup.lib (inspector₀ setup) events s₁ ∧ (∀ e ∈ events, Whole e) ∧
      s.gateway.writer.body = events.flatten ++ tail ∧
      (tail = [] ∨ s.gateway.phase = .done .finished ∧ s₁.sawDone = true ∧
        ∀ b ∈ tail, isAsciiWhitespace b = true)) ∧
    (s.Allowed →
      s.gateway.pending.length + s.releasedBytes = s.server.inspector.inspectedBytes ∧
      s.gateway.pending.length = s.server.inspector.pending.length ∧
      s.session.sequence = s.server.expectedSequence) ∧
    (s.gateway.phase = .reading → ∀ data fault response session server,
      s.session.check setup.lib J s.server data fault = (.ok response, session, server) →
      response.releaseBytes ≤ (s.gateway.pending ++ data).length) ∧
    (s.gateway.phase = .closing → ∀ fault response session server,
      s.session.close setup.lib J s.server fault = (.ok response, session, server) →
      response.releaseBytes ≤ s.gateway.pending.length ∧
      ∀ result, response.result = some result → result.decision = .allow →
        response.releaseBytes = s.gateway.pending.length) ∧
    (s.gateway.phase = .reading ∨ s.gateway.phase = .closing →
      (∀ data, ¬ s.server.mismatch (s.session.checkRequest data : StreamCheckRequest J)) ∧
      ¬ s.server.mismatch (s.session.closeRequest : StreamCheckRequest J)) ∧
    s.gateway.phase ≠ .done .invalidRelease ∧ s.gateway.phase ≠ .done .invalidCloseRelease ∧
    s.gateway.phase ≠ .done .unreleased := by
  have hinv := (inductive_inv setup).reach hs
  refine ⟨?_, fun hall => ?_, fun hphase data fault response session server hcheck => ?_,
    fun hphase fault response session server hclose => ?_, fun hphase => ?_, ?_⟩
  · obtain ⟨hpre, events, s₁, tail, hdel⟩ := hinv.written
    refine ⟨hpre, events, s₁, tail, hdel.accepted, hdel.whole, hdel.released_eq, ?_⟩
    refine hdel.tail_eq.imp_right fun ⟨hc, hdone, hspace⟩ => ⟨?_, hdone, hspace⟩
    by_contra hne
    simp [hne] at hc
  · have h := hinv.aligned hall
    have hlen := h.inspected
    have hreleased := h.released
    exact ⟨by omega, by rw [h.pending], h.sequence⟩
  · have h := hinv.live_of_phase (.inl hphase)
    obtain ⟨rfl, -, -⟩ := h.check hcheck
    rw [h.pending]
    exact (StreamInspector.inspect_spec setup.lib s.server.inspector data).releaseBytes_le
  · have h := hinv.live_of_phase (.inr hphase)
    obtain ⟨rfl, -, -⟩ := h.close hclose
    have hspec := StreamInspector.finish_spec s.server.inspector
    rw [h.pending]
    refine ⟨hspec.releaseBytes_le, fun result hr hd => ?_⟩
    cases hr
    exact hspec.releaseBytes_eq h.terminal hd
  · have h := (hinv.live_of_phase hphase).toAligned
    exact ⟨fun data => h.not_mismatch rfl rfl, h.not_mismatch rfl rfl⟩
  · cases hinv with
    | live hlive => rcases hlive.phase with hp | hp <;> rw [hp] <;> simp
    | returned hphase hreturns =>
      rw [hphase]
      rcases hreturns with rfl | rfl | rfl | rfl | rfl <;> simp

section Sample

/-- The stream of the request `Sample.request` from a backend that answers 200. -/
def sample : Setup Bytes where
  field := .wire Sample.lib
  lib := Sample.lib
  service := { engine := .new Sample.lib .default }
  config :=
    { maxResponseBytes := 4096
      streamChunkBytes := 8
      streamBufferBytes := 64
      maxResponseBytes_pos := by decide
      maxResponseBytes_lt := by decide
      streamChunkBytes_pos := Nat.succ_pos _
      streamBufferBytes_pos := by decide }
  context := Sample.context
  request := Sample.request
  status := 200
  maxResponseBytes_eq := rfl

/-- A response before its first byte. -/
def sample₀ : Pipeline where
  gateway := .init true 200
  session := { requestId := "r", sequence := 1, closed := false }
  server :=
    { requestId := "r"
      expectedSequence := 1
      inspector := inspector₀ sample
      policyVersion := "policy-v1"
      running := true }
  input := []
  replies := []

/-- The end mark in two reads, then the close. -/
def sampleRun : Pipeline :=
  ((sample₀.read sample (utf8 "data: [D") false false .none).read sample (utf8 "ONE]\n\n")
    true false .none).close sample .none

theorem sample_opened : Opened sample sample₀ :=
  ⟨true, .none, _, rfl, rfl, rfl, rfl⟩

theorem sampleRun_reach : ((system sample).restrict (NoError sample)).Reach sampleRun := by
  refine .step (i := .close .none) (.step (i := .read _ true false .none)
    (.step (i := .read _ false false .none) (.init sample_opened)
      ⟨.read rfl (by decide), .inr ⟨_, rfl⟩⟩) ⟨.read (by decide) (by decide), .inr ⟨_, rfl⟩⟩)
    ⟨.close (by decide), ⟨_, rfl⟩⟩

theorem stream_agreement_sample :
    sampleRun.gateway.writer.body = utf8 "data: [DONE]\n\n" ∧
      sampleRun.gateway.writer.body <+: sampleRun.input :=
  ⟨by decide, (stream_agreement sample sampleRun_reach).1.1⟩

end Sample

end Pipeline

end Kavora.Gateway
