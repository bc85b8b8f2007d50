import Kavora.Lib.System
import Kavora.Gateway.ForwardStream

/-!
# Streams of a fail-open tenant

The handler beside a response body that is read in any pieces and a stream policy that answers
anything. A tenant that is fail-open gets its stream also when the policy fails: at `OpenStream`,
at a `Check` or at `Close`.

* `openStreamPolicy`: what `Server.forward` makes of the answer to `OpenStream`.
* `Exchange.system`: the runs of the handler on one body.
* `Exchange.fail_open_complete`: when the policy fails, the client gets the whole body.
-/

namespace Kavora.Gateway

open Lib Policy

/-- The stream policy of the server and its answer to `OpenStream`. -/
inductive Opening where
  /-- There is no stream policy. -/
  | absent
  /-- An error or a nil result. -/
  | failed
  | answered (result : PolicyResult)

/-- The part of `forward` before the backends: whether there is a session. -/
def openStreamPolicy (failMode : FailMode) (opening : Opening) : Except GatewayError Bool :=
  match opening with
  | .absent =>
    if failMode = .closed then
      .error
        { status := 503
          code := "STREAM_POLICY_UNAVAILABLE"
          message := "stream policy is unavailable" }
    else .ok false
  | .failed =>
    if failMode = .closed then
      .error
        { status := 503
          code := "STREAM_POLICY_UNAVAILABLE"
          message := "failed to open stream policy" }
    else .ok false
  | .answered result =>
    if result.decision = .retryableFailure then
      if failMode = .closed then
        .error
          { status := 503
            code := "STREAM_POLICY_UNAVAILABLE"
            message := "failed to open stream policy" }
      else .ok false
    else if result.decision ≠ .allow then
      .error
        { status := 403
          code := "STREAM_POLICY_REJECTED"
          message := "stream rejected by policy" }
    else .ok true

/-- The opening of a stream that the policy allows or fails at. -/
def Opening.AllowedOrFailed : Opening → Prop
  | .absent => True
  | .failed => True
  | .answered result => result.decision = .allow ∨ result.decision = .retryableFailure

/-- A fail-open stream is forwarded whether or not it has a session. -/
theorem openStreamPolicy_open {opening : Opening} (h : opening.AllowedOrFailed) :
    ∃ session, openStreamPolicy .open opening = .ok session := by
  unfold openStreamPolicy
  cases opening with
  | absent => exact ⟨false, rfl⟩
  | failed => exact ⟨false, rfl⟩
  | answered result =>
    rcases h with hallow | hretry
    · exact ⟨true, by simp [hallow]⟩
    · exact ⟨false, by simp [hretry]⟩

/-- The handler and the rest of the body. -/
structure Exchange where
  gateway : ForwardStream
  unread : Bytes

namespace Exchange

/-- A read of `n` bytes; `readErr` is the end of the body. -/
inductive Label where
  | read (n : Nat) (readErr : Bool) (reply : Reply)
  | close (reply : Reply)
  | copy (n : Nat) (readErr : Bool)

/-- One step of a gateway whose policy fails open. -/
inductive Step (config : StreamConfig) (status : Nat) (s : Exchange) : Label → Exchange → Prop
  | read {n : Nat} {readErr : Bool} {reply : Reply} :
    s.gateway.phase = .reading → n ≤ config.streamChunkBytes →
    (readErr = true → s.unread.length ≤ n) →
    Step config status s (.read n readErr reply)
      { gateway := s.gateway.read config .open status (s.unread.take n) readErr reply false
        unread := s.unread.drop n }
  | close {reply : Reply} : s.gateway.phase = .closing →
    Step config status s (.close reply) { s with gateway := s.gateway.close .open status reply }
  | copy {n : Nat} {readErr : Bool} : s.gateway.phase = .copying →
    (readErr = true → s.unread.length ≤ n) →
    Step config status s (.copy n readErr)
      { gateway := s.gateway.copy (s.unread.take n) readErr false, unread := s.unread.drop n }

/-- The runs on one body, from any opening. -/
def system (config : StreamConfig) (status : Nat) (body : Bytes) (opening : Opening) :
    System Exchange Label where
  init s := ∃ session, openStreamPolicy .open opening = .ok session ∧
    s = { gateway := .init session status, unread := body }
  step := Step config status

/-- A reply to a check that allows, with a valid count, and does not fill the buffer. -/
def AllowsWithin (config : StreamConfig) (pending : Bytes) (reply : Reply) : Prop :=
  ∃ response result, verdict reply = some (response, result) ∧ result.decision = .allow ∧
    response.releaseBytes ≤ pending.length ∧
    pending.length - response.releaseBytes ≤ config.streamBufferBytes

/-- The policy allows until it fails, and it fails at the close at the latest. -/
def FirstFailure (config : StreamConfig) (s : Exchange) : Label → Prop
  | .read n _ reply =>
    s.unread.take n = [] ∨ verdict reply = none ∨
      AllowsWithin config (s.gateway.pending ++ s.unread.take n) reply
  | .close reply => verdict reply = none
  | .copy .. => True

/-- Where the bytes of the body are. -/
structure Inv (status : Nat) (body : Bytes) (s : Exchange) : Prop where
  reading : s.gateway.phase = .reading ∨ s.gateway.phase = .closing →
    s.gateway.writer.body ++ s.gateway.pending ++ s.unread = body
  closing : s.gateway.phase = .closing → s.unread = []
  copying : s.gateway.phase = .copying → s.gateway.writer.body ++ s.unread = body
  done : ∀ exit, s.gateway.phase = .done exit → exit = .copied ∧ s.gateway.writer.body = body
  unstarted : s.gateway.phase = .reading ∨ s.gateway.phase = .closing →
    s.gateway.responseStarted = false → s.gateway.writer.status = none
  started : s.gateway.responseStarted = true ∨ s.gateway.phase = .copying ∨
    (∃ exit, s.gateway.phase = .done exit) → s.gateway.writer.status = some status
  error : s.gateway.writer.error = none

variable {config : StreamConfig} {status : Nat} {body : Bytes} {s : Exchange}

theorem Inv.init (session : Bool) :
    Inv status body { gateway := .init session status, unread := body } := by
  cases session with
  | false =>
    refine ⟨?_, nofun, fun _ => rfl, nofun, ?_, fun _ => rfl, rfl⟩
    · rintro (h | h) <;> cases h
    · rintro (h | h) <;> cases h
  | true =>
    refine ⟨fun _ => rfl, nofun, nofun, nofun, fun _ _ => rfl, ?_, rfl⟩
    rintro (h | h | ⟨exit, h⟩) <;> cases h

/-! ## One round -/

/-- The writer after the header of a started or an unstarted response. -/
theorem header_status {self : ForwardStream}
    (hunstarted : self.responseStarted = false → self.writer.status = none)
    (hstarted : self.responseStarted = true → self.writer.status = some status) :
    (if self.responseStarted then self.writer else self.writer.writeHeader status).status =
      some status := by
  cases h : self.responseStarted with
  | false => simp [Writer.writeHeader, hunstarted h]
  | true => simpa using hstarted h

theorem write_status {writer : Writer} (h : writer.status = some status) (data : Bytes) :
    (writer.write data).status = some status := by
  simp [Writer.write, Writer.writeHeader, h]

theorem write_body (writer : Writer) (data : Bytes) :
    (writer.write data).body = writer.body ++ data := rfl

theorem write_error (writer : Writer) (data : Bytes) :
    (writer.write data).error = writer.error := rfl

/-- A check that fails: the buffer and the rest of the body go out unchecked. -/
theorem Inv.read_failed (h : Inv status body s) {n : Nat} {readErr : Bool} {reply : Reply}
    (hphase : s.gateway.phase = .reading) (hdata : s.unread.take n ≠ [])
    (hreply : verdict reply = none) :
    Inv status body
      { gateway := s.gateway.read config .open status (s.unread.take n) readErr reply false
        unread := s.unread.drop n } := by
  have hbody := h.reading (.inl hphase)
  have hstatus := header_status (h.unstarted (.inl hphase)) fun hs => h.started (.inl hs)
  have hread : s.gateway.read config .open status (s.unread.take n) readErr reply false =
      { s.gateway with
        pending := s.gateway.pending ++ s.unread.take n
        phase := .copying
        writer := (if s.gateway.responseStarted then s.gateway.writer
          else s.gateway.writer.writeHeader status).write
            (s.gateway.pending ++ s.unread.take n) } := by
    simp [ForwardStream.read, hdata, hreply]
  have hwritten : (if s.gateway.responseStarted then s.gateway.writer
      else s.gateway.writer.writeHeader status).body = s.gateway.writer.body := by
    split <;> rfl
  have herror : (if s.gateway.responseStarted then s.gateway.writer
      else s.gateway.writer.writeHeader status).error = s.gateway.writer.error := by
    split <;> rfl
  rw [hread]
  refine ⟨?_, ?_, fun _ => ?_, ?_, ?_, fun _ => write_status hstatus _, ?_⟩
  · rintro (hp | hp) <;> cases hp
  · intro hp
    cases hp
  · show (Writer.write _ _).body ++ s.unread.drop n = body
    rw [write_body, hwritten, ← hbody]
    simp
  · intro exit hp
    cases hp
  · rintro (hp | hp) <;> cases hp
  · show (Writer.write _ _).error = none
    rw [write_error, herror]
    exact h.error

/-- A read of nothing. -/
theorem Inv.read_nothing (h : Inv status body s) {n : Nat} {readErr : Bool} {reply : Reply}
    (hphase : s.gateway.phase = .reading) (hend : readErr = true → s.unread.length ≤ n)
    (hdata : s.unread.take n = []) :
    Inv status body
      { gateway := s.gateway.read config .open status (s.unread.take n) readErr reply false
        unread := s.unread.drop n } := by
  have hdrop : s.unread.drop n = s.unread := by
    rcases List.take_eq_nil_iff.mp hdata with hn | hnil
    · rw [hn, List.drop_zero]
    · rw [hnil, List.drop_nil]
  have hread : s.gateway.read config .open status (s.unread.take n) readErr reply false =
      s.gateway.next readErr := by
    simp [ForwardStream.read, hdata]
  rw [hread, hdrop]
  have hbody := h.reading (.inl hphase)
  cases readErr with
  | false =>
    refine ⟨fun _ => hbody, ?_, ?_, ?_, fun _ => h.unstarted (.inl hphase), ?_, h.error⟩
    · intro hp
      cases hp
    · intro hp
      cases hp
    · intro exit hp
      cases hp
    · rintro (hs | hp | ⟨exit, hp⟩)
      · exact h.started (.inl hs)
      · cases hp
      · cases hp
  | true =>
    have hnil : s.unread = [] := by
      have hle := hend rfl
      rw [← hdata, List.take_of_length_le hle]
    refine ⟨fun _ => hbody, fun _ => hnil, ?_, ?_, fun _ => h.unstarted (.inl hphase), ?_,
      h.error⟩
    · intro hp
      cases hp
    · intro exit hp
      cases hp
    · rintro (hs | hp | ⟨exit, hp⟩)
      · exact h.started (.inl hs)
      · cases hp
      · cases hp

/-- A check that allows: the released bytes go out and the others stay in the buffer. -/
theorem Inv.read_allowed (h : Inv status body s) {n : Nat} {readErr : Bool} {reply : Reply}
    (hphase : s.gateway.phase = .reading) (hend : readErr = true → s.unread.length ≤ n)
    (hdata : s.unread.take n ≠ [])
    (hreply : AllowsWithin config (s.gateway.pending ++ s.unread.take n) reply) :
    Inv status body
      { gateway := s.gateway.read config .open status (s.unread.take n) readErr reply false
        unread := s.unread.drop n } := by
  obtain ⟨response, result, hverdict, hallow, hle, hroom⟩ := hreply
  have hbody := h.reading (.inl hphase)
  -- the handler with the piece in its buffer
  obtain ⟨self, hself⟩ : ∃ self : ForwardStream,
      self = { s.gateway with pending := s.gateway.pending ++ s.unread.take n } := ⟨_, rfl⟩
  have hread : s.gateway.read config .open status (s.unread.take n) readErr reply false =
      (self.release status response.releaseBytes).next readErr := by
    have hgt : ¬ response.releaseBytes > (s.gateway.pending ++ s.unread.take n).length := by omega
    have hfull : ¬ (self.release status response.releaseBytes).pending.length >
        config.streamBufferBytes := by
      rw [ForwardStream.release_pending, List.length_drop, hself]
      exact Nat.not_lt.mpr hroom
    rw [hself] at hfull ⊢
    simp only [ForwardStream.read, if_neg hdata, hverdict, hallow, ne_eq, not_true_eq_false,
      if_false, if_neg hgt, Bool.false_eq_true, and_false, if_neg hfull]
  have hstatus : (self.release status response.releaseBytes).writer.status =
      if (self.release status response.releaseBytes).responseStarted then some status
      else none := by
    unfold ForwardStream.release ForwardStream.startResponse
    cases hs : s.gateway.responseStarted with
    | false =>
      have hnone := h.unstarted (.inl hphase) hs
      split
      · simp [hself, hs, Writer.write, Writer.writeHeader, hnone]
      · simp [hself, hs, hnone]
    | true =>
      have hsome := h.started (.inl hs)
      split
      · simp [hself, hs, Writer.write, Writer.writeHeader, hsome]
      · simp [hself, hs, hsome]
  have herror : (self.release status response.releaseBytes).writer.error = none := by
    unfold ForwardStream.release ForwardStream.startResponse
    have hnone : self.writer.error = none := by
      rw [hself]
      exact h.error
    split
    · split
      · exact hnone
      · exact hnone
    · exact hnone
  have hbytes : (self.release status response.releaseBytes).writer.body ++
      (self.release status response.releaseBytes).pending ++ s.unread.drop n = body := by
    rw [ForwardStream.release_body, ForwardStream.release_pending,
      List.append_assoc self.writer.body, List.take_append_drop, ← hbody, hself]
    simp
  rw [hread]
  refine ⟨fun _ => hbytes, fun hp => ?_, ?_, ?_, fun _ hs => ?_, ?_, herror⟩
  · cases readErr with
    | false => cases hp
    | true => exact List.drop_of_length_le (hend rfl)
  · intro hp
    cases readErr <;> cases hp
  · intro exit hp
    cases readErr <;> cases hp
  · have hs : (self.release status response.releaseBytes).responseStarted = false := hs
    show (self.release status response.releaseBytes).writer.status = none
    rw [hstatus, hs]
    rfl
  · rintro (hs | hp | ⟨exit, hp⟩)
    · have hs : (self.release status response.releaseBytes).responseStarted = true := hs
      show (self.release status response.releaseBytes).writer.status = some status
      rw [hstatus, if_pos hs]
    · cases readErr <;> cases hp
    · cases readErr <;> cases hp

/-- A close that fails: the buffer goes out. -/
theorem Inv.close (h : Inv status body s) {reply : Reply} (hphase : s.gateway.phase = .closing)
    (hreply : verdict reply = none) :
    Inv status body { s with gateway := s.gateway.close .open status reply } := by
  have hbody := h.reading (.inr hphase)
  have hnil := h.closing hphase
  have hstatus := header_status (h.unstarted (.inr hphase)) fun hs => h.started (.inl hs)
  have hclose : s.gateway.close .open status reply =
      { s.gateway with
        phase := .done .copied
        writer := (if s.gateway.responseStarted then s.gateway.writer
          else s.gateway.writer.writeHeader status).write s.gateway.pending } := by
    simp [ForwardStream.close, hreply]
  rw [hclose]
  refine ⟨?_, ?_, ?_, fun exit hp => ?_, ?_, fun _ => write_status hstatus _, ?_⟩
  · rintro (hp | hp) <;> cases hp
  · intro hp
    cases hp
  · intro hp
    cases hp
  · cases hp
    refine ⟨rfl, ?_⟩
    show (Writer.write _ _).body = body
    rw [write_body, ← hbody, hnil, List.append_nil]
    split <;> rfl
  · rintro (hp | hp) <;> cases hp
  · show (Writer.write _ _).error = none
    rw [write_error]
    split <;> exact h.error

/-- A round of the copy. -/
theorem Inv.copy (h : Inv status body s) {n : Nat} {readErr : Bool}
    (hphase : s.gateway.phase = .copying) (hend : readErr = true → s.unread.length ≤ n) :
    Inv status body
      { gateway := s.gateway.copy (s.unread.take n) readErr false, unread := s.unread.drop n } := by
  have hbody := h.copying hphase
  have hstatus := h.started (.inr (.inl hphase))
  obtain ⟨writer, hwriter⟩ : ∃ writer, writer =
      if s.unread.take n = [] then s.gateway.writer
      else s.gateway.writer.write (s.unread.take n) := ⟨_, rfl⟩
  have hcopy : s.gateway.copy (s.unread.take n) readErr false =
      { s.gateway with writer, phase := if readErr then .done .copied else .copying } := by
    rw [hwriter]
    unfold ForwardStream.copy
    split
    · rfl
    · simp
  have hbytes : writer.body = s.gateway.writer.body ++ s.unread.take n := by
    rw [hwriter]
    split
    · rename_i hnil
      rw [hnil, List.append_nil]
    · rfl
  have hstatus' : writer.status = some status := by
    rw [hwriter]
    split
    · exact hstatus
    · exact write_status hstatus _
  have herror : writer.error = none := by
    rw [hwriter]
    split <;> exact h.error
  rw [hcopy]
  cases readErr with
  | false =>
    refine ⟨?_, nofun, fun _ => ?_, nofun, ?_, fun _ => hstatus', herror⟩
    · rintro (hp | hp) <;> cases hp
    · show writer.body ++ s.unread.drop n = body
      rw [hbytes, List.append_assoc, List.take_append_drop, hbody]
    · rintro (hp | hp) <;> cases hp
  | true =>
    refine ⟨?_, nofun, nofun, fun exit hp => ?_, ?_, fun _ => hstatus', herror⟩
    · rintro (hp | hp) <;> cases hp
    · cases hp
      refine ⟨rfl, ?_⟩
      show writer.body = body
      rw [hbytes, List.take_of_length_le (hend rfl), hbody]
    · rintro (hp | hp) <;> cases hp

theorem inductive_inv (body : Bytes) (opening : Opening) :
    ((system config status body opening).restrict (FirstFailure config)).Inductive
      (Inv status body) where
  init := by
    rintro s ⟨session, -, rfl⟩
    exact Inv.init session
  step := by
    rintro s i s' h ⟨hstep, hfirst⟩
    cases hstep with
    | @read n readErr reply hphase hle hend =>
      by_cases hdata : s.unread.take n = []
      · exact h.read_nothing hphase hend hdata
      · rcases hfirst with hnone | hfail | hallow
        · exact absurd hnone hdata
        · exact h.read_failed hphase hdata hfail
        · exact h.read_allowed hphase hend hdata hallow
    | close hphase => exact h.close hphase hfirst
    | copy hphase hend => exact h.copy hphase hend

/-! ## The end of a run -/

/-- A read that makes progress: it returns bytes or the end of the body. -/
def Productive (s : Exchange) : Label → Prop
  | .read n readErr _ => s.unread.take n ≠ [] ∨ readErr = true
  | .close _ => True
  | .copy n readErr => s.unread.take n ≠ [] ∨ readErr = true

/-- What is left to do in a phase. -/
def weight : Phase → Nat
  | .reading => 2
  | .closing => 1
  | .copying => 1
  | .done _ => 0

/-- A bound on the steps that are left. -/
def work (s : Exchange) : Nat := s.unread.length + weight s.gateway.phase

theorem length_drop_lt {n : Nat} (h : s.unread.take n ≠ []) :
    (s.unread.drop n).length < s.unread.length := by
  have hn : n ≠ 0 := fun hn => h (by rw [hn, List.take_zero])
  have hpos : 0 < s.unread.length := by
    refine List.length_pos_of_ne_nil fun hnil => h ?_
    rw [hnil, List.take_nil]
  rw [List.length_drop]
  omega

theorem weight_le (phase : Phase) : weight phase ≤ 2 := by
  cases phase with
  | reading => exact Nat.le_refl 2
  | closing => exact Nat.le_succ 1
  | copying => exact Nat.le_succ 1
  | done exit => exact Nat.zero_le 2

theorem work_lt {s' : Exchange} {i : Label} (hstep : Step config status s i s')
    (hfirst : FirstFailure config s i) (hproductive : s.Productive i) : s'.work < s.work := by
  unfold work
  cases hstep with
  | @read n readErr reply hphase =>
    rw [hphase]
    by_cases hdata : s.unread.take n = []
    · have herr : readErr = true := hproductive.resolve_left fun hne => hne hdata
      have hlength : (s.unread.drop n).length ≤ s.unread.length := by
        rw [List.length_drop]
        omega
      have hread : s.gateway.read config .open status (s.unread.take n) readErr reply false =
          s.gateway.next true := by
        simp [ForwardStream.read, hdata, herr]
      rw [hread]
      exact Nat.add_lt_add_of_le_of_lt hlength (Nat.lt_succ_self 1)
    · exact Nat.add_lt_add_of_lt_of_le (length_drop_lt hdata) (weight_le _)
  | @close reply hphase =>
    have hreply : verdict reply = none := hfirst
    have hdone : (s.gateway.close .open status reply).phase = .done .copied := by
      simp [ForwardStream.close, hreply]
    show s.unread.length + weight (s.gateway.close .open status reply).phase <
      s.unread.length + weight s.gateway.phase
    rw [hphase, hdone]
    exact Nat.lt_succ_self _
  | @copy n readErr hphase =>
    rw [hphase]
    have hphase' : (s.gateway.copy (s.unread.take n) readErr false).phase =
        if readErr then .done .copied else .copying := by
      unfold ForwardStream.copy
      split
      · rfl
      · simp
    rw [hphase']
    by_cases hdata : s.unread.take n = []
    · have herr : readErr = true := hproductive.resolve_left fun hne => hne hdata
      rw [herr, List.length_drop]
      show s.unread.length - n + 0 < s.unread.length + 1
      omega
    · have hlt := length_drop_lt hdata
      cases readErr with
      | false => exact Nat.add_lt_add_right hlt 1
      | true => exact Nat.lt_succ_of_lt hlt

/-- A handler that has not returned can go on. -/
theorem exists_step (hphase : ∀ exit, s.gateway.phase ≠ .done exit) :
    ∃ i s', Step config status s i s' ∧ FirstFailure config s i ∧ s.Productive i := by
  have hread : ∀ n : Nat, 0 < n →
      s.unread.take n ≠ [] ∨ decide (s.unread.length ≤ n) = true := by
    intro n hn
    by_cases hnil : s.unread = []
    · right
      simp [hnil]
    · left
      intro htake
      rcases List.take_eq_nil_iff.mp htake with hzero | hnil'
      · omega
      · exact hnil hnil'
  cases hp : s.gateway.phase with
  | reading =>
    exact ⟨.read config.streamChunkBytes (decide (s.unread.length ≤ config.streamChunkBytes)) none,
      _, .read hp (Nat.le_refl _) of_decide_eq_true, .inr (.inl rfl),
      hread _ config.streamChunkBytes_pos⟩
  | closing => exact ⟨.close none, _, .close hp, rfl, trivial⟩
  | copying =>
    exact ⟨.copy 1 (decide (s.unread.length ≤ 1)), _, .copy hp of_decide_eq_true, trivial,
      hread 1 Nat.one_pos⟩
  | done exit => exact absurd hp (hphase exit)

/-- **A fail-open stream is complete.** Whether the policy fails at `OpenStream`, at a check or at
the close, the stream is forwarded, the handler comes to an end, unless the body stops giving
bytes, and then the client has got exactly the body and the status of the backend. -/
theorem fail_open_complete {opening : Opening} (hopening : opening.AllowedOrFailed) :
    (∃ s, ((system config status body opening).restrict (FirstFailure config)).init s) ∧
    ∀ s, ((system config status body opening).restrict (FirstFailure config)).Reach s →
      (∀ exit, s.gateway.phase = .done exit →
        s.gateway.writer = { status := some status, body, error := none }) ∧
      s.gateway.writer.body <+: body ∧
      ((∀ exit, s.gateway.phase ≠ .done exit) →
        ∃ i s', ((system config status body opening).restrict (FirstFailure config)).step s i s' ∧
          s.Productive i) ∧
      ∀ i s', ((system config status body opening).restrict (FirstFailure config)).step s i s' →
        s.Productive i → s'.work < s.work := by
  obtain ⟨session, hsession⟩ := openStreamPolicy_open hopening
  refine ⟨⟨_, session, hsession, rfl⟩, fun s hs => ?_⟩
  have h := (inductive_inv body opening).reach hs
  refine ⟨fun exit hdone => ?_, ?_, fun hphase => ?_, fun i s' hstep hproductive => ?_⟩
  · have hbody := (h.done exit hdone).2
    have hstatus := h.started (.inr (.inr ⟨exit, hdone⟩))
    rw [← hbody, ← hstatus, ← h.error]
  · cases hp : s.gateway.phase with
    | reading => exact ⟨_, by rw [← List.append_assoc]; exact h.reading (.inl hp)⟩
    | closing => exact ⟨_, by rw [← List.append_assoc]; exact h.reading (.inr hp)⟩
    | copying => exact ⟨_, h.copying hp⟩
    | done exit => exact ⟨[], by rw [List.append_nil]; exact (h.done exit hp).2⟩
  · obtain ⟨i, s', hstep, hfirst, hproductive⟩ := exists_step hphase
    exact ⟨i, s', ⟨hstep, hfirst⟩, hproductive⟩
  · exact work_lt hstep.1 hstep.2 hproductive

/-! ## A run on six bytes -/

/-- A configuration with small buffers. -/
def sampleConfig : StreamConfig where
  maxResponseBytes := 100
  streamChunkBytes := 4
  streamBufferBytes := 8
  maxResponseBytes_pos := by decide
  maxResponseBytes_lt := by decide
  streamChunkBytes_pos := by decide
  streamBufferBytes_pos := by decide

/-- A result that releases everything. -/
def allowed : PolicyResult where
  decision := .allow
  errorCode := .unspecified
  reason := ""
  matchedRuleIds := []
  cacheKey := []
  estimatedTokens := 1
  policyVersion := "test"

/-- The reply to a check of four bytes. -/
def releasesTwo : StreamCheckResponse where
  requestId := "request"
  sequence := 0
  result := some allowed
  inspectedBytes := 4
  consumedTokens := 1
  releaseBytes := 2

/-- A response of six bytes. -/
def start : Exchange := { gateway := .init true 200, unread := [97, 98, 99, 100, 101, 102] }

/-- The first check releases two of four bytes. -/
def held : Exchange where
  gateway := start.gateway.read sampleConfig .open 200 [97, 98, 99, 100] false
    (some releasesTwo) false
  unread := [101, 102]

/-- The second check fails, with the last piece. -/
def failed : Exchange where
  gateway := held.gateway.read sampleConfig .open 200 [101, 102] true none false
  unread := []

/-- The rest of the response has been copied. -/
def copied : Exchange where
  gateway := failed.gateway.copy [] true false
  unread := []

theorem fail_open_complete_sample :
    copied.gateway.phase = .done .copied ∧
      copied.gateway.writer =
        { status := some 200, body := [97, 98, 99, 100, 101, 102], error := none } := by
  have hstart : ((system sampleConfig 200 start.unread (.answered allowed)).restrict
      (FirstFailure sampleConfig)).Reach start := .init ⟨true, rfl, rfl⟩
  have hheld : ((system sampleConfig 200 start.unread (.answered allowed)).restrict
      (FirstFailure sampleConfig)).step start
      (.read 4 false (some releasesTwo)) held :=
    ⟨.read rfl (by decide) nofun, .inr (.inr ⟨_, allowed, rfl, rfl, by decide, by decide⟩)⟩
  have hfailed : ((system sampleConfig 200 start.unread (.answered allowed)).restrict
      (FirstFailure sampleConfig)).step held (.read 2 true none) failed :=
    ⟨.read rfl (by decide) fun _ => by decide, .inr (.inl rfl)⟩
  have hcopied : ((system sampleConfig 200 start.unread (.answered allowed)).restrict
      (FirstFailure sampleConfig)).step failed (.copy 1 true) copied :=
    ⟨.copy rfl fun _ => by decide, trivial⟩
  have hreach := ((hstart.step hheld).step hfailed).step hcopied
  have hopening : (Opening.answered allowed).AllowedOrFailed := .inl rfl
  exact ⟨rfl, ((fail_open_complete hopening).2 copied hreach).1 .copied rfl⟩

end Exchange

end Kavora.Gateway
