import Kavora.Gateway.Answers
import Kavora.Gateway.FailOpen

/-!
# What a client gets of a stream

The handler `forwardStream` on a response body, for a policy that answers anything, a tenant of
either fail mode, reads of any size and a connection that may end anywhere. Writes do not fail.

* `Delivery.system`: the runs.
* `Held`: where the bytes are that were read, and what the client was sent.
* `Delivery.held`: `Held` in every run.
-/

namespace Kavora.Gateway

open Lib Policy

namespace ForwardStream

/-- The status is sent with the first bytes. -/
def HeaderSent (status : Nat) (self : ForwardStream) : Prop :=
  if self.responseStarted then self.writer.status = some status
  else self.writer.status = none ∧ self.writer.body = []

/-- A gateway error goes out instead of a response. -/
structure Refused (writer : Writer) (err : GatewayError) : Prop where
  body : writer.body = []
  status : writer.status = some err.status
  range : 400 ≤ err.status ∧ err.status < 600
  short : err.Short

/-- The bytes that were read are written or pending, or the handler has returned. -/
structure Held (status : Nat) (input : Bytes) (handler : ForwardStream) : Prop where
  live : handler.phase = .reading ∨ handler.phase = .closing →
    handler.writer.body ++ handler.pending = input ∧ handler.writer.error = none ∧ handler.HeaderSent status
  copying : handler.phase = .copying →
    handler.writer = { status := some status, body := input, error := none }
  initial : handler.writer.body <+: input
  complete : handler.phase = .done .finished ∨ handler.phase = .done .copied →
    handler.writer = { status := some status, body := input, error := none }
  sent : ∀ exit, handler.phase = .done exit →
    (∃ body, handler.writer = { status := some status, body, error := none }) ∨
      ∃ err, handler.writer.error = some err ∧ Refused handler.writer err

variable {status : Nat} {input : Bytes} {self : ForwardStream}

theorem Held.init (session : Bool) : Held status [] (.init session status) := by
  cases session with
  | false =>
    refine ⟨?_, fun _ => rfl, List.prefix_rfl, ?_, nofun⟩
    · rintro (h | h) <;> cases h
    · rintro (h | h) <;> cases h
  | true =>
    refine ⟨fun _ => ⟨rfl, rfl, rfl, rfl⟩, nofun, List.prefix_rfl, ?_, nofun⟩
    rintro (h | h) <;> cases h

/-- A handler that stays in its loop. -/
theorem Held.of_live (hbody : self.writer.body ++ self.pending = input)
    (herror : self.writer.error = none) (hheader : self.HeaderSent status)
    (hphase : self.phase = .reading ∨ self.phase = .closing) : Held status input self where
  live _ := ⟨hbody, herror, hheader⟩
  copying h := by rcases hphase with hp | hp <;> rw [hp] at h <;> cases h
  initial := ⟨self.pending, hbody⟩
  complete h := by rcases hphase with hp | hp <;> rw [hp] at h <;> rcases h with h | h <;> cases h
  sent exit h := by rcases hphase with hp | hp <;> rw [hp] at h <;> cases h

/-- A handler that has passed on everything. -/
theorem Held.of_all (hwriter : self.writer = { status := some status, body := input, error := none })
    (hphase : self.phase = .copying ∨ ∃ exit, self.phase = .done exit) : Held status input self where
  live h := by
    rcases hphase with hp | ⟨exit, hp⟩ <;> rw [hp] at h <;> rcases h with h | h <;> cases h
  copying _ := hwriter
  initial := by rw [hwriter]
  complete _ := hwriter
  sent _ _ := .inl ⟨input, hwriter⟩

theorem Held.fail (hheader : self.HeaderSent status) (herror : self.writer.error = none)
    (hbody : self.writer.body <+: input) {exit : Exit} (hexit : exit ≠ .finished ∧ exit ≠ .copied)
    {code : Nat} (hcode : 400 ≤ code ∧ code < 600) {name message : String}
    (hshort : GatewayError.Short { status := code, code := name, message }) :
    Held status input (self.fail exit code name message) where
  live h := by rw [fail_phase] at h; rcases h with h | h <;> cases h
  copying h := by rw [fail_phase] at h; cases h
  initial := by rw [fail_body]; exact hbody
  complete h := by
    rw [fail_phase] at h
    rcases h with h | h
    · exact absurd (Phase.done.inj h) hexit.1
    · exact absurd (Phase.done.inj h) hexit.2
  sent _ _ := by
    unfold HeaderSent at hheader
    unfold ForwardStream.fail
    cases hstarted : self.responseStarted with
    | true =>
      rw [hstarted, if_pos rfl] at hheader
      rw [if_pos rfl]
      refine .inl ⟨self.writer.body, ?_⟩
      rw [← hheader, ← herror]
    | false =>
      rw [hstarted, if_neg Bool.false_ne_true] at hheader
      rw [if_neg Bool.false_ne_true]
      refine .inr ⟨_, rfl, hheader.2, ?_, hcode, hshort⟩
      show some (self.writer.status.getD code) = some code
      rw [hheader.1]
      rfl

theorem headerSent_release {n : Nat} (hheader : self.HeaderSent status) :
    (self.release status n).HeaderSent status := by
  unfold HeaderSent at hheader
  unfold release
  split
  · unfold startResponse
    cases hstarted : self.responseStarted with
    | true =>
      rw [hstarted, if_pos rfl] at hheader
      simp [HeaderSent, Writer.write, Writer.writeHeader, hstarted, hheader]
    | false =>
      rw [hstarted, if_neg Bool.false_ne_true] at hheader
      simp [HeaderSent, Writer.write, Writer.writeHeader, hheader.1]
  · exact hheader

theorem release_error (self : ForwardStream) (status n : Nat) : (self.release status n).writer.error = self.writer.error := by
  unfold release startResponse
  split
  · split <;> rfl
  · rfl

/-- The writer of a handler that gives up the policy. -/
theorem headerSent_write (hheader : self.HeaderSent status) (herror : self.writer.error = none)
    (data : Bytes) :
    (if self.responseStarted then self.writer else self.writer.writeHeader status).write data =
      { status := some status, body := self.writer.body ++ data, error := none } := by
  unfold HeaderSent at hheader
  cases hstarted : self.responseStarted with
  | true =>
    rw [hstarted, if_pos rfl] at hheader
    simp [Writer.write, Writer.writeHeader, hheader, herror]
  | false =>
    rw [hstarted, if_neg Bool.false_ne_true] at hheader
    simp [Writer.write, Writer.writeHeader, hheader.1, herror]

theorem terminated_short (code : PolicyErrorCode) : GatewayError.Short
    { status := 403, code := errorCodeName code, message := "stream terminated by policy" } := by
  cases code <;> decide

/-! ## One round -/

/-- A round of the read loop. -/
theorem Held.read (h : Held status input self) (hphase : self.phase = .reading)
    (config : StreamConfig) (failMode : FailMode) (data : Bytes) (readErr : Bool) (reply : Reply) :
    Held status (input ++ data) (self.read config failMode status data readErr reply false) := by
  obtain ⟨hbody, herror, hheader⟩ := h.live (.inl hphase)
  have hnext : ∀ {self : ForwardStream}, (self.next readErr).phase = .reading ∨
      (self.next readErr).phase = .closing := by
    intro self
    cases readErr
    · exact .inl rfl
    · exact .inr rfl
  unfold ForwardStream.read
  by_cases hdata : data = []
  · rw [if_pos hdata, hdata, List.append_nil]
    exact .of_live hbody herror hheader hnext
  · rw [if_neg hdata]
    -- the handler with the piece in its buffer
    have hfilledBody : self.writer.body ++ (self.pending ++ data) = input ++ data := by
      rw [← hbody, List.append_assoc]
    have hfilledHeader :
        ({ self with pending := self.pending ++ data } : ForwardStream).HeaderSent status := hheader
    have hinitial : self.writer.body <+: input ++ data := ⟨_, hfilledBody⟩
    dsimp only
    split
    · split
      · have hwriter := headerSent_write hheader herror (self.pending ++ data)
        rw [hfilledBody] at hwriter
        exact .of_all hwriter (.inl rfl)
      · exact .fail hfilledHeader herror hinitial (by decide) (by decide) (by decide)
    · rename_i response result _
      split
      · exact .fail hfilledHeader herror hinitial (by decide) (by decide) (terminated_short _)
      split
      · exact .fail hfilledHeader herror hinitial (by decide) (by decide) (by decide)
      have hheader' := headerSent_release (n := response.releaseBytes) hfilledHeader
      generalize hself' : ({ self with pending := self.pending ++ data } : ForwardStream).release
        status response.releaseBytes = self' at hheader'
      have hbody' : self'.writer.body ++ self'.pending = input ++ data := by
        rw [← hself', release_body, release_pending, List.append_assoc, List.take_append_drop,
          hfilledBody]
      have herror' : self'.writer.error = none := by
        rw [← hself', release_error]
        exact herror
      rw [if_neg (by simp)]
      split
      · exact .fail hheader' herror' ⟨_, hbody'⟩ (by decide) (by decide) (by decide)
      · exact .of_live hbody' herror' hheader' hnext

/-- What follows the loop. -/
theorem Held.close (h : Held status input self) (hphase : self.phase = .closing)
    (failMode : FailMode) (reply : Reply) :
    Held status input (self.close failMode status reply) := by
  obtain ⟨hbody, herror, hheader⟩ := h.live (.inr hphase)
  have hinitial := h.initial
  unfold ForwardStream.close
  split
  · split
    · have hwriter := headerSent_write hheader herror self.pending
      rw [hbody] at hwriter
      exact .of_all hwriter (.inr ⟨_, rfl⟩)
    · exact .fail hheader herror hinitial (by decide) (by decide) (by decide)
  · rename_i response result _
    split
    · exact .fail hheader herror hinitial (by decide) (by decide) (terminated_short _)
    split
    · exact .fail hheader herror hinitial (by decide) (by decide) (by decide)
    have hbody' : (self.release status response.releaseBytes).writer.body ++
        (self.release status response.releaseBytes).pending = input := by
      rw [release_body, release_pending, List.append_assoc, List.take_append_drop, hbody]
    have hheader' := headerSent_release (n := response.releaseBytes) hheader
    have herror' := (release_error _ status response.releaseBytes).trans herror
    dsimp only
    split
    · exact .fail hheader' herror' ⟨_, hbody'⟩ (by decide) (by decide) (by decide)
    · rename_i hempty
      rw [not_not] at hempty
      rw [hempty, List.append_nil] at hbody'
      generalize self.release status response.releaseBytes = self' at hbody' hheader' herror'
      refine .of_all ?_ (.inr ⟨_, rfl⟩)
      show (self'.startResponse status).writer = _
      unfold HeaderSent at hheader'
      unfold startResponse
      cases hstarted : self'.responseStarted with
      | true =>
        rw [hstarted, if_pos rfl] at hheader'
        rw [if_pos rfl, ← hheader', ← hbody', ← herror']
      | false =>
        rw [hstarted, if_neg Bool.false_ne_true] at hheader'
        rw [if_neg Bool.false_ne_true]
        simp [Writer.writeHeader, hheader'.1, hbody', herror']

/-- A round of the unchecked copy. -/
theorem Held.copy (h : Held status input self) (hphase : self.phase = .copying) (data : Bytes)
    (readErr : Bool) : Held status (input ++ data) (self.copy data readErr false) := by
  have hwriter := h.copying hphase
  have hnext : ∀ {self' : ForwardStream},
      self'.phase = (if readErr then .done .copied else .copying) →
      self'.phase = .copying ∨ ∃ exit, self'.phase = .done exit := by
    intro self' hself
    cases readErr
    · exact .inl hself
    · exact .inr ⟨_, hself⟩
  unfold ForwardStream.copy
  split
  · rename_i hdata
    rw [hdata, List.append_nil]
    exact .of_all hwriter (hnext rfl)
  · refine .of_all ?_ (hnext (by simp))
    show self.writer.write data = _
    rw [hwriter]
    rfl

end ForwardStream

/-! ## Runs -/

namespace Delivery

open Exchange (Label)

/-- One step of the gateway, with what the backend still sends. -/
inductive Step (config : StreamConfig) (failMode : FailMode) (status : Nat) (s : Exchange) :
    Label → Exchange → Prop
  | read {n : Nat} {readErr : Bool} {reply : Reply} : s.gateway.phase = .reading →
    n ≤ config.streamChunkBytes →
    Step config failMode status s (.read n readErr reply)
      { gateway := s.gateway.read config failMode status (s.unread.take n) readErr reply false
        unread := s.unread.drop n }
  | close {reply : Reply} : s.gateway.phase = .closing →
    Step config failMode status s (.close reply)
      { s with gateway := s.gateway.close failMode status reply }
  | copy {n : Nat} {readErr : Bool} : s.gateway.phase = .copying →
    Step config failMode status s (.copy n readErr)
      { gateway := s.gateway.copy (s.unread.take n) readErr false, unread := s.unread.drop n }

/-- The runs on one body, with a policy session or without. -/
def system (config : StreamConfig) (failMode : FailMode) (status : Nat) (body : Bytes) :
    System Exchange Label where
  init s := ∃ session, s = { gateway := .init session status, unread := body }
  step := Step config failMode status

/-- The bytes that were read make the body with the bytes that were not. -/
def Inv (status : Nat) (body : Bytes) (s : Exchange) : Prop :=
  ∃ input, input ++ s.unread = body ∧ s.gateway.Held status input

theorem inductive_inv (config : StreamConfig) (failMode : FailMode) (status : Nat) (body : Bytes) :
    (system config failMode status body).Inductive (Inv status body) where
  init := by
    rintro s ⟨session, rfl⟩
    exact ⟨[], rfl, .init session⟩
  step := by
    rintro s i s' ⟨input, hbody, hheld⟩ hstep
    have hread : ∀ n, (input ++ s.unread.take n) ++ s.unread.drop n = body := fun n => by
      rw [List.append_assoc, List.take_append_drop, hbody]
    cases hstep with
    | read hphase _ => exact ⟨_, hread _, hheld.read hphase config failMode _ _ _⟩
    | close hphase => exact ⟨input, hbody, hheld.close hphase failMode _⟩
    | copy hphase => exact ⟨_, hread _, hheld.copy hphase _ _⟩

/-- **What a client gets of a stream**: the beginning of the body under the backend's status, or a
gateway error and nothing of the body. -/
theorem sent {config : StreamConfig} {failMode : FailMode} {status : Nat} {body : Bytes}
    {s : Exchange} (hs : (system config failMode status body).Reach s) {exit : Exit}
    (hdone : s.gateway.phase = .done exit) :
    (∃ sent, sent <+: body ∧
      s.gateway.writer = { status := some status, body := sent, error := none } ∧
      (exit = .finished ∨ exit = .copied → sent ++ s.unread = body)) ∨
    ∃ err, s.gateway.writer.error = some err ∧ ForwardStream.Refused s.gateway.writer err := by
  obtain ⟨input, hbody, hheld⟩ := (inductive_inv config failMode status body).reach hs
  rcases hheld.sent exit hdone with ⟨sent, hwriter⟩ | herror
  · have hinitial := hheld.initial
    rw [hwriter] at hinitial
    refine .inl ⟨sent, hinitial.trans ⟨_, hbody⟩, hwriter, fun hexit => ?_⟩
    have hcomplete := hheld.complete (by rw [hdone]; exact hexit.imp (congrArg _) (congrArg _))
    rw [hwriter] at hcomplete
    rw [(Writer.mk.inj hcomplete).2.1, hbody]
  · exact .inr herror

end Delivery

end Kavora.Gateway
