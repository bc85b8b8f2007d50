import Kavora.Lib.System

/-!
# At-least-once delivery of batches

A sender makes a batch of events of each message and posts it one event after the other. A message
is committed when its whole batch is posted. A failure before that, a crash or a lost reply, takes
the sender back to its last commit, and it posts the batch again from the first event.

* `Protocol.system`: the runs of a sender and a receiver, with failures at any point.
* `Protocol.once`: every message exactly once.
* `Protocol.Idempotent`: the receiver ignores an event that it still knows.
* `Protocol.Idempotent.delivered_once`: when every event is still known whenever it is posted again,
  the runs reach the states of exactly-once delivery.
-/

namespace Kavora.Lib

/-- A sender with states `α` of messages `μ` and a receiver with states `σ` of events `ε`. A post
happens in an environment `ι`, the time for example; `none` is a refused post. -/
structure Protocol (μ α ε ι σ : Type*) where
  prepare : α → μ → Option (List ε)
  commit : α → μ → α
  recover : α → α
  apply : ι → σ → ε → Option σ

namespace Protocol

variable {μ α ε ι σ : Type*}

/-- A sender and a receiver, with how far the messages have come. -/
structure State (α σ : Type*) where
  sender : α
  receiver : σ
  /-- The number of committed messages. -/
  done : Nat
  /-- The events of the open batch that this attempt has posted. -/
  posted : Nat
  /-- The events of the open batch that any attempt has posted. -/
  reached : Nat

/-- An event is posted, the attempt fails, or the batch is committed. -/
inductive Label (ι : Type*) where
  | post (env : ι)
  | fail
  | commit

section Runs

variable (P : Protocol μ α ε ι σ)

/-- The batch that is being delivered. -/
def batch (messages : List μ) (s : State α σ) : Option (List ε) :=
  messages[s.done]?.bind (P.prepare s.sender)

/-- The step of a label, if it is possible. -/
def next (messages : List μ) (s : State α σ) : Label ι → Option (State α σ)
  | .post env =>
    (P.batch messages s).bind fun events =>
      events[s.posted]?.bind fun event =>
        (P.apply env s.receiver event).map fun receiver =>
          { s with receiver, posted := s.posted + 1, reached := max s.reached (s.posted + 1) }
  | .fail => some { s with sender := P.recover s.sender, posted := 0 }
  | .commit =>
    messages[s.done]?.bind fun message =>
      (P.prepare s.sender message).bind fun events =>
        if s.posted = events.length then
          some
            { s with
              sender := P.commit s.sender message, done := s.done + 1, posted := 0, reached := 0 }
        else none

/-- Any run over some messages. -/
def system (messages : List μ) (sender : α) (receiver : σ) : System (State α σ) (Label ι) where
  init s := s = { sender, receiver, done := 0, posted := 0, reached := 0 }
  step s i s' := P.next messages s i = some s'

/-- The events are posted one after the other. -/
def postAll (env : ι) (receiver : σ) (events : List ε) : Option σ :=
  events.foldlM (P.apply env) receiver

/-- One message, delivered once. -/
def deliver (env : ι) (s : α × σ) (message : μ) : Option (α × σ) :=
  (P.prepare s.1 message).bind fun events =>
    (P.postAll env s.2 events).map fun receiver => (P.commit s.1 message, receiver)

/-- Every message once, in order. -/
def once (env : ι) (s : α × σ) (messages : List μ) : Option (α × σ) :=
  messages.foldlM (P.deliver env) s

/-- The events of the open batch that were posted at least once. -/
def seen (messages : List μ) (s : State α σ) : List ε :=
  ((P.batch messages s).getD []).take s.reached

/-- An event that is posted again is one that the receiver still knows. -/
def Retained (Known : σ → ε → Prop) (messages : List μ) (s : State α σ) : Label ι → Prop
  | .post _ => ∀ event ∈ (P.seen messages s)[s.posted]?, Known s.receiver event
  | _ => True

instance {Known : σ → ε → Prop} [∀ r event, Decidable (Known r event)] {messages : List μ}
    {s : State α σ} : ∀ i : Label ι, Decidable (P.Retained Known messages s i)
  | .post _ => inferInstanceAs (Decidable (∀ event ∈ _, _))
  | .fail => .isTrue trivial
  | .commit => .isTrue trivial

/-- A step that posts no event again that the receiver has forgotten. -/
def retry (Known : σ → ε → Prop) [∀ r event, Decidable (Known r event)] (messages : List μ)
    (s : State α σ) (i : Label ι) : Option (State α σ) :=
  if P.Retained Known messages s i then P.next messages s i else none

/-- A receiver that ignores the events it knows. `Durable` holds of the senders that a recovery
leaves as they are, and `Opened events` of a receiver once it has got an event of the batch. -/
structure Idempotent (Durable : α → Prop) (Opened : List ε → σ → Prop) (Known : σ → ε → Prop) :
    Prop where
  recover : ∀ {a}, Durable a → P.recover a = a
  commit : ∀ {a message events}, Durable a → P.prepare a message = some events →
    Durable (P.commit a message)
  env : ∀ {a message events event env env' r}, P.prepare a message = some events →
    event ∈ events → P.apply env r event = P.apply env' r event
  opened : ∀ {a message events event env r r'}, P.prepare a message = some events →
    event ∈ events → P.apply env r event = some r' → Opened events r'
  ignores : ∀ {a message events event env r r'}, P.prepare a message = some events →
    event ∈ events → Opened events r → Known r event → P.apply env r event = some r' → r' = r

end Runs

variable {P : Protocol μ α ε ι σ} {messages : List μ} {s s' : State α σ}

theorem batch_eq_some {events : List ε} :
    P.batch messages s = some events ↔
      ∃ message, messages[s.done]? = some message ∧ P.prepare s.sender message = some events := by
  simp [batch, Option.bind_eq_some_iff]

/-- The state with another view of the receiver. -/
def State.map {τ : Type*} (g : σ → τ) (s : State α σ) : State α τ where
  sender := s.sender
  receiver := g s.receiver
  done := s.done
  posted := s.posted
  reached := s.reached

/-- A sender takes the same steps towards a receiver that takes every event of the batch alike. -/
theorem next_map {τ : Type*} {P' : Protocol μ α ε ι τ} (g : σ → τ) (hprepare : P'.prepare = P.prepare)
    (hcommit : P'.commit = P.commit) (hrecover : P'.recover = P.recover) (i : Label ι)
    (happly : ∀ env, i = .post env → ∀ events, P.batch messages s = some events →
      ∀ event, events[s.posted]? = some event →
        P'.apply env (g s.receiver) event = (P.apply env s.receiver event).map g) :
    P'.next messages (s.map g) i = (P.next messages s i).map (State.map g) := by
  cases i with
  | post env =>
    have hbatch : P'.batch messages (s.map g) = P.batch messages s := by
      unfold batch
      rw [hprepare]
      rfl
    unfold next
    dsimp only
    rw [hbatch]
    cases hevents : P.batch messages s with
    | none => rfl
    | some events =>
      cases hevent : events[s.posted]? with
      | none => simp [State.map, hevent]
      | some event =>
        have hpost := happly env rfl events hevents event hevent
        simp only [State.map, Option.bind_some, hevent, hpost, Option.map_map]
        rfl
  | fail =>
    unfold next
    rw [hrecover]
    rfl
  | commit =>
    unfold next
    rw [hprepare, hcommit]
    cases hmessage : messages[s.done]? with
    | none => simp [State.map, hmessage]
    | some message =>
      cases hevents : P.prepare s.sender message with
      | none => simp [State.map, hmessage, hevents]
      | some events =>
        by_cases hposted : s.posted = events.length
        · simp [State.map, hmessage, hevents, hposted]
        · simp [State.map, hmessage, hevents, hposted]

/-- A post: the next event of the batch reaches the receiver. -/
theorem next_post {env : ι} (h : P.next messages s (.post env) = some s') :
    ∃ events event receiver, P.batch messages s = some events ∧
      events[s.posted]? = some event ∧ P.apply env s.receiver event = some receiver ∧
      s' = { s with receiver, posted := s.posted + 1, reached := max s.reached (s.posted + 1) } := by
  obtain ⟨events, hbatch, h⟩ := Option.bind_eq_some_iff.mp h
  obtain ⟨event, hevent, h⟩ := Option.bind_eq_some_iff.mp h
  obtain ⟨receiver, happly, h⟩ := Option.map_eq_some_iff.mp h
  exact ⟨events, event, receiver, hbatch, hevent, happly, h.symm⟩

/-- A commit: every event of the batch is posted. -/
theorem next_commit (h : P.next messages s (Label.commit : Label ι) = some s') :
    ∃ message events, messages[s.done]? = some message ∧
      P.prepare s.sender message = some events ∧ s.posted = events.length ∧
      s' =
        { s with
          sender := P.commit s.sender message, done := s.done + 1, posted := 0, reached := 0 } := by
  obtain ⟨message, hmessage, h⟩ := Option.bind_eq_some_iff.mp h
  obtain ⟨events, hprepare, h⟩ := Option.bind_eq_some_iff.mp h
  split at h
  · rename_i hall
    exact ⟨message, events, hmessage, hprepare, hall, (Option.some.inj h).symm⟩
  · cases h

theorem retry_step {Known : σ → ε → Prop} [∀ r event, Decidable (Known r event)] {sender : α}
    {receiver : σ} {i : Label ι} (h : P.retry Known messages s i = some s') :
    ((P.system messages sender receiver).restrict (P.Retained Known messages)).step s i s' := by
  unfold retry at h
  split at h
  · rename_i hret
    exact ⟨h, hret⟩
  · cases h

theorem seen_eq {events : List ε} (h : P.batch messages s = some events) :
    P.seen messages s = events.take s.reached := by
  simp [seen, h]

theorem postAll_append (env : ι) (r : σ) (first second : List ε) :
    P.postAll env r (first ++ second) =
      (P.postAll env r first).bind fun r => P.postAll env r second := by
  unfold postAll
  rw [List.foldlM_append]
  rfl

theorem postAll_singleton (env : ι) (r : σ) (event : ε) :
    P.postAll env r [event] = P.apply env r event := by
  simp [postAll]

theorem once_concat (env : ι) (start : α × σ) (first : List μ) (message : μ) :
    P.once env start (first ++ [message]) =
      (P.once env start first).bind fun s => P.deliver env s message := by
  unfold once
  rw [List.foldlM_append]
  simp only [List.foldlM_cons, List.foldlM_nil, bind_pure]
  rfl

/-- What every run keeps: the committed messages count once, and the receiver is what the events
posted so far make of that. -/
structure Inv (P : Protocol μ α ε ι σ) (Durable : α → Prop) (Opened : List ε → σ → Prop)
    (messages : List μ) (env : ι) (start : α × σ) (s : State α σ) : Prop where
  durable : Durable s.sender
  delivered : ∃ r, P.once env start (messages.take s.done) = some (s.sender, r) ∧
    P.postAll env r (P.seen messages s) = some s.receiver
  posted_le : s.posted ≤ s.reached
  opened : ∀ events, P.batch messages s = some events → 0 < s.reached → Opened events s.receiver

namespace Idempotent

variable {Durable : α → Prop} {Opened : List ε → σ → Prop} {Known : σ → ε → Prop} {env : ι}
  {start : α × σ}

/-- An event posted again changes nothing. -/
theorem post_again (h : P.Idempotent Durable Opened Known)
    (hinv : P.Inv Durable Opened messages env start s)
    {events : List ε} {event : ε} {env' : ι} {receiver : σ}
    (hbatch : P.batch messages s = some events) (hevent : events[s.posted]? = some event)
    (happly : P.apply env' s.receiver event = some receiver) (hlt : s.posted < s.reached)
    (hknown : Known s.receiver event) : receiver = s.receiver := by
  obtain ⟨message, -, hprepare⟩ := batch_eq_some.mp hbatch
  have hmem : event ∈ events := List.mem_of_getElem? hevent
  exact h.ignores hprepare hmem (hinv.opened events hbatch (by omega)) hknown happly

theorem post (h : P.Idempotent Durable Opened Known)
    (hinv : P.Inv Durable Opened messages env start s)
    {events : List ε} {event : ε} {env' : ι} {receiver : σ}
    (hbatch : P.batch messages s = some events) (hevent : events[s.posted]? = some event)
    (happly : P.apply env' s.receiver event = some receiver)
    (hret : P.Retained Known messages s (.post env')) :
    P.Inv Durable Opened messages env start
      { s with receiver, posted := s.posted + 1, reached := max s.reached (s.posted + 1) } := by
  obtain ⟨message, -, hprepare⟩ := batch_eq_some.mp hbatch
  have hmem : event ∈ events := List.mem_of_getElem? hevent
  have hseen := seen_eq hbatch
  obtain ⟨r, honce, hposted⟩ := hinv.delivered
  refine ⟨hinv.durable, ⟨r, honce, ?_⟩, ?_, ?_⟩
  · have hseen' : P.seen messages
        { s with receiver, posted := s.posted + 1, reached := max s.reached (s.posted + 1) } =
          events.take (max s.reached (s.posted + 1)) :=
      seen_eq (show P.batch messages s = some events from hbatch)
    rw [hseen']
    rw [hseen] at hposted
    by_cases hlt : s.posted < s.reached
    · have hknown : Known s.receiver event := by
        refine hret event ?_
        rw [hseen, List.getElem?_take_of_lt hlt, hevent]
        rfl
      have hsame := h.post_again hinv hbatch hevent happly hlt hknown
      rw [Nat.max_eq_left (by omega), hposted, hsame]
    · have heq : s.reached = s.posted := Nat.le_antisymm (by omega) hinv.posted_le
      have htake : events.take (s.posted + 1) = events.take s.posted ++ [event] := by
        rw [List.take_add_one, hevent]
        rfl
      rw [heq] at hposted
      rw [Nat.max_eq_right (by omega), htake, postAll_append, hposted]
      show P.postAll env s.receiver [event] = some receiver
      rw [postAll_singleton, h.env hprepare hmem, happly]
  · show s.posted + 1 ≤ max s.reached (s.posted + 1)
    omega
  · intro events' hbatch' _
    have : events' = events := Option.some.inj (hbatch'.symm.trans hbatch)
    subst this
    exact h.opened hprepare hmem happly

theorem fail (h : P.Idempotent Durable Opened Known)
    (hinv : P.Inv Durable Opened messages env start s) :
    P.Inv Durable Opened messages env start
      { s with sender := P.recover s.sender, posted := 0 } := by
  rw [h.recover hinv.durable]
  exact ⟨hinv.durable, hinv.delivered, Nat.zero_le _, hinv.opened⟩

theorem commit_step (h : P.Idempotent Durable Opened Known)
    (hinv : P.Inv Durable Opened messages env start s) {message : μ} {events : List ε}
    (hmessage : messages[s.done]? = some message)
    (hprepare : P.prepare s.sender message = some events) (hall : s.posted = events.length) :
    P.Inv Durable Opened messages env start
      { s with
        sender := P.commit s.sender message, done := s.done + 1, posted := 0, reached := 0 } := by
  obtain ⟨r, honce, hposted⟩ := hinv.delivered
  have hseen : P.seen messages s = events := by
    have hle := hinv.posted_le
    rw [seen_eq (batch_eq_some.mpr ⟨message, hmessage, hprepare⟩), List.take_of_length_le]
    omega
  rw [hseen] at hposted
  refine ⟨h.commit hinv.durable hprepare, ⟨s.receiver, ?_, ?_⟩, Nat.le_refl _, fun _ _ hpos => ?_⟩
  · show P.once env start (messages.take (s.done + 1)) = _
    rw [List.take_add_one, hmessage]
    show P.once env start (messages.take s.done ++ [message]) = _
    rw [once_concat, honce]
    simp [deliver, hprepare, hposted]
  · simp [seen, postAll]
  · exact absurd hpos (Nat.lt_irrefl _)

theorem inductive_inv (h : P.Idempotent Durable Opened Known) (hstart : Durable start.1) :
    ((P.system messages start.1 start.2).restrict (P.Retained Known messages)).Inductive
      (P.Inv Durable Opened messages env start) where
  init := by
    rintro s rfl
    refine ⟨hstart, ⟨start.2, ?_, ?_⟩, Nat.le_refl _, fun _ _ hpos => ?_⟩
    · simp [once]
    · simp [seen, postAll]
    · exact absurd hpos (Nat.lt_irrefl _)
  step := by
    rintro s i s' hinv ⟨hstep, hret⟩
    cases i with
    | post env =>
      obtain ⟨events, event, receiver, hbatch, hevent, happly, rfl⟩ := next_post hstep
      exact h.post hinv hbatch hevent happly hret
    | fail =>
      obtain rfl := Option.some.inj hstep
      exact h.fail hinv
    | commit =>
      obtain ⟨message, events, hmessage, hprepare, hall, rfl⟩ := next_commit hstep
      exact h.commit_step hinv hmessage hprepare hall

/-- In a run where each event posted again is still known, the sender is the one of exactly-once
delivery, and the receiver is the one of exactly-once delivery with the posted part of the open
batch. -/
theorem delivered_once (h : P.Idempotent Durable Opened Known) (start : α × σ)
    (hstart : Durable start.1)
    (hs : ((P.system messages start.1 start.2).restrict (P.Retained Known messages)).Reach s) :
    ∃ r, P.once env start (messages.take s.done) = some (s.sender, r) ∧
      P.postAll env r (P.seen messages s) = some s.receiver :=
  ((h.inductive_inv hstart).reach hs).delivered

end Idempotent

end Protocol

end Kavora.Lib
