import Mathlib.Data.List.Chain
import Kavora.EngineEvents.Delivery

/-!
# The loop of the subscriber (`VLLMSubscriber` in `engine_events/vllm.py`)

The subscriber asks the engine for a replay, then it delivers every batch that is published. A batch
that is not the next one makes it replay from the first missing batch and deliver again. Every other
exception ends the process; the next one starts from the checkpoint.

* `Subscriber.deliver`, `replay`, `handle`: a batch, the answer to a replay, a published message.
* `Subscriber.system`: the runs of one process after another, on any messages and answers, with a
  gateway that may refuse a post and a crash at any point.
* `Commits`: the batches that one adapter after another commits.
* `committed_consecutive`: no run skips, repeats or reorders a batch.
* `gap_recovered`: a gap that the engine can replay leaves no trace.
-/

namespace Kavora.EngineEvents

open Lib Lib.Go Router BackendState

variable {T : Type} [PyFloat T]

/-- What ends a process. -/
inductive RunError where
  | adapter (error : AdapterError)
  | decode
  | post
  | noEndpoint
  | overflow
  | receive
  | replayResponse
  | replayStart (first : Int) (start : Nat)
  deriving DecidableEq, Repr

/-- The frames of a batch: the eight bytes of its number and its payload, `none` if `msgspec` cannot
decode it. The gateway takes `accepted` of its events before it fails, all of them with `none`. -/
structure Frames (T : Type) where
  sequence : BitVec 64
  payload : Option (PyValue T)
  accepted : Option Nat

/-- Where the subscriber stands. -/
inductive Phase where
  | starting
  | listening
  | stopped
  deriving DecidableEq, Repr

/-- A subscriber with all that its processes have posted and committed. -/
structure Subscriber (T : Type) where
  process : Process T
  replayEndpoint : Bool
  phase : Phase
  posted : List Event
  committed : List (Message T × PreparedBatch T)

namespace Subscriber

/-- `_deliver`. -/
def deliver (s : Subscriber T) (sequence : Int) (frames : Frames T) :
    Subscriber T × Except RunError Unit :=
  match frames.payload with
  | none => (s, .error .decode)
  | some payload =>
    match s.process.adapter.prepare sequence payload with
    | .error e => (s, .error (.adapter e))
    | .ok prepared =>
      match frames.accepted.filter (· < prepared.events.length) with
      | some n => ({ s with posted := s.posted ++ prepared.events.take (n + 1) }, .error .post)
      | none =>
        let (adapter, file) := s.process.adapter.commit prepared s.process.file
        ({ s with
           process := { adapter, file }
           posted := s.posted ++ prepared.events
           committed :=
             if prepared.duplicate then s.committed
             else s.committed ++ [({ sequence, payload }, prepared)] },
          .ok ())

/-- The loop of `_replay`; no further frame is a timeout. -/
def replayLoop (start : Nat) (first : Bool) (s : Subscriber T) :
    List (Option (Frames T)) → Subscriber T × Except RunError Unit
  | [] => (s, .error .receive)
  | none :: _ => (s, .error .replayResponse)
  | some frames :: rest =>
    let sequence := frames.sequence.toInt
    if sequence = -1 then (s, .ok ())
    else if first ∧ (start : Int) < sequence then (s, .error (.replayStart sequence start))
    else
      match s.deliver sequence frames with
      | (s, .error e) => (s, .error e)
      | (s, .ok ()) => replayLoop start false s rest

/-- `_replay`. -/
def replay (s : Subscriber T) (start : Nat) (answer : List (Option (Frames T))) :
    Subscriber T × Except RunError Unit :=
  if s.replayEndpoint = false then (s, .error .noEndpoint)
  else if 2 ^ 64 ≤ start then (s, .error .overflow)
  else replayLoop start true s answer

/-- A published message in the loop of `run`; `again` is what the gateway takes after a replay. -/
def handle (s : Subscriber T) (frames : Frames T) (again : Option Nat)
    (answer : List (Option (Frames T))) : Subscriber T × Except RunError Unit :=
  match s.deliver frames.sequence.toNat frames with
  | (s, .error (.adapter (.sequenceGap expected _))) =>
    match s.replay expected answer with
    | (s, .error e) => (s, .error e)
    | (s, .ok ()) => s.deliver frames.sequence.toNat { frames with accepted := again }
  | result => result

/-- The first number that a process asks for. -/
def firstMissing (s : Subscriber T) : Nat :=
  match s.process.adapter.lastSequence with
  | none => 0
  | some last => last + 1

/-- An exception ends the process. -/
def ended (result : Subscriber T × Except RunError Unit) : Subscriber T :=
  { result.1 with phase := if result.2.isOk then .listening else .stopped }

/-- The steps of a subscriber, with what the sockets give it. -/
inductive Label (T : Type) where
  | start (answer : List (Option (Frames T)))
  | receive (message : Option (Frames T)) (again : Option Nat) (answer : List (Option (Frames T)))
  | restart

/-- A part of `run`, or a new process after a crash or an exception. A message of another shape is
skipped. -/
def next (s : Subscriber T) : Label T → Option (Subscriber T)
  | .start answer => if s.phase = .starting then some (ended (s.replay s.firstMissing answer)) else none
  | .receive message again answer =>
    if s.phase = .listening then
      match message with
      | none => some s
      | some frames => some (ended (s.handle frames again answer))
    else none
  | .restart => some { s with process := s.process.restart, phase := .starting }

/-- A subscriber whose first process is `started`. -/
def launch (started : Process T) (replayEndpoint : Bool) : Subscriber T where
  process := started
  replayEndpoint
  phase := .starting
  posted := []
  committed := []

/-- Any run of a subscriber that was started with a process. -/
def system (started : Process T) (replayEndpoint : Bool) : System (Subscriber T) (Label T) where
  init s := s = launch started replayEndpoint
  step s label s' := s.next label = some s'

end Subscriber

/-! ## The batches that are committed -/

/-- An adapter after a batch that is no duplicate. -/
def VLLMEventAdapter.after (a : VLLMEventAdapter T) (prepared : PreparedBatch T) :
    VLLMEventAdapter T :=
  { a with
    generation := prepared.generation
    lastSequence := some prepared.sequence
    lastTimestamp := prepared.timestamp }

/-- The batches that are committed from one adapter to another, with their messages. -/
inductive Commits : VLLMEventAdapter T → List (Message T × PreparedBatch T) → VLLMEventAdapter T → Prop
  | nil (a : VLLMEventAdapter T) : Commits a [] a
  | snoc {a a' : VLLMEventAdapter T} {log : List (Message T × PreparedBatch T)}
    {message : Message T} {prepared : PreparedBatch T} :
    Commits a log a' → a'.prepare message.sequence message.payload = .ok prepared →
    prepared.duplicate = false → Commits a (log ++ [(message, prepared)]) (a'.after prepared)

/-- A batch follows the last one: the next number of the same generation, or number 0 of a new
generation at a later time. The first batch of all opens the configured generation. -/
inductive VLLMEventAdapter.Takes (a : VLLMEventAdapter T) (prepared : PreparedBatch T) : Prop
  | first : a.lastSequence = none → prepared.generation = a.generation → Takes a prepared
  | next {last : Nat} : a.lastSequence = some last → prepared.sequence = last + 1 →
    prepared.generation = a.generation → Takes a prepared
  | restart {last : Nat} {ms : Int} : a.lastSequence = some last → prepared.sequence = 0 →
    PyFloat.lt a.lastTimestamp prepared.timestamp = true →
    PyFloat.millis prepared.timestamp = some ms → prepared.generation = "auto-" ++ toString ms →
    Takes a prepared

/-- A batch comes right after another one in the log. -/
def Succeeds (previous prepared : PreparedBatch T) : Prop :=
  (prepared.sequence = previous.sequence + 1 ∧ prepared.generation = previous.generation) ∨
    (prepared.sequence = 0 ∧ PyFloat.lt previous.timestamp prepared.timestamp = true ∧
      ∃ ms, PyFloat.millis prepared.timestamp = some ms ∧
        prepared.generation = "auto-" ++ toString ms)

section

variable {a a' b : VLLMEventAdapter T} {log log' : List (Message T × PreparedBatch T)}
  {prepared : PreparedBatch T}

theorem prepare_takes {sequence : Int} {payload : PyValue T}
    (h : a.prepare sequence payload = .ok prepared) (hnew : prepared.duplicate = false) :
    a.Takes prepared := by
  obtain ⟨_, raws, _, -, -, -, -, -, has⟩ := VLLMEventAdapter.prepare_ok h
  have hstands := VLLMEventAdapter.position_stands a prepared.sequence prepared.timestamp
  generalize a.position prepared.sequence prepared.timestamp = position at has hstands
  cases hstands with
  | first hlast => exact .first hlast has.2.1
  | restart hlast hzero hlater =>
    obtain ⟨-, ⟨ms, hms, hgeneration⟩, -⟩ := has
    exact .restart hlast hzero hlater hms hgeneration
  | duplicate =>
    rw [has.1] at hnew
    cases hnew
  | gap => exact has.elim
  | next hlast hsequence => exact .next hlast hsequence has.2.1

/-- A batch that is ignored is not after the last one. -/
theorem prepare_duplicate {sequence : Int} {payload : PyValue T}
    (h : a.prepare sequence payload = .ok prepared) (hold : prepared.duplicate = true) :
    prepared.events = [] ∧ ∃ last, a.lastSequence = some last ∧ prepared.sequence ≤ last := by
  obtain ⟨_, raws, _, -, -, -, -, -, has⟩ := VLLMEventAdapter.prepare_ok h
  have hstands := VLLMEventAdapter.position_stands a prepared.sequence prepared.timestamp
  generalize a.position prepared.sequence prepared.timestamp = position at has hstands
  cases hstands with
  | duplicate hlast _ hle => exact ⟨has.2.1, _, hlast, hle⟩
  | gap => exact has.elim
  | first | restart | next =>
    rw [has.1] at hold
    cases hold

theorem VLLMEventAdapter.Takes.succeeds {previous : PreparedBatch T}
    (h : (a.after previous).Takes prepared) : Succeeds previous prepared := by
  cases h with
  | first hlast => cases hlast
  | next hlast hsequence hgeneration =>
    cases hlast
    exact .inl ⟨hsequence, hgeneration⟩
  | restart hlast hzero hlater hms hgeneration =>
    exact .inr ⟨hzero, hlater, _, hms, hgeneration⟩

theorem Commits.trans (h : Commits a log b) (h' : Commits b log' a') :
    Commits a (log ++ log') a' := by
  induction h' with
  | nil => rwa [List.append_nil]
  | snoc _ hprepare hnew ih =>
    rw [← List.append_assoc]
    exact .snoc ih hprepare hnew

/-- The adapter stands at the last batch of the log. -/
theorem Commits.last (h : Commits a log a') :
    (log = [] ∧ a' = a) ∨ ∃ first entry, ∃ b : VLLMEventAdapter T, log = first ++ [entry] ∧ a' = b.after entry.2 := by
  cases h with
  | nil => exact .inl ⟨rfl, rfl⟩
  | snoc _ _ _ => exact .inr ⟨_, _, _, rfl, rfl⟩

/-- **Every batch succeeds the one before it.** -/
theorem Commits.chain (h : Commits a log a') : (log.map (·.2)).IsChain Succeeds := by
  induction h with
  | nil => exact .nil
  | @snoc b log message prepared hlog hprepare hnew ih =>
    rw [List.map_append, List.map_singleton]
    refine List.isChain_append.mpr ⟨ih, List.isChain_singleton _, ?_⟩
    intro previous hprevious next hnext
    obtain rfl : prepared = next := by simpa using hnext
    have htakes := prepare_takes hprepare hnew
    rcases hlog.last with ⟨rfl, -⟩ | ⟨first, entry, c, rfl, rfl⟩
    · cases hprevious
    · obtain rfl : entry.2 = previous := by simpa using hprevious
      exact htakes.succeeds

theorem Commits.first (h : Commits a log a') : ∀ entry ∈ log.head?, a.Takes entry.2 := by
  induction h with
  | nil => intro entry hentry; cases hentry
  | @snoc b log message prepared hlog hprepare hnew ih =>
    intro entry hentry
    rcases hlog.last with ⟨rfl, rfl⟩ | ⟨first, other, c, rfl, -⟩
    · obtain rfl : (message, prepared) = entry := by simpa using hentry
      exact prepare_takes hprepare hnew
    · refine ih entry ?_
      cases first with
      | nil => exact hentry
      | cons e first => exact hentry

/-- Up to the next restart of the engine the numbers are consecutive. -/
theorem Commits.consecutive {last : Nat} (h : Commits a log a') (hlast : a.lastSequence = some last)
    (hplain : ∀ entry ∈ log, entry.2.sequence ≠ 0) :
    log.map (·.2.sequence) = List.range' (last + 1) log.length ∧
      a'.lastSequence = some (last + log.length) := by
  induction h with
  | nil => exact ⟨rfl, hlast⟩
  | @snoc b log message prepared hlog hprepare hnew ih =>
    obtain ⟨hlogPlain, hprepared⟩ := List.forall_mem_append.mp hplain
    obtain ⟨hnumbers, hend⟩ := ih hlogPlain
    have hnext : prepared.sequence = last + log.length + 1 := by
      cases prepare_takes hprepare hnew with
      | first hnone => rw [hend] at hnone; cases hnone
      | next hsome hsequence =>
        rw [hend] at hsome
        cases hsome
        exact hsequence
      | restart _ hzero => exact absurd hzero (hprepared _ (List.mem_singleton_self _))
    constructor
    · rw [List.map_append, hnumbers, List.length_append, List.length_singleton,
        List.range'_1_concat, List.map_singleton, hnext]
      simp only [List.append_cancel_left_eq, List.cons.injEq, and_true]
      omega
    · simp only [VLLMEventAdapter.after, hnext, List.length_append, List.length_singleton]
      rfl

end

namespace Subscriber

/-! ## What a part of the loop does -/

/-- A part of a run commits the batches of `log`; whatever it commits it has posted. -/
structure Extends (s : Subscriber T) (log : List (Message T × PreparedBatch T)) (s' : Subscriber T) :
    Prop where
  commits : Commits s.process.adapter log s'.process.adapter
  committed : s'.committed = s.committed ++ log
  posted : ∃ events, s'.posted = s.posted ++ events ∧
    (log.flatMap (·.2.events)).Sublist events
  saved : s.process.adapter.Saved s.process.file → s'.process.adapter.Saved s'.process.file
  replayEndpoint : s'.replayEndpoint = s.replayEndpoint

variable {s s' s'' : Subscriber T} {log log' : List (Message T × PreparedBatch T)}

theorem Extends.refl (s : Subscriber T) : Extends s [] s where
  commits := .nil _
  committed := (List.append_nil _).symm
  posted := ⟨[], (List.append_nil _).symm, .slnil⟩
  saved := id
  replayEndpoint := rfl

theorem Extends.trans (h : Extends s log s') (h' : Extends s' log' s'') :
    Extends s (log ++ log') s'' where
  commits := h.commits.trans h'.commits
  committed := by rw [h'.committed, h.committed, List.append_assoc]
  posted := by
    obtain ⟨events, hposted, hsub⟩ := h.posted
    obtain ⟨events', hposted', hsub'⟩ := h'.posted
    refine ⟨events ++ events', ?_, ?_⟩
    · rw [hposted', hposted, List.append_assoc]
    · rw [List.flatMap_append]
      exact hsub.append hsub'
  saved := h'.saved ∘ h.saved
  replayEndpoint := h'.replayEndpoint.trans h.replayEndpoint

/-- Posts that a failure cuts off commit nothing. -/
theorem Extends.failed (s : Subscriber T) (events : List Event) :
    Extends s [] { s with posted := s.posted ++ events } where
  commits := .nil _
  committed := (List.append_nil _).symm
  posted := ⟨events, rfl, events.nil_sublist⟩
  saved := id
  replayEndpoint := rfl

/-- A subscriber after a batch that is no duplicate. -/
def after (s : Subscriber T) (message : Message T) (prepared : PreparedBatch T) : Subscriber T :=
  { s with
    process :=
      { adapter := s.process.adapter.after prepared
        file := (s.process.adapter.commit prepared s.process.file).2 }
    posted := s.posted ++ prepared.events
    committed := s.committed ++ [(message, prepared)] }

/-- What a delivery does: nothing, posts that commit nothing, an old batch or a new one. -/
theorem deliver_cases (s : Subscriber T) (sequence : Int) (frames : Frames T) :
    (∃ e, s.deliver sequence frames = (s, .error e)) ∨
    (∃ events, s.deliver sequence frames = ({ s with posted := s.posted ++ events }, .error .post)) ∨
    (∃ payload prepared, frames.payload = some payload ∧
      s.process.adapter.prepare sequence payload = .ok prepared ∧
      ((prepared.duplicate = true ∧ s.deliver sequence frames = (s, .ok ())) ∨
        (prepared.duplicate = false ∧
          s.deliver sequence frames = (s.after { sequence, payload } prepared, .ok ())))) := by
  unfold deliver
  split
  · exact .inl ⟨_, rfl⟩
  rename_i payload hpayload
  split
  · exact .inl ⟨_, rfl⟩
  rename_i prepared hprepare
  split
  · exact .inr (.inl ⟨_, rfl⟩)
  refine .inr (.inr ⟨payload, prepared, hpayload, hprepare, ?_⟩)
  cases hnew : prepared.duplicate with
  | true =>
    refine .inl ⟨rfl, ?_⟩
    rw [VLLMEventAdapter.commit, if_pos hnew, (prepare_duplicate hprepare hnew).1, List.append_nil]
    rfl
  | false =>
    refine .inr ⟨rfl, ?_⟩
    simp [VLLMEventAdapter.commit, VLLMEventAdapter.after, after, hnew]

/-- A new batch. -/
theorem Extends.after {message : Message T} {prepared : PreparedBatch T}
    (hprepare : s.process.adapter.prepare message.sequence message.payload = .ok prepared)
    (hnew : prepared.duplicate = false) :
    Extends s [(message, prepared)] (s.after message prepared) where
  commits := .snoc (.nil _) hprepare hnew
  committed := rfl
  posted := ⟨prepared.events, rfl, by simp⟩
  saved hsaved := by
    have h : (s.process.adapter.commit prepared s.process.file).1.Saved _ :=
      VLLMEventAdapter.load_commit hsaved
    simpa [VLLMEventAdapter.commit, VLLMEventAdapter.after, Subscriber.after, hnew] using h
  replayEndpoint := rfl

/-- A delivery without an error leaves its batch behind. -/
theorem deliver_extends (s : Subscriber T) (sequence : Int) (frames : Frames T) :
    ∃ log, Extends s log (s.deliver sequence frames).1 ∧
      ((s.deliver sequence frames).2.isOk = true →
        ∃ last, (s.deliver sequence frames).1.process.adapter.lastSequence = some last ∧
          sequence ≤ last) := by
  rcases deliver_cases s sequence frames with ⟨e, h⟩ | ⟨events, h⟩ |
    ⟨payload, prepared, -, hprepare, ⟨hold, h⟩ | ⟨hnew, h⟩⟩
  · rw [h]
    exact ⟨[], .refl s, fun hok => by cases hok⟩
  · rw [h]
    exact ⟨[], .failed s events, fun hok => by cases hok⟩
  · rw [h]
    obtain ⟨_, _, _, -, -, hsequence, -, -, -⟩ := VLLMEventAdapter.prepare_ok hprepare
    obtain ⟨-, last, hlast, hle⟩ := prepare_duplicate hprepare hold
    exact ⟨[], .refl s, fun _ => ⟨last, hlast, by omega⟩⟩
  · rw [h]
    obtain ⟨_, _, _, -, -, hsequence, -, -, -⟩ := VLLMEventAdapter.prepare_ok hprepare
    exact ⟨_, .after hprepare hnew, fun _ => ⟨prepared.sequence, rfl, by omega⟩⟩

theorem replayLoop_extends (start : Nat) (first : Bool) (answer : List (Option (Frames T)))
    (s : Subscriber T) : ∃ log, Extends s log (replayLoop start first s answer).1 := by
  induction answer generalizing s first with
  | nil => exact ⟨[], .refl s⟩
  | cons frames answer ih =>
    cases frames with
    | none => exact ⟨[], .refl s⟩
    | some frames =>
      unfold replayLoop
      dsimp only
      split
      · exact ⟨[], .refl s⟩
      split
      · exact ⟨[], .refl s⟩
      · obtain ⟨log, hlog, -⟩ := deliver_extends s frames.sequence.toInt frames
        split
        · rename_i hdeliver
          rw [hdeliver] at hlog
          exact ⟨log, hlog⟩
        · rename_i hdeliver
          rw [hdeliver] at hlog
          obtain ⟨rest, hrest⟩ := ih false _
          exact ⟨log ++ rest, hlog.trans hrest⟩

theorem replay_extends (s : Subscriber T) (start : Nat) (answer : List (Option (Frames T))) :
    ∃ log, Extends s log (s.replay start answer).1 := by
  unfold replay
  split
  · exact ⟨[], .refl s⟩
  split
  · exact ⟨[], .refl s⟩
  · exact replayLoop_extends start true answer s

/-- A published message that is handled is committed, with all that it follows. -/
theorem handle_extends (s : Subscriber T) (frames : Frames T) (again : Option Nat)
    (answer : List (Option (Frames T))) :
    ∃ log, Extends s log (s.handle frames again answer).1 ∧
      ((s.handle frames again answer).2.isOk = true →
        ∃ last, (s.handle frames again answer).1.process.adapter.lastSequence = some last ∧
          frames.sequence.toNat ≤ last) := by
  have hdelivered : ∀ (s : Subscriber T) (frames : Frames T),
      ∃ log, Extends s log (s.deliver frames.sequence.toNat frames).1 ∧
        ((s.deliver frames.sequence.toNat frames).2.isOk = true →
          ∃ last, (s.deliver frames.sequence.toNat frames).1.process.adapter.lastSequence =
            some last ∧ frames.sequence.toNat ≤ last) := by
    intro s frames
    obtain ⟨log, hlog, hok⟩ := deliver_extends s frames.sequence.toNat frames
    refine ⟨log, hlog, fun h => ?_⟩
    obtain ⟨last, hlast, hle⟩ := hok h
    exact ⟨last, hlast, by omega⟩
  obtain ⟨log, hlog, hok⟩ := hdelivered s frames
  unfold handle
  split
  · rename_i expected _ hdeliver
    rw [hdeliver] at hlog
    obtain ⟨missing, hmissing⟩ := replay_extends _ expected answer
    split
    · rename_i hreplay
      rw [hreplay] at hmissing
      exact ⟨log ++ missing, hlog.trans hmissing, fun h => by cases h⟩
    · rename_i hreplay
      rw [hreplay] at hmissing
      obtain ⟨rest, hrest, hend⟩ := hdelivered _ { frames with accepted := again }
      exact ⟨log ++ missing ++ rest, (hlog.trans hmissing).trans hrest, hend⟩
  · exact ⟨log, hlog, hok⟩

/-! ## Whole runs -/

/-- What holds of a subscriber whose first process was `started`. -/
structure Sound (started : Process T) (s : Subscriber T) : Prop where
  commits : Commits started.adapter s.committed s.process.adapter
  saved : s.process.adapter.Saved s.process.file
  first : ∀ entry ∈ s.committed.head?, started.adapter.Takes entry.2
  chain : (s.committed.map (·.2)).IsChain Succeeds
  posted : (s.committed.flatMap (·.2.events)).Sublist s.posted

theorem Sound.launch {started : Process T} (hsaved : started.adapter.Saved started.file)
    (replayEndpoint : Bool) : Sound started (launch started replayEndpoint) where
  commits := .nil _
  saved := hsaved
  first entry hentry := by cases hentry
  chain := .nil
  posted := .slnil

theorem Sound.extends {started : Process T} (h : Sound started s) (hs : Extends s log s') :
    Sound started s' := by
  have hcommits : Commits started.adapter s'.committed s'.process.adapter := by
    rw [hs.committed]
    exact h.commits.trans hs.commits
  obtain ⟨events, hposted, hsub⟩ := hs.posted
  refine ⟨hcommits, hs.saved h.saved, hcommits.first, hcommits.chain, ?_⟩
  rw [hs.committed, hposted, List.flatMap_append]
  exact h.posted.append hsub

theorem Sound.phase {started : Process T} (h : Sound started s) (phase : Phase) :
    Sound started { s with phase } :=
  ⟨h.commits, h.saved, h.first, h.chain, h.posted⟩

theorem Sound.next {started : Process T} (h : Sound started s) {label : Label T}
    (hnext : s.next label = some s') : Sound started s' := by
  unfold Subscriber.next at hnext
  split at hnext
  · split at hnext
    · obtain ⟨log, hlog⟩ := replay_extends s s.firstMissing _
      rw [← Option.some.inj hnext]
      exact (h.extends hlog).phase _
    · cases hnext
  · split at hnext
    · split at hnext
      · cases hnext
        exact h
      · obtain ⟨log, hlog, -⟩ := handle_extends s _ _ _
        rw [← Option.some.inj hnext]
        exact (h.extends hlog).phase _
    · cases hnext
  · -- the checkpoint holds the adapter, so that the next process goes on where this one stood
    cases hnext
    have hrestart : s.process.restart = s.process := by
      unfold Process.restart
      rw [h.saved]
    rw [hrestart]
    exact h.phase _

theorem Sound.of_reach {backendID generation : String} {file : Option (Checkpoint T)}
    {started : Process T} (hstart : Process.start backendID generation file = .ok started)
    {replayEndpoint : Bool} (hs : (system started replayEndpoint).Reach s) : Sound started s := by
  obtain ⟨-, rfl⟩ := Process.start_ok hstart
  induction hs with
  | init hinit =>
    rw [hinit]
    exact .launch VLLMEventAdapter.load_saved replayEndpoint
  | step _ hnext ih => exact ih.next hnext

/-- **No run skips, repeats or reorders a batch**, whatever is published and replayed, however often
the gateway refuses an event and wherever a process crashes. The committed batches succeed one
another, the checkpoint holds the last one, and every one of their events was posted before. A message
that a process handles without an exception is committed with all batches before it: unless the engine
has started again, they are the numbers from the last one on. -/
theorem committed_consecutive {backendID generation : String} {file : Option (Checkpoint T)}
    {started : Process T} (hstart : Process.start backendID generation file = .ok started)
    {replayEndpoint : Bool} (hs : (system started replayEndpoint).Reach s) :
    Sound started s ∧
      ∀ frames again answer s', s.next (.receive (some frames) again answer) = some s' →
        s'.phase = .listening →
        ∃ log last, s'.committed = s.committed ++ log ∧
          s'.process.adapter.lastSequence = some last ∧ frames.sequence.toNat ≤ last ∧
          ∀ before, s.process.adapter.lastSequence = some before →
            (∀ entry ∈ log, entry.2.sequence ≠ 0) →
            log.map (·.2.sequence) = List.range' (before + 1) (last - before) := by
  refine ⟨.of_reach hstart hs, fun frames again answer s' hnext hlistening => ?_⟩
  unfold Subscriber.next at hnext
  dsimp only at hnext
  split at hnext
  · obtain ⟨log, hlog, hok⟩ := handle_extends s frames again answer
    cases hnext
    have hisOk : (s.handle frames again answer).2.isOk = true := by
      unfold ended at hlistening
      by_contra hnot
      rw [if_neg hnot] at hlistening
      cases hlistening
    obtain ⟨last, hlast, hle⟩ := hok hisOk
    refine ⟨log, last, hlog.committed, hlast, hle, fun before hbefore hplain => ?_⟩
    obtain ⟨hnumbers, hend⟩ := hlog.commits.consecutive hbefore hplain
    rw [hlast] at hend
    cases hend
    rw [hnumbers, Nat.add_sub_cancel_left]
  · cases hnext

/-! ## Recovery of a gap -/

/-- A payload whose batch is read up to its events. -/
def Readable (payload : PyValue T) : Prop :=
  ∃ first raws rest timestamp, payload = .list (first :: .list raws :: rest) ∧
    PyFloat.ofValue first = some timestamp ∧ PyFloat.nonneg timestamp = true

section

variable {a : VLLMEventAdapter T} {payload : PyValue T} {n last : Nat}

theorem prepare_gap (h : Readable payload) (hlast : a.lastSequence = some last)
    (hgap : last + 1 < n) (hn : n < 2 ^ 64) :
    a.prepare n payload = .error (.sequenceGap (last + 1) n) := by
  obtain ⟨first, raws, rest, timestamp, rfl, hfirst, hnonneg⟩ := h
  have hposition : a.position n timestamp = .gap (last + 1) := by
    unfold VLLMEventAdapter.position
    rw [hlast]
    dsimp only
    rw [if_neg (by omega), if_neg (by omega), if_pos (by omega)]
  unfold VLLMEventAdapter.prepare
  simp only [hfirst, hnonneg, Int.toNat_natCast, hposition, Bool.true_eq_false, or_false]
  rw [if_neg (by omega)]

theorem prepare_old (h : Readable payload) (hlast : a.lastSequence = some last) (hpos : 0 < n)
    (hle : n ≤ last) (hn : n < 2 ^ 64) :
    ∃ prepared, a.prepare n payload = .ok prepared ∧ prepared.duplicate = true := by
  obtain ⟨first, raws, rest, timestamp, rfl, hfirst, hnonneg⟩ := h
  have hposition : a.position n timestamp = .duplicate := by
    unfold VLLMEventAdapter.position
    rw [hlast]
    dsimp only
    rw [if_neg (by omega), if_pos hle]
  unfold VLLMEventAdapter.prepare
  simp only [hfirst, hnonneg, Int.toNat_natCast, hposition, Bool.true_eq_false, or_false]
  rw [if_neg (by omega)]
  exact ⟨_, rfl, rfl⟩

end

section

/-! An engine with its batches, and a gateway with what it takes of each of them. -/

variable (engine : Nat → PyValue T) (accepted : Nat → Option Nat)

/-- The frames of batch `n`. -/
def batchFrames (n : Nat) : Frames T where
  sequence := .ofNat 64 n
  payload := some (engine n)
  accepted := accepted n

/-- Some batches one after the other, up to the first that fails. -/
def deliverAll (s : Subscriber T) : List Nat → Subscriber T × Except RunError Unit
  | [] => (s, .ok ())
  | n :: numbers =>
    match s.deliver n (batchFrames engine accepted n) with
    | (s, .error e) => (s, .error e)
    | (s, .ok ()) => deliverAll s numbers

variable {engine accepted} {n last start count : Nat} {numbers : List Nat} {first : Bool}

theorem deliverAll_concat (n : Nat) :
    s.deliverAll engine accepted (numbers ++ [n]) =
      match s.deliverAll engine accepted numbers with
      | (s, .error e) => (s, .error e)
      | (s, .ok ()) => s.deliver n (batchFrames engine accepted n) := by
  induction numbers generalizing s with
  | nil =>
    simp only [List.nil_append, deliverAll]
    rcases s.deliver n (batchFrames engine accepted n) with ⟨s, e | ⟨⟩⟩
    · rfl
    · rfl
  | cons m numbers ih =>
    rw [List.cons_append, deliverAll, deliverAll]
    rcases s.deliver m (batchFrames engine accepted m) with ⟨s, e | ⟨⟩⟩
    · rfl
    · exact ih

/-- Batches that are delivered are behind the adapter. -/
theorem deliverAll_last (h : s.deliverAll engine accepted (numbers ++ [n]) = (s', .ok ())) :
    ∃ last, s'.process.adapter.lastSequence = some last ∧ n ≤ last := by
  rw [deliverAll_concat] at h
  generalize s.deliverAll engine accepted numbers = result at h
  obtain ⟨s'', e | ⟨⟩⟩ := result
  · cases (Prod.mk.inj h).2
  · dsimp only at h
    obtain ⟨_, -, hok⟩ := deliver_extends s'' n (batchFrames engine accepted n)
    rw [h] at hok
    obtain ⟨last, hlast, hle⟩ := hok rfl
    exact ⟨last, hlast, by omega⟩

/-- A whole answer to a replay. -/
theorem replayLoop_batches (hnumbers : ∀ n ∈ numbers, n < 2 ^ 63)
    (hfirst : first = true → ∀ n ∈ numbers.head?, n ≤ start) {ending : Frames T}
    (hending : ending.sequence.toInt = -1) (rest : List (Option (Frames T))) :
    replayLoop start first s
        (numbers.map (some ∘ batchFrames engine accepted) ++ some ending :: rest) =
      s.deliverAll engine accepted numbers := by
  induction numbers generalizing s first with
  | nil =>
    rw [List.map_nil, List.nil_append, replayLoop]
    exact if_pos hending
  | cons n numbers ih =>
    obtain ⟨hn, hnumbers⟩ := List.forall_mem_cons.mp hnumbers
    have hsequence : (batchFrames engine accepted n).sequence.toInt = n := by
      have hnat : (BitVec.ofNat 64 n).toNat = n := by
        rw [BitVec.toNat_ofNat]
        omega
      refine (BitVec.toInt_eq_toNat_of_lt ?_).trans (congrArg _ hnat)
      rw [batchFrames, hnat]
      omega
    have hstart : ¬ (first = true ∧ (start : Int) < n) := fun h => by
      have hle := hfirst h.1 n rfl
      omega
    rw [List.map_cons, List.cons_append, deliverAll]
    simp only [Function.comp_apply, replayLoop, hsequence]
    rw [if_neg (by omega), if_neg hstart]
    rcases s.deliver n (batchFrames engine accepted n) with ⟨s, e | ⟨⟩⟩
    · rfl
    · exact ih hnumbers (fun h => by cases h)

theorem deliver_old {sequence : Int} {frames : Frames T} {payload : PyValue T}
    {prepared : PreparedBatch T} (hpayload : frames.payload = some payload)
    (hprepare : s.process.adapter.prepare sequence payload = .ok prepared)
    (hold : prepared.duplicate = true) : s.deliver sequence frames = (s, .ok ()) := by
  unfold deliver
  rw [hpayload]
  dsimp only
  rw [hprepare]
  dsimp only
  rw [(prepare_duplicate hprepare hold).1, VLLMEventAdapter.commit, if_pos hold, hold]
  cases frames.accepted with
  | none => simp
  | some n => simp

/-- **A gap that the engine can replay leaves no trace.** A message arrives whose predecessors are
missing; the engine replays from the first of them on, at least up to the message, all that it still
has. The subscriber does just what it would have done had every batch arrived in order, with its posts,
its commits and the first failure. -/
theorem gap_recovered (hendpoint : s.replayEndpoint = true)
    (hlast : s.process.adapter.lastSequence = some last) (hgap : last + 1 < n)
    (hreadable : Readable (engine n)) (hreach : n ≤ last + 1 + count)
    (hcount : last + 1 + count ≤ 2 ^ 63) {ending : Frames T} (hending : ending.sequence.toInt = -1)
    (before : Option Nat) (rest : List (Option (Frames T))) :
    s.handle { batchFrames engine accepted n with accepted := before } (accepted n)
        ((List.range' (last + 1) count).map (some ∘ batchFrames engine accepted) ++
          some ending :: rest) =
      s.deliverAll engine accepted (List.range' (last + 1) (max count (n - last))) := by
  have hn : n < 2 ^ 64 := by omega
  have hsequence : (batchFrames engine accepted n).sequence.toNat = n := by
    simp only [batchFrames, BitVec.toNat_ofNat]
    exact Nat.mod_eq_of_lt hn
  have hfirst : s.deliver n { batchFrames engine accepted n with accepted := before } =
      (s, .error (.adapter (.sequenceGap (last + 1) n))) := by
    simp only [deliver, batchFrames, prepare_gap hreadable hlast hgap hn]
  have hreplay : s.replay (last + 1)
      ((List.range' (last + 1) count).map (some ∘ batchFrames engine accepted) ++
        some ending :: rest) = s.deliverAll engine accepted (List.range' (last + 1) count) := by
    unfold replay
    rw [if_neg (by rw [hendpoint]; decide), if_neg (by omega)]
    refine replayLoop_batches (fun m hm => ?_) (fun _ m hm => ?_) hending rest
    · have hm := List.mem_range'_1.mp hm
      omega
    · rw [List.head?_range'] at hm
      split at hm
      · cases hm
      · cases hm
        exact Nat.le_refl _
  unfold handle
  dsimp only
  rw [hsequence, hfirst]
  dsimp only
  rw [hreplay]
  by_cases hnew : n = last + 1 + count
  · -- the message comes right after the replay
    rw [show max count (n - last) = count + 1 by omega, List.range'_1_concat, deliverAll_concat,
      ← hnew]
    rfl
  · -- the replay held the message
    obtain ⟨shorter, rfl⟩ : ∃ shorter, count = shorter + 1 := ⟨count - 1, by omega⟩
    rw [show max (shorter + 1) (n - last) = shorter + 1 by omega]
    cases hall : s.deliverAll engine accepted (List.range' (last + 1) (shorter + 1)) with
    | mk s' result =>
      cases result with
      | error e => rfl
      | ok _ =>
        obtain ⟨upTo, hupTo, hle⟩ : ∃ upTo, s'.process.adapter.lastSequence = some upTo ∧
            last + 1 + shorter ≤ upTo := by
          rw [List.range'_1_concat] at hall
          exact deliverAll_last hall
        obtain ⟨prepared, hprepare, hold⟩ :=
          prepare_old hreadable hupTo (by omega) (by omega : n ≤ upTo) hn
        exact deliver_old rfl hprepare hold

end

end Subscriber

namespace SubscriberSample

attribute [local instance] PyFloat.wholeSeconds

/-- Every batch clears the cache in second 1. -/
def engine (_ : Nat) : PyValue Nat :=
  .list [.float 1, .list [.list [.str "AllBlocksCleared"]]]

def frames (n : Nat) : Frames Nat := Subscriber.batchFrames engine (fun _ => none) n

def ending : Frames Nat where
  sequence := .allOnes 64
  payload := none
  accepted := none

def started : Process Nat where
  adapter := .load "backend" "pod-1" none
  file := none

/-- Batch 1 gets lost and is replayed; then the process crashes. -/
def run : Option (Subscriber Nat) :=
  [.start [some ending], .receive (some (frames 0)) none [],
    .receive (some (frames 2)) none [some (frames 1), some ending], .restart].foldlM
    Subscriber.next (.launch started true)

def final : Subscriber Nat := run.get (by decide +kernel)

theorem committed_consecutive_crash :
    Subscriber.Sound started final ∧
      ∀ frames again answer s', final.next (.receive (some frames) again answer) = some s' →
        s'.phase = .listening →
        ∃ log last, s'.committed = final.committed ++ log ∧
          s'.process.adapter.lastSequence = some last ∧ frames.sequence.toNat ≤ last ∧
          ∀ before, final.process.adapter.lastSequence = some before →
            (∀ entry ∈ log, entry.2.sequence ≠ 0) →
            log.map (·.2.sequence) = List.range' (before + 1) (last - before) :=
  Subscriber.committed_consecutive
    (show Process.start "backend" "pod-1" none = .ok started by rfl)
    (.foldlM (fun _ _ _ h => h) _ (.init rfl) (Option.some_get _).symm)

example : final.committed.map (·.2.sequence) = [0, 1, 2] := by decide +kernel

/-- A subscriber that has committed batch 2 and waits for batch 3. -/
def listening : Subscriber Nat := { final with phase := .listening }

theorem gap_recovered_one :
    listening.handle { frames 4 with accepted := some 0 } none [some (frames 3), some ending] =
      listening.deliverAll engine (fun _ => none) [3, 4] :=
  Subscriber.gap_recovered (show listening.replayEndpoint = true by decide +kernel)
    (show listening.process.adapter.lastSequence = some 2 by decide +kernel) (by decide)
    ⟨_, _, _, 1, rfl, rfl, rfl⟩ (show 4 ≤ 2 + 1 + 1 by decide) (by decide)
    (show ending.sequence.toInt = -1 by decide) (some 0) []

end SubscriberSample

end Kavora.EngineEvents
