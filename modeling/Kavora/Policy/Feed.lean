import Kavora.Lib.System
import Kavora.Policy.StreamLemmas

/-!
# Runs of the stream inspector

A `Feed` is a stream inspector with the bytes that it was given and the bytes that it released so
far: a call that answers with the release count `n` releases the next `n` bytes of the input. A run
is a sequence of chunks in any cut, and at most one `finish` at its end.

`Feed.Inv` is the invariant: the released bytes are accepted whole events (`Delivered`), and until
the verdict they and the buffer are the whole input.
-/

namespace Kavora.Policy

open Lib StreamInspector

/-- An inspector with the bytes that went in and those that it released. -/
structure Feed where
  inspector : StreamInspector
  input : Bytes
  released : Bytes
  closed : Bool

/-- A call of the inspector. -/
inductive Call where
  | chunk (data : Bytes)
  | finish

/-- The released bytes are the accepted events, then white space if the stream was closed after the
end mark. `s₁` is the inspector after these events. -/
structure Delivered (lib : Externals) (s₀ : StreamInspector) (released : Bytes) (closed : Bool)
    (events : List Bytes) (s₁ : StreamInspector) (tail : Bytes) : Prop where
  accepted : Accepted lib s₀ events s₁
  whole : ∀ e ∈ events, Whole e
  released_eq : released = events.flatten ++ tail
  tail_eq : tail = [] ∨ closed = true ∧ s₁.sawDone = true ∧ ∀ b ∈ tail, isAsciiWhitespace b = true

namespace Feed

variable {lib : Externals} {s₀ : StreamInspector} {f f' : Feed}

/-- A chunk is inspected. -/
def chunk (lib : Externals) (self : Feed) (data : Bytes) : Feed :=
  let (inspection, inspector) := self.inspector.inspect lib data
  let input := self.input ++ data
  { inspector
    input
    released := input.take (self.released.length + inspection.releaseBytes)
    closed := false }

/-- The response ends. -/
def finish (self : Feed) : Feed :=
  let (inspection, inspector) := self.inspector.finish
  { inspector
    input := self.input
    released := self.input.take (self.released.length + inspection.releaseBytes)
    closed := true }

/-- The feed after a call. -/
def apply (lib : Externals) (self : Feed) : Call → Feed
  | .chunk data => self.chunk lib data
  | .finish => self.finish

/-- The runs of an inspector. -/
def system (lib : Externals) (s₀ : StreamInspector) : System Feed Call where
  init f := f = { inspector := s₀, input := [], released := [], closed := false }
  step f call f' := f.closed = false ∧ f' = f.apply lib call

/-- The invariant of a run. -/
structure Inv (lib : Externals) (s₀ : StreamInspector) (f : Feed) : Prop where
  delivered : ∃ events s₁ tail, Delivered lib s₀ f.released f.closed events s₁ tail ∧
    (f.closed = false → tail = [] ∧ (f.inspector.terminal = none → s₁ = f.inspector.scan))
  released_initial : f.released <+: f.input
  input_eq : f.inspector.terminal = none → f.input = f.released ++ f.inspector.pending
  inspectedBytes_eq : f.inspector.terminal = none →
    f.inspector.inspectedBytes = min f.input.length u64Max
  limit : f.inspector.terminal = none → f.inspector.maxResponseBytes = s₀.maxResponseBytes ∧
    f.inspector.inspectedBytes ≤ s₀.maxResponseBytes
  released_le : min f.released.length u64Max ≤ s₀.maxResponseBytes

/-- The release count is an offset in the input. -/
theorem take_released {released pending data : Bytes} (n : Nat) :
    (released ++ pending ++ data).take (released.length + n) =
      released ++ (pending ++ data).take n := by
  rw [List.append_assoc, List.take_length_add_append]

/-- A call that releases nothing leaves the released bytes. -/
theorem take_released_zero {released input : Bytes} (h : released <+: input) (data : Bytes) :
    (input ++ data).take (released.length + 0) = released := by
  obtain ⟨rest, rfl⟩ := h
  simp

theorem Inv.init (h : s₀.scan = s₀) :
    Inv lib s₀ { inspector := s₀, input := [], released := [], closed := false } where
  delivered := ⟨[], s₀, [], ⟨.nil _, by simp, rfl, .inl rfl⟩, fun _ => ⟨rfl, fun _ => h.symm⟩⟩
  released_initial := List.nil_prefix
  input_eq _ := by rw [← h]; rfl
  inspectedBytes_eq _ := by rw [← h]; rfl
  limit _ := ⟨rfl, by rw [← h]; exact Nat.zero_le _⟩
  released_le := Nat.zero_le _

/-- A call that releases nothing and leaves a verdict. -/
theorem Inv.refuse (h : Inv lib s₀ f) (hopen : f.closed = false) {s' : StreamInspector}
    (hs' : s'.terminal ≠ none) (data : Bytes) (closed : Bool) :
    Inv lib s₀ { inspector := s', input := f.input ++ data, released := f.released, closed } := by
  obtain ⟨events, s₁, tail, hdel, htail⟩ := h.delivered
  obtain ⟨rfl, _⟩ := htail hopen
  exact
    { delivered := ⟨events, s₁, [], ⟨hdel.accepted, hdel.whole, hdel.released_eq, .inl rfl⟩,
        fun _ => ⟨rfl, fun hnone => absurd hnone hs'⟩⟩
      released_initial := h.released_initial.trans (List.prefix_append _ _)
      input_eq := fun hnone => absurd hnone hs'
      inspectedBytes_eq := fun hnone => absurd hnone hs'
      limit := fun hnone => absurd hnone hs'
      released_le := h.released_le }

theorem Inv.chunk (h : Inv lib s₀ f) (hopen : f.closed = false) (data : Bytes) :
    Inv lib s₀ (f.chunk lib data) := by
  have hspec := inspect_spec lib f.inspector data
  unfold Feed.chunk
  generalize f.inspector.inspect lib data = out at hspec ⊢
  obtain ⟨r, s'⟩ := out
  dsimp only at hspec ⊢
  cases hspec with
  | stopped ht =>
    rw [inspection, take_released_zero h.released_initial]
    exact h.refuse hopen (by rw [ht]; simp) data false
  | terminated _ _ hzero ht =>
    rw [hzero, take_released_zero h.released_initial]
    exact h.refuse hopen (by rw [ht]; simp) data false
  | released events' ht ht' hsplit hwhole _ hacc hbytes hle =>
    obtain ⟨events, s₁, tail, hdel, htail⟩ := h.delivered
    obtain ⟨rfl, hs₁⟩ := htail hopen
    have hinput : f.input ++ data = f.released ++ events'.flatten ++ s'.pending := by
      rw [h.input_eq ht, List.append_assoc, hsplit, List.append_assoc]
    have hreleased : (f.input ++ data).take
        (f.released.length + (s'.inspection s'.allow events'.flatten.length).releaseBytes) =
        f.released ++ events'.flatten := by
      rw [hinput, inspection, ← List.length_append, List.take_left']
      rfl
    have hlimit : s'.maxResponseBytes = f.inspector.maxResponseBytes :=
      (congrArg StreamInspector.maxResponseBytes hacc.frame : s'.scan.maxResponseBytes = _)
    have hinspected : s'.inspectedBytes = min (f.input ++ data).length u64Max := by
      rw [hbytes, h.inspectedBytes_eq ht, List.length_append]
      unfold saturatingAdd
      omega
    rw [(h.limit ht).1] at hle
    rw [hreleased]
    refine ⟨⟨events ++ events', s'.scan, [], ⟨?_, ?_, ?_, .inl rfl⟩, fun _ => ⟨rfl, fun _ => rfl⟩⟩,
      ?_, fun _ => hinput, fun _ => hinspected, fun _ => ⟨hlimit.trans (h.limit ht).1, hle⟩, ?_⟩
    · exact hdel.accepted.append (hs₁ ht ▸ hacc)
    · intro e he
      rcases List.mem_append.mp he with he | he
      · exact hdel.whole e he
      · exact hwhole e he
    · rw [hdel.released_eq, List.append_nil, List.append_nil, List.flatten_append]
    · exact ⟨s'.pending, hinput.symm⟩
    · rw [hinspected, hinput, List.length_append] at hle
      dsimp only
      omega

theorem Inv.finish (h : Inv lib s₀ f) (hopen : f.closed = false) : Inv lib s₀ f.finish := by
  have hspec := finish_spec f.inspector
  have hzero := take_released_zero h.released_initial []
  have hrefuse (s' : StreamInspector) (hs' : s'.terminal ≠ none) := h.refuse hopen hs' [] true
  simp only [List.append_nil] at hzero hrefuse
  unfold Feed.finish
  generalize f.inspector.finish = out at hspec ⊢
  obtain ⟨r, s'⟩ := out
  dsimp only at hspec ⊢
  cases hspec with
  | stopped ht =>
    rw [inspection, hzero]
    exact hrefuse _ (by rw [ht]; simp)
  | terminated _ _ hr ht =>
    rw [hr, hzero]
    exact hrefuse _ (by rw [ht]; simp)
  | released ht hdone hspace =>
    obtain ⟨events, s₁, tail, hdel, htail⟩ := h.delivered
    obtain ⟨rfl, hs₁⟩ := htail hopen
    have hreleased : f.input.take (f.released.length + f.inspector.pending.length) = f.input := by
      rw [h.input_eq ht, ← List.length_append, List.take_length]
    rw [inspection, hreleased]
    refine ⟨⟨events, s₁, f.inspector.pending,
        ⟨hdel.accepted, hdel.whole, ?_, .inr ⟨rfl, ?_, hspace⟩⟩, nofun⟩,
      List.prefix_refl _, fun _ => (List.append_nil _).symm, fun _ => h.inspectedBytes_eq ht,
      fun _ => h.limit ht, ?_⟩
    · rw [h.input_eq ht, hdel.released_eq, List.append_nil]
    · rw [hs₁ ht]
      exact hdone
    · exact h.inspectedBytes_eq ht ▸ (h.limit ht).2

theorem inductive_inv (h : s₀.scan = s₀) : (system lib s₀).Inductive (Inv lib s₀) where
  init := by
    rintro _ rfl
    exact .init h
  step := by
    rintro f call _ hinv ⟨hopen, rfl⟩
    cases call with
    | chunk data => exact hinv.chunk hopen data
    | finish => exact hinv.finish hopen

/-- The invariant holds in every run of a fresh inspector. -/
theorem Reach.inv (h : s₀.scan = s₀) (hf : (system lib s₀).Reach f) : Inv lib s₀ f :=
  (inductive_inv h).reach hf

end Feed

end Kavora.Policy
