import Kavora.Policy.Segments
import Kavora.Policy.SseDifferential

/-!
# Cutting a stream into chunks

A stream is given to the inspector in chunks, and then it is closed (`outcome`). A chunk adds its
bytes to the buffer, so what matters of a cut is where the inspector ends each event.

* `outcome_reads`: a stream within the limit is read (`Reads`), and allowed by what the reading
  says. All its bytes are released then.
* `Reads.chunks`: every reading is the outcome of some cut.
* `cutInvariant_iff`: the cut does not matter if and only if the stream exceeds the limit or has
  one verdict, as an unambiguous stream has.
-/

namespace Kavora.Policy

open Lib

namespace StreamInspector

/-- The last decision on the chunks and the end of the stream, and the number of bytes that are
released. -/
def outcome (lib : Externals) : StreamInspector → List Bytes → Decision × Nat
  | self, [] =>
    let (inspection, _) := self.finish
    (inspection.result.decision, inspection.releaseBytes)
  | self, chunk :: chunks =>
    let (inspection, self) := self.inspect lib chunk
    let (decision, released) := self.outcome lib chunks
    (decision, inspection.releaseBytes + released)

/-- Every cut of a stream into chunks gives one decision, `allow` or `terminate`, and if that is
`allow`, one number of released bytes. -/
def CutInvariant (lib : Externals) (self : StreamInspector) (input : Bytes) : Prop :=
  ∀ chunks chunks' : List Bytes, chunks.flatten = input → chunks'.flatten = input →
    ((self.outcome lib chunks).1 = .allow ∨ (self.outcome lib chunks).1 = .terminate) ∧
    (self.outcome lib chunks).1 = (self.outcome lib chunks').1 ∧
    ((self.outcome lib chunks).1 = .allow →
      (self.outcome lib chunks).2 = (self.outcome lib chunks').2)

/-- The verdict on a stream does not depend on where its events are ended. -/
def OneVerdict (lib : Externals) (self : StreamInspector) (input : Bytes) : Prop :=
  ∀ allowed allowed', Reads lib self input allowed → Reads lib self input allowed' →
    allowed = allowed'

variable {lib : Externals} {s s' : StreamInspector} {chunk event rest : Bytes}
  {allowed : Bool}

/-! ## Decisions -/

/-- The decision of a verdict. -/
def decisionOf (allowed : Bool) : Decision := if allowed then .allow else .terminate

theorem decisionOf_inj {allowed allowed' : Bool} :
    decisionOf allowed = decisionOf allowed' ↔ allowed = allowed' := by
  cases allowed <;> cases allowed' <;> decide

theorem decisionOf_cases (allowed : Bool) :
    decisionOf allowed = .allow ∨ decisionOf allowed = .terminate := by
  cases allowed
  · exact .inr rfl
  · exact .inl rfl

/-- Nothing follows a verdict. -/
theorem outcome_stopped {result : PolicyResult} (h : s.terminal = some result)
    (chunks : List Bytes) : s.outcome lib chunks = (result.decision, 0) := by
  induction chunks with
  | nil =>
    have hfinish : s.finish = (s.inspection result 0, s) := by
      unfold finish
      rw [h]
    simp [outcome, hfinish, inspection]
  | cons chunk chunks ih =>
    have hinspect : s.inspect lib chunk = (s.inspection result 0, s) := by
      unfold inspect
      rw [h]
    simp [outcome, hinspect, ih, inspection]

theorem outcome_cons (s : StreamInspector) (chunk : Bytes) (chunks : List Bytes) :
    s.outcome lib (chunk :: chunks) = (((s.inspect lib chunk).2.outcome lib chunks).1,
      (s.inspect lib chunk).1.releaseBytes + ((s.inspect lib chunk).2.outcome lib chunks).2) := rfl

/-! ## The verdict of a run -/

theorem accept_scan (lib : Externals) (s : StreamInspector) (event : Bytes) :
    s.scan.accept lib event = (s.accept lib event).map scan := by
  unfold accept
  rw [inspectEvent_scan]
  rcases s.inspectEvent lib event with ⟨_ | ⟨⟩, s₁⟩ <;> rfl

/-- An end in what the inspector sees. -/
theorem cut_append {n : Nat} (h : findEventEnd rest = some n) (more : Bytes) :
    Cut (rest ++ more) n ∧ (rest ++ more).take n = rest.take n ∧
      (rest ++ more).drop n = rest.drop n ++ more := by
  have hle := findEventEnd_le h
  exact ⟨⟨rest.length, by rw [List.take_left' rfl, h]⟩, List.take_append_of_le_length hle,
    List.drop_append_of_le_length hle⟩

/-- An error of the event loop rejects the stream, whatever follows. -/
theorem inspectLoop_rejects {fuel n : Nat} {e : EventError} (more : Bytes)
    (h : s.inspectLoop lib fuel rest n = (.error e, s')) :
    Reads lib s.scan (rest ++ more) false := by
  induction fuel generalizing s rest n with
  | zero => cases h
  | succ fuel ih =>
    rw [inspectLoop] at h
    cases hend : findEventEnd rest with
    | none =>
      rw [hend] at h
      cases h
    | some eventEnd =>
      obtain ⟨hcut, htake, hdrop⟩ := cut_append hend more
      have hscan := accept_scan lib s (rest.take eventEnd)
      simp only [hend] at h
      rcases hev : s.inspectEvent lib (rest.take eventEnd) with ⟨_ | ⟨⟩, s₁⟩
      · refine .reject hcut ?_
        rw [htake, hscan, accept, hev]
        rfl
      · rw [hev] at h
        have haccept : s.scan.accept lib ((rest ++ more).take eventEnd) = some s₁.scan := by
          rw [htake, hscan, accept, hev]
          rfl
        refine .accept hcut haccept ?_
        rw [hdrop]
        exact ih h

/-- Within the limit, a verdict on a chunk rejects the stream. -/
theorem inspect_rejects (lib : Externals) (ht : s.terminal = none)
    (hlimit : saturatingAdd s.inspectedBytes chunk.length ≤ s.maxResponseBytes)
    (hstop : (s.inspect lib chunk).2.terminal ≠ none) (more : Bytes) :
    Reads lib s.scan (s.pending ++ chunk ++ more) false := by
  unfold inspect at hstop
  rw [ht] at hstop
  dsimp only at hstop
  rw [if_neg (by omega)] at hstop
  split at hstop
  · rename_i hloop
    have hread := inspectLoop_rejects more hloop
    exact hread
  · rename_i m s₁ hloop
    obtain ⟨_, _, hacc, -⟩ := inspectLoop_ok (Nat.le_refl _) hloop
    exact absurd (by rw [hacc.frame]) hstop

theorem saturatingAdd_assoc (a b c : Nat) :
    saturatingAdd (saturatingAdd a b) c = saturatingAdd a (b + c) := by
  unfold saturatingAdd
  omega

theorem outcome_nil (ht : s.terminal = none) :
    (s.outcome lib []).1 = decisionOf (s.sawDone && s.pending.all isAsciiWhitespace) ∧
      ((s.sawDone && s.pending.all isAsciiWhitespace) = true →
        (s.outcome lib []).2 = s.pending.length) := by
  unfold outcome finish
  rw [ht]
  dsimp only
  cases hdone : s.sawDone && s.pending.all isAsciiWhitespace with
  | true =>
    rw [if_pos ((Bool.and_eq_true _ _).mp hdone)]
    exact ⟨rfl, fun _ => rfl⟩
  | false =>
    rw [if_neg (by rw [← Bool.and_eq_true, hdone]; exact Bool.false_ne_true)]
    exact ⟨rfl, nofun⟩

/-- A stream within the limit is read, and all its bytes are released if it is allowed. -/
theorem outcome_reads (lib : Externals) (chunks : List Bytes) (ht : s.terminal = none)
    (hpending : findEventEnd s.pending = none)
    (hlimit : saturatingAdd s.inspectedBytes chunks.flatten.length ≤ s.maxResponseBytes) :
    ∃ allowed, Reads lib s.scan (s.pending ++ chunks.flatten) allowed ∧
      (s.outcome lib chunks).1 = decisionOf allowed ∧
      (allowed = true → (s.outcome lib chunks).2 = (s.pending ++ chunks.flatten).length) := by
  induction chunks generalizing s with
  | nil =>
    rw [List.flatten_nil, List.append_nil]
    exact ⟨_, .finish hpending, outcome_nil ht⟩
  | cons chunk chunks ih =>
    rw [List.flatten_cons, List.length_append, ← saturatingAdd_assoc] at hlimit
    have hchunk : saturatingAdd s.inspectedBytes chunk.length ≤ s.maxResponseBytes := by
      unfold saturatingAdd at hlimit ⊢
      omega
    have hspec := inspect_spec lib s chunk
    have hrejects := inspect_rejects lib ht hchunk
    rw [List.flatten_cons, ← List.append_assoc, outcome_cons]
    generalize s.inspect lib chunk = out at hspec hrejects ⊢
    obtain ⟨r, s'⟩ := out
    dsimp only at hspec hrejects ⊢
    cases hspec with
    | stopped hs => exact absurd (ht.symm.trans hs) nofun
    | terminated _ hr _ ht' =>
      refine ⟨false, hrejects (by rw [ht']; simp) _, ?_, nofun⟩
      rw [outcome_stopped ht', hr]
      rfl
    | released events _ ht' hsplit hwhole hnone hacc hbytes _ =>
      have hmax : s'.maxResponseBytes = s.maxResponseBytes :=
        (congrArg StreamInspector.maxResponseBytes hacc.frame : s'.scan.maxResponseBytes = _)
      obtain ⟨allowed, hread, hdecision, hreleased⟩ :=
        ih ht' hnone (by rw [hbytes, hmax]; exact hlimit)
      refine ⟨allowed, ?_, hdecision, fun hallowed => ?_⟩
      · rw [hsplit, List.append_assoc]
        exact hacc.reads hwhole hread
      · rw [hreleased hallowed, hsplit]
        simp only [inspection, List.length_append]
        omega

/-- A stream over the limit is terminated. -/
theorem outcome_over (chunks : List Bytes) (ht : s.terminal = none)
    (hwithin : s.inspectedBytes ≤ s.maxResponseBytes)
    (hlimit : s.maxResponseBytes < saturatingAdd s.inspectedBytes chunks.flatten.length) :
    (s.outcome lib chunks).1 = decisionOf false := by
  induction chunks generalizing s with
  | nil =>
    simp only [List.flatten_nil, List.length_nil, saturatingAdd] at hlimit
    omega
  | cons chunk chunks ih =>
    rw [List.flatten_cons, List.length_append, ← saturatingAdd_assoc] at hlimit
    have hspec := inspect_spec lib s chunk
    rw [outcome_cons]
    generalize s.inspect lib chunk = out at hspec ⊢
    obtain ⟨r, s'⟩ := out
    dsimp only at hspec ⊢
    cases hspec with
    | stopped hs => exact absurd (ht.symm.trans hs) nofun
    | terminated _ hr _ ht' =>
      rw [outcome_stopped ht', hr]
      rfl
    | released events _ ht' _ _ _ hacc hbytes hle =>
      have hmax : s'.maxResponseBytes = s.maxResponseBytes :=
        (congrArg StreamInspector.maxResponseBytes hacc.frame : s'.scan.maxResponseBytes = _)
      exact ih ht' (by rw [hmax]; exact hle) (by rw [hbytes, hmax]; exact hlimit)

/-! ## A cut for every reading -/

theorem inspectLoop_none {fuel n : Nat} (h : findEventEnd rest = none) :
    s.inspectLoop lib fuel rest n = (.ok n, s) := by
  cases fuel with
  | zero => rfl
  | succ fuel => rw [inspectLoop, h]

theorem inspectLoop_succ (fuel : Nat) (rest : Bytes) :
    s.inspectLoop lib (fuel + 1) rest 0 =
      match findEventEnd rest with
      | none => (.ok 0, s)
      | some eventEnd =>
        match s.inspectEvent lib (rest.take eventEnd) with
        | (.error e, s) => (.error e, s)
        | (.ok (), s) => s.inspectLoop lib fuel (rest.drop eventEnd) (0 + eventEnd) := rfl

/-- A whole event in the buffer is one round of the loop. -/
theorem inspectLoop_whole (h : Whole event) :
    s.inspectLoop lib event.length event 0 =
      match s.inspectEvent lib event with
      | (.error e, s) => (.error e, s)
      | (.ok (), s) => (.ok event.length, s) := by
  obtain ⟨fuel, hfuel⟩ := Nat.exists_eq_succ_of_ne_zero (findEventEnd_pos h).ne'
  conv_lhs => rw [hfuel]
  rw [inspectLoop_succ, show findEventEnd event = some event.length from h]
  dsimp only
  rw [List.take_length, List.drop_length, Nat.zero_add]
  rcases s.inspectEvent lib event with ⟨_ | ⟨⟩, s₁⟩
  · rfl
  · exact inspectLoop_none rfl

/-- A chunk that is one event. -/
theorem inspect_whole (lib : Externals) (ht : s.terminal = none) (hpending : s.pending = [])
    (hlimit : saturatingAdd s.inspectedBytes event.length ≤ s.maxResponseBytes)
    (h : Whole event) :
    match s.scan.accept lib event with
    | none => ∃ result, (s.inspect lib event).2.terminal = some result ∧
        result.decision = .terminate
    | some s' => (s.inspect lib event).2 =
        { s' with inspectedBytes := saturatingAdd s.inspectedBytes event.length } := by
  have hlimit' : ¬ saturatingAdd s.inspectedBytes event.length > s.maxResponseBytes := by omega
  unfold inspect
  rw [ht]
  dsimp only
  rw [if_neg hlimit', hpending, List.nil_append, inspectLoop_whole h]
  -- the inspector with the event in its buffer
  generalize ht₁ : ({ s with
    inspectedBytes := saturatingAdd s.inspectedBytes event.length
    pending := event
    terminal := none } : StreamInspector) = t
  have hscan : s.scan = t.scan := by
    rw [← ht₁]
    rfl
  rw [hscan, accept_scan, accept]
  rcases hev : t.inspectEvent lib event with ⟨⟨code, reason⟩ | ⟨⟩, t'⟩
  · exact ⟨_, rfl, rfl⟩
  · have hframe := (inspectEvent_ok hev).frame
    rw [hframe, ← ht₁]
    simp [scan]

/-- Every reading is the outcome of a cut, which ends the chunks at the ends of the events. -/
theorem exists_chunks {s₀ : StreamInspector} (h : Reads lib s₀ rest allowed) :
    ∀ s : StreamInspector, s.scan = s₀ → s.terminal = none → s.pending = [] →
      saturatingAdd s.inspectedBytes rest.length ≤ s.maxResponseBytes →
      ∃ chunks : List Bytes, chunks.flatten = rest ∧
        (s.outcome lib chunks).1 = decisionOf allowed := by
  have hparts : ∀ (rest : Bytes) (n k : Nat), saturatingAdd k rest.length =
      saturatingAdd (saturatingAdd k (rest.take n).length) (rest.drop n).length := by
    intro rest n k
    rw [saturatingAdd_assoc, ← List.length_append, List.take_append_drop]
  induction h with
  | @finish s₀ rest hnone =>
    rintro s rfl ht hpending hlimit
    obtain ⟨allowed, hread, hdecision, -⟩ := outcome_reads lib [rest] ht
      (by rw [hpending]; rfl) (by simpa using hlimit)
    refine ⟨[rest], by simp, hdecision.trans (congrArg decisionOf ?_)⟩
    rw [hpending, List.nil_append, List.flatten_singleton] at hread
    cases hread with
    | finish => rfl
    | reject hcut => exact absurd hcut (findEventEnd_eq_none_iff.mp hnone _)
    | accept hcut => exact absurd hcut (findEventEnd_eq_none_iff.mp hnone _)
  | @reject s₀ rest n hcut hreject =>
    rintro s rfl ht hpending hlimit
    rw [hparts rest n] at hlimit
    have hspec := inspect_whole lib ht hpending
      (by unfold saturatingAdd at hlimit ⊢; omega) hcut.whole
    rw [hreject] at hspec
    obtain ⟨result, hresult, hdecision⟩ := hspec
    refine ⟨[rest.take n, rest.drop n], by simp, ?_⟩
    rw [outcome_cons, outcome_stopped hresult, hdecision]
    rfl
  | @accept s₀ s' rest n allowed hcut haccept _ ih =>
    rintro s rfl ht hpending hlimit
    rw [hparts rest n] at hlimit
    have hspec := inspect_whole lib ht hpending
      (by unfold saturatingAdd at hlimit ⊢; omega) hcut.whole
    rw [haccept] at hspec
    obtain ⟨s₁, hs₁, rfl⟩ := Option.map_eq_some_iff.mp (accept_scan lib s _ ▸ haccept)
    have hmax : s₁.maxResponseBytes = s.maxResponseBytes := by
      rw [(inspectEvent_ok (accept_eq_some_iff.mp hs₁)).frame]
    dsimp only at hspec
    obtain ⟨chunks, hchunks, hdecision⟩ := ih (s.inspect lib (rest.take n)).2
      (by rw [hspec]; rfl) (by rw [hspec]; rfl) (by rw [hspec]; rfl)
      (by rw [hspec]; exact hmax ▸ hlimit)
    refine ⟨rest.take n :: chunks, ?_, ?_⟩
    · rw [List.flatten_cons, hchunks, List.take_append_drop]
    · rw [outcome_cons]
      exact hdecision

/-! ## The cut of a stream -/

/-- The cut of a stream into chunks does not matter if and only if the stream exceeds the limit or
has one verdict, wherever its events are ended. An unambiguous stream has one verdict. -/
theorem cutInvariant_iff (lib : Externals) (config : Config) (tokenBudget maxResponseBytes : Nat)
    (input : Bytes) :
    (CutInvariant lib (.new lib config tokenBudget maxResponseBytes) input ↔
      maxResponseBytes < min input.length u64Max ∨
        OneVerdict lib (.new lib config tokenBudget maxResponseBytes) input) ∧
    (Unambiguous input → OneVerdict lib (.new lib config tokenBudget maxResponseBytes) input) := by
  have htotal : saturatingAdd 0 input.length = min input.length u64Max := by
    rw [saturatingAdd, Nat.zero_add]
  generalize hs : StreamInspector.new lib config tokenBudget maxResponseBytes = s
  have ht : s.terminal = none := by rw [← hs]; rfl
  have hpending : s.pending = [] := by rw [← hs]; rfl
  have hscan : s.scan = s := by rw [← hs]; rfl
  have hbytes : s.inspectedBytes = 0 := by rw [← hs]; rfl
  have hmax : s.maxResponseBytes = maxResponseBytes := by rw [← hs]; rfl
  have hread : ∀ chunks : List Bytes, chunks.flatten = input →
      min input.length u64Max ≤ maxResponseBytes →
      ∃ allowed, Reads lib s input allowed ∧ (s.outcome lib chunks).1 = decisionOf allowed ∧
        (allowed = true → (s.outcome lib chunks).2 = input.length) := by
    rintro chunks rfl hlimit
    have := outcome_reads lib chunks ht (by rw [hpending]; rfl)
      (by rw [hbytes, hmax, htotal]; exact hlimit)
    rwa [hscan, hpending, List.nil_append] at this
  refine ⟨⟨fun h => ?_, ?_⟩, fun hunamb allowed allowed' => Reads.unique hunamb⟩
  · refine or_iff_not_imp_left.mpr fun hlimit allowed allowed' hallowed hallowed' => ?_
    have hwithin : saturatingAdd s.inspectedBytes input.length ≤ s.maxResponseBytes := by
      rw [hbytes, hmax, htotal]
      omega
    obtain ⟨chunks, hchunks, hdecision⟩ := exists_chunks hallowed s hscan ht hpending hwithin
    obtain ⟨chunks', hchunks', hdecision'⟩ := exists_chunks hallowed' s hscan ht hpending hwithin
    rw [← decisionOf_inj, ← hdecision, ← hdecision']
    exact (h chunks chunks' hchunks hchunks').2.1
  · rintro hcond chunks chunks' hchunks hchunks'
    by_cases hlimit : maxResponseBytes < min input.length u64Max
    · have hover : ∀ chunks : List Bytes, chunks.flatten = input →
          (s.outcome lib chunks).1 = .terminate := by
        rintro chunks rfl
        exact outcome_over chunks ht (by rw [hbytes]; exact Nat.zero_le _)
          (by rw [hbytes, hmax, htotal]; exact hlimit)
      rw [hover chunks hchunks, hover chunks' hchunks']
      exact ⟨.inr rfl, rfl, nofun⟩
    · obtain ⟨allowed, hallowed, hdecision, hreleased⟩ := hread chunks hchunks (by omega)
      obtain ⟨allowed', hallowed', hdecision', hreleased'⟩ := hread chunks' hchunks' (by omega)
      obtain rfl := hcond.resolve_left hlimit _ _ hallowed hallowed'
      rw [hdecision, hdecision']
      refine ⟨decisionOf_cases allowed, rfl, fun hallow => ?_⟩
      have htrue : allowed = true := decisionOf_inj.mp hallow
      rw [hreleased htrue, hreleased' htrue]

/-- Two events with line feeds only. -/
def lfInput : Bytes := hiEvent ++ utf8 "data: [DONE]\n\n"

theorem lfInput_cutInvariant : CutInvariant hiLib hiInspector lfInput :=
  have h := cutInvariant_iff hiLib .default 1024 4096 lfInput
  h.1.mpr (.inr (h.2 (unambiguous_of_lf (by decide))))

/-- The same events, the first one with carriage returns. -/
def mixedEvents : List Bytes := [utf8 "data: \"hi\"\r\n\r\n", utf8 "data: [DONE]\n\n"]

/-- In one chunk the two events are one, whose joined data is not JSON. In two chunks the stream is
allowed. -/
theorem mixedEvents_not_cutInvariant :
    ¬ CutInvariant hiLib hiInspector mixedEvents.flatten := by
  have hone : (hiInspector.outcome hiLib [mixedEvents.flatten]).1 = .terminate := by
    decide +kernel
  have htwo : (hiInspector.outcome hiLib mixedEvents).1 = .allow := by decide +kernel
  intro h
  have hsame := (h [mixedEvents.flatten] mixedEvents (by simp) rfl).2.1
  rw [hone, htwo] at hsame
  cases hsame

end StreamInspector

end Kavora.Policy
