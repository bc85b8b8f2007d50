import Kavora.Ledger.Crash

/-!
# What a ledger writes

* `AppendsAll`: the steps whose writes reach their files.
* `Directory.Written`: the files of a kind are the lines of the documents of their records.
* `WrittenInv.inductive_inv`: so they are after any run of such steps, also if a line is too long
  for the reader of the gateway.
* `CrashState.record`, `CrashState.recordOutcome`: such steps as functions.
-/

namespace Kavora.Ledger

open Lib Lib.Go

/-- All bytes of the line of a value reach its file. A value that cannot be written has none. -/
def AppendsWhole {α : Type} [Marshal α] (a : α) (n : Nat) : Prop :=
  ∀ doc ∈ Marshal.marshal a, (lineOf doc).length ≤ n

instance {α : Type} [Marshal α] (a : α) (n : Nat) : Decidable (AppendsWhole a n) :=
  inferInstanceAs (Decidable (∀ doc ∈ Marshal.marshal a, _))

/-- Such a line is complete, if there is one. -/
theorem AppendsWhole.completes {α : Type} [Marshal α] {a : α} {n : Nat} (h : AppendsWhole a n)
    (hdoc : (Marshal.marshal a).isSome) : Completes a n := by
  obtain ⟨doc, hdoc⟩ := Option.isSome_iff_exists.mp hdoc
  have hn := h doc hdoc
  simp only [lineOf, List.length_append, List.length_singleton] at hn
  exact ⟨doc, hdoc, by omega⟩

/-- The steps whose writes reach their files. -/
def AppendsAll {F : Type} [Float64 F] [FloatText F] (s : CrashState F) : CrashEvent F → Prop
  | .record decision _ n => ∀ ledger ∈ s.ledger, RecordWrites ledger decision →
    AppendsWhole decision n
  | .recordOutcome outcome _ n => ∀ ledger ∈ s.ledger, OutcomeWrites ledger outcome →
    AppendsWhole outcome n
  | _ => True

section

variable {α : Type} [Marshal α] {directory : Directory} {kind p : String}
  {values : String → List α} {docs : String → List Json}

/-- The documents of some values. -/
def Documents (values : List α) (docs : List Json) : Prop :=
  List.Forall₂ (fun a doc => Marshal.marshal a = some doc) values docs

theorem Documents.mapM {values : List α} {docs : List Json} (h : Documents values docs) :
    values.mapM Marshal.marshal = some docs := by
  induction h with
  | nil => rfl
  | cons hdoc _ ih =>
    rw [List.mapM_cons, hdoc, ih]
    rfl

theorem Documents.isJsonl {read : α → α} (hread : ReadsBack read) {values : List α}
    {docs : List Json} (h : Documents values docs) : Json.IsJsonl docs := by
  induction h with
  | nil => exact nofun
  | cons hdoc _ ih =>
    obtain ⟨hreadable, hobject, -⟩ := hread hdoc
    exact List.forall_mem_cons.mpr ⟨⟨hreadable, hobject⟩, ih⟩

/-- The files of a kind are the lines of the documents of `values`. -/
structure Directory.Written (directory : Directory) (kind : String) (values : String → List α)
    (docs : String → List Json) : Prop where
  content : ∀ p ∈ directory.glob kind, directory.index p [] = Utf8.encode (Json.jsonl (docs p))
  documents : ∀ p, Documents (values p) (docs p)
  listed : ∀ p, values p ≠ [] → p ∈ directory.glob kind

namespace Directory.Written

theorem empty : Written (∅ : Directory) kind (fun _ => ([] : List α)) fun _ => [] where
  content _ hp := absurd (mem_glob.mp hp).1 (AList.notMem_empty _)
  documents _ := .nil
  listed _ hp := absurd rfl hp

/-- A file of another kind is written. -/
theorem frame (h : directory.Written kind values docs) (hp : matchesKind kind p = false)
    {β : Type} [Marshal β] (b : β) (write : FileWrite) :
    (directory.append p b write).1.Written kind values docs := by
  unfold Directory.append
  cases Marshal.marshal b with
  | none => exact h
  | some doc =>
    cases write with
    | notOpened => exact h
    | wrote n =>
      refine ⟨fun q hq => ?_, h.documents, fun q hq => ?_⟩
      · rw [glob_insert_of_not hp] at hq
        have hqp : q ≠ p := by
          rintro rfl
          rw [(mem_glob.mp hq).2] at hp
          cases hp
        rw [index_insert_ne hqp]
        exact h.content q hq
      · rw [glob_insert_of_not hp]
        exact h.listed q hq

theorem content_path (h : directory.Written kind values docs) (hp : matchesKind kind p = true) :
    directory.index p [] = Utf8.encode (Json.jsonl (docs p)) := by
  by_cases hmem : p ∈ directory
  · exact h.content p (mem_glob.mpr ⟨hmem, hp⟩)
  · have hvalues : values p = [] := by
      by_contra hne
      exact hmem (mem_glob.mp (h.listed p hne)).1
    have hdocs : docs p = [] := by
      have hdocuments := h.documents p
      rw [hvalues] at hdocuments
      exact List.forall₂_nil_left_iff.mp hdocuments
    rw [hdocs, Map.index, AList.lookup_eq_none.mpr hmem]
    rfl

/-- A line is appended, if the value has one. -/
theorem append (h : directory.Written kind values docs) (hp : matchesKind kind p = true) {a : α}
    {n : Nat} (hwhole : AppendsWhole a n) :
    ∃ docs, (directory.append p a (.wrote n)).1.Written kind
      (if Completes a n then addTo values p a else values) docs := by
  unfold Directory.append
  cases hdoc : Marshal.marshal a with
  | none =>
    rw [if_neg (not_completes hdoc)]
    exact ⟨docs, h⟩
  | some doc =>
    have hn := hwhole doc hdoc
    have hcompletes : Completes a n := hwhole.completes (Option.isSome_iff_exists.mpr ⟨doc, hdoc⟩)
    rw [if_pos hcompletes]
    refine ⟨Function.update docs p (docs p ++ [doc]), fun q hq => ?_, fun q => ?_, fun q hq => ?_⟩
    · by_cases hqp : q = p
      · subst hqp
        rw [index_insert, Function.update_self, List.take_of_length_le hn, h.content_path hp]
        unfold Json.jsonl lineOf
        rw [List.flatMap_append, List.flatMap_singleton, Utf8.encode_append, Utf8.encode_append]
        rfl
      · obtain ⟨hmem, hkind⟩ := mem_glob.mp hq
        have hmem : q ∈ directory := ((AList.mem_insert _).mp hmem).resolve_left hqp
        rw [index_insert_ne hqp, Function.update_of_ne hqp]
        exact h.content q (mem_glob.mpr ⟨hmem, hkind⟩)
    · unfold addTo
      by_cases hqp : q = p
      · subst hqp
        rw [Function.update_self, Function.update_self]
        exact List.rel_append (h.documents q) (.cons hdoc .nil)
      · rw [Function.update_of_ne hqp, Function.update_of_ne hqp]
        exact h.documents q
    · by_cases hqp : q = p
      · subst hqp
        exact mem_glob.mpr ⟨(AList.mem_insert _).mpr (.inl rfl), hp⟩
      · unfold addTo at hq
        rw [Function.update_of_ne hqp] at hq
        obtain ⟨hmem, hkind⟩ := mem_glob.mp (h.listed q hq)
        exact mem_glob.mpr ⟨(AList.mem_insert _).mpr (.inr hmem), hkind⟩

/-- The documents of all files in the order of their names. -/
theorem documents_glob (h : directory.Written kind values docs) :
    Documents ((directory.glob kind).flatMap values) ((directory.glob kind).flatMap docs) := by
  have hpaths : ∀ paths : List String, Documents (paths.flatMap values) (paths.flatMap docs) := by
    intro paths
    induction paths with
    | nil => exact .nil
    | cons p paths ih =>
      rw [List.flatMap_cons, List.flatMap_cons]
      exact List.rel_append (h.documents p) ih
  exact hpaths _

end Directory.Written

end

/-! ## Runs -/

variable {F : Type} [Float64 F] [FloatText F]

/-- The files are the lines of the documents of the appended records. -/
def WrittenInv (s : CrashState F) : Prop :=
  (∃ docs, s.directory.Written "decisions" s.decisions docs) ∧
    ∃ docs, s.directory.Written "outcomes" s.outcomes docs

namespace WrittenInv

variable {s s' : CrashState F}

theorem record (h : WrittenInv s) {decision : Decision F} {now : Time} {n : Nat}
    (happends : AppendsAll s (.record decision now n))
    (hstep : crashRuns.step s (.record decision now n) s') : WrittenInv s' := by
  obtain ⟨ledger, hledger, rfl⟩ := hstep
  obtain ⟨⟨decisionDocs, hdecisions⟩, outcomeDocs, houtcomes⟩ := h
  have hdirectory := ledger.record_directory s.directory now (.wrote n) decision
  unfold WrittenInv
  simp only [hdirectory]
  by_cases hwrites : RecordWrites ledger decision
  · simp only [hwrites, true_and, if_true]
    exact ⟨hdecisions.append (matchesKind_path _ now) (happends ledger hledger hwrites), _,
      houtcomes.frame (matchesKind_decisions now) decision _⟩
  · simp only [hwrites, false_and, if_false]
    exact ⟨⟨_, hdecisions⟩, _, houtcomes⟩

theorem recordOutcome (h : WrittenInv s) {outcome : DecisionOutcome F} {now : Time} {n : Nat}
    (happends : AppendsAll s (.recordOutcome outcome now n))
    (hstep : crashRuns.step s (.recordOutcome outcome now n) s') : WrittenInv s' := by
  obtain ⟨ledger, hledger, rfl⟩ := hstep
  obtain ⟨⟨decisionDocs, hdecisions⟩, outcomeDocs, houtcomes⟩ := h
  have hdirectory := ledger.recordOutcome_directory s.directory now (.wrote n) outcome
  unfold WrittenInv
  simp only [hdirectory]
  by_cases hwrites : OutcomeWrites ledger outcome
  · simp only [hwrites, true_and, if_true]
    exact ⟨⟨_, hdecisions.frame (matchesKind_outcomes now) outcome _⟩,
      houtcomes.append (matchesKind_path _ now) (happends ledger hledger hwrites)⟩
  · simp only [hwrites, false_and, if_false]
    exact ⟨⟨_, hdecisions⟩, _, houtcomes⟩

/-- The files are such lines in every run. -/
theorem inductive_inv : (crashRuns.restrict AppendsAll).Inductive (WrittenInv (F := F)) where
  init s hs := by
    rw [show s = _ from hs]
    exact ⟨⟨_, .empty⟩, _, .empty⟩
  step s event s' h hstep := by
    obtain ⟨hstep, happends⟩ := hstep
    cases event with
    | record decision now n => exact h.record happends hstep
    | recordOutcome outcome now n => exact h.recordOutcome happends hstep
    | crash =>
      rw [show s' = _ from hstep]
      exact h
    | start max =>
      obtain ⟨ledger, -, rfl⟩ := hstep
      exact h

end WrittenInv

/-! ## Whole writes -/

/-- All bytes of the line of a value. -/
def whole {α : Type} [Marshal α] (a : α) : Nat :=
  match Marshal.marshal a with
  | none => 0
  | some doc => (lineOf doc).length

theorem appendsWhole {α : Type} [Marshal α] (a : α) : AppendsWhole a (whole a) := by
  intro doc hdoc
  unfold whole
  rw [Option.mem_def.mp hdoc]

theorem completes_iff {α : Type} [Marshal α] (a : α) :
    Completes a (whole a) ↔ (Marshal.marshal a).isSome := by
  constructor
  · rintro ⟨doc, hdoc, -⟩
    exact Option.isSome_iff_exists.mpr ⟨doc, hdoc⟩
  · exact (appendsWhole a).completes

namespace CrashState

/-- A running gateway records a decision. -/
def record (s : CrashState F) (now : Time) (d : Decision F) : CrashState F :=
  match s.ledger with
  | none => s
  | some ledger =>
    let result := ledger.record s.directory now (.wrote (whole d)) d
    { s with
      ledger := afterCall result.1
      directory := result.2
      decisions :=
        if RecordWrites ledger d ∧ (Marshal.marshal d).isSome then
          addTo s.decisions (path "decisions" now) d
        else s.decisions }

/-- A running gateway records an outcome. -/
def recordOutcome (s : CrashState F) (now : Time) (o : DecisionOutcome F) : CrashState F :=
  match s.ledger with
  | none => s
  | some ledger =>
    let result := ledger.recordOutcome s.directory now (.wrote (whole o)) o
    { s with
      ledger := afterCall result.1
      directory := result.2
      outcomes :=
        if OutcomeWrites ledger o ∧ (Marshal.marshal o).isSome then
          addTo s.outcomes (path "outcomes" now) o
        else s.outcomes }

variable {C : CrashState F → CrashEvent F → Prop} {s : CrashState F} {now : Time}

theorem reach_record (hs : (crashRuns.restrict C).Reach s) {d : Decision F}
    (h : C s (.record d now (whole d))) : (crashRuns.restrict C).Reach (s.record now d) := by
  unfold record
  cases hledger : s.ledger with
  | none => exact hs
  | some ledger =>
    have hstep : crashRuns.step s (.record d now (whole d)) _ := ⟨ledger, hledger, rfl⟩
    simp only [completes_iff] at hstep
    exact hs.step ⟨hstep, h⟩

theorem reach_recordOutcome (hs : (crashRuns.restrict C).Reach s) {o : DecisionOutcome F}
    (h : C s (.recordOutcome o now (whole o))) :
    (crashRuns.restrict C).Reach (s.recordOutcome now o) := by
  unfold recordOutcome
  cases hledger : s.ledger with
  | none => exact hs
  | some ledger =>
    have hstep : crashRuns.step s (.recordOutcome o now (whole o)) _ := ⟨ledger, hledger, rfl⟩
    simp only [completes_iff] at hstep
    exact hs.step ⟨hstep, h⟩

end CrashState

end Kavora.Ledger
