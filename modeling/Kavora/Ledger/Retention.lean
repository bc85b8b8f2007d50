import Kavora.Lib.System
import Kavora.Ledger.DecisionLedger

/-!
# What the ledger keeps

The ledger holds its decisions in a map and their request IDs in a list, in the order in which they
came. A request that is recorded again keeps its place; one that came back after an eviction comes
last.

* `DecisionLedger.Kept`: the map and the list agree, and hold at most `max` requests.
* `recordLocked_known`, `recordLocked_new`, `recordLocked_full`: what recording a decision does.
* `DecisionLedger.reopen_kept`: a ledger that is rebuilt from its journal satisfies it too.
* `retentionRuns`: any calls on a new ledger, with the time at which each request came.
* `ledger_retention`: in every state the invariant holds, an eviction drops the request that came
  first, and `recent` returns those that came last.
-/

namespace Kavora.Ledger

open Lib Lib.Go

variable {F : Type}

/-! ## The map and the list -/

namespace DecisionLedger

/-- The map and the list hold the same requests, each once, and at most `max`. -/
structure Kept (ledger : DecisionLedger F) : Prop where
  nodup : ledger.order.Nodup
  mem_iff : ∀ id, id ∈ ledger.order ↔ (ledger.entries id).isSome
  length_le : ledger.order.length ≤ ledger.max
  max_pos : 0 < ledger.max

variable {ledger : DecisionLedger F} {decision : Decision F}

theorem evict_of_le {max : Nat} {order : List String} (entries : String → Option (Decision F))
    (h : order.length ≤ max) : evict max order entries = (order, entries) := by
  cases order with
  | nil => rfl
  | cons id order => rw [evict, if_neg (Nat.not_lt.mpr h)]

/-- With one request too many, the first one goes. -/
theorem evict_first {max : Nat} {oldest : String} {order : List String}
    (entries : String → Option (Decision F)) (h : order.length = max) :
    evict max (oldest :: order) entries = (order, Function.update entries oldest none) := by
  rw [evict, if_pos (by rw [List.length_cons]; omega), evict_of_le _ h.le]

theorem recordLocked_known (h : ledger.Kept) (hknown : (ledger.entries decision.requestID).isSome) :
    ledger.recordLocked decision =
      { ledger with
        entries := Function.update ledger.entries decision.requestID (some decision) } := by
  unfold recordLocked
  have hnot : ¬ (ledger.entries decision.requestID).isNone = true := by
    rw [Option.isNone_iff_eq_none]
    exact Option.isSome_iff_ne_none.mp hknown
  rw [if_neg hnot]
  dsimp only
  rw [evict_of_le _ h.length_le]

theorem recordLocked_new (hnew : ledger.entries decision.requestID = none)
    (hroom : ledger.order.length < ledger.max) :
    ledger.recordLocked decision =
      { ledger with
        order := ledger.order ++ [decision.requestID]
        entries := Function.update ledger.entries decision.requestID (some decision) } := by
  unfold recordLocked
  rw [if_pos (by rw [hnew]; rfl)]
  dsimp only
  rw [evict_of_le _ (by rw [List.length_append, List.length_singleton]; omega)]

theorem recordLocked_full (hnew : ledger.entries decision.requestID = none) {oldest : String}
    {order : List String} (horder : ledger.order = oldest :: order)
    (hfull : ledger.order.length = ledger.max) :
    ledger.recordLocked decision =
      { ledger with
        order := order ++ [decision.requestID]
        entries :=
          Function.update (Function.update ledger.entries decision.requestID (some decision))
            oldest none } := by
  rw [horder, List.length_cons] at hfull
  unfold recordLocked
  rw [if_pos (by rw [hnew]; rfl)]
  dsimp only
  rw [horder, List.cons_append,
    evict_first _ (by rw [List.length_append, List.length_singleton]; omega)]

theorem Kept.new (max : Int) (journal : Bool) :
    Kept (DecisionLedger.new max journal : DecisionLedger F) where
  nodup := List.nodup_nil
  mem_iff id := by simp [DecisionLedger.new]
  length_le := Nat.zero_le _
  max_pos := by
    show 0 < if max ≤ 0 then 4096 else max.toNat
    split
    · decide
    · omega

/-- A kept request gets another entry. -/
theorem Kept.update (h : ledger.Kept) {id : String} (hid : (ledger.entries id).isSome)
    (decision : Decision F) :
    Kept { ledger with entries := Function.update ledger.entries id (some decision) } where
  nodup := h.nodup
  mem_iff id' := by
    rw [h.mem_iff]
    dsimp only
    rw [Function.update_apply]
    split
    · rename_i heq
      subst heq
      simp [hid]
    · rfl
  length_le := h.length_le
  max_pos := h.max_pos

/-- Recording a decision keeps the invariant. -/
theorem Kept.recordLocked (h : ledger.Kept) (decision : Decision F) :
    (ledger.recordLocked decision).Kept := by
  cases hentry : ledger.entries decision.requestID with
  | some old =>
    have hknown : (ledger.entries decision.requestID).isSome := by
      rw [hentry]
      rfl
    rw [recordLocked_known h hknown]
    exact h.update hknown decision
  | none =>
    have hnot : decision.requestID ∉ ledger.order := by
      rw [h.mem_iff, hentry]
      exact Bool.false_ne_true
    rcases h.length_le.lt_or_eq with hroom | hfull
    · rw [recordLocked_new hentry hroom]
      refine ⟨?_, fun id => ?_, ?_, h.max_pos⟩
      · rw [← List.concat_eq_append, List.nodup_concat]
        exact ⟨hnot, h.nodup⟩
      · dsimp only
        rw [List.mem_append, List.mem_singleton, h.mem_iff, Function.update_apply]
        by_cases hid : id = decision.requestID
        · simp [hid]
        · simp [hid]
      · rw [List.length_append, List.length_singleton]
        exact hroom
    · obtain ⟨oldest, order, horder⟩ := List.exists_cons_of_length_pos (hfull ▸ h.max_pos)
      have hnodup := h.nodup
      rw [recordLocked_full hentry horder hfull]
      rw [horder, List.nodup_cons] at hnodup
      rw [horder, List.mem_cons, not_or] at hnot
      rw [horder, List.length_cons] at hfull
      refine ⟨?_, fun id => ?_, ?_, h.max_pos⟩
      · rw [← List.concat_eq_append, List.nodup_concat]
        exact ⟨hnot.2, hnodup.2⟩
      · have hmem := h.mem_iff id
        rw [horder, List.mem_cons] at hmem
        dsimp only
        rw [List.mem_append, List.mem_singleton, Function.update_apply, Function.update_apply]
        by_cases holdest : id = oldest
        · subst holdest
          simp [hnodup.1, Ne.symm hnot.1]
        · rw [if_neg holdest]
          by_cases hid : id = decision.requestID
          · simp [hid]
          · rw [if_neg hid, ← hmem]
            simp [holdest, hid]
      · rw [List.length_append, List.length_singleton]
        exact hfull.le

theorem Kept.updateActual (h : ledger.Kept) (requestID backendID : String) :
    (ledger.updateActual requestID backendID).Kept := by
  unfold DecisionLedger.updateActual
  split
  · exact h
  · rename_i decision hdecision
    exact h.update (by rw [hdecision]; rfl) _

/-- A write changes the error only. -/
theorem journalAppend_ledger {α : Type} [Marshal α] (ledger : DecisionLedger F)
    (directory : Directory) (path : String) (value : α) (write : FileWrite) :
    ∃ err, (ledger.journalAppend directory path value write).1 = { ledger with err } := by
  unfold journalAppend
  split
  · exact ⟨_, rfl⟩
  · exact ⟨ledger.err, rfl⟩

theorem Kept.err (h : ledger.Kept) (err : Option JournalError) : Kept { ledger with err } :=
  ⟨h.nodup, h.mem_iff, h.length_le, h.max_pos⟩

theorem Kept.recordOutcomeLocked [Float64 F] (h : ledger.Kept) {outcome : DecisionOutcome F}
    {ledger' : DecisionLedger F} (hrecord : ledger.recordOutcomeLocked outcome = some ledger') :
    ledger'.Kept := by
  obtain ⟨decision, hdecision, rfl⟩ := Option.map_eq_some_iff.mp hrecord
  exact h.update (by rw [hdecision]; rfl) _

end DecisionLedger

/-! ## Reopening -/

/-- What each line keeps, the lines of the files keep. -/
theorem Directory.replay_keeps {σ : Type} {I : σ → Prop} {target : σ → Bytes → Option σ}
    (hkeeps : ∀ s data s', I s → target s data = some s' → I s') {directory : Directory}
    {kind : String} {s s' : σ} (hs : I s) (h : directory.replay kind target s = some s') :
    I s' := by
  have hlines :
      System.Inductive { init := I, step := fun s data s' => target s data = some s' } I :=
    ⟨fun _ hs => hs, hkeeps⟩
  have hfiles : System.Inductive
      { init := I
        step := fun s path s' => replayFile target s (directory.index path []) = some s' } I := by
    refine ⟨fun _ hs => hs, fun s path s' hs hfile => ?_⟩
    obtain ⟨lines, -, hread⟩ := Option.bind_eq_some_iff.mp hfile
    exact hlines.reach (System.Reach.foldlM (fun _ _ _ h => h) lines (.init hs) hread)
  exact hfiles.reach (System.Reach.foldlM (fun _ _ _ h => h) _ (.init hs) h)

/-- A ledger that is rebuilt from its journal satisfies the invariant. -/
theorem DecisionLedger.reopen_kept [Float64 F] [FloatText F] {max : Int} {directory : Directory}
    {ledger : DecisionLedger F} (h : reopen max directory = some ledger) : ledger.Kept := by
  obtain ⟨recorded, hdecisions, houtcomes⟩ := Option.bind_eq_some_iff.mp h
  have hrecorded : recorded.Kept := by
    refine Directory.replay_keeps (I := Kept) (fun s data s' hs hline => ?_) (Kept.new max true)
      hdecisions
    obtain ⟨decision, -, rfl⟩ := Option.map_eq_some_iff.mp hline
    exact hs.recordLocked decision
  refine Directory.replay_keeps (I := Kept) (fun s data s' hs hline => ?_) hrecorded houtcomes
  obtain ⟨outcome, -, rfl⟩ := Option.map_eq_some_iff.mp hline
  cases hrecord : s.recordOutcomeLocked outcome with
  | none => exact hs
  | some ledger => exact hs.recordOutcomeLocked hrecord

/-! ## Runs -/

/-- The ledger, and for each request the time at which it was last recorded without being kept. -/
structure RetentionState (F : Type) where
  ledger : DecisionLedger F
  directory : Directory
  clock : Nat
  since : String → Nat

/-- A call with the time that dates its file and what the system does with its write. -/
inductive RetentionCall (F : Type) where
  | record (decision : Decision F) (now : Time) (write : FileWrite)
  | updateActual (requestID backendID : String)
  | recordOutcome (outcome : DecisionOutcome F) (now : Time) (write : FileWrite)

namespace RetentionState

variable (s : RetentionState F)

/-- The ledger holds the request. -/
def Present (id : String) : Prop := (s.ledger.entries id).isSome

/-- The request came before all others that the ledger holds. -/
def First (id : String) : Prop := ∀ other, s.Present other → other ≠ id → s.since id < s.since other

/-- The decisions are those of the `count` requests that came last, or of all if there are less, the
newest first. -/
def Newest (count : Nat) (decisions : List (Decision F)) : Prop :=
  ∃ ids : List String, decisions.map some = ids.map s.ledger.entries ∧
    ids.length = min count s.ledger.order.length ∧
    ids.Pairwise (fun a b => s.since b < s.since a) ∧
    ∀ other, s.Present other → other ∉ ids → ∀ id ∈ ids, s.since other < s.since id

end RetentionState

/-- The list has the requests in the order in which they came. -/
structure RetentionInv (s : RetentionState F) : Prop where
  kept : s.ledger.Kept
  ordered : s.ledger.order.Pairwise fun a b => s.since a < s.since b
  past : ∀ id ∈ s.ledger.order, s.since id < s.clock

theorem RetentionInv.present_iff {s : RetentionState F} (h : RetentionInv s) (id : String) :
    s.Present id ↔ id ∈ s.ledger.order :=
  (h.kept.mem_iff id).symm

/-- The first request of the list came first. -/
theorem RetentionInv.first {s : RetentionState F} (h : RetentionInv s) {oldest : String}
    {order : List String} (horder : s.ledger.order = oldest :: order) : s.First oldest := by
  intro other hother hne
  have hordered := h.ordered
  rw [h.present_iff, horder] at hother
  rw [horder] at hordered
  rcases List.mem_cons.mp hother with rfl | hother
  · exact absurd rfl hne
  · exact List.rel_of_pairwise_cons hordered hother

variable [Float64 F] [FloatText F]

/-- The ledger and its counts after a call. -/
def RetentionState.after (s : RetentionState F) : RetentionCall F → RetentionState F
  | .record decision now write =>
    let result := s.ledger.record s.directory now write decision
    { ledger := result.1
      directory := result.2
      clock := s.clock + 1
      since :=
        if (s.ledger.entries decision.requestID).isNone then
          Function.update s.since decision.requestID s.clock
        else s.since }
  | .updateActual requestID backendID =>
    { s with ledger := s.ledger.updateActual requestID backendID }
  | .recordOutcome outcome now write =>
    let result := s.ledger.recordOutcome s.directory now write outcome
    { s with ledger := result.1, directory := result.2 }

/-- Any calls on a new ledger. -/
def retentionRuns : System (RetentionState F) (RetentionCall F) where
  init s := ∃ max journal, s.ledger = .new max journal
  step s call s' := s' = s.after call

/-! ### One call -/

/-- What a call makes of the list: nothing, a new last request, or one that takes the place of the
first. -/
inductive Moves (s s' : RetentionState F) : Prop
  | same (order : s'.ledger.order = s.ledger.order)
      (since : ∀ id ∈ s.ledger.order, s'.since id = s.since id) (clock : s.clock ≤ s'.clock)
  | enters (id : String) (new : id ∉ s.ledger.order)
      (order : s'.ledger.order = s.ledger.order ++ [id])
      (since : s'.since = Function.update s.since id s.clock) (clock : s'.clock = s.clock + 1)
  | replaces (oldest : String) (rest : List String) (id : String) (new : id ∉ s.ledger.order)
      (before : s.ledger.order = oldest :: rest) (order : s'.ledger.order = rest ++ [id])
      (since : s'.since = Function.update s.since id s.clock) (clock : s'.clock = s.clock + 1)

namespace RetentionInv

variable {s s' : RetentionState F}

theorem after_record (h : RetentionInv s) (decision : Decision F) (now : Time) (write : FileWrite) :
    (s.after (.record decision now write)).ledger.Kept ∧
      Moves s (s.after (.record decision now write)) := by
  have hsince :
      ∀ id ∈ s.ledger.order, (s.after (.record decision now write)).since id = s.since id := by
    intro id hid
    show (if (s.ledger.entries decision.requestID).isNone then
      Function.update s.since decision.requestID s.clock else s.since) id = s.since id
    split
    · rename_i hnone
      have hne : id ≠ decision.requestID := by
        rintro rfl
        rw [h.kept.mem_iff, ← Option.not_isNone, hnone] at hid
        cases hid
      exact Function.update_of_ne hne _ _
    · rfl
  have hclock : s.clock ≤ (s.after (.record decision now write)).clock := Nat.le_succ _
  by_cases hempty : decision.requestID = ""
  · have hledger : (s.after (.record decision now write)).ledger = s.ledger := by
      show (s.ledger.record s.directory now write decision).1 = _
      rw [DecisionLedger.record, if_pos hempty]
    rw [hledger]
    exact ⟨h.kept, .same (by rw [hledger]) hsince hclock⟩
  obtain ⟨err, herr⟩ := (s.ledger.recordLocked decision).journalAppend_ledger s.directory
    (path "decisions" now) decision write
  have hledger : (s.after (.record decision now write)).ledger =
      { s.ledger.recordLocked decision with err } := by
    show (s.ledger.record s.directory now write decision).1 = _
    rw [DecisionLedger.record, if_neg hempty, herr]
  rw [hledger]
  refine ⟨(h.kept.recordLocked decision).err err, ?_⟩
  cases hentry : s.ledger.entries decision.requestID with
  | some old =>
    refine .same ?_ hsince hclock
    rw [hledger, DecisionLedger.recordLocked_known h.kept (by rw [hentry]; rfl)]
  | none =>
    have hnew : decision.requestID ∉ s.ledger.order := by
      rw [h.kept.mem_iff, hentry]
      exact Bool.false_ne_true
    have hcame : (s.after (.record decision now write)).since =
        Function.update s.since decision.requestID s.clock := by
      show (if _ then _ else _) = _
      rw [if_pos (by rw [hentry]; rfl)]
    rcases h.kept.length_le.lt_or_eq with hroom | hfull
    · refine .enters _ hnew ?_ hcame rfl
      rw [hledger, DecisionLedger.recordLocked_new hentry hroom]
    · obtain ⟨oldest, rest, horder⟩ := List.exists_cons_of_length_pos (hfull ▸ h.kept.max_pos)
      refine .replaces oldest rest _ hnew horder ?_ hcame rfl
      rw [hledger, DecisionLedger.recordLocked_full hentry horder hfull]

/-- **What one call does.** -/
theorem after_spec (h : RetentionInv s) (call : RetentionCall F) :
    (s.after call).ledger.Kept ∧ Moves s (s.after call) := by
  cases call with
  | record decision now write => exact h.after_record decision now write
  | updateActual requestID backendID =>
    refine ⟨h.kept.updateActual requestID backendID, .same ?_ (fun _ _ => rfl) le_rfl⟩
    show (s.ledger.updateActual requestID backendID).order = _
    unfold DecisionLedger.updateActual
    split
    · rfl
    · rfl
  | recordOutcome outcome now write =>
    have hsame : ∀ order, order = s.ledger.order →
        (s.after (.recordOutcome outcome now write)).ledger.order = order →
        Moves s (s.after (.recordOutcome outcome now write)) := by
      rintro order rfl horder
      exact .same horder (fun _ _ => rfl) le_rfl
    unfold RetentionState.after at hsame ⊢
    dsimp only at hsame ⊢
    unfold DecisionLedger.recordOutcome at hsame ⊢
    by_cases hempty : outcome.requestID = ""
    · rw [if_pos hempty] at hsame ⊢
      exact ⟨h.kept, hsame _ rfl rfl⟩
    rw [if_neg hempty] at hsame ⊢
    cases hrecord : s.ledger.recordOutcomeLocked outcome with
    | none =>
      rw [hrecord] at hsame
      exact ⟨h.kept, hsame _ rfl rfl⟩
    | some ledger =>
      rw [hrecord] at hsame
      dsimp only at hsame ⊢
      obtain ⟨err, herr⟩ := ledger.journalAppend_ledger s.directory (path "outcomes" now) outcome
        write
      have horder : ledger.order = s.ledger.order := by
        obtain ⟨decision, -, rfl⟩ := Option.map_eq_some_iff.mp hrecord
        rfl
      rw [herr] at hsame ⊢
      exact ⟨(h.kept.recordOutcomeLocked hrecord).err err, hsame _ horder rfl⟩

omit [Float64 F] [FloatText F] in
/-- A call keeps the order in which the requests came. -/
theorem moves (h : RetentionInv s) (hkept : s'.ledger.Kept) (hmoves : Moves s s') :
    RetentionInv s' := by
  have hcame : ∀ id, id ∉ s.ledger.order → s'.since = Function.update s.since id s.clock →
      s'.clock = s.clock + 1 → ∀ rest, rest.Sublist s.ledger.order →
      (rest ++ [id]).Pairwise (fun a b => s'.since a < s'.since b) ∧
        ∀ a ∈ rest ++ [id], s'.since a < s'.clock := by
    intro id hnew hsince hclock rest hrest
    have hold : ∀ a ∈ rest, s'.since a = s.since a := by
      intro a ha
      have hne : a ≠ id := by
        rintro rfl
        exact hnew (hrest.subset ha)
      rw [hsince, Function.update_of_ne hne]
    have hself : s'.since id = s.clock := by
      rw [hsince, Function.update_self]
    constructor
    · rw [List.pairwise_append]
      refine ⟨(h.ordered.sublist hrest).imp_of_mem fun ha hb hlt => ?_, List.pairwise_singleton _ _,
        fun a ha b hb => ?_⟩
      · rwa [hold _ ha, hold _ hb]
      · rw [List.mem_singleton.mp hb, hself, hold a ha]
        exact h.past a (hrest.subset ha)
    · intro a ha
      rcases List.mem_append.mp ha with ha | ha
      · rw [hold a ha, hclock]
        exact Nat.lt_succ_of_lt (h.past a (hrest.subset ha))
      · rw [List.mem_singleton.mp ha, hself, hclock]
        exact Nat.lt_succ_self _
  cases hmoves with
  | same order since clock =>
    refine ⟨hkept, ?_, ?_⟩
    · rw [order]
      refine h.ordered.imp_of_mem fun ha hb hlt => ?_
      rwa [since _ ha, since _ hb]
    · rw [order]
      intro id hid
      rw [since id hid]
      exact (h.past id hid).trans_le clock
  | enters id new order since clock =>
    obtain ⟨hordered, hpast⟩ := hcame id new since clock _ (List.Sublist.refl _)
    rw [← order] at hordered hpast
    exact ⟨hkept, hordered, hpast⟩
  | replaces oldest rest id new before order since clock =>
    obtain ⟨hordered, hpast⟩ := hcame id new since clock rest (before ▸ List.sublist_cons_self _ _)
    rw [← order] at hordered hpast
    exact ⟨hkept, hordered, hpast⟩

omit [Float64 F] [FloatText F] in
/-- A call drops the request that came first, or none. -/
theorem dropped (h : RetentionInv s) (h' : RetentionInv s') (hmoves : Moves s s') {id : String}
    (hid : s.Present id) (hgone : ¬ s'.Present id) :
    s.First id ∧ ∀ other, s.Present other → other ≠ id → s'.Present other := by
  rw [h.present_iff] at hid
  rw [h'.present_iff] at hgone
  cases hmoves with
  | same order =>
    rw [order] at hgone
    exact absurd hid hgone
  | enters new _ order =>
    rw [order] at hgone
    exact absurd (List.mem_append_left _ hid) hgone
  | replaces oldest rest new _ before order =>
    rw [order, List.mem_append, not_or] at hgone
    obtain rfl : id = oldest := by
      rw [before] at hid
      rcases List.mem_cons.mp hid with hid | hid
      · exact hid
      · exact absurd hid hgone.1
    refine ⟨h.first before, fun other hother hne => ?_⟩
    rw [h.present_iff, before] at hother
    rw [h'.present_iff, order]
    rcases List.mem_cons.mp hother with rfl | hother
    · exact absurd rfl hne
    · exact List.mem_append_left _ hother

theorem inductive_inv : (retentionRuns (F := F)).Inductive RetentionInv where
  init s hinit := by
    obtain ⟨max, journal, hledger⟩ := hinit
    have hkept := DecisionLedger.Kept.new (F := F) max journal
    refine ⟨hledger ▸ hkept, ?_, ?_⟩
    · rw [hledger]
      exact List.Pairwise.nil
    · rw [hledger]
      exact fun id hid => absurd hid List.not_mem_nil
  step s call s' h hstep := by
    obtain rfl := hstep
    obtain ⟨hkept, hmoves⟩ := h.after_spec call
    exact h.moves hkept hmoves

omit [FloatText F] in
/-- `recent` returns the decisions that came last. -/
theorem recent_newest (h : RetentionInv s) {limit : Int} (hpos : 1 ≤ limit) (hle : limit ≤ 1000) :
    s.Newest limit.toNat (s.ledger.recent limit) := by
  have hrecent : s.ledger.recent limit = (s.ledger.order.reverse.take limit.toNat).map fun id =>
      (s.ledger.entries id).getD .zero := by
    unfold DecisionLedger.recent
    rw [if_neg (by omega)]
  have hordered : s.ledger.order.reverse.Pairwise fun a b => s.since b < s.since a :=
    List.pairwise_reverse.mpr h.ordered
  refine ⟨s.ledger.order.reverse.take limit.toNat, ?_, ?_,
    hordered.sublist (List.take_sublist _ _), ?_⟩
  · rw [hrecent, List.map_map]
    refine List.map_congr_left fun id hid => ?_
    have hentry := (h.kept.mem_iff id).mp (List.mem_reverse.mp (List.mem_of_mem_take hid))
    obtain ⟨decision, hdecision⟩ := Option.isSome_iff_exists.mp hentry
    rw [Function.comp_apply, hdecision]
    rfl
  · rw [List.length_take, List.length_reverse]
  · intro other hother hnot id hid
    rw [← List.take_append_drop limit.toNat s.ledger.order.reverse,
      List.pairwise_append] at hordered
    refine hordered.2.2 id hid other ?_
    rw [h.present_iff, ← List.mem_reverse,
      ← List.take_append_drop limit.toNat s.ledger.order.reverse] at hother
    exact (List.mem_append.mp hother).resolve_left hnot

end RetentionInv

/-- **What the ledger keeps**, in every state of a run: the map and the list agree, an eviction
drops just the request that came first, and `recent` returns the decisions that came last. -/
theorem ledger_retention {s : RetentionState F} (hs : retentionRuns.Reach s) :
    (s.ledger.order.Nodup ∧ (∀ id, id ∈ s.ledger.order ↔ s.Present id) ∧
      s.ledger.order.length ≤ s.ledger.max) ∧
    (∀ call id, s.Present id → ¬ (s.after call).Present id →
      s.First id ∧ ∀ other, s.Present other → other ≠ id → (s.after call).Present other) ∧
    ∀ limit : Int, 1 ≤ limit → limit ≤ 1000 → s.Newest limit.toNat (s.ledger.recent limit) := by
  have h := RetentionInv.inductive_inv.reach hs
  refine ⟨⟨h.kept.nodup, h.kept.mem_iff, h.kept.length_le⟩, fun call id hid hgone => ?_,
    fun limit hpos hle => h.recent_newest hpos hle⟩
  obtain ⟨hkept, hmoves⟩ := h.after_spec call
  exact h.dropped (h.moves hkept hmoves) hmoves hid hgone

namespace RetentionSample

local instance : Float64 Rat := .rational fun _ => 1

attribute [local instance] integerText

def decision (id : String) : Decision Rat := { Decision.zero with requestID := id }

/-- A ledger for one request. -/
def empty : RetentionState Rat where
  ledger := .new 1 false
  directory := ∅
  clock := 0
  since _ := 0

def recorded : RetentionState Rat := empty.after (.record (decision "req-1") 0 .notOpened)

theorem reach_recorded : retentionRuns.Reach recorded :=
  .step (i := .record (decision "req-1") 0 .notOpened) (.init ⟨1, false, rfl⟩) rfl

/-- The second request takes the place of the first. -/
theorem second_evicts_first :
    recorded.First "req-1" ∧
      (recorded.after (.record (decision "req-2") 0 .notOpened)).ledger.order = ["req-2"] := by
  obtain ⟨-, hdropped, -⟩ := ledger_retention reach_recorded
  refine ⟨(hdropped (.record (decision "req-2") 0 .notOpened) "req-1" ?_ ?_).1, ?_⟩
  · show (_ : Option (Decision Rat)).isSome = true
    decide +kernel
  · show ¬ (_ : Option (Decision Rat)).isSome = true
    decide +kernel
  · decide +kernel

end RetentionSample

end Kavora.Ledger
