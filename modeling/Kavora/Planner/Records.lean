import Kavora.Planner.Evaluation

/-!
# The rows of a journal as records

The evaluation works on parsed documents. Here its rows are those of the decisions and outcomes
that the gateway appended.

* `joinedRecords`, `armRecords`: the rows of an experiment and of an arm as records.
* `joinedRows_records`: the rows that the evaluation joins are the documents of these records.
* `reportOf_some`: what a report says of the rows.
* `evaluateJournal_some`: a report on a journal is one on such rows.
-/

namespace Kavora.Planner

open Lib Lib.Go Ledger
open Float64 (ofInt)

/-! ## Members of records -/

section

variable {S : Type} {fields : List (Go.Field S)} {s : S} {doc : Json}

theorem text_member (hnodup : (fields.map (·.name)).Nodup) (h : marshalStruct fields s = some doc)
    {name : String} {get : S → String} {set : String → S → S}
    (hf : field name get set ∈ fields) : doc.member name = some (ofString (get s)) := by
  have hmember := member_marshalStruct hnodup h hf
  exact (Option.some.inj hmember).symm

theorem isText_omitempty (hnodup : (fields.map (·.name)).Nodup)
    (h : marshalStruct fields s = some doc) {name : String} {get : S → String}
    {set : String → S → S} (hf : omitempty name String.isEmpty get set ∈ fields) (text : String) :
    Json.isText (doc.member name) text = (!(get s).isEmpty && get s = text) := by
  have hmember : (if (get s).isEmpty then some none else some (some (ofString (get s)))) =
      some (doc.member name) := member_marshalStruct hnodup h hf
  by_cases hempty : (get s).isEmpty = true
  · rw [if_pos hempty] at hmember
    rw [← Option.some.inj hmember, hempty]
    rfl
  · rw [if_neg hempty] at hmember
    rw [← Option.some.inj hmember]
    simp only [hempty, Bool.not_false, Bool.true_and]
    rfl

theorem textOr_omitempty (hnodup : (fields.map (·.name)).Nodup)
    (h : marshalStruct fields s = some doc) {name : String} {get : S → String}
    {set : String → S → S} (hf : omitempty name String.isEmpty get set ∈ fields) :
    textOr (doc.member name) = get s := by
  have hmember : (if (get s).isEmpty then some none else some (some (ofString (get s)))) =
      some (doc.member name) := member_marshalStruct hnodup h hf
  by_cases hempty : (get s).isEmpty = true
  · rw [if_pos hempty] at hmember
    rw [← Option.some.inj hmember]
    exact (String.isEmpty_iff.mp hempty).symm
  · rw [if_neg hempty] at hmember
    rw [← Option.some.inj hmember]
    rfl

variable {F : Type} [Float64 F] [FloatText F]

theorem truthy_flag (hnodup : (fields.map (·.name)).Nodup) (h : marshalStruct fields s = some doc)
    {name : String} {get : S → Bool} {set : Bool → S → S}
    (hf : omitempty name (!·) get set ∈ fields) : Json.truthy F (doc.member name) = get s := by
  have hmember : (if (!get s) = true then some none else some (some (Json.bool (get s)))) =
      some (doc.member name) := member_marshalStruct hnodup h hf
  cases hget : get s with
  | false =>
    rw [hget] at hmember
    rw [← Option.some.inj hmember]
    rfl
  | true =>
    rw [hget] at hmember
    rw [← Option.some.inj hmember]
    rfl

variable [LawfulFloatText F]

theorem toFloat_marshal {x : F} {value : Json} (h : Marshal.marshal x = some value) :
    Json.toFloat F value = some x ∧ FloatText.isFinite x = true := by
  have h : (if FloatText.isFinite x then some (Json.number (.ofList (FloatText.format x)))
    else none) = some value := h
  split at h
  · rename_i hfinite
    cases h
    refine ⟨?_, hfinite⟩
    show FloatText.parseFloat (String.ofList (FloatText.format x)).toList = some x
    rw [String.toList_ofList]
    exact LawfulFloatText.parseFloat_format hfinite
  · cases h

theorem floatOf_member (hnodup : (fields.map (·.name)).Nodup)
    (h : marshalStruct fields s = some doc) {name : String} {get : S → F} {set : F → S → S}
    (hf : field name get set ∈ fields) : floatOf (doc.member name) = some (get s) := by
  have hmember := member_marshalStruct hnodup h hf
  obtain ⟨value, hvalue, heq⟩ := Option.map_eq_some_iff.mp hmember
  have heq : some value = doc.member name := heq
  rw [← heq]
  exact (toFloat_marshal hvalue).1

end

variable {F : Type} [Float64 F] [FloatText F]

theorem decision_nodup : ((Decision.fields (F := F)).map (·.name)).Nodup := by
  simp [Decision.fields, field, omitempty]

theorem outcome_nodup : ((DecisionOutcome.fields (F := F)).map (·.name)).Nodup := by
  simp [DecisionOutcome.fields, field, omitempty]

theorem predictionError_nodup : ((PredictionError.fields (F := F)).map (·.name)).Nodup := by
  simp [PredictionError.fields, field, omitempty]

section Decision

variable {d : Decision F} {doc : Json} (h : Marshal.marshal d = some doc)

include h

theorem decision_requestKey : requestKey doc = some (some d.requestID) := by
  have hmember := text_member decision_nodup h (List.mem_of_getElem? (i := 0) rfl)
  unfold requestKey
  rw [show doc.member "request_id" = _ from hmember]
  rfl

theorem decision_experimentID (text : String) :
    Json.isText (doc.member "experiment_id") text =
      (!d.experimentID.isEmpty && d.experimentID = text) :=
  isText_omitempty decision_nodup h (List.mem_of_getElem? (i := 5) rfl) text

theorem decision_assignedPolicy (text : String) :
    Json.isText (doc.member "assigned_policy") text =
      (!d.assignedPolicy.isEmpty && d.assignedPolicy = text) :=
  isText_omitempty decision_nodup h (List.mem_of_getElem? (i := 6) rfl) text

theorem decision_policyText : textOr (doc.member "assigned_policy") = d.assignedPolicy :=
  textOr_omitempty decision_nodup h (List.mem_of_getElem? (i := 6) rfl)

theorem decision_window : textOr (doc.member "experiment_window") = d.experimentWindow :=
  textOr_omitempty decision_nodup h (List.mem_of_getElem? (i := 10) rfl)

theorem decision_warmup : Json.truthy F (doc.member "warmup") = d.warmup :=
  truthy_flag decision_nodup h (List.mem_of_getElem? (i := 11) rfl)

theorem decision_carryoverGuard : Json.truthy F (doc.member "carryover_guard") = d.carryoverGuard :=
  truthy_flag decision_nodup h (List.mem_of_getElem? (i := 12) rfl)

/-- The probability is read as it was, and a zero one as zero. -/
theorem decision_probability [LawfulFloatText F] :
    floatOf (doc.member "assignment_probability") = some d.normal.assignmentProbability ∧
      (Float64.eq d.assignmentProbability (ofInt 0) = true ∨
        FloatText.isFinite d.assignmentProbability = true) := by
  have hmember := member_marshalStruct decision_nodup h (List.mem_of_getElem? (i := 8) rfl)
  have hmember : (if Float64.eq d.assignmentProbability (ofInt 0) = true then some none
      else (Marshal.marshal d.assignmentProbability).map some) =
        some (doc.member "assignment_probability") := hmember
  unfold Decision.normal
  by_cases hzero : Float64.eq d.assignmentProbability (ofInt 0) = true
  · rw [if_pos hzero] at hmember
    rw [← Option.some.inj hmember]
    refine ⟨?_, .inl hzero⟩
    simp only [if_pos hzero]
    rfl
  · rw [if_neg hzero] at hmember
    obtain ⟨value, hvalue, heq⟩ := Option.map_eq_some_iff.mp hmember
    obtain ⟨hfloat, hfinite⟩ := toFloat_marshal hvalue
    rw [← heq]
    refine ⟨?_, .inr hfinite⟩
    simp only [if_neg hzero]
    exact hfloat

/-- The prediction error that a decision carries. -/
theorem decision_predictionError [LawfulFloatText F] :
    Json.truthy F (doc.member "prediction_error") = d.predictionError.isSome ∧
      ∀ error ∈ d.predictionError, ∃ ms, doc.member "prediction_error" = some (.object ms) ∧
        floatOf ((Json.object ms).member "ttft_absolute_error_ms") = some error.ttftAbsoluteMS := by
  have hmember := member_marshalStruct decision_nodup h (List.mem_of_getElem? (i := 30) rfl)
  have hmember : (if d.predictionError.isNone then some none
      else (Marshal.marshal d.predictionError).map some) =
        some (doc.member "prediction_error") := hmember
  cases herror : d.predictionError with
  | none =>
    rw [herror] at hmember
    rw [← Option.some.inj hmember]
    exact ⟨rfl, nofun⟩
  | some error =>
    rw [herror] at hmember
    obtain ⟨value, hvalue, heq⟩ := Option.map_eq_some_iff.mp hmember
    have hvalue : Marshal.marshal error = some value := hvalue
    obtain ⟨ms, rfl⟩ := (PredictionError.read_back hvalue).2.1
    have habsolute : floatOf ((Json.object ms).member "ttft_absolute_error_ms") =
        some error.ttftAbsoluteMS :=
      floatOf_member predictionError_nodup hvalue (List.mem_of_getElem? (i := 4) rfl)
    rw [← heq]
    refine ⟨?_, fun error' hmem => ?_⟩
    · have hversion : (Json.object ms).member "predictor_version" =
          some (ofString error.predictorVersion) :=
        text_member predictionError_nodup hvalue (List.mem_of_getElem? (i := 0) rfl)
      cases ms with
      | nil => cases hversion
      | cons m ms => rfl
    · cases hmem
      exact ⟨ms, rfl, habsolute⟩

end Decision

section Outcome

variable {o : DecisionOutcome F} {doc : Json} (h : Marshal.marshal o = some doc)

include h

theorem outcome_requestID :
    requestKey doc = some (some o.requestID) ∧
      Json.truthy F (doc.member "request_id") = !o.requestID.isEmpty := by
  have hmember : doc.member "request_id" = some (ofString o.requestID) :=
    text_member outcome_nodup h (List.mem_of_getElem? (i := 0) rfl)
  unfold requestKey
  rw [hmember]
  refine ⟨rfl, ?_⟩
  have hempty : (o.requestID = "") ↔ o.requestID.isEmpty = true := String.isEmpty_iff.symm
  show decide (o.requestID ≠ "") = _
  by_cases hid : o.requestID = ""
  · rw [hid]
    rfl
  · rw [decide_eq_true hid, Bool.eq_false_iff.mpr fun h => hid (hempty.mpr h)]
    rfl

end Outcome

/-! ## Rows of records -/

/-- A decision with its outcome. -/
abbrev Record (F : Type) := Decision F × DecisionOutcome F

/-- The decisions of the experiment that have outcomes. -/
def joinedRecords (experimentID : String) (decisions : List (Decision F))
    (outcomes : List (DecisionOutcome F)) : List (Record F) :=
  let decisions :=
    decisions.filter fun d => !d.experimentID.isEmpty && d.experimentID = experimentID
  let outcomes := outcomes.filter fun o => !o.requestID.isEmpty
  (dict (decisions.map fun d => (some d.requestID, d))).filterMap fun (key, decision) =>
    ((dict (outcomes.map fun o => (some o.requestID, o))).lookup key).map fun outcome =>
      (decision, outcome)

/-- The records of an arm that are not guarded. -/
def armRecords (policy : String) (joined : List (Record F)) : List (Record F) :=
  (joined.filter fun r => !(r.1.warmup || r.1.carryoverGuard)).filter fun r =>
    !r.1.assignedPolicy.isEmpty && r.1.assignedPolicy = policy

/-- The documents of a record. -/
def RowOf (r : Record F) (row : Row) : Prop :=
  Marshal.marshal r.1 = some row.decision ∧ Marshal.marshal r.2 = some row.outcome

/-- The row of a record. -/
def rowOf (r : Record F) : Option Row := do
  let decision ← Marshal.marshal r.1
  let outcome ← Marshal.marshal r.2
  pure { decision, outcome }

theorem RowOf.rowOf_eq {r : Record F} {row : Row} (h : RowOf r row) : rowOf r = some row := by
  unfold rowOf
  rw [h.1, h.2]
  rfl

theorem exists_record {records : List (Record F)} {rows : List Row}
    (h : List.Forall₂ RowOf records rows) {row : Row} (hrow : row ∈ rows) :
    ∃ r ∈ records, RowOf r row := by
  induction h with
  | nil => cases hrow
  | cons hhead _ ih =>
    rcases List.mem_cons.mp hrow with rfl | hrow
    · exact ⟨_, List.mem_cons_self, hhead⟩
    · obtain ⟨r, hr, hrel⟩ := ih hrow
      exact ⟨r, List.mem_cons_of_mem _ hr, hrel⟩

theorem mapM_rowOf {records : List (Record F)} {rows : List Row}
    (h : List.Forall₂ RowOf records rows) : records.mapM rowOf = some rows := by
  induction h with
  | nil => rfl
  | cons hrow _ ih =>
    rw [List.mapM_cons, hrow.rowOf_eq, ih]
    rfl

theorem keyed_documents {α : Type} [Marshal α] {key : α → String} {values : List α}
    {docs : List Json} (hdocs : Documents values docs)
    (hkey : ∀ {a doc}, Marshal.marshal a = some doc → requestKey doc = some (some (key a))) :
    ∃ items, docs.mapM keyed = some items ∧
      List.Forall₂ (RelItem fun a doc => Marshal.marshal a = some doc)
        (values.map fun a => (some (key a), a)) items := by
  induction hdocs with
  | nil => exact ⟨[], rfl, .nil⟩
  | @cons a doc values docs hdoc _ ih =>
    obtain ⟨items, hitems, hrel⟩ := ih
    refine ⟨(some (key a), doc) :: items, ?_, .cons ⟨rfl, hdoc⟩ hrel⟩
    rw [List.mapM_cons, hitems, keyed, hkey hdoc]
    rfl

/-- The rows that the evaluation joins are the documents of the joined records. -/
theorem joinedRows_records (experimentID : String) {decisions : List (Decision F)}
    {outcomes : List (DecisionOutcome F)} {decisionDocs outcomeDocs : List Json}
    (hdecisions : Documents decisions decisionDocs) (houtcomes : Documents outcomes outcomeDocs) :
    ∃ rows, joinedRows F experimentID decisionDocs outcomeDocs = some rows ∧
      List.Forall₂ RowOf (joinedRecords experimentID decisions outcomes) rows := by
  have hdecisions' := List.rel_filter
    (p := fun d : Decision F => !d.experimentID.isEmpty && d.experimentID = experimentID)
    (q := fun doc => Json.isText (doc.member "experiment_id") experimentID)
    (fun d doc hdoc => by dsimp only; rw [decision_experimentID hdoc]) hdecisions
  have houtcomes' := List.rel_filter (p := fun o : DecisionOutcome F => !o.requestID.isEmpty)
    (q := fun doc => Json.truthy F (doc.member "request_id"))
    (fun o doc hdoc => by dsimp only; rw [(outcome_requestID hdoc).2]) houtcomes
  obtain ⟨decisionItems, hdecisionItems, hdecisionRel⟩ :=
    keyed_documents hdecisions' fun hdoc => decision_requestKey hdoc
  obtain ⟨outcomeItems, houtcomeItems, houtcomeRel⟩ :=
    keyed_documents houtcomes' fun hdoc => (outcome_requestID hdoc).1
  unfold joinedRows
  rw [hdecisionItems, houtcomeItems]
  refine ⟨_, rfl, List.rel_filterMap (fun item item' hitem => ?_) (rel_dict hdecisionRel)⟩
  obtain ⟨key, decision⟩ := item
  obtain ⟨key', doc⟩ := item'
  obtain ⟨rfl, hdoc⟩ : key = key' ∧ Marshal.marshal decision = some doc := hitem
  exact rel_option_map (fun houtcome => ⟨hdoc, houtcome⟩) (rel_lookup (rel_dict houtcomeRel) key)

theorem isGuarded_record {r : Record F} {row : Row} (h : RowOf r row) :
    isGuarded F row = (r.1.warmup || r.1.carryoverGuard) := by
  unfold isGuarded
  rw [decision_warmup h.1, decision_carryoverGuard h.1]

/-- The rows of an arm are the documents of its records. -/
theorem armRows_records (policy : String) {records : List (Record F)} {rows : List Row}
    (h : List.Forall₂ RowOf records rows) :
    List.Forall₂ RowOf (armRecords policy records) (armRows policy (eligibleRows F rows)) := by
  have heligible := List.rel_filter
    (p := fun r : Record F => !(r.1.warmup || r.1.carryoverGuard))
    (q := fun row => !isGuarded F row)
    (fun r row hrow => by dsimp only; rw [isGuarded_record hrow]) h
  exact List.rel_filter
    (p := fun r : Record F => !r.1.assignedPolicy.isEmpty && r.1.assignedPolicy = policy)
    (q := fun row => Json.isText (row.decision.member "assigned_policy") policy)
    (fun r row hrow => by dsimp only; rw [decision_assignedPolicy hrow.1]) heligible

omit [Float64 F] [FloatText F] in
theorem mem_joinedRecords {experimentID : String} {decisions : List (Decision F)}
    {outcomes : List (DecisionOutcome F)} {r : Record F}
    (h : r ∈ joinedRecords experimentID decisions outcomes) : r.1 ∈ decisions := by
  unfold joinedRecords at h
  obtain ⟨⟨key, decision⟩, hmem, h⟩ := List.mem_filterMap.mp h
  obtain ⟨outcome, -, rfl⟩ := Option.map_eq_some_iff.mp h
  obtain ⟨d, hd, heq⟩ := List.mem_map.mp (mem_dict hmem)
  cases heq
  exact (List.mem_filter.mp hd).1

/-- The prediction errors that the decisions carried when they were recorded. -/
def recordedErrors (records : List (Record F)) : List F :=
  records.filterMap fun r => r.1.predictionError.map (·.ttftAbsoluteMS)

theorem predictionErrors_records [LawfulFloatText F] {records : List (Record F)} {rows : List Row}
    (h : List.Forall₂ RowOf records rows) :
    predictionErrors rows = some (recordedErrors records) := by
  unfold predictionErrors recordedErrors
  induction h with
  | nil => rfl
  | @cons r row records rows hrow _ ih =>
    obtain ⟨htruthy, herror⟩ := decision_predictionError hrow.1
    rw [List.filter_cons, htruthy, List.filterMap_cons]
    cases hr : r.1.predictionError with
    | none => exact ih
    | some error =>
      obtain ⟨ms, hmember, habsolute⟩ := herror error hr
      rw [Option.isSome_some, if_pos rfl, List.mapM_cons, hmember]
      simp only [habsolute, ih]
      rfl

/-! ## Reports -/

section Report

variable [Statistics F]

theorem armMetrics_predictionMAE {rows : List Row} {sloMS : F} {metrics : ArmMetrics F}
    (h : armMetrics rows sloMS = some metrics) :
    ∃ errors, predictionErrors rows = some errors ∧ metrics.predictionMAEMS = meanOf errors := by
  unfold armMetrics at h
  obtain ⟨ttfts, -, h⟩ := Option.bind_eq_some_iff.mp h
  obtain ⟨errors, herrors, h⟩ := Option.bind_eq_some_iff.mp h
  cases h
  exact ⟨errors, herrors, rfl⟩

/-- What a report says of the joined rows. -/
theorem reportOf_some {random : Random} {settings : Settings F} {joined : List Row}
    {report : Report F} (h : reportOf random settings joined = some report) :
    armMetrics (armRows settings.controlPolicy (eligibleRows F joined)) settings.sloMS =
        some report.control ∧
      armMetrics (armRows settings.treatmentPolicy (eligibleRows F joined)) settings.sloMS =
        some report.treatment ∧
      report.safety = safety settings.guardrails report.control report.treatment ∧
      report.integrity.contaminatedWindows = contaminatedWindows (eligibleRows F joined) ∧
      (report.promotionEligible = true → report.safety.predictionDrift = true) := by
  unfold reportOf at h
  obtain ⟨controlTTFT, -, h⟩ := Option.bind_eq_some_iff.mp h
  obtain ⟨treatmentTTFT, -, h⟩ := Option.bind_eq_some_iff.mp h
  split at h
  · cases h
  obtain ⟨controlWindows, -, h⟩ := Option.bind_eq_some_iff.mp h
  obtain ⟨treatmentWindows, -, h⟩ := Option.bind_eq_some_iff.mp h
  obtain ⟨controlMetrics, hcontrol, h⟩ := Option.bind_eq_some_iff.mp h
  obtain ⟨treatmentMetrics, htreatment, h⟩ := Option.bind_eq_some_iff.mp h
  obtain ⟨assignmentOk, -, h⟩ := Option.bind_eq_some_iff.mp h
  obtain ⟨strata, -, h⟩ := Option.bind_eq_some_iff.mp h
  cases h
  refine ⟨hcontrol, htreatment, rfl, rfl, fun heligible => ?_⟩
  simp only [Bool.and_eq_true] at heligible
  exact heligible.1.1.1.2

end Report

/-! ## Journals -/

section Journal

/-- The rows that the evaluation of a journal joins. -/
def joinedJournal (settings : Settings F) (s : CrashState F) : Option (List Row) := do
  let decisionRows ← readJsonl .evaluation (journalFiles s.directory "decisions")
  let outcomeRows ← readJsonl .evaluation (journalFiles s.directory "outcomes")
  joinedRows F settings.experimentID decisionRows outcomeRows

/-- They are the documents of the records, unless a string of one of these breaks its line. -/
theorem joinedJournal_rows [LawfulFloatText F] {s : CrashState F}
    (hs : (crashRuns.restrict AppendsAll).Reach s) (settings : Settings F) :
    ∃ rows, List.Forall₂ RowOf (joinedRecords settings.experimentID
        (inFileOrder s.directory "decisions" s.decisions)
        (inFileOrder s.directory "outcomes" s.outcomes)) rows ∧
      joinedJournal settings s =
        if (∀ d ∈ inFileOrder s.directory "decisions" s.decisions, UnbrokenRecord d) ∧
            ∀ o ∈ inFileOrder s.directory "outcomes" s.outcomes, UnbrokenRecord o then
          some rows
        else none := by
  obtain ⟨⟨decisionDocs, hdecisions⟩, outcomeDocs, houtcomes⟩ := WrittenInv.inductive_inv.reach hs
  have hdecisionRows := readJsonl_journal readsBack_decision hdecisions .evaluation
  have houtcomeRows := readJsonl_journal readsBack_outcome houtcomes .evaluation
  rw [hdecisions.documents_glob.mapM, ite_congr
    (propext (unbroken_documents hdecisions.documents_glob)) (fun _ => rfl) (fun _ => rfl)]
    at hdecisionRows
  rw [houtcomes.documents_glob.mapM, ite_congr
    (propext (unbroken_documents houtcomes.documents_glob)) (fun _ => rfl) (fun _ => rfl)]
    at houtcomeRows
  obtain ⟨rows, hrows, hrel⟩ := joinedRows_records settings.experimentID
    hdecisions.documents_glob houtcomes.documents_glob
  refine ⟨rows, hrel, ?_⟩
  unfold joinedJournal
  rw [hdecisionRows, houtcomeRows]
  unfold inFileOrder
  by_cases hd : ∀ d ∈ (s.directory.glob "decisions").flatMap s.decisions, UnbrokenRecord d
  · by_cases ho : ∀ o ∈ (s.directory.glob "outcomes").flatMap s.outcomes, UnbrokenRecord o
    · rw [if_pos hd, if_pos ho, if_pos ⟨hd, ho⟩]
      exact hrows
    · rw [if_neg ho, if_neg fun h : _ ∧ _ => ho h.2]
      simp only [Option.bind_eq_bind, Option.bind_none, Option.bind_fun_none]
  · rw [if_neg hd, if_neg fun h : _ ∧ _ => hd h.1]
    rfl

variable [Statistics F]

/-- The evaluation of a journal. -/
def evaluateJournal (random : Random) (settings : Settings F) (s : CrashState F) :
    Option (Report F) :=
  evaluateExperiment random settings (journalFiles s.directory "decisions")
    (journalFiles s.directory "outcomes")

theorem evaluateJournal_eq (random : Random) (settings : Settings F) (s : CrashState F) :
    evaluateJournal random settings s =
      (joinedJournal settings s).bind (reportOf random settings) := by
  unfold evaluateJournal evaluateExperiment joinedJournal
  simp only [Option.bind_eq_bind, Option.bind_assoc]

/-- The rows that a report on a journal is made of. -/
theorem evaluateJournal_some [LawfulFloatText F] {random : Random} {settings : Settings F}
    {s : CrashState F} (hs : (crashRuns.restrict AppendsAll).Reach s) {report : Report F}
    (h : evaluateJournal random settings s = some report) :
    ∃ rows, List.Forall₂ RowOf (joinedRecords settings.experimentID
        (inFileOrder s.directory "decisions" s.decisions)
        (inFileOrder s.directory "outcomes" s.outcomes)) rows ∧
      joinedJournal settings s = some rows ∧ reportOf random settings rows = some report := by
  obtain ⟨rows, hrel, heq⟩ := joinedJournal_rows hs settings
  rw [evaluateJournal_eq, heq] at h
  split at h
  · rename_i hunbroken
    rw [if_pos hunbroken] at heq
    exact ⟨rows, hrel, heq, h⟩
  · cases h

end Journal

end Kavora.Planner
