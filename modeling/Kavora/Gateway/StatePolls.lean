import Kavora.Lib.JsonStream
import Kavora.Router.Evaluator
import Kavora.Router.SnapshotHash
import Kavora.Exporter.Service

/-!
# Polls of the backend states (`pollBackendStateOnce` in `gateway/cmd/gateway/main.go`)

The gateway asks each exporter for its snapshot and stores it in the controller, from where the plans
take it.

* `pollBackendState`: the reply of one URL. `pollBackendStateOnce` goes over all of them.
* `Service.answer`: the answer of an exporter to `/backend-state`.
* `unmarshal_emitted`: the document of a snapshot is read as the snapshot.
* `poll_answer`: when the snapshot of an exporter reaches the controller, and as what;
  `pollBackendStateOnce_takes`: what a turn over all URLs leaves.
-/

namespace Kavora.Gateway

open Lib Lib.Go Lib.Json Router BackendState Exporter

/-! ## The gateway -/

/-- What comes back for a URL: no response, a response whose body breaks off, or an answer. -/
inductive StateReply where
  | unreachable
  | broken
  | answer (statusCode : Nat) (body : Bytes)

/-- Why a poll has failed. -/
inductive PollFailure where
  | request
  | read
  | status (statusCode : Nat)
  | decode
  | state (err : String)
  deriving DecidableEq, Repr

section

variable {F : Type} [Float64 F] [FloatText F]

instance : Marshal (Snapshot F) where
  zero := .zero
  marshal := marshalStruct Snapshot.fields
  unmarshal := unmarshalStruct Snapshot.fields

/-- `SetState` of each snapshot of a body. -/
def setStates (quote : String → String) (c : Controller F) :
    List (Snapshot F) → Controller F × List PollFailure
  | [] => (c, [])
  | snapshot :: snapshots =>
    match c.setState quote snapshot with
    | .ok c => setStates quote c snapshots
    | .error err =>
      let (c, failures) := setStates quote c snapshots
      (c, .state err :: failures)

/-- The turn of one URL. A body is a list of snapshots or one. -/
def pollBackendState (quote : String → String) (c : Controller F) :
    StateReply → Controller F × List PollFailure
  | .unreachable => (c, [.request])
  | .broken => (c, [.read])
  | .answer statusCode body =>
    let body := body.take (2 ^ 20)
    if statusCode < 200 ∨ 300 ≤ statusCode then (c, [.status statusCode])
    else
      match unmarshalBytes (List (Snapshot F)) body with
      | some snapshots => setStates quote c snapshots
      | none =>
        match unmarshalBytes (Snapshot F) body with
        | some snapshot => setStates quote c [snapshot]
        | none => (c, [.decode])

/-- `pollBackendStateOnce`, with the reply of each URL. -/
def pollBackendStateOnce (quote : String → String) (c : Controller F) :
    List StateReply → Controller F × List PollFailure
  | [] => (c, [])
  | reply :: replies =>
    let (c, failures) := pollBackendState quote c reply
    let (c, more) := pollBackendStateOnce quote c replies
    (c, failures ++ more)

end

/-! ## The exporter -/

section

variable {F : Type} [FloatText F] [PyRepr F]

/-- `/backend-state`. A snapshot that has no document is an exception in the handler. -/
def answerState (writer : Json.Writer) (state : Option (Snapshot F)) : StateReply :=
  match state with
  | none =>
    .answer 503 (writer.write
      (.object [item "ready" (.bool false), item "reason" (ofString "no_snapshot")]))
  | some snapshot =>
    match emitted snapshot with
    | none => .answer 500 (utf8 "Internal Server Error")
    | some doc => .answer 200 (writer.write doc)

end

/-! ## A snapshot is read back -/

/-- Python writes a finite number as JSON, and Go reads it as this number. -/
class LawfulPyRepr (F : Type) [FloatText F] [PyRepr F] : Prop where
  isNumber_repr : ∀ {x : F}, FloatText.isFinite x = true → isNumber (PyRepr.repr x) = true
  parseFloat_repr : ∀ {x : F}, FloatText.isFinite x = true →
    FloatText.parseFloat (PyRepr.repr x) = some x

/-- A signal whose texts and time are those of the fields of the gateway's struct. -/
structure Emittable {F : Type} [FloatText F] (signal : Signal F) : Prop where
  isFinite : FloatText.isFinite signal.value = true
  quality : Quality.ofText signal.quality.text = signal.quality
  observedAt : -2 ^ 63 ≤ signal.observedAtUnixMillis ∧ signal.observedAtUnixMillis < 2 ^ 63

section

variable {F : Type} [Float64 F] [FloatText F] [PyRepr F] [LawfulPyRepr F]

theorem evidenceQuality_ofText (quality : EvidenceQuality) :
    EvidenceQuality.ofText quality.text = some quality := by
  cases quality <;> rfl

theorem unmarshal_signalDict {signal : Signal F} (h : Emittable signal) :
    Marshal.unmarshal (signalDict signal) (Signal.zero : Signal F) = some signal := by
  have hvalue : FloatText.parseFloat (String.ofList (PyRepr.repr signal.value)).toList =
      some signal.value := by
    rw [String.toList_ofList]
    exact LawfulPyRepr.parseFloat_repr h.isFinite
  show (List.foldlM (assignMember Signal.fields) _ _ : Option (Signal F)) = _
  rw [foldlM_item rfl (congrArg (Option.map _) hvalue), foldlM_item rfl rfl,
    foldlM_item rfl rfl, foldlM_item rfl rfl]
  rw [foldlM_item rfl (assign_int64 h.observedAt), foldlM_item rfl rfl,
    foldlM_item rfl (congrArg (Option.map _) (evidenceQuality_ofText signal.evidenceQuality))]
  rw [h.quality]
  rfl

/-- The map that is read from the signals of a document. -/
def receivedSignals (signals : Map String (Signal F)) : Map String (Signal F) :=
  signals.entries.foldl (fun m entry => m.insert entry.1 entry.2) ∅

/-- A snapshot as the gateway reads it, with its signals in another order. -/
def received (snapshot : Snapshot F) : Snapshot F :=
  { snapshot with signals := receivedSignals snapshot.signals }

omit [Float64 F] [FloatText F] [PyRepr F] [LawfulPyRepr F] in
theorem lookup_foldl_insert {entries : List (Sigma fun _ : String => Signal F)}
    (hnodup : entries.NodupKeys) (m : Map String (Signal F)) (name : String) :
    (entries.foldl (fun m entry => m.insert entry.1 entry.2) m).lookup name =
      (entries.dlookup name <|> m.lookup name) := by
  induction entries generalizing m with
  | nil => rfl
  | cons entry entries ih =>
    obtain ⟨hfresh, hnodup⟩ := List.nodupKeys_cons.mp hnodup
    rw [List.foldl_cons, ih hnodup]
    by_cases hname : name = entry.1
    · subst hname
      rw [List.dlookup_eq_none.mpr hfresh, AList.lookup_insert, List.dlookup_cons_eq]
      rfl
    · rw [AList.lookup_insert_ne hname, List.dlookup_cons_ne _ _ hname]

omit [Float64 F] [FloatText F] [PyRepr F] [LawfulPyRepr F] in
theorem received_lookup (signals : Map String (Signal F)) (name : String) :
    (receivedSignals signals).lookup name = signals.lookup name := by
  refine (lookup_foldl_insert signals.nodupKeys ∅ name).trans ?_
  show (signals.lookup name <|> none) = _
  cases signals.lookup name <;> rfl

theorem unmarshal_signals {entries : List (Sigma fun _ : String => Signal F)}
    (h : ∀ entry ∈ entries, Emittable entry.2) (m : Map String (Signal F)) :
    (entries.map fun entry => item entry.1 (signalDict entry.2)).foldlM
        (fun m member => (Marshal.unmarshal member.2 (Signal.zero : Signal F)).map fun signal =>
          m.insert member.1.text signal) m =
      some (entries.foldl (fun m entry => m.insert entry.1 entry.2) m) := by
  induction entries generalizing m with
  | nil => rfl
  | cons entry entries ih =>
    obtain ⟨hentry, hentries⟩ := List.forall_mem_cons.mp h
    rw [List.map_cons, List.foldlM_cons, List.foldl_cons]
    have hsignal : Marshal.unmarshal (item entry.1 (signalDict entry.2)).2 (Signal.zero : Signal F) =
        some entry.2 := unmarshal_signalDict hentry
    rw [hsignal]
    exact ih hentries _

/-- **The document of a snapshot is read as the snapshot.** -/
theorem unmarshal_emitted {snapshot : Snapshot F}
    (h : ∀ entry ∈ snapshot.signals.entries, Emittable entry.2)
    (hobserved : -2 ^ 63 ≤ snapshot.observedAtUnixMillis ∧ snapshot.observedAtUnixMillis < 2 ^ 63) :
    Marshal.unmarshal
      (object (bodyItems snapshot ++ [item "snapshot_hash" (ofString snapshot.snapshotHash)]))
      (Snapshot.zero : Snapshot F) = some (received snapshot) := by
  show (List.foldlM (assignMember Snapshot.fields) _ _ : Option (Snapshot F)) = _
  rw [bodyItems, List.cons_append, foldlM_item rfl rfl, List.cons_append, foldlM_item rfl rfl,
    List.cons_append, foldlM_item rfl rfl, List.cons_append, foldlM_item rfl rfl, List.cons_append,
    foldlM_item rfl rfl, List.cons_append, foldlM_item rfl rfl, List.cons_append,
    foldlM_item rfl (assign_int64 hobserved), List.cons_append,
    foldlM_item rfl (congrArg (Option.map _) (unmarshal_signals h ∅)), List.nil_append,
    foldlM_item rfl rfl]
  rfl

omit [Float64 F] [FloatText F] [LawfulPyRepr F] in
theorem nesting_bodyItems (snapshot : Snapshot F) :
    (object (bodyItems snapshot ++ [item "snapshot_hash" (ofString snapshot.snapshotHash)])).nesting ≤
      10000 := by
  have hsignals : ∀ entries : List (Sigma fun _ : String => Signal F),
      nestingMembers (entries.map fun entry => item entry.1 (signalDict entry.2)) ≤ 1 := by
    intro entries
    induction entries with
    | nil => exact Nat.zero_le _
    | cons entry entries ih =>
      rw [List.map_cons, item, nestingMembers]
      exact Nat.max_le.mpr ⟨by simp [signalDict, item, nesting, nestingMembers, ofString], ih⟩
  have hsignals := hsignals snapshot.signals.entries
  simp only [bodyItems, item, ofString, List.cons_append, List.nil_append, nesting, nestingMembers]
  simp only [item] at hsignals
  omega

omit [Float64 F] in
theorem readable_bodyItems {snapshot : Snapshot F}
    (h : ∀ entry ∈ snapshot.signals.entries, FloatText.isFinite entry.2.value = true) :
    (object (bodyItems snapshot ++
      [item "snapshot_hash" (ofString snapshot.snapshotHash)])).Readable := by
  have hnumber : ∀ n : Int, isNumber (String.ofList (intText n)).toList = true := by
    intro n
    rw [String.toList_ofList]
    exact isNumber_intText n
  have hsignals : ∀ entries : List (Sigma fun _ : String => Signal F),
      (∀ entry ∈ entries, FloatText.isFinite entry.2.value = true) →
      ReadableMembers (entries.map fun entry => item entry.1 (signalDict entry.2)) := by
    intro entries
    induction entries with
    | nil => exact fun _ => trivial
    | cons entry entries ih =>
      intro h
      obtain ⟨hentry, hentries⟩ := List.forall_mem_cons.mp h
      have hvalue : isNumber (String.ofList (PyRepr.repr entry.2.value)).toList = true := by
        rw [String.toList_ofList]
        exact LawfulPyRepr.isNumber_repr hentry
      refine ⟨rfl, ?_, ih hentries⟩
      exact ⟨rfl, hvalue, rfl, trivial, rfl, rfl, rfl, rfl, rfl, hnumber _, rfl, rfl, rfl, rfl, trivial⟩
  exact ⟨rfl, rfl, rfl, rfl, rfl, rfl, rfl, rfl, rfl, rfl, rfl, rfl, rfl, hnumber _, rfl,
    hsignals _ h, rfl, rfl, trivial⟩

end

/-! ## The snapshots of an exporter -/

section

variable {F : Type} [Float64 F]

omit [Float64 F] in
theorem quality_ofText (value : Option F) (stale : Bool) :
    Quality.ofText (quality value stale).text = quality value stale := by
  cases value with
  | none => rfl
  | some value => cases stale <;> rfl

theorem forM_of_forall {α ε : Type} {f : α → Except ε Unit} {l : List α}
    (h : ∀ a ∈ l, f a = .ok ()) : forM l f = .ok () := by
  induction l with
  | nil => rfl
  | cons a l ih =>
    obtain ⟨ha, hl⟩ := List.forall_mem_cons.mp h
    rw [List.forM_cons, ha]
    exact ih hl

theorem validateSignal_signal (quote : String → String) (name : String) (value : Option F)
    (source : String) {observed : Int} (hobserved : 0 < observed) (semantics : String)
    (evidence : EvidenceQuality) (stale : Bool) :
    validateSignal quote name (signal value source observed semantics evidence stale) = .ok () := by
  have hsource : (if source = "" then "derived" else source) ≠ "" := by
    split
    · decide
    · assumption
  have hprovenance : ¬ (observed ≤ 0 ∨ (if source = "" then "derived" else source) = "") := by
    rintro (hle | hempty)
    · omega
    · exact hsource hempty
  cases value with
  | none => exact if_neg hprovenance
  | some value =>
    cases stale
    · exact if_neg hprovenance
    · exact if_neg hprovenance

variable (settings : Settings F) (metrics : Metrics F) (millis : Int)

/-- Every signal of a snapshot is made by `_signal`, with the time of the scrape. -/
theorem snapshot_signal : ∀ entry ∈ (settings.snapshot metrics millis).signals.entries,
    ∃ value source semantics evidence,
      entry.2 = signal value source millis semantics evidence false := by
  intro entry hentry
  have hentry : entry ∈ (signals (settings.derive metrics) millis false).entries := hentry
  simp only [signals, List.mem_cons, List.not_mem_nil, or_false] at hentry
  rcases hentry with rfl | rfl | rfl | rfl | rfl | rfl | rfl | rfl | rfl | rfl | rfl <;>
    exact ⟨_, _, _, _, rfl⟩

theorem snapshot_names : (settings.snapshot metrics millis).backend ≠ "" ∧
    (settings.snapshot metrics millis).backendID ≠ "" := by
  have hbackend : (settings.snapshot metrics millis).backend ≠ "" := by
    show (settings.adapter.collect metrics).backend ≠ ""
    cases settings.adapter with
    | vllm =>
      show "vllm" ≠ ""
      decide
    | sglang =>
      show "sglang" ≠ ""
      decide
  refine ⟨hbackend, ?_⟩
  have hdefault : (settings.snapshot metrics millis).backend ++ ":" ++
      (settings.snapshot metrics millis).instanceName ≠ "" := by
    intro hempty
    have hlength := congrArg String.length hempty
    simp [String.length_append] at hlength
  by_cases hid : settings.backendID = ""
  · have hshown : (settings.snapshot metrics millis).backendID =
        (settings.snapshot metrics millis).backend ++ ":" ++
          (settings.snapshot metrics millis).instanceName := by
      simp only [Settings.snapshot, snapshotFromDerived, hid, if_true]
    rwa [hshown]
  · have hshown : (settings.snapshot metrics millis).backendID = settings.backendID := by
      simp only [Settings.snapshot, snapshotFromDerived, hid, if_false]
    rwa [hshown]

/-- What the controller says of a snapshot that it reads. -/
theorem validate_received (quote : String → String) :
    validate quote (received (settings.snapshot metrics millis)) =
      if (settings.snapshot metrics millis).model = "" then
        .error "backend state requires backend_id, backend, and model"
      else if millis ≤ 0 then .error "backend state requires observed_at_unix_millis"
      else .ok () := by
  set snapshot := settings.snapshot metrics millis with hsnapshot
  obtain ⟨hbackend, hbackendID⟩ := snapshot_names settings metrics millis
  have hnonempty : (received snapshot).signals.entries ≠ [] := by
    intro hempty
    have hlookup := received_lookup snapshot.signals "total_blocks"
    rw [AList.lookup, show (receivedSignals snapshot.signals).entries = [] from hempty] at hlookup
    cases hlookup
  have hsignals : 0 < millis → forM (received snapshot).signals.entries
      (fun entry => validateSignal quote entry.1 entry.2) = .ok () := by
    intro hmillis
    refine forM_of_forall fun entry hentry => ?_
    have hlookup : (receivedSignals snapshot.signals).lookup entry.1 = some entry.2 :=
      AList.mem_lookup_iff.mpr hentry
    rw [received_lookup] at hlookup
    obtain ⟨value, source, semantics, evidence, hsignal⟩ :=
      snapshot_signal settings metrics millis ⟨entry.1, entry.2⟩ (AList.mem_lookup_iff.mp hlookup)
    dsimp only at hsignal
    rw [hsignal]
    exact validateSignal_signal quote entry.1 value source hmillis semantics evidence false
  unfold validate
  rw [if_neg (show ¬ (received snapshot).schemaVersion ≠ schemaVersion from fun h => h rfl)]
  show (if snapshot.backendID = "" ∨ snapshot.backend = "" ∨ snapshot.model = "" then _ else _) = _
  by_cases hmodel : snapshot.model = ""
  · rw [if_pos (.inr (.inr hmodel)), if_pos hmodel]
  · have hnamed : ¬ (snapshot.backendID = "" ∨ snapshot.backend = "" ∨ snapshot.model = "") := by
      rintro (h | h | h)
      · exact hbackendID h
      · exact hbackend h
      · exact hmodel h
    rw [if_neg hnamed, if_neg hmodel]
    show (if millis ≤ 0 then _ else _) = _
    by_cases hmillis : millis ≤ 0
    · rw [if_pos hmillis, if_pos hmillis]
    · rw [if_neg hmillis, if_neg hmillis, if_neg hnonempty]
      exact hsignals (by omega)

end

/-! ## Polls of an exporter -/

section

variable {F : Type} [Float64 F] [FloatText F] [PyRepr F] [LawfulPyRepr F]

omit [PyRepr F] [LawfulPyRepr F] in
/-- A poll that is answered with an object. -/
theorem poll_object (quote : String → String) (c : Controller F) (writer : Json.Writer)
    {members : List (JsonText × Json)} (hreadable : (object members).Readable) :
    pollBackendState quote c (.answer 200 (writer.write (object members))) =
      if (writer.write (object members)).length ≤ 2 ^ 20 then
        match readValue (Snapshot F) (object members) with
        | some snapshot => setStates quote c [snapshot]
        | none => (c, [.decode])
      else (c, [.decode]) := by
  have hlist : readValue (List (Snapshot F)) (object members) = none := by
    unfold readValue
    split <;> rfl
  unfold pollBackendState
  dsimp only
  rw [if_neg (by omega : ¬ (200 < 200 ∨ 300 ≤ 200))]
  by_cases hfits : (writer.write (object members)).length ≤ 2 ^ 20
  · rw [if_pos hfits, List.take_of_length_le hfits, unmarshalBytes_write writer hreadable, hlist,
      unmarshalBytes_write writer hreadable]
  · have hcut : 2 ^ 20 < (writer.write (object members)).length := by omega
    rw [if_neg hfits, unmarshalBytes_write_cut writer hreadable hcut,
      unmarshalBytes_write_cut writer hreadable hcut]

/-- What a snapshot needs to reach the controller: numbers that are finite, a document inside the
limit of a body, a model, and a time that is positive and an `int64`. -/
structure Carried (writer : Json.Writer) (snapshot : Snapshot F) : Prop where
  isFinite : ∀ entry ∈ snapshot.signals.entries, FloatText.isFinite entry.2.value = true
  fits : ∀ doc, emitted snapshot = some doc → (writer.write doc).length ≤ 2 ^ 20
  model : snapshot.model ≠ ""
  observedAt : 0 < snapshot.observedAtUnixMillis ∧ snapshot.observedAtUnixMillis < 2 ^ 63

omit [LawfulPyRepr F] in
/-- A time that is no `int64` is not read. -/
theorem readValue_far {snapshot : Snapshot F}
    (h : ¬ (-2 ^ 63 ≤ snapshot.observedAtUnixMillis ∧ snapshot.observedAtUnixMillis < 2 ^ 63)) :
    readValue (Snapshot F)
      (object (bodyItems snapshot ++ [item "snapshot_hash" (ofString snapshot.snapshotHash)])) =
      none := by
  unfold readValue
  rw [if_neg (Nat.not_lt.mpr (nesting_bodyItems snapshot))]
  show (List.foldlM (assignMember Snapshot.fields) _ _ : Option (Snapshot F)) = _
  rw [bodyItems, List.cons_append, foldlM_item rfl rfl, List.cons_append, foldlM_item rfl rfl,
    List.cons_append, foldlM_item rfl rfl, List.cons_append, foldlM_item rfl rfl, List.cons_append,
    foldlM_item rfl rfl, List.cons_append, foldlM_item rfl rfl, List.cons_append]
  exact foldlM_none rfl (assign_int64_none h)

section

variable (writer : Json.Writer) (quote : String → String) (c : Controller F) (settings : Settings F)
  (metrics : Metrics F) (millis : Int)

omit [Float64 F] [LawfulPyRepr F] in
theorem emitted_eq {snapshot : Snapshot F}
    (h : ∀ entry ∈ snapshot.signals.entries, FloatText.isFinite entry.2.value = true) :
    emitted snapshot = some
      (object (bodyItems snapshot ++ [item "snapshot_hash" (ofString snapshot.snapshotHash)])) :=
  if_pos (List.all_eq_true.mpr h)

omit [Float64 F] [LawfulPyRepr F] in
theorem answerState_finite {snapshot : Snapshot F}
    (h : ∀ entry ∈ snapshot.signals.entries, FloatText.isFinite entry.2.value = true) :
    answerState writer (some snapshot) = .answer 200 (writer.write (object
      (bodyItems snapshot ++ [item "snapshot_hash" (ofString snapshot.snapshotHash)]))) := by
  unfold answerState
  dsimp only
  rw [emitted_eq h]

omit [Float64 F] [LawfulPyRepr F] in
/-- A number that is not finite is an error of the exporter. -/
theorem answerState_not_finite {snapshot : Snapshot F}
    (h : ¬ ∀ entry ∈ snapshot.signals.entries, FloatText.isFinite entry.2.value = true) :
    answerState writer (some snapshot) = .answer 500 (utf8 "Internal Server Error") := by
  have hnone : emitted snapshot = none := if_neg fun hall => h (List.all_eq_true.mp hall)
  unfold answerState
  dsimp only
  rw [hnone]

/-- A document inside the limit with a time that is an `int64`. -/
theorem poll_read
    (hfinite : ∀ entry ∈ (settings.snapshot metrics millis).signals.entries,
      FloatText.isFinite entry.2.value = true)
    (hfits : ∀ doc, emitted (settings.snapshot metrics millis) = some doc →
      (writer.write doc).length ≤ 2 ^ 20)
    (hmillis : -2 ^ 63 ≤ millis ∧ millis < 2 ^ 63) :
    pollBackendState quote c (answerState writer (some (settings.snapshot metrics millis))) =
      setStates quote c [received (settings.snapshot metrics millis)] := by
  set snapshot := settings.snapshot metrics millis with hsnapshot
  have hemittable : ∀ entry ∈ snapshot.signals.entries, Emittable entry.2 := by
    intro entry hentry
    obtain ⟨value, source, semantics, evidence, hsignal⟩ :=
      snapshot_signal settings metrics millis entry hentry
    refine ⟨hfinite entry hentry, ?_, ?_⟩
    · rw [hsignal]
      exact quality_ofText value false
    · rw [hsignal]
      exact hmillis
  have hread : readValue (Snapshot F) (object (bodyItems snapshot ++
      [item "snapshot_hash" (ofString snapshot.snapshotHash)])) = some (received snapshot) := by
    unfold readValue
    rw [if_neg (Nat.not_lt.mpr (nesting_bodyItems snapshot))]
    exact unmarshal_emitted hemittable hmillis
  rw [answerState_finite writer hfinite, poll_object quote c writer (readable_bodyItems hfinite),
    if_pos (hfits _ (emitted_eq hfinite)), hread]

/-- A poll takes what the exporter has collected, or says that it did not. -/
theorem poll_answer :
    (Carried writer (settings.snapshot metrics millis) →
      pollBackendState quote c (answerState writer (some (settings.snapshot metrics millis))) =
        ({ c with
            states := c.states.insert (settings.snapshot metrics millis).backendID
              (received (settings.snapshot metrics millis)) }, [])) ∧
    (¬ Carried writer (settings.snapshot metrics millis) → ∃ failure,
      pollBackendState quote c (answerState writer (some (settings.snapshot metrics millis))) =
        (c, [failure])) := by
  have hvalidate := validate_received settings metrics millis quote
  have hobserved : (settings.snapshot metrics millis).observedAtUnixMillis = millis := rfl
  generalize hsnapshot : settings.snapshot metrics millis = snapshot at *
  constructor
  · intro h
    have hmillis := h.observedAt
    rw [hobserved] at hmillis
    have hread := poll_read writer quote c settings metrics millis
    rw [hsnapshot] at hread
    rw [hread h.isFinite h.fits ⟨by omega, hmillis.2⟩]
    rw [if_neg h.model, if_neg (by omega)] at hvalidate
    unfold setStates Controller.setState
    rw [hvalidate]
    rfl
  · intro h
    by_cases hfinite : ∀ entry ∈ snapshot.signals.entries,
      FloatText.isFinite entry.2.value = true
    swap
    · rw [answerState_not_finite writer hfinite]
      exact ⟨.status 500, rfl⟩
    have hanswer := answerState_finite writer hfinite
    have hemitted := emitted_eq hfinite
    by_cases hfits : ∀ doc, emitted snapshot = some doc → (writer.write doc).length ≤ 2 ^ 20
    swap
    · have hlong : ¬ (writer.write (object (bodyItems snapshot ++
          [item "snapshot_hash" (ofString snapshot.snapshotHash)]))).length ≤ 2 ^ 20 := by
        intro hshort
        refine hfits fun doc hdoc => ?_
        rw [hemitted] at hdoc
        cases hdoc
        exact hshort
      rw [hanswer, poll_object quote c writer (readable_bodyItems hfinite), if_neg hlong]
      exact ⟨_, rfl⟩
    by_cases hmillis : -2 ^ 63 ≤ millis ∧ millis < 2 ^ 63
    swap
    · rw [hanswer, poll_object quote c writer (readable_bodyItems hfinite),
        if_pos (hfits _ hemitted), readValue_far (by rwa [hobserved])]
      exact ⟨_, rfl⟩
    -- The snapshot is read, and the controller refuses it.
    have hread := poll_read writer quote c settings metrics millis
    rw [hsnapshot] at hread
    rw [hread hfinite hfits hmillis]
    unfold setStates Controller.setState
    by_cases hmodel : snapshot.model = ""
    · rw [if_pos hmodel] at hvalidate
      rw [hvalidate]
      exact ⟨_, rfl⟩
    · have hpast : millis ≤ 0 := by
        by_contra hpositive
        exact h ⟨hfinite, hfits, hmodel, by rw [hobserved]; omega⟩
      rw [if_neg hmodel, if_pos hpast] at hvalidate
      rw [hvalidate]
      exact ⟨_, rfl⟩

end

/-! ## A turn over all URLs -/

/-- What happens at a URL: nothing comes back, or the exporter there answers with what it has
collected last. -/
inductive StateExchange (F : Type) where
  | unreachable
  | broken
  | empty
  | collected (settings : Settings F) (metrics : Metrics F) (millis : Int)

namespace StateExchange

variable (writer : Json.Writer)

/-- What the gateway reads of an exchange. -/
def reply : StateExchange F → StateReply
  | unreachable => .unreachable
  | broken => .broken
  | empty => answerState writer (none : Option (Snapshot F))
  | collected settings metrics millis =>
    answerState writer (some (settings.snapshot metrics millis))

open scoped Classical in
/-- The snapshot that the gateway takes. -/
noncomputable def taken : StateExchange F → Option (Snapshot F)
  | collected settings metrics millis =>
    if Carried writer (settings.snapshot metrics millis) then
      some (settings.snapshot metrics millis)
    else none
  | _ => none

/-- A URL gives a snapshot or a failure. -/
theorem poll_reply (quote : String → String) (c : Controller F) (exchange : StateExchange F) :
    (∀ snapshot, exchange.taken writer = some snapshot →
      pollBackendState quote c (exchange.reply writer) =
        ({ c with states := c.states.insert snapshot.backendID (received snapshot) }, [])) ∧
    (exchange.taken writer = none →
      ∃ failure, pollBackendState quote c (exchange.reply writer) = (c, [failure])) := by
  cases exchange with
  | unreachable => exact ⟨fun _ h => (by cases h), fun _ => ⟨_, rfl⟩⟩
  | broken => exact ⟨fun _ h => (by cases h), fun _ => ⟨_, rfl⟩⟩
  | empty => exact ⟨fun _ h => (by cases h), fun _ => ⟨.status 503, rfl⟩⟩
  | collected settings metrics millis =>
    obtain ⟨hcarried, hfailed⟩ := poll_answer writer quote c settings metrics millis
    by_cases h : Carried writer (settings.snapshot metrics millis)
    · have htaken : (collected settings metrics millis).taken writer =
          some (settings.snapshot metrics millis) := if_pos h
      rw [htaken]
      refine ⟨fun snapshot hsnapshot => ?_, fun hnone => by cases hnone⟩
      cases hsnapshot
      exact hcarried h
    · have htaken : (collected settings metrics millis).taken writer = none := if_neg h
      rw [htaken]
      exact ⟨fun _ hsome => (by cases hsome), fun _ => hfailed h⟩

end StateExchange

/-- **A turn stores the snapshots that came through**, in the order of the URLs, and reports one
failure for each other URL. -/
theorem pollBackendStateOnce_takes (writer : Json.Writer) (quote : String → String)
    (c : Controller F) (exchanges : List (StateExchange F)) :
    let out := pollBackendStateOnce quote c (exchanges.map (·.reply writer))
    out.1 =
      { c with
        states := (exchanges.filterMap (·.taken writer)).foldl
          (fun states snapshot => states.insert snapshot.backendID (received snapshot)) c.states } ∧
      out.2.length = exchanges.countP fun exchange => (exchange.taken writer).isNone := by
  induction exchanges generalizing c with
  | nil => exact ⟨rfl, rfl⟩
  | cons exchange exchanges ih =>
    obtain ⟨htakes, hfails⟩ := exchange.poll_reply writer quote c
    rw [List.map_cons, List.filterMap_cons, List.countP_cons, pollBackendStateOnce]
    cases htaken : exchange.taken writer with
    | some snapshot =>
      rw [htakes snapshot htaken]
      exact ih _
    | none =>
      obtain ⟨failure, hpoll⟩ := hfails htaken
      obtain ⟨hstates, hlength⟩ := ih c
      rw [hpoll]
      refine ⟨hstates, ?_⟩
      dsimp only
      rw [List.length_append, hlength, List.length_singleton, Nat.add_comm]
      rfl

end

namespace StatePollsSample

local instance : Float64 Rat := .rational fun _ => 1

/-- Whole numbers, which Python writes with a point. -/
@[reducible] def pointText : FloatText Rat where
  isFinite x := x.den = 1
  format x := intText x.num
  parseFloat text := (parseInt (text.takeWhile (· ≠ '.'))).map Rat.ofInt

@[reducible] def pointRepr : PyRepr Rat := ⟨fun x => intText x.num ++ ['.', '0']⟩

local instance : FloatText Rat := pointText

local instance : PyRepr Rat := pointRepr

theorem isNumber_point (n : Int) : isNumber (intText n ++ ['.', '0']) = true := by
  have hdigits : ∀ n : Nat, isNumber (Nat.toDigits 10 n ++ ['.', '0']) = true ∧
      isNumber ('-' :: Nat.toDigits 10 n ++ ['.', '0']) = true := by
    intro n
    have hdigit : ∀ c ∈ Nat.toDigits 10 n, c.isDigit = true := fun c hc =>
      Nat.isDigit_of_mem_toDigits (by decide) (by decide) hc
    have htake : (Nat.toDigits 10 n ++ ['.', '0']).takeWhile Char.isDigit = Nat.toDigits 10 n := by
      rw [List.takeWhile_append_of_pos hdigit]
      exact List.append_nil _
    have hdrop : (Nat.toDigits 10 n ++ ['.', '0']).dropWhile Char.isDigit = ['.', '0'] := by
      rw [List.dropWhile_append_of_pos hdigit]
      rfl
    have hwhole : Nat.toDigits 10 n = ['0'] ∨
        Nat.toDigits 10 n ≠ [] ∧ (Nat.toDigits 10 n).head? ≠ some '0' := by
      rcases Nat.eq_zero_or_pos n with rfl | hpos
      · exact .inl rfl
      · exact .inr ⟨Nat.toDigits_ne_nil, toDigits_head hpos⟩
    have hminus : ∀ digits, Nat.toDigits 10 n ++ ['.', '0'] ≠ '-' :: digits := by
      intro digits heq
      cases hshown : Nat.toDigits 10 n with
      | nil => exact Nat.toDigits_ne_nil hshown
      | cons c rest =>
        rw [hshown] at heq
        obtain rfl := (List.cons.inj heq).1
        have hc := hdigit '-' (by rw [hshown]; exact List.mem_cons_self)
        cases hc
    constructor
    · unfold isNumber
      split
      · rename_i heq
        exact absurd heq (hminus _)
      · simp only [htake, hdrop, Bool.and_eq_true, Bool.or_eq_true, decide_eq_true_eq]
        exact ⟨hwhole, rfl⟩
    · unfold isNumber
      simp only [List.cons_append, htake, hdrop, Bool.and_eq_true, Bool.or_eq_true,
        decide_eq_true_eq]
      exact ⟨hwhole, rfl⟩
  unfold intText
  split
  · exact (hdigits n.natAbs).2
  · exact (hdigits n.natAbs).1

theorem parse_point (n : Int) :
    parseInt ((intText n ++ ['.', '0']).takeWhile (· ≠ '.')) = some n := by
  have hpoint : ∀ c ∈ intText n, decide (c ≠ '.') = true := by
    intro c hc
    have hdigit : ∀ c ∈ Nat.toDigits 10 n.natAbs, c.isDigit = true := fun c hc =>
      Nat.isDigit_of_mem_toDigits (by decide) (by decide) hc
    refine decide_eq_true fun hdot => ?_
    subst hdot
    unfold intText at hc
    split at hc
    · obtain hc | hc := List.mem_cons.mp hc
      · cases hc
      · cases hdigit _ hc
    · cases hdigit _ hc
  rw [List.takeWhile_append_of_pos hpoint]
  refine Eq.trans ?_ (parseInt_intText n)
  exact congrArg parseInt (List.append_nil _)

theorem pointRepr_lawful : LawfulPyRepr Rat where
  isNumber_repr _ := isNumber_point _
  parseFloat_repr {x} hfinite := by
    have hwhole : x.den = 1 := of_decide_eq_true hfinite
    exact (congrArg (Option.map Rat.ofInt) (parse_point x.num)).trans
      (congrArg some (Rat.ext rfl hwhole.symm))

local instance : LawfulPyRepr Rat := pointRepr_lawful

/-- A backend with three waiting requests. -/
def settings : Settings Rat where
  adapter := .vllm { modelName := "m", instanceName := "local", modelGroup := "" }
  backendID := ""
  scrapeStaleAfter := 10
  scrapeFailuresNotReady := 3
  scrapeErrorMaxLen := 200
  hash _ := ""
  stateText _ := []
  adviceLine _ := []

def controller : Controller Rat where
  mode := .loadAware
  states := ∅
  cache := { affinity := none, provider := .noCache }
  predictor := .default
  lifecycle := none
  experiment := none
  maxStateAge := 0
  stateLambda := 1 / 10

def metrics : Metrics Rat := (∅ : Metrics Rat).insert "vllm:num_requests_waiting" 3

theorem carried : Carried .go (settings.snapshot metrics 1000) where
  isFinite := List.all_eq_true.mp (by decide +kernel)
  fits doc hdoc := by
    have hshort : (emitted (settings.snapshot metrics 1000)).all
        (fun doc => (Json.Writer.go.write doc).length ≤ 2 ^ 20) = true := by decide +kernel
    rw [hdoc] at hshort
    exact of_decide_eq_true hshort
  model := by decide
  observedAt := by decide

/-- The first exporter is down. -/
theorem pollBackendStateOnce_takes_second :
    let out := pollBackendStateOnce id controller
      ([StateExchange.unreachable, .collected settings metrics 1000].map (·.reply .go))
    out.1.states.lookup "vllm:local" = some (received (settings.snapshot metrics 1000)) ∧
      out.2.length = 1 := by
  obtain ⟨hstates, hfailures⟩ := pollBackendStateOnce_takes .go id controller
    [StateExchange.unreachable, .collected settings metrics 1000]
  have htaken : StateExchange.taken .go (.collected settings metrics 1000) =
      some (settings.snapshot metrics 1000) := if_pos carried
  have hnone : StateExchange.taken .go (.unreachable : StateExchange Rat) = none := rfl
  constructor
  · rw [hstates, List.filterMap_cons_none hnone, List.filterMap_cons_some htaken]
    exact AList.lookup_insert _
  · rw [hfailures, List.countP_cons_of_pos (by rw [hnone]; rfl),
      List.countP_cons_of_neg (by rw [htaken]; exact Bool.false_ne_true)]
    rfl

end StatePollsSample

end Kavora.Gateway
