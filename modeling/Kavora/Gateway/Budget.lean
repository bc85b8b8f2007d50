import Kavora.Gateway.Pipeline

/-!
# The token budget of a stream

A tenant's budget `B` is split: the engine admits a request with the estimate `E ≤ B`, and the
inspector of its stream gets the rest. It counts the bytes of the strings of the accepted events
(`Accepted.semanticBytes`) and stops the stream before they exceed the rest.

A rest of zero means no limit to the inspector. So the whole budget holds if and only if the request
leaves a part of it, or no string was released (`token_budget_iff`).
-/

namespace Kavora.Gateway

open Lib Policy StreamInspector

/-- The bytes of strings. -/
def stringBytes (strings : List String) : Nat := (strings.map String.utf8ByteSize).sum

/-- The bytes of all JSON strings of events. -/
def semanticBytes (lib : Externals) (events : List Bytes) : Nat :=
  (events.map fun event => stringBytes (eventStrings lib event)).sum

/-- The tokens of events: a token is four bytes. -/
def consumedTokens (lib : Externals) (events : List Bytes) : Nat :=
  divCeil4 (semanticBytes lib events)

/-- `serde_json` decodes the strings of a text to at most as many bytes. -/
def StringsFit (lib : Externals) : Prop :=
  ∀ data value, lib.fromSlice data = some value →
    stringBytes value.collectStrings ≤ data.length

variable {lib : Externals} {s s' : StreamInspector} {events : List Bytes}

theorem stringsFit_ascii {documents : List (String × Value)} {canonical : String} {digest : Bytes}
    (h : ∀ d ∈ documents, stringBytes d.2.collectStrings ≤ (utf8 d.1).length) :
    StringsFit (.ascii documents canonical digest) := by
  intro data value hv
  obtain ⟨d, hd, rfl⟩ := Option.map_eq_some_iff.mp hv
  have heq : utf8 d.1 = data := by simpa using List.find?_some hd
  exact heq ▸ h d (List.mem_of_find?_eq_some hd)

/-! ## What the inspector counts -/

theorem foldl_saturatingAdd (strings : List String) (n : Nat) :
    strings.foldl (fun size value => saturatingAdd size value.utf8ByteSize) (min n u64Max) =
      min (n + stringBytes strings) u64Max := by
  induction strings generalizing n with
  | nil => simp [stringBytes]
  | cons value strings ih =>
    rw [List.foldl_cons, show saturatingAdd (min n u64Max) value.utf8ByteSize =
      min (n + value.utf8ByteSize) u64Max by unfold saturatingAdd; omega, ih]
    simp only [stringBytes, List.map_cons, List.sum_cons]
    rw [Nat.add_assoc]

theorem semanticSize_eq (strings : List String) :
    semanticSize strings = min (stringBytes strings) u64Max := by
  have h := foldl_saturatingAdd strings 0
  rw [Nat.zero_min, Nat.zero_add] at h
  exact h

theorem EventOk.semanticBytes_eq {event : Bytes} {n : Nat} (h : EventOk lib s event s')
    (hn : s.semanticBytes = min n u64Max) :
    s'.semanticBytes = min (n + stringBytes (eventStrings lib event)) u64Max := by
  cases h with
  | empty hd => simpa [eventStrings, eventValue, hd, stringBytes] using hn
  | done hd => simpa [eventStrings, eventValue, hd, stringBytes] using hn
  | value hd h1 h2 _ hv _ _ _ =>
    simp only [eventStrings, eventValue, hd, h1, h2, hv, or_self, if_false, Option.map_some, Option.getD_some]
    rw [semanticSize_eq, hn]
    unfold saturatingAdd
    omega

theorem Accepted.semanticBytes_eq {n : Nat} (h : Accepted lib s events s')
    (hn : s.semanticBytes = min n u64Max) :
    s'.semanticBytes = min (n + semanticBytes lib events) u64Max := by
  induction h generalizing n with
  | nil => simpa [semanticBytes] using hn
  | cons he _ ih =>
    rw [ih (EventOk.semanticBytes_eq (inspectEvent_ok he) hn)]
    simp only [semanticBytes, List.map_cons, List.sum_cons]
    rw [Nat.add_assoc]

/-- The count stays within a budget that is not zero. -/
theorem Accepted.within_budget (h : Accepted lib s events s') (hbudget : s.tokenBudget ≠ 0)
    (hs : divCeil4 s.semanticBytes ≤ s.tokenBudget) :
    divCeil4 s'.semanticBytes ≤ s.tokenBudget := by
  have hstep : s'.tokenBudget = s.tokenBudget ∧ divCeil4 s'.semanticBytes ≤ s.tokenBudget :=
    h.induct (P := fun x => x.tokenBudget = s.tokenBudget ∧
      divCeil4 x.semanticBytes ≤ s.tokenBudget) (fun x x' event ⟨heq, hx⟩ hev => by
        have hok := inspectEvent_ok hev
        refine ⟨by rw [hok.frame, heq], ?_⟩
        cases hok with
        | empty => exact hx
        | done => exact hx
        | value _ _ _ _ _ _ _ hle => exact heq ▸ hle.resolve_left (heq ▸ hbudget)) ⟨rfl, hs⟩
  exact hstep.2

/-! ## The count does not saturate -/

theorem dataLine_length {line data : Bytes} (h : dataLine line = some data) :
    data.length + 1 ≤ line.length := by
  unfold dataLine at h
  obtain ⟨rest, hrest, rfl⟩ := Option.map_eq_some_iff.mp h
  have hlen := stripPrefix_length hrest
  have hle := getD_stripSuffix_length_le cr line
  have hutf8 : (utf8 "data:").length = 5 := by decide
  have hget : ((stripPrefix [0x20] rest).getD rest).length ≤ rest.length := by
    cases hs : stripPrefix [0x20] rest with
    | none => exact Nat.le_refl _
    | some rest' =>
      have := stripPrefix_length hs
      simp only [Option.getD_some, List.length_cons, List.length_nil] at this ⊢
      omega
  omega

theorem eventData_length {event data : Bytes} (h : eventData event = .ok data) :
    data.length ≤ event.length := by
  unfold eventData at h
  split at h
  · cases h
    refine (length_intercalate_le _ _).trans (le_trans ?_ (sum_length_strLines_le event))
    induction strLines event with
    | nil => simp
    | cons line lines ih =>
      cases hline : dataLine line with
      | none =>
        rw [List.filterMap_cons_none hline, List.map_cons, List.sum_cons]
        omega
      | some data =>
        have := dataLine_length hline
        rw [List.filterMap_cons_some hline, List.map_cons, List.map_cons, List.sum_cons,
          List.sum_cons]
        omega
  · cases h

theorem eventStrings_le (hfit : StringsFit lib) (event : Bytes) :
    stringBytes (eventStrings lib event) ≤ event.length := by
  unfold eventStrings eventValue
  cases hd : eventData event with
  | error e => exact Nat.zero_le _
  | ok data =>
    dsimp only
    split
    · exact Nat.zero_le _
    · cases hv : lib.fromSlice data with
      | none => exact Nat.zero_le _
      | some value => exact (hfit data value hv).trans (eventData_length hd)

theorem semanticBytes_le (hfit : StringsFit lib) (events : List Bytes) :
    semanticBytes lib events ≤ events.flatten.length := by
  rw [List.length_flatten]
  exact List.sum_le_sum fun event _ => eventStrings_le hfit event

/-! ## The whole budget -/

section Budget

variable {J : Type} {setup : Setup J} {f : Feed} {s₁ : StreamInspector} {tail : Bytes}

/-- The engine's verdict on the request of a stream. -/
def openResult (setup : Setup J) : PolicyResult :=
  setup.service.engine.evaluate setup.field setup.lib
    { context := some setup.context, request := some setup.request }

theorem inspector₀_tokenBudget (hB : 0 < setup.context.tokenBudget) :
    (Pipeline.inspector₀ setup).tokenBudget =
      setup.context.tokenBudget - (openResult setup).estimatedTokens :=
  if_neg (by omega)

theorem inspector₀_maxResponseBytes :
    (Pipeline.inspector₀ setup).maxResponseBytes = setup.config.maxResponseBytes := by
  have hpos := setup.config.maxResponseBytes_pos
  have heq := setup.maxResponseBytes_eq
  rw [← heq]
  exact if_neg (by omega)

theorem openResult_le (hallow : (openResult setup).decision = .allow)
    (hB : 0 < setup.context.tokenBudget) :
    (openResult setup).estimatedTokens ≤ setup.context.tokenBudget := by
  have h := PolicyEngine.evaluate_allowed hallow
  rw [openResult, h.estimate]
  exact h.budget.resolve_left (by omega)

/-- The count of the inspector is the size of the strings of the released events. -/
theorem Delivered.semanticBytes_eq (hfit : StringsFit setup.lib)
    (hf : (Feed.system setup.lib (Pipeline.inspector₀ setup)).Reach f)
    (hdel : Delivered setup.lib (Pipeline.inspector₀ setup) f.released f.closed events s₁ tail) :
    s₁.semanticBytes = semanticBytes setup.lib events := by
  have hcount := Accepted.semanticBytes_eq (n := 0) hdel.accepted rfl
  have hle := (Feed.Reach.inv Pipeline.inspector₀_scan hf).released_le
  have hsem := semanticBytes_le hfit events
  have hlt := setup.config.maxResponseBytes_lt
  rw [inspector₀_maxResponseBytes, hdel.released_eq, List.length_append, u64Max] at hle
  rw [hcount, u64Max]
  omega

/-- For an allowed request with a budget, in every state of every run of its stream: the estimate
and the tokens of the released events are within the budget if and only if the request leaves a
part of the budget, or no string was released. -/
theorem token_budget_iff (setup : Setup J) (hfit : StringsFit setup.lib)
    (hallow : (openResult setup).decision = .allow) (hB : 0 < setup.context.tokenBudget)
    (hf : (Feed.system setup.lib (Pipeline.inspector₀ setup)).Reach f)
    (hdel : Delivered setup.lib (Pipeline.inspector₀ setup) f.released f.closed events s₁ tail) :
    (openResult setup).estimatedTokens + consumedTokens setup.lib events ≤
        setup.context.tokenBudget ↔
      (openResult setup).estimatedTokens ≠ setup.context.tokenBudget ∨
        semanticBytes setup.lib events = 0 := by
  have hE := openResult_le hallow hB
  have hcount := Delivered.semanticBytes_eq hfit hf hdel
  constructor
  · intro hle
    by_contra hne
    rw [not_or, not_not] at hne
    have hpos : 0 < consumedTokens setup.lib events := by
      have := hne.2
      rw [consumedTokens, divCeil4]
      omega
    omega
  · rintro (hne | hzero)
    · have hbudget := inspector₀_tokenBudget hB
      have hwithin := Accepted.within_budget hdel.accepted (by omega)
        (show divCeil4 0 ≤ _ from Nat.zero_le _)
      rw [hcount, hbudget] at hwithin
      rw [consumedTokens]
      omega
    · rw [consumedTokens, hzero, show divCeil4 0 = 0 from rfl]
      omega

end Budget

/-! ### One event with two tokens -/

/-- `Sample.request` has 13 bytes, so its estimate is four tokens. -/
def hello (tokenBudget : Nat) : Setup Bytes :=
  { Pipeline.sample with
    lib := Sample.libFor [("\"hello\"", .string "hello")]
    context := { Sample.context with tokenBudget } }

/-- An event of one token. -/
def helloEvent : Bytes := utf8 "data: \"hello\"\n\n"

/-- The inspection of that event under a budget. -/
def helloFeed (tokenBudget : Nat) : Feed :=
  ({ inspector := Pipeline.inspector₀ (hello tokenBudget), input := [], released := []
     closed := false } : Feed).chunk (hello tokenBudget).lib helloEvent

theorem hello_fit (tokenBudget : Nat) : StringsFit (hello tokenBudget).lib :=
  stringsFit_ascii (by decide)

theorem helloFeed_reach (tokenBudget : Nat) :
    (Feed.system (hello tokenBudget).lib (Pipeline.inspector₀ (hello tokenBudget))).Reach
      (helloFeed tokenBudget) :=
  .step (i := .chunk helloEvent) (.init rfl) ⟨rfl, rfl⟩

theorem helloFeed_four : ∃ s₁, Delivered (hello 4).lib (Pipeline.inspector₀ (hello 4))
    (helloFeed 4).released (helloFeed 4).closed [helloEvent] s₁ [] :=
  ⟨_, .cons (Prod.ext (by decide) rfl) (.nil _), by decide, by decide, .inl rfl⟩

theorem helloFeed_six : ∃ s₁, Delivered (hello 6).lib (Pipeline.inspector₀ (hello 6))
    (helloFeed 6).released (helloFeed 6).closed [helloEvent] s₁ [] :=
  ⟨_, .cons (Prod.ext (by decide) rfl) (.nil _), by decide, by decide, .inl rfl⟩

theorem token_budget_six :
    (openResult (hello 6)).estimatedTokens + consumedTokens (hello 6).lib [helloEvent] ≤ 6 := by
  obtain ⟨s₁, hdel⟩ := helloFeed_six
  exact (token_budget_iff (hello 6) (hello_fit 6) (by decide) (by decide) (helloFeed_reach 6)
    hdel).mpr (.inl (by decide))

/-- With a budget of four tokens the estimate is the whole budget, and the inspector releases two
tokens more. -/
theorem token_budget_exceeded :
    (openResult (hello 4)).decision = .allow ∧ 0 < (hello 4).context.tokenBudget ∧
      ∃ f events s₁, (Feed.system (hello 4).lib (Pipeline.inspector₀ (hello 4))).Reach f ∧
        Delivered (hello 4).lib (Pipeline.inspector₀ (hello 4)) f.released f.closed events s₁ [] ∧
        ¬ (openResult (hello 4)).estimatedTokens + consumedTokens (hello 4).lib events ≤
          (hello 4).context.tokenBudget := by
  obtain ⟨s₁, hdel⟩ := helloFeed_four
  exact ⟨by decide, by decide, _, _, s₁, helloFeed_reach 4, hdel, by decide⟩

end Kavora.Gateway
