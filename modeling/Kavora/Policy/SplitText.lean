import Kavora.Policy.Ascii
import Kavora.Policy.Feed

/-!
# Text over several events

The inspector scans each event on its own. So every string of a released event is clean
(`released_strings_clean`), but the text that a client joins from the events need not be: an address
cut between two events is released (`address_split_over_events`).
-/

namespace Kavora.Policy

open Lib StreamInspector

namespace Value

/-- The member of an object under a key. -/
def member (key : String) : Value → Option Value
  | .object members => (members.find? fun m => m.1 == key).map (·.2)
  | _ => none

/-- The first value of an array. -/
def head : Value → Option Value
  | .array (value :: _) => some value
  | _ => none

/-- A string value. -/
def text : Value → Option String
  | .string s => some s
  | _ => none

/-- `choices[0].delta.content`. -/
def deltaContent (value : Value) : Option String := do
  let choices ← value.member "choices"
  let choice ← choices.head
  let delta ← choice.member "delta"
  let content ← delta.member "content"
  content.text

theorem collectStrings_member {key : String} {value v : Value} (h : value.member key = some v) :
    v.collectStrings ⊆ value.collectStrings := by
  cases value with
  | object members =>
    obtain ⟨m, hm, rfl⟩ := Option.map_eq_some_iff.mp h
    rw [collectStrings]
    exact mem_collectStringsMembers (List.mem_of_find?_eq_some hm)
  | _ => cases h

theorem collectStrings_head {value v : Value} (h : value.head = some v) :
    v.collectStrings ⊆ value.collectStrings := by
  cases value with
  | array values =>
    cases values with
    | nil => cases h
    | cons v' values =>
      cases h
      rw [collectStrings, collectStringsList]
      exact List.subset_append_left _ _
  | _ => cases h

/-- The content is one of the strings that are scanned. -/
theorem deltaContent_mem {value : Value} {content : String}
    (h : value.deltaContent = some content) : content ∈ value.collectStrings := by
  simp only [deltaContent, Option.bind_eq_bind, Option.bind_eq_some_iff] at h
  obtain ⟨choices, h1, choice, h2, delta, h3, v, h4, h5⟩ := h
  refine collectStrings_member h1 (collectStrings_head h2 (collectStrings_member h3
    (collectStrings_member h4 ?_)))
  cases v with
  | string s =>
    cases h5
    simp [collectStrings]
  | _ => cases h5

end Value

/-- The assistant text of an event. -/
def eventContent (lib : Externals) (event : Bytes) : Option String :=
  (eventValue lib event).bind Value.deltaContent

/-- The text that a client joins from the events. -/
def assistantText (lib : Externals) (events : List Bytes) : String :=
  (events.filterMap (eventContent lib)).foldl (· ++ ·) ""

theorem eventContent_mem {lib : Externals} {event : Bytes} {content : String}
    (h : eventContent lib event = some content) : content ∈ eventStrings lib event := by
  obtain ⟨value, hv, hc⟩ := Option.bind_eq_some_iff.mp h
  rw [StreamInspector.eventStrings, hv]
  exact Value.deltaContent_mem hc

/-- In every run, however the stream is cut into chunks and events: the released bytes are accepted
events, and the text of each of them, as every other of its strings, has no email address and no
blocked term. -/
theorem released_strings_clean (lib : Externals) (config : Config)
    (tokenBudget maxResponseBytes : Nat) {f : Feed}
    (hf : (Feed.system lib (.new lib config tokenBudget maxResponseBytes)).Reach f) :
    (∃ events s₁ tail, Delivered lib (.new lib config tokenBudget maxResponseBytes) f.released
      f.closed events s₁ tail) ∧
    ∀ events s₁ tail, Delivered lib (.new lib config tokenBudget maxResponseBytes) f.released
        f.closed events s₁ tail →
      ∀ event ∈ events, (∀ content, eventContent lib event = some content →
          content ∈ eventStrings lib event) ∧
        ∀ value ∈ eventStrings lib event, lib.emailIsMatch value = false ∧
          ∀ term ∈ config.blockedTerms,
            strContains (lib.toLowercase value) (lib.toLowercase term) = false := by
  constructor
  · obtain ⟨events, s₁, tail, hdel, -⟩ := (Feed.Reach.inv rfl hf).delivered
    exact ⟨events, s₁, tail, hdel⟩
  · intro events s₁ tail hdel event hevent
    have hclean := hdel.accepted.clean event hevent
    refine ⟨fun content => eventContent_mem, fun value hvalue => ⟨hclean.1 value hvalue, ?_⟩⟩
    intro term hterm
    exact hclean.2 (lib.toLowercase term) (List.mem_map_of_mem hterm) value hvalue

/-! ### An address in two events -/

/-- The events `alice@` and `example.com` of a chat completion. -/
def splitLib : Externals :=
  .ascii
    [("\x7b\"choices\":[\x7b\"delta\":\x7b\"content\":\"alice@\"\x7d\x7d]\x7d",
        .object [("choices", .array [.object [("delta", .object [("content", .string "alice@")])]])]),
      ("\x7b\"choices\":[\x7b\"delta\":\x7b\"content\":\"example.com\"\x7d\x7d]\x7d",
        .object [("choices", .array [.object [("delta",
          .object [("content", .string "example.com")])]])])]
    "" []

/-- Two events that share an address. -/
def splitEvents : List Bytes :=
  [utf8 "data: \x7b\"choices\":[\x7b\"delta\":\x7b\"content\":\"alice@\"\x7d\x7d]\x7d\n\n",
    utf8 "data: \x7b\"choices\":[\x7b\"delta\":\x7b\"content\":\"example.com\"\x7d\x7d]\x7d\n\n"]

/-- An inspector with room for both. -/
def splitInspector : StreamInspector := .new splitLib .default 1024 4096

/-- The inspection of both. -/
def splitFeed : Feed :=
  ({ inspector := splitInspector, input := [], released := [], closed := false } : Feed).chunk
    splitLib splitEvents.flatten

theorem splitFeed_reach : (Feed.system splitLib splitInspector).Reach splitFeed :=
  .step (i := .chunk splitEvents.flatten) (.init rfl) ⟨rfl, rfl⟩

theorem splitFeed_delivered : ∃ s₁,
    Delivered splitLib splitInspector splitFeed.released splitFeed.closed splitEvents s₁ [] :=
  ⟨_, .cons (Prod.ext (by decide) rfl) (.cons (Prod.ext (by decide) rfl) (.nil _)), by decide,
    by decide, .inl rfl⟩

theorem released_strings_clean_split :
    splitFeed.released = splitEvents.flatten ∧
      ∀ event ∈ splitEvents, ∀ value ∈ eventStrings splitLib event,
        splitLib.emailIsMatch value = false := by
  obtain ⟨s₁, hdel⟩ := splitFeed_delivered
  refine ⟨by decide, fun event hevent value hvalue => ?_⟩
  exact (((released_strings_clean splitLib .default 1024 4096 splitFeed_reach).2 _ _ _ hdel event
    hevent).2 value hvalue).1

/-- Both events are released, and their text is an email address. -/
theorem address_split_over_events : ∃ f events s₁,
    (Feed.system splitLib splitInspector).Reach f ∧
      Delivered splitLib splitInspector f.released f.closed events s₁ [] ∧
      assistantText splitLib events = "alice@example.com" ∧
      splitLib.emailIsMatch (assistantText splitLib events) = true := by
  obtain ⟨s₁, hdel⟩ := splitFeed_delivered
  exact ⟨_, _, s₁, splitFeed_reach, hdel, by decide, by decide⟩

end Kavora.Policy
