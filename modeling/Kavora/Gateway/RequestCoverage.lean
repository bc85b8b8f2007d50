import Kavora.Gateway.ParseRequest
import Kavora.Lib.Except
import Kavora.Policy.Ascii

/-!
# What the request policy covers of a forwarded body

The gateway forwards the body that it parsed, and the engine scans a projection of it. The parts of
a document that reach the scan are its `scannedParts`: the content of each message, the tools and
the other fields, where the last member of a name counts. In an allowed request their visible
strings are clean (`forwarded_scanned`). The model, the roles and names of messages and what the
projection drops are forwarded without a scan (`name_forwarded_unscanned`).
-/

namespace Kavora.Gateway

open Lib Policy

/-! ## The parts that are scanned -/

/-- The last member whose name folds to `name`. -/
def lastFolded (name : String) : List (JsonText × Json) → Option Json
  | [] => none
  | (n, v) :: ms => (lastFolded name ms).or (if foldName n.text = name then some v else none)

/-- The content of a message. -/
def messageContent : Json → Option Json
  | .object members => lastFolded "content" members
  | _ => none

/-- The top-level fields, the last one of each name. -/
def fields (doc : Json) : List (String × Json) := (unmarshalFields doc).getD []

/-- The elements of the `messages` field. -/
def messageList (doc : Json) : List Json :=
  match (fields doc).lookup "messages" with
  | some (.array values) => values
  | _ => []

/-- The parts of a request that the scanner sees. -/
def scannedParts (doc : Json) : List Json :=
  (messageList doc).filterMap messageContent ++
    ((fields doc).filter fun field => field.1 ∉ ["model", "messages", "stream"]).map (·.2)

/-! ## Lists -/

theorem mem_of_mapM_some {α β : Type} {f : α → Option β} {l : List α} {l' : List β}
    (h : l.mapM f = some l') {x : α} (hx : x ∈ l) : ∃ y ∈ l', f x = some y := by
  induction l generalizing l' with
  | nil => cases hx
  | cons a l ih =>
    rw [List.mapM_cons] at h
    obtain ⟨b, hb, h⟩ := Option.bind_eq_some_iff.mp h
    obtain ⟨bs, hbs, h⟩ := Option.bind_eq_some_iff.mp h
    cases h
    rcases List.mem_cons.mp hx with rfl | hx
    · exact ⟨b, List.mem_cons_self, hb⟩
    · obtain ⟨y, hy, hf⟩ := ih hbs hx
      exact ⟨y, List.mem_cons_of_mem _ hy, hf⟩

/-! ## The projection -/

theorem setField_content {message message' : RawMessage} {member : JsonText × Json}
    (h : message.setField member = some message') :
    message'.content =
      (if foldName member.1.text = "content" then some member.2 else none).or message.content := by
  unfold RawMessage.setField at h
  by_cases hrole : foldName member.1.text = "role"
  · rw [if_pos hrole] at h
    obtain ⟨role, _, rfl⟩ := Option.map_eq_some_iff.mp h
    rw [hrole]
    rfl
  · rw [if_neg hrole] at h
    by_cases hcontent : foldName member.1.text = "content"
    · rw [if_pos hcontent] at h
      cases h
      rw [if_pos hcontent]
      rfl
    · rw [if_neg hcontent] at h ⊢
      split at h
      · split at h
        · cases h; rfl
        · cases h; rfl
        · cases h
      · cases h; rfl

theorem foldlM_content {members : List (JsonText × Json)} {message message' : RawMessage}
    (h : members.foldlM RawMessage.setField message = some message') :
    message'.content = (lastFolded "content" members).or message.content := by
  induction members generalizing message with
  | nil => cases h; rfl
  | cons m members ih =>
    obtain ⟨n, v⟩ := m
    rw [List.foldlM_cons] at h
    obtain ⟨next, hnext, h⟩ := Option.bind_eq_some_iff.mp h
    rw [ih h, setField_content hnext, lastFolded, Option.or_assoc]

/-- The content of a message is its last member of that name. -/
theorem unmarshal_content {doc : Json} {message : RawMessage}
    (h : RawMessage.unmarshal doc = some message) : message.content = messageContent doc := by
  cases doc with
  | object members => rw [foldlM_content h, messageContent, Option.or_none]
  | null => cases h; rfl
  | _ => cases h

theorem toChatMessage_ok {message : RawMessage} {chat : ChatMessage Json}
    (h : message.toChatMessage = .ok chat) :
    message.content = some chat.contentJson ∧ message.role ≠ "" := by
  unfold RawMessage.toChatMessage at h
  split at h
  · rename_i content hcontent
    split at h
    · cases h
    · rename_i hrole
      cases h
      exact ⟨hcontent, hrole⟩
  · cases h

theorem rawMessages_ok {doc : Json} {messages : List RawMessage}
    (h : Gateway.rawMessages (fields doc) = .ok messages) :
    ∃ values, messageList doc = values ∧
      (fields doc).lookup "messages" = some (.array values) ∧
      values.mapM RawMessage.unmarshal = some messages := by
  unfold Gateway.rawMessages at h
  split at h
  · rename_i message rest hsome
    cases h
    obtain ⟨v, hlookup, hv⟩ := Option.bind_eq_some_iff.mp hsome
    cases v with
    | array values => exact ⟨values, by rw [messageList, hlookup], hlookup, hv⟩
    | _ => cases hv
  · cases h

/-- What an accepted body is projected to. -/
theorem parseRequest_ok {F : Type} {len : Json → Nat} {server : ServerLimits}
    {activeTenant : Tenant F} {requestId : String} {deadline : Nat} {body rawBody : Json}
    {request : EvaluateRequestRequest Json} {streaming : Bool}
    (h : parseRequest len server activeTenant requestId deadline body =
      .ok (rawBody, request, streaming)) :
    rawBody = body ∧ ∃ context model rawMessages chats,
      unmarshalFields body = some (fields body) ∧
      Gateway.rawMessages (fields body) = .ok rawMessages ∧
      rawMessages.mapM RawMessage.toChatMessage = .ok chats ∧
      stream (fields body) = .ok streaming ∧
      request =
        { context := some context
          request := some
            { model
              messages := chats
              toolsJson := toolsJson (fields body)
              generationParametersJson := generationJson (fields body) } } := by
  simp only [parseRequest, bind, Except.bind] at h
  split at h
  · cases h
  split at h
  · rename_i rawFields hfields
    have hf : fields body = rawFields := by rw [fields, hfields]; rfl
    split at h
    · cases h
    split at h
    · cases h
    rename_i hmessages
    split at h
    · cases h
    rename_i hstream
    split at h
    · cases h
    rename_i hchats
    cases h
    rw [hf]
    exact ⟨rfl, _, _, _, _, hfields, hmessages, hchats, hstream, rfl⟩
  · cases h

/-! ## What the engine reads -/

section Scan

variable {number : String → Option String} {len : Json → Nat} {maxDepth : Nat}

/-- The documents as the engine reads them from the wire. -/
def jsonField (len : Json → Nat) (number : String → Option String) : JsonField Json where
  len := len
  fromSlice := Value.fromSlice number

theorem parseBoundedJson_visible {doc : Json} {value : Value}
    (h : parseBoundedJson (jsonField len number) doc maxDepth = .ok value) :
    doc.visible ⊆ value.collectStrings := by
  unfold parseBoundedJson at h
  split at h
  · cases h
  split at h
  · cases h
  rename_i value' hvalue
  split at h
  · cases h
  · cases h
    exact Value.fromSlice_visible hvalue

theorem parseMessage_visible {engine : PolicyEngine} {message : ChatMessage Json}
    {parsed : CanonicalMessage}
    (h : engine.parseMessage (jsonField len number) message = .ok parsed) :
    message.contentJson.visible ⊆ parsed.content.collectStrings := by
  unfold PolicyEngine.parseMessage at h
  split at h
  · cases h
  simp only [bind, Except.bind] at h
  split at h
  · cases h
  rename_i content hcontent
  cases h
  exact parseBoundedJson_visible hcontent

theorem fields_pairwise (doc : Json) : (fields doc).Pairwise fun m m' => m.1 ≠ m'.1 := by
  unfold fields unmarshalFields
  split
  · exact List.Pairwise.nil
  · cases doc with
    | object members => exact lastWins_pairwise _
    | _ => exact List.Pairwise.nil

/-- A field that is not reserved is a member of the generation parameters. -/
theorem generationJson_visible {rawFields : List (String × Json)} {name : String} {v : Json}
    (hpair : rawFields.Pairwise fun m m' => m.1 ≠ m'.1) (hmem : (name, v) ∈ rawFields)
    (hname : name ∉ reservedFields) : v.visible ⊆ (generationJson rawFields).visible := by
  have hkept : (name, v) ∈ rawFields.filter fun field => field.1 ∉ reservedFields :=
    List.mem_filter.mpr ⟨hmem, by simpa using hname⟩
  have hpair := hpair.filter fun field => decide (field.1 ∉ reservedFields)
  unfold generationJson
  obtain ⟨before, after, heq⟩ := List.append_of_mem hkept
  rw [heq] at hpair ⊢
  rw [List.map_append, List.map_cons, Json.visible]
  refine Json.visible_subset_members ?_
  have hafter := (List.pairwise_cons.mp (List.pairwise_append.mp hpair).2.1).1
  rw [Json.shadowed, List.any_eq_false]
  intro m hm hk
  obtain ⟨field, hfield, rfl⟩ := List.mem_map.mp hm
  have hk : field.1 = name := by simpa using hk
  exact hafter field hfield hk.symm

/-- The strings of the scanned parts are among those that the engine collects. -/
theorem scannedParts_subset {engine : PolicyEngine} {server : ServerLimits} {F : Type}
    {activeTenant : Tenant F} {requestId : String} {deadline : Nat} {body rawBody : Json}
    {context : RequestContext} {request : ModelRequest Json} {streaming : Bool}
    {parsed : List CanonicalMessage} {tools generation : Value}
    (h : parseRequest len server activeTenant requestId deadline body =
      .ok (rawBody, { context := some context, request := some request }, streaming))
    (hparsed : request.messages.mapM (engine.parseMessage (jsonField len number)) = .ok parsed)
    (htools : parseBoundedJson (jsonField len number) request.toolsJson maxDepth = .ok tools)
    (hgeneration : parseBoundedJson (jsonField len number) request.generationParametersJson
      maxDepth = .ok generation) :
    (scannedParts body).flatMap Json.visible ⊆
      PolicyEngine.textValues parsed tools generation := by
  obtain ⟨-, context', model, raws, chats, hfields, hraws, hchats, -, heq⟩ := parseRequest_ok h
  cases heq
  rw [PolicyEngine.textValues]
  intro s hs
  obtain ⟨part, hpart, hs⟩ := List.mem_flatMap.mp hs
  rcases List.mem_append.mp hpart with hpart | hpart
  -- the content of a message
  · obtain ⟨message, hmessage, hcontent⟩ := List.mem_filterMap.mp hpart
    obtain ⟨values, hlist, -, hvalues⟩ := rawMessages_ok hraws
    rw [hlist] at hmessage
    obtain ⟨raw, hraw, hunmarshal⟩ := mem_of_mapM_some hvalues hmessage
    obtain ⟨chat, hchat, hok⟩ := mem_of_mapM_ok hchats hraw
    obtain ⟨cm, hcm, hcontentOk⟩ := mem_of_mapM_ok hparsed hchat
    have heq : some part = some chat.contentJson := by
      rw [← hcontent, ← unmarshal_content hunmarshal]
      exact (toChatMessage_ok hok).1
    cases heq
    exact List.mem_append_left _ (List.mem_append_left _
      (List.mem_flatMap.mpr ⟨cm, hcm, parseMessage_visible hcontentOk hs⟩))
  · obtain ⟨⟨name, v⟩, hfield, rfl⟩ := List.mem_map.mp hpart
    obtain ⟨hfield, hname⟩ := List.mem_filter.mp hfield
    by_cases htool : name = "tools"
    · subst htool
      have hlookup := lookup_of_pairwise (fields_pairwise body) hfield
      have hv : toolsJson (fields body) = v := by rw [toolsJson, hlookup]; rfl
      rw [hv] at htools
      exact List.mem_append_left _
        (List.mem_append_right _ (parseBoundedJson_visible htools hs))
    · have hother : name ∉ reservedFields := by
        simp only [reservedFields, List.mem_cons, List.not_mem_nil, decide_eq_true_eq] at hname ⊢
        tauto
      exact List.mem_append_right _ (parseBoundedJson_visible hgeneration
        (generationJson_visible (fields_pairwise body) hfield hother hs))

end Scan

/-! ## What is forwarded -/

/-- The members of a message other than its content. -/
def otherMembers : List (JsonText × Json) → List Json
  | [] => []
  | (n, v) :: ms =>
    if foldName n.text = "content" ∧ (lastFolded "content" ms).isNone then otherMembers ms
    else v :: otherMembers ms

/-- The model and the members of messages other than their content. -/
def unscannedParts (doc : Json) : List Json :=
  ((fields doc).filter fun field => field.1 = "model").map (·.2) ++
    (messageList doc).flatMap fun message =>
      match message with
      | .object members => otherMembers members
      | _ => []

theorem mem_otherMembers {members : List (JsonText × Json)} {name : JsonText} {v : Json}
    (h : (name, v) ∈ members) :
    lastFolded "content" members = some v ∨ v ∈ otherMembers members := by
  induction members with
  | nil => cases h
  | cons m ms ih =>
    obtain ⟨n, w⟩ := m
    rw [lastFolded, otherMembers]
    by_cases hlast : foldName n.text = "content" ∧ (lastFolded "content" ms).isNone
    -- the member itself is the content
    · rw [if_pos hlast, if_pos hlast.1, Option.isNone_iff_eq_none.mp hlast.2]
      rcases List.mem_cons.mp h with heq | h
      · cases heq
        exact .inl rfl
      · refine (ih h).imp_left fun hsome => ?_
        rw [hsome] at hlast
        cases hlast.2
    · rw [if_neg hlast]
      rcases List.mem_cons.mp h with heq | h
      · cases heq
        exact .inr List.mem_cons_self
      · rcases ih h with hsome | hother
        · rw [hsome]
          exact .inl rfl
        · exact .inr (List.mem_cons_of_mem _ hother)

/-- A string of a message is in its content or in another member. -/
theorem message_covered {message : Json} {raw : RawMessage} {s : String}
    (hraw : RawMessage.unmarshal message = some raw) (hs : s ∈ message.visible) :
    (∃ content, messageContent message = some content ∧ s ∈ content.visible) ∨
      ∃ members, message = .object members ∧ ∃ v ∈ otherMembers members, s ∈ v.strings := by
  cases message with
  | object members =>
    obtain ⟨before, name, v, after, rfl, -, hv⟩ := Json.mem_visibleMembers hs
    rcases mem_otherMembers (List.mem_append_right before List.mem_cons_self) with h | h
    · exact .inl ⟨v, h, hv⟩
    · exact .inr ⟨_, rfl, v, h, Json.visible_subset_strings v hv⟩
  | null => cases hs
  | _ => cases hraw

/-- A visible string of the body is in a field. -/
theorem mem_fields {body : Json} {rawFields : List (String × Json)} {s : String}
    (h : unmarshalFields body = some rawFields) (hs : s ∈ body.visible) :
    ∃ name v, (name, v) ∈ rawFields ∧ s ∈ v.visible := by
  unfold unmarshalFields at h
  split at h
  · cases h
  cases body with
  | object members =>
    cases h
    obtain ⟨before, name, v, after, rfl, hlast, hv⟩ := Json.mem_visibleMembers hs
    refine ⟨name.text, v, ?_, hv⟩
    rw [List.map_append, List.map_cons]
    refine mem_lastWins_of_last fun m hm hk => ?_
    obtain ⟨member, hmember, rfl⟩ := List.mem_map.mp hm
    rw [Json.shadowed, List.any_eq_false] at hlast
    exact hlast member hmember (by simpa using hk)
  | null => cases hs
  | _ => cases h

theorem stream_visible {doc : Json} {streaming : Bool} {v : Json}
    (h : stream (fields doc) = .ok streaming) (hmem : ("stream", v) ∈ fields doc) :
    v.visible = [] := by
  unfold stream at h
  rw [lookup_of_pairwise (fields_pairwise doc) hmem] at h
  cases v with
  | null => rfl
  | bool b => rfl
  | _ => cases h

/-- The visible strings of an accepted body are in its scanned and in its unscanned parts. -/
theorem visible_covered {server : ServerLimits} {F : Type} {activeTenant : Tenant F}
    {len : Json → Nat} {requestId : String} {deadline : Nat} {body rawBody : Json}
    {request : EvaluateRequestRequest Json} {streaming : Bool}
    (h : parseRequest len server activeTenant requestId deadline body =
      .ok (rawBody, request, streaming)) :
    body.visible ⊆ (scannedParts body).flatMap Json.visible ++
      (unscannedParts body).flatMap Json.strings := by
  obtain ⟨-, context, model, raws, chats, hfields, hraws, hchats, hstream, -⟩ := parseRequest_ok h
  intro s hs
  obtain ⟨name, v, hmem, hv⟩ := mem_fields hfields hs
  have hlookup := lookup_of_pairwise (fields_pairwise body) hmem
  by_cases hmodel : name = "model"
  · subst hmodel
    refine List.mem_append_right _ (List.mem_flatMap.mpr ⟨v, ?_, Json.visible_subset_strings v hv⟩)
    exact List.mem_append_left _
      (List.mem_map.mpr ⟨_, List.mem_filter.mpr ⟨hmem, by simp⟩, rfl⟩)
  by_cases hmessages : name = "messages"
  · subst hmessages
    obtain ⟨values, hlist, hvalues, hunmarshal⟩ := rawMessages_ok hraws
    rw [hlookup] at hvalues
    cases hvalues
    obtain ⟨message, hmessage, hsm⟩ := Json.mem_visibleList hv
    obtain ⟨raw, hraw, hmessageRaw⟩ := mem_of_mapM_some hunmarshal hmessage
    rw [← hlist] at hmessage
    rcases message_covered hmessageRaw hsm with ⟨content, hcontent, hsc⟩ | hother
    · refine List.mem_append_left _ (List.mem_flatMap.mpr ⟨content, ?_, hsc⟩)
      exact List.mem_append_left _ (List.mem_filterMap.mpr ⟨message, hmessage, hcontent⟩)
    · obtain ⟨members, rfl, w, hw, hsw⟩ := hother
      refine List.mem_append_right _ (List.mem_flatMap.mpr ⟨w, ?_, hsw⟩)
      exact List.mem_append_right _ (List.mem_flatMap.mpr ⟨_, hmessage, hw⟩)
  by_cases hstreamName : name = "stream"
  · subst hstreamName
    rw [stream_visible hstream hmem] at hv
    cases hv
  · refine List.mem_append_left _ (List.mem_flatMap.mpr ⟨v, ?_, hv⟩)
    refine List.mem_append_right _ (List.mem_map.mpr ⟨_, List.mem_filter.mpr ⟨hmem, ?_⟩, rfl⟩)
    simp [hmodel, hmessages, hstreamName]

/-- A fail-closed request is forwarded when the engine allows it. -/
theorem admission_closed {result : Option PolicyResult} {err : Bool} {body forwarded : Json}
    (h : admission .closed result err body = .ok forwarded) :
    forwarded = body ∧ err = false ∧ ∃ r, result = some r ∧ r.decision = .allow := by
  unfold admission at h
  split at h
  · cases h
  rename_i herr
  split at h
  · cases h
  split at h
  · rename_i hnone
    exact absurd ⟨rfl, rfl⟩ hnone
  rename_i r _
  split at h
  · rename_i hopen
    cases hopen.2
  split at h
  · cases h
  split at h
  · cases h
  rename_i hallow
  cases h
  refine ⟨rfl, ?_, r, rfl, by simpa using hallow⟩
  cases err with
  | false => rfl
  | true => exact absurd ⟨rfl, rfl⟩ herr

/-- A request of a fail-closed tenant that is forwarded: the body goes out as it came in, and all
its visible strings outside the model and the messages' other members are clean. -/
theorem forwarded_scanned {F : Type} {len : Json → Nat} {number : String → Option String}
    {lib : Externals} {config : Config} {server : ServerLimits} {activeTenant : Tenant F}
    {requestId : String} {deadline : Nat} {fault : Bool} {body forwarded : Json}
    (hclosed : activeTenant.policyFailMode = .closed)
    (h : serve len server activeTenant requestId deadline
      (evaluate (.new lib config) (jsonField len number) lib fault) body = .ok forwarded) :
    forwarded = body ∧
      body.visible ⊆ (scannedParts body).flatMap Json.visible ++
        (unscannedParts body).flatMap Json.strings ∧
      Clean lib (config.blockedTerms.map lib.toLowercase)
        ((scannedParts body).flatMap Json.visible) := by
  unfold serve at h
  split at h
  · cases h
  rename_i rawBody request streaming hparse
  rw [hclosed] at h
  obtain ⟨rfl, hfault, r, hr, hallow⟩ := admission_closed h
  obtain ⟨rfl, context, model, raws, chats, -, -, -, -, rfl⟩ := parseRequest_ok hparse
  refine ⟨rfl, visible_covered hparse, ?_⟩
  cases fault with
  | true => cases hfault
  | false =>
    cases hr
    obtain ⟨parsed, tools, generation, hparsed, htools, hgeneration, hclean⟩ :=
      (PolicyEngine.evaluate_allowed hallow).parsed
    exact hclean.mono (scannedParts_subset hparse hparsed htools hgeneration)

/-! ## A name that is not scanned -/

namespace NamedRequest

/-- `{"model":"m","messages":[{"role":"user","content":"hi","name":"a@b.co"}]}`. -/
def body : Json :=
  .object
    [(⟨"model", true⟩, .string ⟨"m", true⟩),
      (⟨"messages", true⟩, .array
        [.object
          [(⟨"role", true⟩, .string ⟨"user", true⟩), (⟨"content", true⟩, .string ⟨"hi", true⟩),
            (⟨"name", true⟩, .string ⟨"a@b.co", true⟩)]])]

/-- ASCII text, with the hash of the one request. -/
def lib : Externals :=
  .ascii []
    ("\x7b\"model\":\"m\",\"messages\":[\x7b\"role\":\"user\",\"content\":\"hi\"," ++
      "\"name\":\"a@b.co\"\x7d],\"tools\":[],\"generation_parameters\":\x7b\x7d\x7d")
    [101, 115, 39, 173, 89, 114, 159, 179, 244, 229, 248, 91, 86, 147, 140, 142, 72, 34, 138, 6,
      98, 37, 245, 139, 174, 141, 126, 182, 13, 197, 172, 195]

/-- A tenant with a budget of 100 tokens. -/
def tenant : Tenant Nat where
  id := "t"
  tokenBudget := 100
  policyFailMode := .closed
  routingRequirements := ∅
  ttftSloMs := 0

/-- The request with a name that looks like an address is forwarded. -/
def forwarded : Except (Nat × String) Json :=
  serve Json.compactLen { maxRequestBytes := 1024, maxResponseBytes := 4096 } tenant "r" 0
    (evaluate (.new lib .default) (jsonField Json.compactLen some) lib false) body

theorem forwarded_eq : forwarded = .ok body := by rfl

end NamedRequest

open NamedRequest in
/-- The visible strings of a forwarded body are covered, and `hi` is scanned. -/
theorem forwarded_scanned_named :
    body.visible ⊆ (scannedParts body).flatMap Json.visible ++
        (unscannedParts body).flatMap Json.strings ∧
      Clean lib [] ["hi"] :=
  (forwarded_scanned rfl forwarded_eq).2

open NamedRequest in
/-- The name of a message is forwarded although it is an email address. -/
theorem name_forwarded_unscanned :
    tenant.policyFailMode = .closed ∧ forwarded = .ok body ∧
      "a@b.co" ∈ body.strings ∧ lib.emailIsMatch "a@b.co" = true :=
  ⟨rfl, forwarded_eq, by decide, by decide⟩

end Kavora.Gateway
