import Mathlib.Data.Set.Card
import Kavora.Lib.System
import Kavora.Router.CacheMatch

/-!
# The KV index refines a map for each backend

The index keeps the entries of all backends in one list, in the order of their last use, with keys
of text, a window of the IDs that it has seen and the last sequence of each backend. What it holds
of a backend is what the backend's own events say, applied in order to a map.

* `Reference`, `reference`: the map of a backend, from its events.
* `Generations`: the events of a backend as its engine numbers them.
* `kvIndex`: events and matches, in any order, on any backends.
* `index_refines`: the content of the index and the evidence that it returns.
-/

namespace Kavora.Router

open Lib Lib.Go BackendState KVEventProvider

/-! ## The map of a backend -/

/-- What a backend holds: its generation and the event under each key. -/
structure Reference where
  generation : String
  entries : String → Option KVEvent

/-- Events apply in order; a new generation starts with nothing. -/
def Reference.apply (reference : Reference) (event : KVEvent) : Reference where
  generation := event.generation
  entries :=
    heldAfter event
      (if reference.generation = event.generation then reference.entries else fun _ => none)

/-- The map of a backend after its events. -/
def reference (events : List KVEvent) : Reference :=
  events.foldl Reference.apply { generation := "", entries := fun _ => none }

theorem reference_concat (events : List KVEvent) (event : KVEvent) :
    reference (events ++ [event]) = (reference events).apply event := by
  unfold reference
  rw [List.foldl_append, List.foldl_cons, List.foldl_nil]

/-- The live keys of all backends. -/
def liveKeys (events : String → List KVEvent) : Set (String × String) :=
  {key | ((reference (events key.1)).entries key.2).isSome = true}

/-- An operation adds no key but its own. -/
theorem isSome_of_heldAfter {event : KVEvent} {held : String → Option KVEvent} {cacheKey : String}
    (hne : cacheKey ≠ event.cacheKey) (h : (heldAfter event held cacheKey).isSome = true) :
    (held cacheKey).isSome = true := by
  unfold heldAfter at h
  cases hoperation : event.effectiveOperation with
  | clear =>
    rw [hoperation] at h
    cases h
  | _ =>
    simp only [hoperation, Function.update_of_ne hne] at h
    exact h

/-- A key is live if an event of its backend has it. -/
theorem mem_of_reference {events : List KVEvent} {cacheKey : String}
    (hlive : ((reference events).entries cacheKey).isSome = true) :
    ∃ event ∈ events, event.cacheKey = cacheKey := by
  induction events using List.reverseRecOn with
  | nil => cases hlive
  | append_singleton events event ih =>
    by_cases hkey : event.cacheKey = cacheKey
    · exact ⟨event, List.mem_concat_self, hkey⟩
    rw [reference_concat] at hlive
    have hheld := isSome_of_heldAfter (Ne.symm hkey) hlive
    have hbefore : ((reference events).entries cacheKey).isSome = true := by
      split at hheld
      · exact hheld
      · cases hheld
    obtain ⟨earlier, hearlier, hsame⟩ := ih hbefore
    exact ⟨earlier, List.mem_append_left _ hearlier, hsame⟩

/-- There are no more live keys than events. -/
theorem encard_liveKeys_le {events : String → List KVEvent} {all : List KVEvent}
    (hall : ∀ backendID, events backendID = all.filter (·.backendID = backendID)) :
    (liveKeys events).encard ≤ all.length := by
  let keys := (all.map fun event => (event.backendID, event.cacheKey)).toFinset
  have hsubset : liveKeys events ⊆ (keys : Set (String × String)) := by
    rintro ⟨backendID, cacheKey⟩ hlive
    obtain ⟨event, hevent, hkey⟩ := mem_of_reference hlive
    rw [hall] at hevent
    obtain ⟨hevent, hbackend⟩ := List.mem_filter.mp hevent
    refine List.mem_toFinset.mpr (List.mem_map.mpr ⟨event, hevent, ?_⟩)
    rw [of_decide_eq_true hbackend, hkey]
  calc (liveKeys events).encard
      ≤ (keys : Set (String × String)).encard := Set.encard_le_encard hsubset
    _ = keys.card := Set.encard_coe_eq_coe_finsetCard _
    _ ≤ all.length := by
      have hcard := List.toFinset_card_le (all.map fun event => (event.backendID, event.cacheKey))
      rw [List.length_map] at hcard
      exact_mod_cast hcard

/-! ## Generations -/

/-- The events of one generation. -/
structure Generation where
  name : String
  events : List KVEvent

/-- A generation has a name, and its sequences do not fall. -/
structure Generation.Numbered (generation : Generation) : Prop where
  name : generation.name ≠ ""
  events : ∀ event ∈ generation.events,
    event.generation = generation.name ∧ event.hasSequence = true
  sequences : generation.events.Pairwise fun earlier later => earlier.sequence ≤ later.sequence

instance (generation : Generation) : Decidable generation.Numbered :=
  decidable_of_iff (generation.name ≠ "" ∧
      (∀ event ∈ generation.events,
        event.generation = generation.name ∧ event.hasSequence = true) ∧
      generation.events.Pairwise fun earlier later => earlier.sequence ≤ later.sequence)
    ⟨fun h => ⟨h.1, h.2.1, h.2.2⟩, fun h => ⟨h.name, h.events, h.sequences⟩⟩

/-- The events of a backend: generations with different names, one after the other, and each event
with an ID of its own. -/
structure Generations (events : List KVEvent) : Prop where
  generations : ∃ generations : List Generation, events = generations.flatMap (·.events) ∧
    (generations.map (·.name)).Nodup ∧ ∀ generation ∈ generations, generation.Numbered
  ids : (events.map (·.engineEventID)).Nodup
  named : ∀ event ∈ events, event.engineEventID ≠ ""

namespace Generations

variable {events : List KVEvent} {event : KVEvent}

theorem nil : Generations [] where
  generations := ⟨[], rfl, List.nodup_nil, fun _ hmem => absurd hmem List.not_mem_nil⟩
  ids := List.nodup_nil
  named _ hmem := absurd hmem List.not_mem_nil

theorem of_numbered (generations : List Generation)
    (hsplit : events = generations.flatMap (·.events))
    (h : ((generations.map (·.name)).Nodup ∧ ∀ generation ∈ generations, generation.Numbered) ∧
      (events.map (·.engineEventID)).Nodup ∧ ∀ event ∈ events, event.engineEventID ≠ "") :
    Generations events where
  generations := ⟨generations, hsplit, h.1⟩
  ids := h.2.1
  named := h.2.2

theorem of_mem (h : Generations events) (hevent : event ∈ events) :
    event.generation ≠ "" ∧ event.hasSequence = true := by
  obtain ⟨generations, rfl, -, hnumbered⟩ := h.generations
  obtain ⟨generation, hgeneration, hevent⟩ := List.mem_flatMap.mp hevent
  obtain ⟨hname, hsequence⟩ := (hnumbered generation hgeneration).events event hevent
  exact ⟨hname ▸ (hnumbered generation hgeneration).name, hsequence⟩

/-- Sequences do not fall as long as the generation is the same. -/
theorem ordered (h : Generations events) : events.Pairwise fun earlier later =>
    earlier.generation = later.generation → earlier.sequence ≤ later.sequence := by
  obtain ⟨generations, rfl, hnodup, hnumbered⟩ := h.generations
  rw [List.pairwise_flatMap]
  constructor
  · intro generation hgeneration
    refine (hnumbered generation hgeneration).sequences.imp ?_
    intro earlier later hle _
    exact hle
  · refine ((List.pairwise_map.mp hnodup).imp_of_mem ?_)
    intro left right hleft hright hne earlier hearlier later hlater hsame
    have hearlier := ((hnumbered left hleft).events earlier hearlier).1
    have hlater := ((hnumbered right hright).events later hlater).1
    exact absurd (hearlier.symm.trans (hsame.trans hlater)) hne

theorem ordered_concat (h : Generations (events ++ [event])) {earlier : KVEvent}
    (hearlier : earlier ∈ events) (hsame : earlier.generation = event.generation) :
    earlier.sequence ≤ event.sequence :=
  (List.pairwise_append.mp h.ordered).2.2 earlier hearlier event (List.mem_singleton_self _) hsame

theorem fresh_concat (h : Generations (events ++ [event])) {earlier : KVEvent}
    (hearlier : earlier ∈ events) : earlier.engineEventID ≠ event.engineEventID := by
  have hids := h.ids
  rw [List.map_append, List.nodup_append] at hids
  exact hids.2.2 _ (List.mem_map_of_mem hearlier) _ (List.mem_singleton_self _)

end Generations

/-- The generation of a backend is that of its last event. -/
theorem reference_unnamed {events : List KVEvent} (h : Generations events)
    (hunnamed : (reference events).generation = "") : events = [] := by
  induction events using List.reverseRecOn with
  | nil => rfl
  | append_singleton events event _ =>
    rw [reference_concat] at hunnamed
    exact absurd hunnamed (h.of_mem List.mem_concat_self).1

/-! ## The system -/

/-- The index, and the events of each backend that it observed. -/
structure IndexState (F : Type) where
  provider : KVEventProvider F
  events : String → List KVEvent

/-- The operations of the index. -/
inductive IndexOperation where
  | observe (now : Time) (event : KVEvent)
  | query (now : Time) (request : CacheMatchRequest) (backendID : String)

namespace IndexOperation

/-- The backend of an operation. -/
def backendID : IndexOperation → String
  | observe _ event => event.backendID
  | query _ _ backendID => backendID

end IndexOperation

/-- The event names a backend, and a key where its operation needs one. -/
def KVEvent.Complete (event : KVEvent) : Prop :=
  event.backendID ≠ "" ∧ (event.effectiveOperation = .clear ∨ event.cacheKey ≠ "")

instance (event : KVEvent) : Decidable event.Complete := inferInstanceAs (Decidable (_ ∧ _))

namespace IndexState

variable {F : Type}

/-- The events of the backends after one more, with its defaults. -/
def record (events : String → List KVEvent) (now : Time) (event : KVEvent) :
    String → List KVEvent :=
  if event.Complete then
    Function.update events event.backendID (events event.backendID ++ [event.withDefaults now])
  else events

/-- The index after an operation. -/
def after [Float64 F] (s : IndexState F) : IndexOperation → IndexState F
  | .observe now event =>
    { provider := s.provider.observe now event, events := record s.events now event }
  | .query now request backendID =>
    { s with provider := (s.provider.matchCache now request backendID).2 }

/-- What the engines promise of an event: they number it, and all their keys fit into the index. -/
def Promised (s : IndexState F) : IndexOperation → Prop
  | .observe now event =>
    Plain event.backendID ∧ Generations (record s.events now event event.backendID) ∧
      (liveKeys (record s.events now event)).encard ≤ s.provider.max
  | .query _ _ _ => True

end IndexState

variable {F : Type} [Float64 F]

/-- Events and matches on an index that starts empty. -/
def kvIndex (max : Int) (ttl : Duration) (lambda : F) : System (IndexState F) IndexOperation :=
  (System.ofFun { provider := .new max ttl lambda, events := fun _ => [] }
    IndexState.after).restrict IndexState.Promised

/-! ## The refinement -/

/-- The index holds what the maps of the backends hold. -/
structure Refines (s : IndexState F) : Prop where
  indexed : s.provider.Indexed
  keyed : ∀ entry ∈ s.provider.entries.view,
    ∃ backendID, Plain backendID ∧ ∃ cacheKey, entry.key = backendKey backendID cacheKey
  generations : ∀ backendID, Generations (s.events backendID)
  owned : ∀ backendID, ∀ event ∈ s.events backendID, event.backendID = backendID
  held : ∀ backendID, Plain backendID →
    s.provider.held backendID = (reference (s.events backendID)).entries
  generation : ∀ backendID, Plain backendID →
    s.provider.generation backendID = (reference (s.events backendID)).generation
  seen : ∀ eventKey ∈ s.provider.seenEvents, ∃ backendID, Plain backendID ∧
    ∃ event ∈ s.events backendID, eventKey = event.eventKey
  last : ∀ backendID, Plain backendID → s.provider.hasSequence backendID = true →
    ∃ event ∈ s.events backendID, event.generation = s.provider.generation backendID ∧
      event.sequence = s.provider.lastSequence backendID

/-- The entries are no more than the live keys. -/
theorem length_le_liveKeys {entries : List KVEventEntry} {live : Set (String × String)}
    (hnodup : (entries.map (·.key)).Nodup)
    (hlive : ∀ entry ∈ entries, ∃ key ∈ live, entry.key = backendKey key.1 key.2) :
    (entries.length : ENat) ≤ live.encard := by
  have hcard : (entries.map (·.key)).toFinset.card = entries.length := by
    rw [List.toFinset_card_of_nodup hnodup, List.length_map]
  have hsubset : ((entries.map (·.key)).toFinset : Set String) ⊆
      (fun key => backendKey key.1 key.2) '' live := by
    intro key hkey
    obtain ⟨entry, hentry, rfl⟩ := List.mem_map.mp (List.mem_toFinset.mp hkey)
    obtain ⟨key, hmem, hkey⟩ := hlive entry hentry
    exact ⟨key, hmem, hkey.symm⟩
  calc (entries.length : ENat)
      = ((entries.map (·.key)).toFinset : Set String).encard := by
        rw [Set.encard_coe_eq_coe_finsetCard, hcard]
    _ ≤ ((fun key : String × String => backendKey key.1 key.2) '' live).encard :=
        Set.encard_le_encard hsubset
    _ ≤ live.encard := Set.encard_image_le _ _

namespace Refines

variable {s : IndexState F} {now : Time} {event : KVEvent}

omit [Float64 F]

/-- What the index holds of a backend when it looks at an event of it. -/
theorem entered (h : Refines s) (hplain : Plain event.backendID)
    (hgenerations : Generations (s.events event.backendID ++ [event.withDefaults now])) :
    let q := s.provider.enterGeneration event.backendID event.generation
    ¬ q.Knows event ∧
      q.held event.backendID =
        if (reference (s.events event.backendID)).generation = event.generation then
          (reference (s.events event.backendID)).entries
        else fun _ => none := by
  intro q
  have hgeneration : event.generation ≠ "" := (hgenerations.of_mem List.mem_concat_self).1
  have hunseen : event.eventKey ∉ q.seenEvents := by
    rw [enterGeneration_seenEvents]
    intro hseen
    obtain ⟨backendID, hbackend, earlier, hearlier, hkey⟩ := h.seen _ hseen
    have howned := h.owned _ _ hearlier
    obtain ⟨hsame, hid⟩ := backendKey_inj hplain (howned ▸ hbackend) hkey
    rw [← howned, ← hsame] at hearlier
    exact hgenerations.fresh_concat hearlier hid.symm
  have hreference := h.generation _ hplain
  obtain hcontinues | hends := s.provider.continues_or_ends event
  · obtain ⟨hheld, hhas, hlast⟩ := hcontinues.entered
    rw [show q.held _ = _ from hheld, h.held _ hplain]
    -- a sequence behind the last one would be a second one of the same generation
    have hbehind : ∀ earlier ∈ s.events event.backendID,
        earlier.generation = s.provider.generation event.backendID →
        earlier.sequence = s.provider.lastSequence event.backendID →
        s.provider.generation event.backendID = event.generation → ¬ q.Behind event := by
      rintro earlier hearlier hgen hsequence hsame ⟨-, -, hlt⟩
      rw [show q.lastSequence = _ from hlast, ← hsequence] at hlt
      exact absurd hlt (not_lt.mpr (hgenerations.ordered_concat hearlier (hgen.trans hsame)))
    obtain hunset | hunnamed | hsame := hcontinues
    · exact absurd hunset hgeneration
    · have hnil := reference_unnamed (h.generations _) (hreference ▸ hunnamed)
      rw [hnil]
      refine ⟨?_, ?_⟩
      · rintro (hseen | ⟨-, hsequence, -⟩)
        · exact hunseen hseen
        · rw [show q.hasSequence = _ from hhas] at hsequence
          obtain ⟨earlier, hearlier, -⟩ := h.last _ hplain hsequence
          rw [hnil] at hearlier
          cases hearlier
      · split
        · rfl
        · rfl
    · rw [if_pos (hreference ▸ hsame)]
      refine ⟨?_, rfl⟩
      rintro (hseen | hbehind')
      · exact hunseen hseen
      · have hsequence := hbehind'.2.1
        rw [show q.hasSequence = _ from hhas] at hsequence
        obtain ⟨earlier, hearlier, hgen, hseq⟩ := h.last _ hplain hsequence
        exact hbehind earlier hearlier hgen hseq hsame hbehind'
  · obtain ⟨hheld, hhas, -⟩ := hends.entered h.indexed
    rw [show q.held _ = _ from hheld, if_neg (hreference ▸ hends.2.2)]
    refine ⟨?_, rfl⟩
    rintro (hseen | ⟨-, hsequence, -⟩)
    · exact hunseen hseen
    · rw [show q.hasSequence _ = _ from hhas] at hsequence
      cases hsequence

/-- The entries after an event are those of the maps, if there were no limit. -/
theorem live_eq (h : Refines s) (hv : event.Valid) (hplain : Plain event.backendID)
    (hgenerations : Generations (s.events event.backendID ++ [event.withDefaults now]))
    {backendID : String} (hbackend : Plain backendID) (cacheKey : String) :
    (Recency.get (·.key) (backendKey backendID cacheKey) (s.provider.live now event)).map (·.event) =
      (reference (Function.update s.events event.backendID
        (s.events event.backendID ++ [event.withDefaults now]) backendID)).entries cacheKey := by
  by_cases hsame : backendID = event.backendID
  · subst hsame
    obtain ⟨hnew, hentered⟩ := h.entered hplain hgenerations
    rw [get_live_self h.indexed hv rfl hnew, hentered, Function.update_self, reference_concat]
    rfl
  · rw [get_live_ne h.indexed hbackend hplain (Ne.symm hsame), Function.update_of_ne hsame,
      ← held_eq h.indexed, h.held _ hbackend]

/-- All live keys fit into the index. -/
theorem length_live (h : Refines s) (hv : event.Valid) (hplain : Plain event.backendID)
    (hgenerations : Generations (s.events event.backendID ++ [event.withDefaults now]))
    (hroom : (liveKeys (Function.update s.events event.backendID
      (s.events event.backendID ++ [event.withDefaults now]))).encard ≤ s.provider.max) :
    (s.provider.live now event).length ≤ s.provider.max := by
  have hnodup := nodup_live h.indexed now event
  refine ENat.natCast_le_natCast.mp ((length_le_liveKeys hnodup fun entry hentry => ?_).trans hroom)
  have hkeyed : ∃ backendID, Plain backendID ∧
      ∃ cacheKey, entry.key = backendKey backendID cacheKey := by
    obtain hold | hkey := mem_live h.indexed hentry
    · exact h.keyed entry hold
    · exact ⟨event.backendID, hplain, event.cacheKey, hkey⟩
  obtain ⟨backendID, hbackend, cacheKey, hkey⟩ := hkeyed
  refine ⟨(backendID, cacheKey), ?_, hkey⟩
  show Option.isSome _ = true
  rw [← h.live_eq hv hplain hgenerations hbackend, Recency.get_of_mem hnodup hentry hkey]
  rfl

/-- The recorded events after one more of a backend. -/
theorem mem_recorded {events : String → List KVEvent} {owner backendID : String}
    {recorded other : KVEvent} :
    other ∈ Function.update events owner (events owner ++ [recorded]) backendID ↔
      other ∈ events backendID ∨ backendID = owner ∧ other = recorded := by
  by_cases hsame : backendID = owner
  · subst hsame
    simp
  · simp [hsame]

/-- An event keeps the refinement. -/
theorem observe_complete (h : Refines s) (hv : event.Valid) (hplain : Plain event.backendID)
    (hgenerations : Generations (s.events event.backendID ++ [event.withDefaults now]))
    (hroom : (liveKeys (Function.update s.events event.backendID
      (s.events event.backendID ++ [event.withDefaults now]))).encard ≤ s.provider.max) :
    Refines
      { provider := s.provider.observe now event
        events := Function.update s.events event.backendID
          (s.events event.backendID ++ [event.withDefaults now]) } := by
  obtain ⟨hgeneration, hsequence⟩ := hgenerations.of_mem List.mem_concat_self
  have hlength := h.length_live hv hplain hgenerations hroom
  obtain ⟨hindexed, -, hview⟩ := observe_spec h.indexed now event
  rw [List.take_of_length_le hlength] at hview
  obtain ⟨hnew, -⟩ := h.entered hplain hgenerations
  obtain ⟨-, -, hlast⟩ := observe_accepted h.indexed hv rfl hnew hlength
  have hcurrent : (s.provider.observe now event).generation event.backendID = event.generation :=
    (observe_inGeneration s.provider now hv).resolve_left hgeneration
  exact
    { indexed := hindexed
      keyed := by
        intro entry hentry
        dsimp only at hentry
        rw [hview] at hentry
        obtain hold | hkey := mem_live h.indexed hentry
        · exact h.keyed entry hold
        · exact ⟨event.backendID, hplain, event.cacheKey, hkey⟩
      generations := by
        intro backendID
        by_cases hsame : backendID = event.backendID
        · subst hsame
          simpa using hgenerations
        · simpa [Function.update_of_ne hsame] using h.generations backendID
      owned := by
        intro backendID earlier hearlier
        obtain hold | ⟨rfl, rfl⟩ := mem_recorded.mp hearlier
        · exact h.owned _ _ hold
        · rfl
      held := by
        intro backendID hbackend
        funext cacheKey
        rw [held_eq hindexed, hview]
        exact h.live_eq hv hplain hgenerations hbackend cacheKey
      generation := by
        intro backendID hbackend
        dsimp only
        by_cases hsame : backendID = event.backendID
        · subst hsame
          rw [hcurrent, Function.update_self, reference_concat]
          rfl
        · obtain ⟨hkept, -, -⟩ := s.provider.observe_ne now hsame
          rw [hkept, Function.update_of_ne hsame]
          exact h.generation _ hbackend
      seen := by
        intro eventKey hseen
        obtain rfl | hold := Finset.mem_insert.mp (observe_seenEvents hseen)
        · exact ⟨event.backendID, hplain, _, mem_recorded.mpr (.inr ⟨rfl, rfl⟩), rfl⟩
        · obtain ⟨backendID, hbackend, earlier, hearlier, hkey⟩ := h.seen _ hold
          exact ⟨backendID, hbackend, earlier, mem_recorded.mpr (.inl hearlier), hkey⟩
      last := by
        intro backendID hbackend hhas
        by_cases hsame : backendID = event.backendID
        · subst hsame
          have hsequenced : event.sequenced = true := by
            unfold KVEvent.sequenced
            rw [show event.hasSequence = true from hsequence]
            rfl
          rw [if_pos hsequenced] at hlast
          exact ⟨_, mem_recorded.mpr (.inr ⟨rfl, rfl⟩), hcurrent.symm, hlast.symm⟩
        · obtain ⟨hkept, hkeptHas, hkeptLast⟩ := s.provider.observe_ne now hsame
          dsimp only at hhas ⊢
          rw [hkeptHas] at hhas
          obtain ⟨earlier, hearlier, hgen, hseq⟩ := h.last _ hbackend hhas
          exact ⟨earlier, mem_recorded.mpr (.inl hearlier), hgen.trans hkept.symm,
            hseq.trans hkeptLast.symm⟩ }

theorem observe (h : Refines s) (now : Time) (event : KVEvent)
    (hpromised : s.Promised (.observe now event)) :
    Refines { provider := s.provider.observe now event
              events := IndexState.record s.events now event } := by
  obtain ⟨hplain, hgenerations, hroom⟩ := hpromised
  unfold IndexState.record at hgenerations hroom ⊢
  by_cases hcomplete : event.Complete
  · rw [if_pos hcomplete, Function.update_self] at hgenerations
    rw [if_pos hcomplete] at hroom ⊢
    have hv : event.Valid :=
      ⟨hcomplete.1, hcomplete.2, hgenerations.named (event.withDefaults now) List.mem_concat_self⟩
    exact h.observe_complete hv hplain hgenerations hroom
  · have hskip : s.provider.observe now event = s.provider := by
      unfold KVEventProvider.observe
      by_cases hid : event.backendID = ""
      · rw [if_pos hid]
      · have hkey : event.effectiveOperation ≠ .clear ∧ event.cacheKey = "" := by
          unfold KVEvent.Complete at hcomplete
          tauto
        rw [if_neg hid, if_pos hkey]
    rw [if_neg hcomplete, hskip]
    exact h

/-- A match keeps the refinement. -/
theorem query [Float64 F] (h : Refines s) (now : Time) (request : CacheMatchRequest)
    (backendID : String) :
    Refines { s with provider := (s.provider.matchCache now request backendID).2 } := by
  obtain ⟨entries, hentries, hwf, hlength, hsame⟩ :=
    matchCache_spec h.indexed now request backendID
  rw [hentries]
  have hheld : ({ s.provider with entries }).held = s.provider.held := by
    funext backendID cacheKey
    unfold KVEventProvider.held
    rw [hsame]
  refine ⟨⟨hwf, hlength.trans_le h.indexed.bound⟩, ?_, h.generations, h.owned, ?_, h.generation,
    h.seen, h.last⟩
  · intro entry hentry
    have hget : Recency.get (·.key) entry.key entries.view = some entry :=
      Recency.get_of_mem hwf.keys hentry rfl
    rw [← hwf.find_map, hsame, h.indexed.wf.find_map] at hget
    exact h.keyed entry (Recency.get_eq_some hget).1
  · intro backendID hbackend
    rw [← h.held backendID hbackend]
    exact congrFun hheld backendID

end Refines

theorem refines_inductive (max : Int) (ttl : Duration) (lambda : F) :
    (kvIndex max ttl lambda).Inductive Refines where
  init s hs := by
    subst hs
    refine ⟨⟨LinkedMap.empty_wf, Nat.zero_le _⟩, ?_, fun _ => .nil, ?_, fun _ _ => rfl,
      fun _ _ => rfl, ?_, ?_⟩
    · intro entry hentry
      exact absurd hentry List.not_mem_nil
    · intro backendID event hevent
      exact absurd hevent List.not_mem_nil
    · intro eventKey hseen
      exact absurd hseen (Finset.notMem_empty _)
    · intro backendID _ hsequence
      cases hsequence
  step s operation s' h hstep := by
    obtain ⟨rfl, hpromised⟩ := hstep
    cases operation with
    | observe now event => exact h.observe now event hpromised
    | query now request backendID => exact h.query now request backendID

/-! ## Content and evidence -/

/-- What a match reads of a backend is the same after an operation on another one. -/
theorem after_held {s : IndexState F} (h : Refines s) {operation : IndexOperation}
    (hpromised : s.Promised operation) {backendID : String} (hbackend : Plain backendID)
    (hne : backendID ≠ operation.backendID) :
    (s.after operation).provider.held backendID = s.provider.held backendID := by
  cases operation with
  | observe now event =>
    have hafter : Refines (s.after (.observe now event)) := h.observe now event hpromised
    rw [hafter.held _ hbackend, h.held _ hbackend]
    have hevents : (s.after (.observe now event)).events backendID = s.events backendID := by
      show IndexState.record s.events now event backendID = s.events backendID
      unfold IndexState.record
      split
      · exact Function.update_of_ne hne _ _
      · rfl
    rw [hevents]
  | query now request queried =>
    have hafter : Refines (s.after (.query now request queried)) := h.query now request queried
    rw [hafter.held _ hbackend, h.held _ hbackend]
    rfl

theorem after_config {s : IndexState F} (h : Refines s) (operation : IndexOperation) :
    (s.after operation).provider.ttl = s.provider.ttl ∧
      (s.after operation).provider.lambda = s.provider.lambda := by
  cases operation with
  | observe now event => exact observe_config s.provider now event
  | query now request backendID =>
    obtain ⟨entries, hentries, -⟩ := matchCache_spec h.indexed now request backendID
    show (s.provider.matchCache now request backendID).2.ttl = _ ∧
      (s.provider.matchCache now request backendID).2.lambda = _
    rw [hentries]
    exact ⟨rfl, rfl⟩

theorem heldEvidence_congr {p p' : KVEventProvider F} (httl : p'.ttl = p.ttl)
    (hlambda : p'.lambda = p.lambda) (now : Time) (request : CacheMatchRequest)
    (held : String → Option KVEvent) :
    p'.heldEvidence now request held = p.heldEvidence now request held := by
  unfold heldEvidence entryEvidence
  rw [httl, hlambda]

/-- **The index refines a map for each backend.** It holds what the events of the backend make of
its map; a match with one key returns the evidence of its event there; a match with many keys the
sum of those that it starts with, as long as they are usable; and an operation on one backend
changes no match on another. -/
theorem index_refines {max : Int} {ttl : Duration} {lambda : F} {s : IndexState F}
    (hs : (kvIndex max ttl lambda).Reach s) {backendID : String} (hbackend : Plain backendID) :
    let held := (reference (s.events backendID)).entries
    let evidence now request := (s.provider.matchCache now request backendID).1
    s.provider.held backendID = held ∧
      (∀ now request, request.externalCacheKeys = [] → request.cacheKey ≠ "" →
        match held request.cacheKey with
        | none => evidence now request = missingCacheEvidence .kvEvents
        | some event => evidence now request = s.provider.entryEvidence now request event ∧
            (evidence now request).quality =
              if ageAt now event.observedAt > s.provider.ttl then .stale else event.quality) ∧
      (∀ now request, request.externalCacheKeys ≠ [] →
        let keys := usablePrefix s.provider.ttl now held request.externalCacheKeys
        let total := (keys.map (heldTokens held)).sum
        total < 2 ^ 63 →
          evidence now request = countedEvidence s.provider.lambda now request total
              (latestOf held keys Time.zero) ∧
            (evidence now request).matchedTokens =
              if request.promptTokens > 0 ∧ total > request.promptTokens then request.promptTokens
              else total) ∧
      ∀ operation, s.Promised operation → backendID ≠ operation.backendID → ∀ now request,
        ((s.after operation).provider.matchCache now request backendID).1 =
          evidence now request := by
  intro held evidence
  have h := (refines_inductive max ttl lambda).reach hs
  have hheld : s.provider.held backendID = held := h.held _ hbackend
  have hevidence : ∀ now request,
      evidence now request = s.provider.heldEvidence now request held := by
    intro now request
    rw [← hheld]
    exact matchCache_evidence h.indexed now request backendID
  refine ⟨hheld, ?_, ?_, ?_⟩
  · intro now request hexternal hkey
    rw [hevidence]
    unfold heldEvidence
    rw [if_neg fun hempty : _ ∧ _ => hkey hempty.1, if_neg (not_not.mpr hexternal)]
    cases held request.cacheKey with
    | none => rfl
    | some event => exact ⟨rfl, rfl⟩
  · intro now request hexternal keys total hroom
    have htotal : 0 ≤ total := List.sum_nonneg fun tokens htokens => by
      obtain ⟨key, -, rfl⟩ := List.mem_map.mp htokens
      exact heldTokens_nonneg held key
    have hcounted : evidence now request =
        countedEvidence s.provider.lambda now request total (latestOf held keys Time.zero) := by
      rw [hevidence]
      unfold heldEvidence
      rw [if_neg fun hempty : _ ∧ _ => hexternal hempty.2, if_pos hexternal]
      dsimp only
      rw [foldl_wrap64 (heldTokens_nonneg held) _ _ le_rfl (by rw [zero_add]; exact hroom),
        zero_add]
    refine ⟨hcounted, ?_⟩
    rw [hcounted]
    exact countedEvidence_matchedTokens _ now request htotal _
  · intro operation hpromised hne now request
    obtain ⟨httl, hlambda⟩ := after_config h operation
    have hindexed : (s.after operation).provider.Indexed :=
      ((refines_inductive max ttl lambda).reach (.step hs ⟨rfl, hpromised⟩)).indexed
    rw [matchCache_evidence hindexed, after_held h hpromised hbackend hne, hheld, hevidence]
    exact heldEvidence_congr httl hlambda now request held

namespace ReferenceSample

local instance : Float64 Rat := .rational id

def start : IndexState Rat where
  provider := .new 100 300000000000 0
  events _ := []

/-- The index after it observed some events. -/
def observed (events : List KVEvent) : IndexState Rat :=
  events.foldl (fun s event => s.after (.observe 1 event)) start

/-- The index has observed these events, and they were promised. -/
structure Ran (events : List KVEvent) : Prop where
  reach : (kvIndex 100 300000000000 (0 : Rat)).Reach (observed events)
  recorded : ∀ backendID,
    (observed events).events backendID = events.filter (·.backendID = backendID)

theorem Ran.nil : Ran [] where
  reach := .init rfl
  recorded _ := rfl

theorem Ran.concat {events : List KVEvent} {event : KVEvent} (h : Ran events)
    (hevent : event.Complete ∧ event.withDefaults 1 = event ∧ Plain event.backendID)
    (hgenerations : Generations ((events ++ [event]).filter (·.backendID = event.backendID)))
    (hroom : (events ++ [event]).length ≤ (observed events).provider.max) :
    Ran (events ++ [event]) := by
  obtain ⟨hcomplete, hdefaults, hplain⟩ := hevent
  have hafter : observed (events ++ [event]) = (observed events).after (.observe 1 event) := by
    unfold observed
    rw [List.foldl_append, List.foldl_cons, List.foldl_nil]
  have hrecorded : ∀ backendID, IndexState.record (observed events).events 1 event backendID =
      (events ++ [event]).filter (·.backendID = backendID) := by
    intro backendID
    unfold IndexState.record
    rw [if_pos hcomplete, hdefaults, List.filter_append]
    by_cases hsame : backendID = event.backendID
    · subst hsame
      simp [h.recorded]
    · simp [Function.update_of_ne hsame, Ne.symm hsame, h.recorded]
  refine ⟨?_, fun backendID => hafter ▸ hrecorded backendID⟩
  rw [hafter]
  refine .step h.reach ⟨rfl, hplain, hrecorded _ ▸ hgenerations, ?_⟩
  calc (liveKeys (IndexState.record (observed events).events 1 event)).encard
      ≤ ((events ++ [event]).length : ENat) := encard_liveKeys_le hrecorded
    _ ≤ (observed events).provider.max := by exact_mod_cast hroom

/-- An event of an engine: its place in a generation, and what it does with a key. -/
def event (backendID generation engineEventID : String) (sequence : Nat) (operation : Operation)
    (cacheKey : String) : KVEvent where
  operation
  backendID
  cacheKey
  matchedTokens := 16
  totalTokens := 16
  sequence
  hasSequence := true
  generation
  engineEventID
  observedAt := 1
  quality := .fresh

def storeFirst : KVEvent := event "b1" "g1" "e1" 1 .store "k1"

def storeSecond : KVEvent := event "b1" "g1" "e2" 2 .store "k2"

def removeFirst : KVEvent := event "b1" "g1" "e3" 3 .remove "k1"

def storeOther : KVEvent := event "b2" "p1" "e1" 5 .store "k1"

def clearOther : KVEvent := event "b2" "p1" "e2" 6 .clear ""

/-- The engine of the other backend has restarted. -/
def storeRestarted : KVEvent := event "b2" "p2" "e3" 0 .store "k3"

def history : List KVEvent :=
  [storeFirst, storeOther, storeSecond, clearOther, removeFirst, storeRestarted]

theorem ran_history : Ran history := by
  have h₁ : Ran [storeFirst] := Ran.nil.concat (by decide)
    (.of_numbered [⟨"g1", [storeFirst]⟩] (by decide) (by decide)) (by decide +kernel)
  have h₂ : Ran [storeFirst, storeOther] := h₁.concat (by decide)
    (.of_numbered [⟨"p1", [storeOther]⟩] (by decide) (by decide)) (by decide +kernel)
  have h₃ : Ran [storeFirst, storeOther, storeSecond] := h₂.concat (by decide)
    (.of_numbered [⟨"g1", [storeFirst, storeSecond]⟩] (by decide) (by decide)) (by decide +kernel)
  have h₄ : Ran [storeFirst, storeOther, storeSecond, clearOther] := h₃.concat (by decide)
    (.of_numbered [⟨"p1", [storeOther, clearOther]⟩] (by decide) (by decide)) (by decide +kernel)
  have h₅ : Ran [storeFirst, storeOther, storeSecond, clearOther, removeFirst] :=
    h₄.concat (by decide)
      (.of_numbered [⟨"g1", [storeFirst, storeSecond, removeFirst]⟩] (by decide) (by decide))
      (by decide +kernel)
  exact h₅.concat (by decide)
    (.of_numbered [⟨"p1", [storeOther, clearOther]⟩, ⟨"p2", [storeRestarted]⟩] (by decide)
      (by decide))
    (by decide +kernel)

def request : CacheMatchRequest where
  requestID := "r1"
  tenantID := "tenant"
  cacheKey := "k1"
  externalCacheKeys := []
  promptTokens := 40

/-- One backend removes a key, the other one drops all of its own and starts again. -/
theorem index_refines_two_backends :
    let provider := (observed history).provider
    provider.held "b1" = (reference [storeFirst, storeSecond, removeFirst]).entries ∧
      provider.held "b2" = (reference [storeOther, clearOther, storeRestarted]).entries ∧
      (provider.matchCache 2 { request with externalCacheKeys := ["k2", "k1"] }
        "b1").1.matchedTokens = 16 ∧
      (provider.matchCache 2 request "b2").1 = missingCacheEvidence .kvEvents := by
  have hrecorded := ran_history.recorded
  obtain ⟨hfirst, -, hmany, -⟩ := index_refines ran_history.reach (show Plain "b1" by decide)
  obtain ⟨hother, hone, -, -⟩ := index_refines ran_history.reach (show Plain "b2" by decide)
  rw [hrecorded] at hfirst hmany hother hone
  refine ⟨hfirst, hother, ?_, hone 2 request rfl (by decide)⟩
  exact (hmany 2 { request with externalCacheKeys := ["k2", "k1"] } (by decide)
    (by decide +kernel)).2.trans (by decide +kernel)

end ReferenceSample

end Kavora.Router
