import Kavora.Router.CacheWindow

/-!
# The entries of the KV index

An event is an operation on the list of the entries, the most recent one first.

* `KVEventProvider.Indexed`: the index is well formed and holds at most `max` entries.
* `KVEventProvider.live`: the entries after an event if there were no limit; `observe_spec` says
  that the index keeps the first `max` of them.
* `KVEventProvider.held`: the event that a backend holds under a key. `observe_self`,
  `observe_enters` and `observe_other` say what an event makes of it.
-/

namespace Kavora.Router

open Lib Lib.Go

/-! ## Keys -/

/-- A backend ID that no other one with a key can be taken for. -/
def Plain (backendID : String) : Prop := '\x00' ∉ backendID.toList

instance (backendID : String) : Decidable (Plain backendID) :=
  inferInstanceAs (Decidable (_ ∉ _))

theorem backendKey_toList (backendID rest : String) :
    (backendKey backendID rest).toList = backendID.toList ++ '\x00' :: rest.toList := by
  unfold backendKey
  rw [String.toList_append, String.toList_append, List.append_assoc]
  rfl

theorem backendKey_inj {a b x y : String} (ha : Plain a) (hb : Plain b)
    (h : backendKey a x = backendKey b y) : a = b ∧ x = y := by
  have h := congrArg String.toList h
  rw [backendKey_toList, backendKey_toList] at h
  obtain ⟨hab, hxy⟩ := append_separator_inj ha hb h
  exact ⟨String.toList_injective hab, String.toList_injective hxy⟩

/-- The keys of one backend differ. -/
theorem backendKey_right_inj {a x y : String} (h : backendKey a x = backendKey a y) : x = y := by
  have h := congrArg String.toList h
  rw [backendKey_toList, backendKey_toList] at h
  have h := List.append_cancel_left h
  exact String.toList_injective (List.cons.inj h).2

/-- A key has the prefix of its backend. -/
theorem hasPrefix_self (backendID rest : String) :
    hasPrefix (backendKey backendID rest) (backendKey backendID "") = true := by
  unfold hasPrefix
  rw [backendKey_toList, backendKey_toList, List.isPrefixOf_iff_prefix]
  exact ⟨rest.toList, by rw [List.append_assoc]; rfl⟩

theorem hasPrefix_ne {a b rest : String} (ha : Plain a) (hb : Plain b) (h : a ≠ b) :
    hasPrefix (backendKey a rest) (backendKey b "") = false := by
  refine Bool.eq_false_iff.mpr fun hprefix => h ?_
  unfold hasPrefix at hprefix
  rw [backendKey_toList, backendKey_toList, List.isPrefixOf_iff_prefix] at hprefix
  obtain ⟨tail, htail⟩ := hprefix
  rw [List.append_assoc] at htail
  exact String.toList_injective (append_separator_inj hb ha htail).1.symm

/-! ## Operations -/

namespace KVEventProvider

variable {F : Type} {p : KVEventProvider F} {event : KVEvent} {now : Time}

/-- The index is well formed and holds at most `max` entries. -/
structure Indexed (p : KVEventProvider F) : Prop where
  wf : LinkedMap.WF (·.key) p.entries
  bound : p.entries.view.length ≤ p.max

/-- The entries after an operation, before the oldest ones are dropped. -/
def applied (event : KVEvent) (entries : List KVEventEntry) : List KVEventEntry :=
  match event.effectiveOperation with
  | .clear => entries.filter fun entry => !hasPrefix entry.key (backendKey event.backendID "")
  | .remove => Recency.erase (·.key) event.entryKey entries
  | _ => Recency.put (·.key) { key := event.entryKey, event } entries

theorem clearBackend_spec (h : p.Indexed) (backendID : String) :
    (p.clearBackend backendID).Indexed ∧ (p.clearBackend backendID).entries.view =
      p.entries.view.filter fun entry => !hasPrefix entry.key (backendKey backendID "") := by
  obtain ⟨hwf, hview⟩ := h.wf.deleteWhere_spec fun key _ => hasPrefix key (backendKey backendID "")
  refine ⟨⟨hwf, ?_⟩, hview⟩
  show (p.entries.deleteWhere _).view.length ≤ p.max
  rw [hview]
  exact (List.length_filter_le _ _).trans h.bound

theorem store_spec (h : p.Indexed) (entry : KVEventEntry) :
    Indexed
        (match p.entries.find entry.key with
        | some (element, _) =>
          { p with entries := (p.entries.setValue element entry).moveToFront element }
        | none =>
          let entries := p.entries.pushFront entry.key entry
          { p with entries := entries.evict (·.key) p.max entries.len }) ∧
      (match p.entries.find entry.key with
        | some (element, _) =>
          { p with entries := (p.entries.setValue element entry).moveToFront element }
        | none =>
          let entries := p.entries.pushFront entry.key entry
          { p with entries := entries.evict (·.key) p.max entries.len }).entries.view =
        (Recency.put (·.key) entry p.entries.view).take p.max := by
  cases hfind : p.entries.find entry.key with
  | some found =>
    obtain ⟨element, old⟩ := found
    obtain ⟨hmem, hkey⟩ := h.wf.find_eq_some.mp hfind
    have hview := h.wf.view_setValue (w := entry) hmem hkey.symm
    have hmem' : (element, entry) ∈ (p.entries.setValue element entry).order :=
      List.mem_map.mpr ⟨_, hmem, if_pos rfl⟩
    have hlen : (Recency.put (·.key) entry p.entries.view).length ≤ p.max :=
      (Recency.length_put_of_mem (List.mem_map_of_mem hmem) hkey).trans h.bound
    refine ⟨⟨(h.wf.setValue hmem hkey.symm).moveToFront hmem', ?_⟩, ?_⟩
    · dsimp only
      rw [hview]
      exact hlen
    · dsimp only
      rw [hview, List.take_of_length_le hlen]
  | none =>
    have hwf := h.wf.pushFront hfind
    have hview := h.wf.view_pushFront hfind
    obtain ⟨hevict, htake⟩ := LinkedMap.WF.evict_spec p.max
      (p.entries.pushFront entry.key entry).len hwf (Nat.le_add_left _ _)
    rw [hview] at htake
    refine ⟨⟨hevict, ?_⟩, htake⟩
    dsimp only
    rw [htake]
    exact (List.length_take_le _ _)

theorem apply_spec (h : p.Indexed) (event : KVEvent) :
    (p.apply event).Indexed ∧
      (p.apply event).entries.view = (applied event p.entries.view).take p.max := by
  have hstore := store_spec h { key := event.entryKey, event }
  unfold apply applied
  cases event.effectiveOperation with
  | clear =>
    obtain ⟨hindexed, hview⟩ := clearBackend_spec h event.backendID
    refine ⟨hindexed, hview.trans (List.take_of_length_le ?_).symm⟩
    exact (List.length_filter_le _ _).trans h.bound
  | remove =>
    dsimp only
    split
    · rename_i element entry hfind
      obtain ⟨hmem, hkey⟩ := h.wf.find_eq_some.mp hfind
      have hview := h.wf.view_delete hmem
      rw [hkey] at hview
      have hlen : (Recency.erase (·.key) event.entryKey p.entries.view).length ≤ p.max :=
        (List.length_filter_le _ _).trans h.bound
      refine ⟨⟨hkey ▸ h.wf.delete hmem, ?_⟩, hview.trans (List.take_of_length_le hlen).symm⟩
      dsimp only
      rw [hview]
      exact hlen
    · rename_i hfind
      have hget : Recency.get (·.key) event.entryKey p.entries.view = none := by
        rw [← h.wf.find_map, hfind]
        rfl
      rw [Recency.erase_of_get_none hget, List.take_of_length_le h.bound]
      exact ⟨h, rfl⟩
  | store => exact hstore
  | unset => exact hstore
  | other text => exact hstore

theorem enterGeneration_spec (h : p.Indexed) (backendID generation : String) :
    (p.enterGeneration backendID generation).Indexed ∧
      (p.enterGeneration backendID generation).entries.view =
        if generation ≠ "" ∧ p.generation backendID ≠ "" ∧ p.generation backendID ≠ generation then
          p.entries.view.filter fun entry => !hasPrefix entry.key (backendKey backendID "")
        else p.entries.view := by
  obtain ⟨hcleared, hview⟩ := clearBackend_spec h backendID
  unfold enterGeneration
  by_cases hnew : generation ≠ "" ∧ p.generation backendID ≠ "" ∧
      p.generation backendID ≠ generation
  · rw [if_pos hnew, if_pos hnew, if_pos hnew.1]
    exact ⟨⟨hcleared.wf, hcleared.bound⟩, hview⟩
  · rw [if_neg hnew, if_neg hnew]
    split
    · exact ⟨⟨h.wf, h.bound⟩, rfl⟩
    · exact ⟨h, rfl⟩

theorem apply_max : (p.apply event).max = p.max := by
  unfold apply
  split
  · rfl
  · split
    · rfl
    · rfl
  · dsimp only
    split
    · rfl
    · rfl

theorem accept_entries {q : KVEventProvider F} (h : p.accept event = some q) :
    q.entries = p.entries ∧ q.max = p.max := by
  unfold accept at h
  split at h
  · split at h
    · cases h
    · split at h
      · cases h
      · cases h
        exact ⟨rfl, rfl⟩
  · split at h
    · cases h
    · cases h
      exact ⟨rfl, rfl⟩

theorem advance_entries (p : KVEventProvider F) (event : KVEvent) :
    (p.advance event).entries = p.entries ∧ (p.advance event).max = p.max := by
  unfold advance
  split
  · exact ⟨rfl, rfl⟩
  · exact ⟨rfl, rfl⟩

/-- The entries after an event if there were no limit. -/
def live (p : KVEventProvider F) (now : Time) (event : KVEvent) : List KVEventEntry :=
  if event.backendID = "" then p.entries.view
  else if event.effectiveOperation ≠ .clear ∧ event.cacheKey = "" then p.entries.view
  else
    let p := p.enterGeneration event.backendID event.generation
    match p.accept (event.withDefaults now) with
    | none => p.entries.view
    | some _ => applied (event.withDefaults now) p.entries.view

/-- An event keeps the first `max` of the entries. -/
theorem observe_spec (h : p.Indexed) (now : Time) (event : KVEvent) :
    (p.observe now event).Indexed ∧ (p.observe now event).max = p.max ∧
      (p.observe now event).entries.view = (p.live now event).take p.max := by
  obtain ⟨henter, -⟩ := enterGeneration_spec h event.backendID event.generation
  have hmax : (p.enterGeneration event.backendID event.generation).max = p.max :=
    enterGeneration_max
  unfold observe live
  split
  · exact ⟨h, rfl, (List.take_of_length_le h.bound).symm⟩
  split
  · exact ⟨h, rfl, (List.take_of_length_le h.bound).symm⟩
  dsimp only
  rw [show p.enterGeneration (event.withDefaults now).backendID (event.withDefaults now).generation =
    p.enterGeneration event.backendID event.generation from rfl]
  cases haccept : (p.enterGeneration event.backendID event.generation).accept
      (event.withDefaults now) with
  | none => exact ⟨henter, hmax, (List.take_of_length_le (hmax ▸ henter.bound)).symm⟩
  | some q =>
    obtain ⟨hentries, hqmax⟩ := accept_entries haccept
    obtain ⟨hadvanced, hamax⟩ := q.advance_entries (event.withDefaults now)
    have hindexed : (q.advance (event.withDefaults now)).Indexed := by
      refine ⟨?_, ?_⟩
      · rw [hadvanced, hentries]
        exact henter.wf
      · rw [hadvanced, hentries, hamax, hqmax]
        exact henter.bound
    obtain ⟨hindexed, hview⟩ := apply_spec hindexed (event.withDefaults now)
    rw [hadvanced, hentries, hamax, hqmax, hmax] at hview
    exact ⟨hindexed, by rw [apply_max, hamax, hqmax, hmax], hview⟩

/-! ## What a backend holds -/

/-- The event that a backend holds under a key. -/
def held (p : KVEventProvider F) (backendID cacheKey : String) : Option KVEvent :=
  (p.entries.find (backendKey backendID cacheKey)).map (·.2.event)

/-- An operation on what its backend holds. -/
def heldAfter (event : KVEvent) (held : String → Option KVEvent) : String → Option KVEvent :=
  match event.effectiveOperation with
  | .clear => fun _ => none
  | .remove => Function.update held event.cacheKey none
  | _ => Function.update held event.cacheKey (some event)

theorem held_eq (h : p.Indexed) (backendID cacheKey : String) :
    p.held backendID cacheKey =
      (Recency.get (·.key) (backendKey backendID cacheKey) p.entries.view).map (·.event) := by
  unfold held
  rw [← h.wf.find_map, Option.map_map]
  rfl

/-- A change of the entries at one key. -/
theorem get_update {backendID cacheKey key : String} {held : String → Option KVEvent}
    {value : Option KVEvent} {entries entries' : List KVEventEntry}
    (hheld : held key = (Recency.get (·.key) (backendKey backendID key) entries).map (·.event))
    (hself : (Recency.get (·.key) (backendKey backendID cacheKey) entries').map (·.event) = value)
    (hne : backendKey backendID key ≠ backendKey backendID cacheKey →
      Recency.get (·.key) (backendKey backendID key) entries' =
        Recency.get (·.key) (backendKey backendID key) entries) :
    (Recency.get (·.key) (backendKey backendID key) entries').map (·.event) =
      Function.update held cacheKey value key := by
  by_cases hkey : key = cacheKey
  · rw [hkey, Function.update_self, hself]
  · rw [Function.update_of_ne hkey, hheld, hne fun heq => hkey (backendKey_right_inj heq)]

/-- The operation of an event on the entries of its backend. -/
theorem get_applied_self (event : KVEvent) {entries : List KVEventEntry}
    {held : String → Option KVEvent}
    (hheld : ∀ key, held key =
      (Recency.get (·.key) (backendKey event.backendID key) entries).map (·.event)) (key : String) :
    (Recency.get (·.key) (backendKey event.backendID key) (applied event entries)).map (·.event) =
      heldAfter event held key := by
  have hstore : (Recency.get (·.key) (backendKey event.backendID key)
      (Recency.put (·.key) { key := event.entryKey, event } entries)).map (·.event) =
        Function.update held event.cacheKey (some event) key := by
    refine get_update (hheld key) ?_ fun hne => Recency.get_put_ne hne
    have hput : Recency.get (·.key) event.entryKey
        (Recency.put (·.key) { key := event.entryKey, event } entries) =
          some { key := event.entryKey, event } := Recency.get_put_self
    exact congrArg (Option.map (·.event)) hput
  unfold applied heldAfter
  cases event.effectiveOperation with
  | clear =>
    dsimp only
    rw [Recency.get_filter (q := fun key => !hasPrefix key (backendKey event.backendID "")),
      hasPrefix_self]
    rfl
  | remove =>
    refine get_update (hheld key) ?_ fun hne => Recency.get_erase_ne hne
    rw [KVEvent.entryKey, Recency.get_erase_self]
    rfl
  | store => exact hstore
  | unset => exact hstore
  | other text => exact hstore

/-- The entries of the other backends stay. -/
theorem get_applied_ne (event : KVEvent) {backendID : String} (hb : Plain backendID)
    (he : Plain event.backendID) (hne : event.backendID ≠ backendID) (key : String)
    (entries : List KVEventEntry) :
    Recency.get (·.key) (backendKey backendID key) (applied event entries) =
      Recency.get (·.key) (backendKey backendID key) entries := by
  have hkey : backendKey backendID key ≠ event.entryKey :=
    fun heq => hne (backendKey_inj he hb heq.symm).1
  unfold applied
  split
  · rw [Recency.get_filter (q := fun key => !hasPrefix key (backendKey event.backendID "")),
      hasPrefix_ne hb he hne.symm]
    rfl
  · exact Recency.get_erase_ne hkey
  · exact Recency.get_put_ne hkey

/-- What the index keeps of a backend. -/
structure Kept (p p' : KVEventProvider F) (backendID : String) : Prop where
  held : p'.held backendID = p.held backendID
  generation : p'.generation backendID = p.generation backendID
  hasSequence : p'.hasSequence backendID = p.hasSequence backendID
  lastSequence : p'.lastSequence backendID = p.lastSequence backendID

@[simp] theorem apply_hasSequence : (p.apply event).hasSequence = p.hasSequence := by
  unfold apply
  split
  · rfl
  · split <;> rfl
  · dsimp only
    split <;> rfl

@[simp] theorem apply_lastSequence : (p.apply event).lastSequence = p.lastSequence := by
  unfold apply
  split
  · rfl
  · split <;> rfl
  · dsimp only
    split <;> rfl

/-- A generation of another backend. -/
theorem enterGeneration_ne (p : KVEventProvider F) {backendID other : String} (generation : String)
    (hne : backendID ≠ other) :
    (p.enterGeneration other generation).generation backendID = p.generation backendID ∧
      (p.enterGeneration other generation).hasSequence backendID = p.hasSequence backendID ∧
      (p.enterGeneration other generation).lastSequence backendID = p.lastSequence backendID := by
  unfold enterGeneration
  split <;> split <;> simp [Function.update_of_ne hne, clearBackend]

theorem accept_fields {q : KVEventProvider F} (h : p.accept event = some q) :
    q.generation = p.generation ∧ q.hasSequence = p.hasSequence ∧
      q.lastSequence = p.lastSequence := by
  unfold accept at h
  split at h
  · split at h
    · cases h
    · split at h
      · cases h
      · cases h
        exact ⟨rfl, rfl, rfl⟩
  · split at h
    · cases h
    · cases h
      exact ⟨rfl, rfl, rfl⟩

theorem accept_config {q : KVEventProvider F} (h : p.accept event = some q) :
    q.ttl = p.ttl ∧ q.lambda = p.lambda := by
  unfold accept at h
  split at h
  · split at h
    · cases h
    · split at h
      · cases h
      · cases h
        exact ⟨rfl, rfl⟩
  · split at h
    · cases h
    · cases h
      exact ⟨rfl, rfl⟩

theorem advance_ne (p : KVEventProvider F) {event : KVEvent} {backendID : String}
    (hne : backendID ≠ event.backendID) :
    (p.advance event).hasSequence backendID = p.hasSequence backendID ∧
      (p.advance event).lastSequence backendID = p.lastSequence backendID := by
  unfold advance
  split
  · exact ⟨Function.update_of_ne hne _ _, Function.update_of_ne hne _ _⟩
  · exact ⟨rfl, rfl⟩

theorem advance_self : (p.advance event).hasSequence event.backendID =
      (event.sequenced || p.hasSequence event.backendID) ∧
    (p.advance event).lastSequence event.backendID =
      if event.sequenced then event.sequence else p.lastSequence event.backendID := by
  unfold advance
  cases event.sequenced with
  | false => exact ⟨rfl, rfl⟩
  | true => exact ⟨Function.update_self _ _ _, Function.update_self _ _ _⟩

/-- The entries of a backend after an event of another one, if there were no limit. -/
theorem get_live_ne {backendID : String} (h : p.Indexed) (hb : Plain backendID)
    (he : Plain event.backendID) (hne : event.backendID ≠ backendID) (key : String) :
    Recency.get (·.key) (backendKey backendID key) (p.live now event) =
      Recency.get (·.key) (backendKey backendID key) p.entries.view := by
  have henter : Recency.get (·.key) (backendKey backendID key)
      (p.enterGeneration event.backendID event.generation).entries.view =
        Recency.get (·.key) (backendKey backendID key) p.entries.view := by
    rw [(enterGeneration_spec h _ _).2]
    split
    · rw [Recency.get_filter (q := fun key => !hasPrefix key (backendKey event.backendID "")),
        hasPrefix_ne hb he hne.symm]
      rfl
    · rfl
  unfold live
  split
  · rfl
  split
  · rfl
  dsimp only
  split
  · exact henter
  · exact (get_applied_ne (event.withDefaults now) hb he hne key _).trans henter

/-- The entries after an event are old ones and the one of the event. -/
theorem mem_applied {entries : List KVEventEntry} {entry : KVEventEntry}
    (h : entry ∈ applied event entries) : entry ∈ entries ∨ entry.key = event.entryKey := by
  have hstore : entry ∈ Recency.put (·.key) { key := event.entryKey, event } entries →
      entry ∈ entries ∨ entry.key = event.entryKey := by
    intro hput
    obtain rfl | hold := List.mem_cons.mp hput
    · exact .inr rfl
    · exact .inl (List.mem_filter.mp hold).1
  unfold applied at h
  split at h
  · exact .inl (List.mem_filter.mp h).1
  · exact .inl (List.mem_filter.mp h).1
  · exact hstore h

theorem nodup_applied {entries : List KVEventEntry} (h : (entries.map (·.key)).Nodup) :
    ((applied event entries).map (·.key)).Nodup := by
  have hfilter : ∀ q : KVEventEntry → Bool, ((entries.filter q).map (·.key)).Nodup :=
    fun q => h.sublist (List.filter_sublist.map _)
  unfold applied
  split
  · exact hfilter _
  · exact hfilter _
  · refine List.nodup_cons.mpr ⟨fun hmem => ?_, hfilter _⟩
    obtain ⟨entry, hentry, hkey⟩ := List.mem_map.mp hmem
    exact absurd hkey (of_decide_eq_true (List.mem_filter.mp hentry).2)

theorem mem_live {entry : KVEventEntry} (h : p.Indexed) (hentry : entry ∈ p.live now event) :
    entry ∈ p.entries.view ∨ entry.key = event.entryKey := by
  have henter : ∀ entry, entry ∈ (p.enterGeneration event.backendID event.generation).entries.view →
      entry ∈ p.entries.view := by
    intro entry hentry
    rw [(enterGeneration_spec h _ _).2] at hentry
    split at hentry
    · exact (List.mem_filter.mp hentry).1
    · exact hentry
  unfold live at hentry
  split at hentry
  · exact .inl hentry
  split at hentry
  · exact .inl hentry
  dsimp only at hentry
  split at hentry
  · exact .inl (henter _ hentry)
  · exact (mem_applied hentry).imp_left (henter _)

theorem nodup_live (h : p.Indexed) (now : Time) (event : KVEvent) :
    ((p.live now event).map (·.key)).Nodup := by
  have henter := (enterGeneration_spec h event.backendID event.generation).1.wf.keys
  unfold live
  split
  · exact h.wf.keys
  split
  · exact h.wf.keys
  dsimp only
  split
  · exact henter
  · exact nodup_applied henter

theorem observe_ne (p : KVEventProvider F) (now : Time) {backendID : String}
    (hne : backendID ≠ event.backendID) :
    (p.observe now event).generation backendID = p.generation backendID ∧
      (p.observe now event).hasSequence backendID = p.hasSequence backendID ∧
      (p.observe now event).lastSequence backendID = p.lastSequence backendID := by
  have henter := p.enterGeneration_ne event.generation hne
  rcases p.observe_cases now event with hsame | hentered | ⟨q, haccept, happlied⟩
  · rw [hsame]
    exact ⟨rfl, rfl, rfl⟩
  · rw [hentered]
    exact henter
  · obtain ⟨hgeneration, hhas, hlast⟩ := accept_fields haccept
    have hne' : backendID ≠ (event.withDefaults now).backendID := hne
    obtain ⟨hhas', hlast'⟩ := q.advance_ne hne'
    rw [happlied, apply_generation, advance_generation, apply_hasSequence, apply_lastSequence,
      hhas', hlast', hgeneration, hhas, hlast]
    exact henter

/-- The limits of the index stay. -/
theorem apply_config : (p.apply event).ttl = p.ttl ∧ (p.apply event).lambda = p.lambda := by
  unfold apply
  split
  · exact ⟨rfl, rfl⟩
  · split
    · exact ⟨rfl, rfl⟩
    · exact ⟨rfl, rfl⟩
  · dsimp only
    split
    · exact ⟨rfl, rfl⟩
    · exact ⟨rfl, rfl⟩

theorem observe_config (p : KVEventProvider F) (now : Time) (event : KVEvent) :
    (p.observe now event).ttl = p.ttl ∧ (p.observe now event).lambda = p.lambda := by
  have henter : (p.enterGeneration event.backendID event.generation).ttl = p.ttl ∧
      (p.enterGeneration event.backendID event.generation).lambda = p.lambda := by
    unfold enterGeneration
    split <;> split <;> exact ⟨rfl, rfl⟩
  rcases p.observe_cases now event with hsame | hentered | ⟨q, haccept, happlied⟩
  · rw [hsame]
    exact ⟨rfl, rfl⟩
  · rw [hentered]
    exact henter
  · have hadvance : (q.advance (event.withDefaults now)).ttl = q.ttl ∧
        (q.advance (event.withDefaults now)).lambda = q.lambda := by
      unfold advance
      split
      · exact ⟨rfl, rfl⟩
      · exact ⟨rfl, rfl⟩
    obtain ⟨httl, hlambda⟩ := accept_config haccept
    rw [happlied, apply_config.1, apply_config.2, hadvance.1, hadvance.2, httl, hlambda]
    exact henter

/-- An event of another backend, as long as there is room. -/
theorem observe_other {backendID : String} (h : p.Indexed) (hb : Plain backendID)
    (he : Plain event.backendID) (hne : event.backendID ≠ backendID)
    (hroom : (p.live now event).length ≤ p.max) : p.Kept (p.observe now event) backendID := by
  obtain ⟨hindexed, -, hview⟩ := observe_spec h now event
  obtain ⟨hgeneration, hhas, hlast⟩ := p.observe_ne now hne.symm
  refine ⟨?_, hgeneration, hhas, hlast⟩
  funext key
  rw [held_eq hindexed, held_eq h, hview, List.take_of_length_le hroom, get_live_ne h hb he hne]

/-- The event does not end the generation of its backend. -/
def Continues (p : KVEventProvider F) (event : KVEvent) : Prop :=
  event.generation = "" ∨ p.generation event.backendID = "" ∨
    p.generation event.backendID = event.generation

theorem Continues.enterGeneration (h : p.Continues event) :
    p.enterGeneration event.backendID event.generation =
      if event.generation ≠ "" then
        { p with generation := Function.update p.generation event.backendID event.generation }
      else p := by
  unfold KVEventProvider.enterGeneration
  rw [if_neg fun hends : _ ∧ _ ∧ _ => h.elim hends.1 fun h => h.elim hends.2.1 hends.2.2]

/-- The current generation keeps what there is of its backend. -/
theorem Continues.entered (h : p.Continues event) :
    (p.enterGeneration event.backendID event.generation).held event.backendID =
        p.held event.backendID ∧
      (p.enterGeneration event.backendID event.generation).hasSequence = p.hasSequence ∧
      (p.enterGeneration event.backendID event.generation).lastSequence = p.lastSequence := by
  rw [h.enterGeneration]
  split
  · exact ⟨rfl, rfl, rfl⟩
  · exact ⟨rfl, rfl, rfl⟩

/-- The event ends the generation of its backend. -/
def Ends (p : KVEventProvider F) (event : KVEvent) : Prop :=
  event.generation ≠ "" ∧ p.generation event.backendID ≠ "" ∧
    p.generation event.backendID ≠ event.generation

theorem continues_or_ends (p : KVEventProvider F) (event : KVEvent) :
    p.Continues event ∨ p.Ends event := by
  unfold Continues Ends
  tauto

/-- A new generation starts with nothing of its backend. -/
theorem Ends.entered (h : p.Ends event) (hindexed : p.Indexed) :
    (p.enterGeneration event.backendID event.generation).held event.backendID = (fun _ => none) ∧
      (p.enterGeneration event.backendID event.generation).hasSequence event.backendID = false ∧
      (p.enterGeneration event.backendID event.generation).lastSequence event.backendID = 0 := by
  obtain ⟨henter, hview⟩ := enterGeneration_spec hindexed event.backendID event.generation
  have hentered : p.enterGeneration event.backendID event.generation =
      { p.clearBackend event.backendID with
        lastSequence := Function.update p.lastSequence event.backendID 0
        hasSequence := Function.update p.hasSequence event.backendID false
        generation := Function.update p.generation event.backendID event.generation } := by
    unfold KVEventProvider.enterGeneration
    dsimp only
    rw [if_pos h.1, if_pos ⟨h.1, h.2⟩]
    rfl
  refine ⟨?_, ?_, ?_⟩
  · funext key
    rw [held_eq henter, hview, if_pos ⟨h.1, h.2⟩,
      Recency.get_filter (q := fun key => !hasPrefix key (backendKey event.backendID "")),
      hasPrefix_self]
    rfl
  · rw [hentered]
    exact Function.update_self _ _ _
  · rw [hentered]
    exact Function.update_self _ _ _

/-- The entries of its backend after an event that the index does not know in its generation, if
there were no limit. -/
theorem get_live_self {q : KVEventProvider F} (h : p.Indexed) (hv : event.Valid)
    (hq : p.enterGeneration event.backendID event.generation = q) (hnew : ¬ q.Knows event)
    (key : String) :
    (Recency.get (·.key) (backendKey event.backendID key) (p.live now event)).map (·.event) =
      heldAfter (event.withDefaults now) (q.held event.backendID) key := by
  have hentered : q.Indexed := hq ▸ (enterGeneration_spec h _ _).1
  have haccept : q.accept (event.withDefaults now) = some (q.remember event.eventKey) := by
    obtain ⟨hknows, -⟩ | ⟨-, haccept⟩ :=
      accept_eq q (show (event.withDefaults now).engineEventID ≠ "" from hv.engineEventID)
    · exact absurd hknows hnew
    · exact haccept
  unfold live
  rw [if_neg hv.backendID, if_neg fun hskip => hv.cacheKey.elim hskip.1 fun hkey => hkey hskip.2]
  dsimp only
  rw [hq, haccept]
  exact get_applied_self (event.withDefaults now) (fun key => held_eq hentered _ key) key

/-- Such an event, as long as there is room. -/
theorem observe_accepted {q : KVEventProvider F} (h : p.Indexed) (hv : event.Valid)
    (hq : p.enterGeneration event.backendID event.generation = q) (hnew : ¬ q.Knows event)
    (hroom : (p.live now event).length ≤ p.max) :
    (p.observe now event).held event.backendID =
        heldAfter (event.withDefaults now) (q.held event.backendID) ∧
      (p.observe now event).hasSequence event.backendID =
        (event.sequenced || q.hasSequence event.backendID) ∧
      (p.observe now event).lastSequence event.backendID =
        if event.sequenced then event.sequence else q.lastSequence event.backendID := by
  obtain ⟨hindexed, -, hview⟩ := observe_spec h now event
  have haccept : q.accept (event.withDefaults now) = some (q.remember event.eventKey) := by
    obtain ⟨hknows, -⟩ | ⟨-, haccept⟩ :=
      accept_eq q (show (event.withDefaults now).engineEventID ≠ "" from hv.engineEventID)
    · exact absurd hknows hnew
    · exact haccept
  have hobserve : p.observe now event = _ := observe_valid hv
  rw [hq, haccept] at hobserve
  refine ⟨?_, ?_, ?_⟩
  · funext key
    rw [held_eq hindexed, hview, List.take_of_length_le hroom, get_live_self h hv hq hnew]
  · rw [hobserve, apply_hasSequence]
    exact advance_self.1
  · rw [hobserve, apply_lastSequence]
    exact advance_self.2

/-- An event of the current generation. -/
theorem observe_self (h : p.Indexed) (hv : event.Valid) (hcontinues : p.Continues event)
    (hnew : ¬ p.Knows event) (hroom : (p.live now event).length ≤ p.max) :
    (p.observe now event).held event.backendID =
        heldAfter (event.withDefaults now) (p.held event.backendID) ∧
      (p.observe now event).hasSequence event.backendID =
        (event.sequenced || p.hasSequence event.backendID) ∧
      (p.observe now event).lastSequence event.backendID =
        if event.sequenced then event.sequence else p.lastSequence event.backendID := by
  have henter := hcontinues.enterGeneration
  by_cases hgeneration : event.generation ≠ ""
  · rw [if_pos hgeneration] at henter
    have haccepted := observe_accepted h hv henter hnew hroom
    exact haccepted
  · rw [if_neg hgeneration] at henter
    exact observe_accepted h hv henter hnew hroom

/-- An event enters its generation by itself. -/
theorem observe_enter (p : KVEventProvider F) (now : Time) (hv : event.Valid) :
    (p.enterGeneration event.backendID event.generation).observe now event = p.observe now event := by
  have hentered :
      (p.enterGeneration event.backendID event.generation).InGeneration event := by
    by_cases hempty : event.generation = ""
    · exact .inl hempty
    · exact .inr (enterGeneration_generation p event.backendID hempty)
  rw [observe_valid hv, observe_valid hv, enterGeneration_self hentered]

/-- The entries after an event of the current generation that the index does not know, if there
were no limit. -/
theorem live_new (hv : event.Valid) (hgeneration : p.InGeneration event) (hnew : ¬ p.Knows event) :
    p.live now event = applied (event.withDefaults now) p.entries.view := by
  unfold live
  rw [if_neg hv.backendID, if_neg fun hskip => hv.cacheKey.elim hskip.1 fun hkey => hkey hskip.2]
  dsimp only
  rw [enterGeneration_self hgeneration]
  obtain ⟨hknows, -⟩ | ⟨-, haccept⟩ :=
    accept_eq p (show (event.withDefaults now).engineEventID ≠ "" from hv.engineEventID)
  · exact absurd hknows hnew
  · rw [haccept]

/-- The last sequence after such an event. -/
theorem observe_new_lastSequence (now : Time) (hv : event.Valid) (hgeneration : p.InGeneration event)
    (hnew : ¬ p.Knows event) (hsequenced : event.sequenced = true) :
    (p.observe now event).lastSequence event.backendID = event.sequence := by
  obtain ⟨hknows, -⟩ | ⟨-, haccept⟩ :=
    accept_eq p (show (event.withDefaults now).engineEventID ≠ "" from hv.engineEventID)
  · exact absurd hknows hnew
  · have hlast : ((p.remember event.eventKey).advance (event.withDefaults now)).lastSequence
        event.backendID = if event.sequenced then event.sequence else _ := advance_self.2
    rw [observe_valid hv, enterGeneration_self hgeneration, haccept]
    dsimp only
    rw [apply_lastSequence]
    exact hlast.trans (if_pos hsequenced)

theorem forget_subset (limit : Nat) : ∀ (eventOrder : List String) (seenEvents : Finset String),
    (forget limit seenEvents eventOrder).1 ⊆ seenEvents := by
  intro eventOrder
  induction eventOrder with
  | nil => exact fun _ => Finset.Subset.refl _
  | cons oldest eventOrder ih =>
    intro seenEvents
    unfold forget
    split
    · exact (ih _).trans (Finset.erase_subset _ _)
    · exact Finset.Subset.refl _

/-- The window after an event holds no other new ID. -/
theorem observe_seenEvents :
    (p.observe now event).seenEvents ⊆ insert event.eventKey p.seenEvents := by
  have henter : (p.enterGeneration event.backendID event.generation).seenEvents ⊆
      insert event.eventKey p.seenEvents := by
    rw [enterGeneration_seenEvents]
    exact Finset.subset_insert _ _
  rcases p.observe_cases now event with hsame | hentered | ⟨q, haccept, happlied⟩
  · rw [hsame]
    exact Finset.subset_insert _ _
  · rw [hentered]
    exact henter
  · rw [happlied, apply_seenEvents, advance_seenEvents]
    unfold accept at haccept
    split at haccept
    · split at haccept
      · cases haccept
      · split at haccept
        · cases haccept
        · cases haccept
          refine (forget_subset _ _ _).trans ?_
          exact Finset.insert_subset (Finset.mem_insert_self _ _) henter
    · split at haccept
      · cases haccept
      · cases haccept
        exact henter

end KVEventProvider

end Kavora.Router
