import Kavora.Lib.ExpiringLru
import Kavora.Router.Affinity
import Kavora.Router.CacheIndex

/-!
# The affinity table refines a bounded map with expiry

The table keeps one list for all tenants, under keys of text. It is an `ExpiringLru` with the pairs
of a tenant and a key as its keys: `Represents` is kept by each operation, and the two return the
same (`affinity_refines`). A tenant ID with the separator in it could stand for another pair.
-/

namespace Kavora.Router

open Lib Lib.Go

/-- The operations of the table. -/
inductive AffinityOp where
  | get (tenant key : String) (now : Time)
  | put (tenant key backend : String) (now : Time)
  | invalidateBackend (backend : String)

namespace AffinityOp

/-- The tenant ID does not contain the separator. -/
def PlainTenant : AffinityOp → Prop
  | .get tenant _ _ | .put tenant _ _ _ => Plain tenant
  | .invalidateBackend _ => True

instance : (op : AffinityOp) → Decidable op.PlainTenant
  | .get tenant _ _ | .put tenant _ _ _ => inferInstanceAs (Decidable (Plain tenant))
  | .invalidateBackend _ => .isTrue trivial

/-- The operation on the map. -/
def toLru (ttl : Duration) : AffinityOp → ExpiringLru.Op (String × String) String Time
  | .get tenant key now => .get (tenant, key) now
  | .put tenant key backend now => .put ⟨(tenant, key), backend, now.add ttl⟩
  | .invalidateBackend backend => .drop fun value => value = backend

end AffinityOp

namespace Affinity

/-- The table after an operation. -/
def apply (a : Affinity) : AffinityOp → Affinity
  | .get tenant key now => (a.get tenant key now).2
  | .put tenant key backend now => a.put tenant key backend now
  | .invalidateBackend backend => a.invalidateBackend backend

/-- The table after some operations. -/
def run (a : Affinity) (ops : List AffinityOp) : Affinity := ops.foldl apply a

/-- The map after the operations. -/
def reference (a : Affinity) (ops : List AffinityOp) : List (Binding (String × String) String Time) :=
  ExpiringLru.run a.max (ops.map (·.toLru a.ttl))

/-- The entry of a binding. -/
def entryOf (b : Binding (String × String) String Time) : AffinityEntry where
  key := composite b.key.1 b.key.2
  tenant := b.key.1
  backend := b.value
  expires := b.expires

/-- The table holds the bindings of `l`, in their order. -/
structure Represents (a : Affinity) (l : List (Binding (String × String) String Time)) : Prop where
  wf : LinkedMap.WF (·.key) a.table
  view : a.table.view = l.map entryOf
  plain : ∀ b ∈ l, Plain b.key.1

theorem composite_inj {tenant tenant' key key' : String} (h : Plain tenant) (h' : Plain tenant')
    (heq : composite tenant key = composite tenant' key') : tenant = tenant' ∧ key = key' :=
  backendKey_inj h h' heq

variable {a : Affinity} {l : List (Binding (String × String) String Time)} {tenant : String}

namespace Represents

/-- A key of text stands for one pair. -/
theorem key_iff (h : Represents a l) (hplain : Plain tenant) (key : String) :
    ∀ b ∈ l, (entryOf b).key = composite tenant key ↔ b.key = (tenant, key) := by
  intro b hb
  constructor
  · intro heq
    obtain ⟨htenant, hkey⟩ := composite_inj (h.plain b hb) hplain heq
    exact Prod.ext htenant hkey
  · intro heq
    rw [entryOf, heq]

theorem find_map (h : Represents a l) (hplain : Plain tenant) (key : String) :
    (a.table.find (composite tenant key)).map (·.2) =
      (Recency.get Binding.key (tenant, key) l).map entryOf := by
  rw [h.wf.find_map, h.view, Recency.get_map (h.key_iff hplain key)]

theorem find_none (h : Represents a l) (hplain : Plain tenant) {key : String}
    (hget : Recency.get Binding.key (tenant, key) l = none) :
    a.table.find (composite tenant key) = none := by
  have hfind := h.find_map hplain key
  rwa [hget, Option.map_none, Option.map_eq_none_iff] at hfind

theorem find_some (h : Represents a l) (hplain : Plain tenant) {key : String}
    {b : Binding (String × String) String Time}
    (hget : Recency.get Binding.key (tenant, key) l = some b) :
    ∃ element, a.table.find (composite tenant key) = some (element, entryOf b) ∧
      (element, entryOf b) ∈ a.table.order := by
  have hfind := h.find_map hplain key
  rw [hget, Option.map_some] at hfind
  obtain ⟨⟨element, entry⟩, hfound, hentry⟩ := Option.map_eq_some_iff.mp hfind
  dsimp only at hentry
  subst hentry
  exact ⟨element, hfound, (h.wf.find_eq_some.mp hfound).1⟩

theorem get (h : Represents a l) (hplain : Plain tenant) (key : String) (now : Time) :
    (a.get tenant key now).1 = ExpiringLru.lookup l (tenant, key) now ∧
      Represents (a.get tenant key now).2 (ExpiringLru.step a.max l (.get (tenant, key) now)) := by
  have hmem : ∀ b ∈ ExpiringLru.step a.max l (.get (tenant, key) now), Plain b.key.1 := by
    intro b hb
    rcases ExpiringLru.mem_of_mem_step hb with hop | hb
    · cases hop
    · exact h.plain b hb
  unfold Affinity.get ExpiringLru.lookup
  rw [ExpiringLru.step] at hmem ⊢
  cases hget : Recency.get Binding.key (tenant, key) l with
  | none =>
    rw [h.find_none hplain hget]
    exact ⟨rfl, h⟩
  | some b =>
    obtain ⟨element, hfound, hentry⟩ := h.find_some hplain hget
    have hkey : (entryOf b).key = composite tenant key :=
      (h.key_iff hplain key b (Recency.get_eq_some hget).1).mpr (Recency.get_eq_some hget).2
    rw [hget] at hmem
    rw [hfound]
    dsimp only at hmem ⊢
    by_cases hlive : now < b.expires
    · rw [if_pos hlive] at hmem
      rw [if_pos (show now.before (entryOf b).expires = true from decide_eq_true hlive),
        if_pos hlive, Option.bind_some, if_pos hlive]
      refine ⟨rfl, h.wf.moveToFront hentry, ?_, hmem⟩
      rw [h.wf.view_moveToFront hentry, h.view, hkey, Recency.touch_map (h.key_iff hplain key)]
    · rw [if_neg hlive] at hmem
      rw [if_neg (show ¬ now.before (entryOf b).expires = true from
          fun hbefore => hlive (of_decide_eq_true hbefore)),
        if_neg hlive, Option.bind_some, if_neg hlive]
      refine ⟨rfl, h.wf.delete hentry, ?_, hmem⟩
      rw [h.wf.view_delete hentry, h.view, hkey, Recency.erase_map (h.key_iff hplain key)]

/-- `put` of an entry that is built before. -/
theorem put_eq (a : Affinity) {key backend : String} {now : Time} {entry : AffinityEntry}
    (hentry : entry = ⟨composite tenant key, tenant, backend, now.add a.ttl⟩) :
    a.put tenant key backend now =
      match a.table.find entry.key with
      | some (old, _) => { a with table := (a.table.setValue old entry).moveToFront old }
      | none =>
        { a with
          table := (a.table.pushFront entry.key entry).evict (·.key) a.max
            (a.table.pushFront entry.key entry).len } := by
  subst hentry
  rfl

theorem put (h : Represents a l) (hplain : Plain tenant) (key backend : String) (now : Time)
    (hlength : l.length ≤ a.max) :
    Represents (a.put tenant key backend now)
      (ExpiringLru.step a.max l (.put ⟨(tenant, key), backend, now.add a.ttl⟩)) := by
  have hmem : ∀ b ∈ ExpiringLru.step a.max l (.put ⟨(tenant, key), backend, now.add a.ttl⟩),
      Plain b.key.1 := by
    intro b hb
    rcases ExpiringLru.mem_of_mem_step hb with hop | hb
    · cases hop
      exact hplain
    · exact h.plain b hb
  generalize hb : (⟨(tenant, key), backend, now.add a.ttl⟩ : Binding (String × String) String Time)
    = b at hmem ⊢
  have hentryOf : entryOf b = ⟨composite tenant key, tenant, backend, now.add a.ttl⟩ := by
    rw [← hb]
    rfl
  have hkey : b.key = (tenant, key) := by rw [← hb]
  have hput : Recency.put (·.key) (entryOf b) (l.map entryOf) =
      (Recency.put Binding.key b l).map entryOf := by
    refine Recency.put_map fun c hc => ?_
    rw [hentryOf, hkey]
    exact h.key_iff hplain key c hc
  rw [put_eq a hentryOf]
  cases hget : Recency.get Binding.key (tenant, key) l with
  | some c =>
    obtain ⟨element, hfound, hentry⟩ := h.find_some hplain hget
    obtain ⟨hc, hckey⟩ := Recency.get_eq_some hget
    have hsame : (entryOf b).key = (entryOf c).key := by rw [entryOf, entryOf, hkey, hckey]
    have hroom : ¬ a.max < (Recency.put Binding.key b l).length := by
      have := Recency.length_put_of_mem hc (hckey.trans hkey.symm)
      omega
    have hfound' : a.table.find (entryOf b).key = some (element, entryOf c) := by
      rw [hentryOf, hfound]
    rw [ExpiringLru.step, if_neg hroom] at hmem ⊢
    rw [hfound']
    refine ⟨(h.wf.setValue hentry hsame).moveToFront
      (List.mem_map.mpr ⟨_, hentry, if_pos rfl⟩), ?_, hmem⟩
    rw [h.wf.view_setValue hentry hsame, h.view, hput]
  | none =>
    have hfound : a.table.find (entryOf b).key = none := by
      rw [hentryOf, h.find_none hplain hget]
    have hlen : (Recency.put Binding.key b l).length ≤ a.max + 1 :=
      Nat.le_trans Recency.length_put_le (Nat.succ_le_succ hlength)
    have hwf := h.wf.pushFront hfound
    have hview := h.wf.view_pushFront hfound
    rw [h.view, hput] at hview
    obtain ⟨hevict, htake⟩ := hwf.evict_spec a.max (a.table.pushFront (entryOf b).key
      (entryOf b)).len (Nat.le_add_left _ _)
    rw [hview, ← List.map_take] at htake
    rw [hfound]
    refine ⟨hevict, htake.trans (congrArg (List.map entryOf) ?_), hmem⟩
    rw [ExpiringLru.step]
    split
    · rw [List.dropLast_eq_take]
      congr 1
      omega
    · exact List.take_of_length_le (by omega)

theorem invalidateBackend (h : Represents a l) (backend : String) :
    Represents (a.invalidateBackend backend)
      (ExpiringLru.step a.max l (.drop fun value => value = backend)) := by
  obtain ⟨hwf, hview⟩ := h.wf.deleteWhere_spec fun _ entry => entry.backend = backend
  refine ⟨hwf, ?_, fun b hb => h.plain b (List.mem_of_mem_filter hb)⟩
  rw [Affinity.invalidateBackend, hview, h.view, List.filter_map]
  rfl


end Represents

/-! ## Runs -/

theorem new_max_pos (max : Int) (ttl : Duration) : 0 < (new max ttl).max := by
  unfold new
  dsimp only
  split <;> omega

theorem apply_max (a : Affinity) (op : AffinityOp) :
    (a.apply op).max = a.max ∧ (a.apply op).ttl = a.ttl := by
  cases op with
  | get tenant key now =>
    unfold apply get
    dsimp only
    split
    · exact ⟨rfl, rfl⟩
    · split <;> exact ⟨rfl, rfl⟩
  | put tenant key backend now =>
    unfold apply put
    dsimp only
    split <;> exact ⟨rfl, rfl⟩
  | invalidateBackend backend => exact ⟨rfl, rfl⟩

theorem run_concat (a : Affinity) (ops : List AffinityOp) (op : AffinityOp) :
    a.run (ops ++ [op]) = (a.run ops).apply op := by
  unfold run
  rw [List.foldl_append, List.foldl_cons, List.foldl_nil]

theorem reference_concat (a : Affinity) (ops : List AffinityOp) (op : AffinityOp) :
    a.reference (ops ++ [op]) = ExpiringLru.step a.max (a.reference ops) (op.toLru a.ttl) := by
  unfold reference
  rw [List.map_append, List.map_singleton, ExpiringLru.run_concat]

theorem Represents.apply (h : Represents a l) (hlength : l.length ≤ a.max) {op : AffinityOp}
    (hplain : op.PlainTenant) :
    Represents (a.apply op) (ExpiringLru.step a.max l (op.toLru a.ttl)) := by
  cases op with
  | get tenant key now => exact (h.get hplain key now).2
  | put tenant key backend now => exact h.put hplain key backend now hlength
  | invalidateBackend backend => exact h.invalidateBackend backend

/-- The mapping of a tenant and a key is the value of their binding. -/
theorem Represents.mapping_eq (h : Represents a l) (hplain : Plain tenant) (key : String) :
    a.mapping tenant key = (Recency.get Binding.key (tenant, key) l).map (·.value) := by
  have hfind := congrArg (Option.map AffinityEntry.backend) (h.find_map hplain key)
  rw [Option.map_map, Option.map_map] at hfind
  exact hfind

/-- A table that holds what it represents, within its bound. -/
def WellKept (a : Affinity) : Prop :=
  0 < a.max ∧ ∃ l, Represents a l ∧ ExpiringLru.Bounded a.max l

theorem new_wellKept (max : Int) (ttl : Duration) : (new max ttl).WellKept :=
  ⟨new_max_pos max ttl, [], ⟨LinkedMap.empty_wf, rfl, fun _ => nofun⟩, List.nodup_nil,
    Nat.zero_le _⟩

theorem WellKept.apply (h : a.WellKept) (op : AffinityOp) (hplain : op.PlainTenant) :
    (a.apply op).WellKept := by
  obtain ⟨hpos, l, hrep, hbound⟩ := h
  have hmax := (apply_max a op).1
  refine ⟨by rw [hmax]; exact hpos, _, hrep.apply hbound.length hplain, ?_⟩
  rw [hmax]
  exact hbound.step _

theorem WellKept.mapping_put_self (h : a.WellKept) (hplain : Plain tenant)
    (key backend : String) (now : Time) :
    (a.put tenant key backend now).mapping tenant key = some backend := by
  obtain ⟨hpos, l, hrep, hbound⟩ := h
  rw [(hrep.put hplain key backend now hbound.length).mapping_eq hplain,
    ExpiringLru.get_step_put_self hpos l ⟨(tenant, key), backend, now.add a.ttl⟩]
  rfl

/-- A write adds no other mapping. -/
theorem WellKept.mapping_put_ne (h : a.WellKept) (hplain : Plain tenant) {tenant' : String}
    (hplain' : Plain tenant') {key key' : String} (hne : (tenant', key') ≠ (tenant, key))
    {backend mapped : String} {now : Time}
    (hmapped : (a.put tenant key backend now).mapping tenant' key' = some mapped) :
    a.mapping tenant' key' = some mapped := by
  obtain ⟨hpos, l, hrep, hbound⟩ := h
  rw [(hrep.put hplain key backend now hbound.length).mapping_eq hplain'] at hmapped
  obtain ⟨b, hb, rfl⟩ := Option.map_eq_some_iff.mp hmapped
  rw [hrep.mapping_eq hplain', ExpiringLru.get_step_put_ne hne hb]
  rfl

theorem run_represents (max : Int) (ttl : Duration) {ops : List AffinityOp}
    (hplain : ∀ op ∈ ops, op.PlainTenant) :
    Represents ((new max ttl).run ops) ((new max ttl).reference ops) ∧
      ((new max ttl).run ops).max = (new max ttl).max ∧
      ((new max ttl).run ops).ttl = (new max ttl).ttl := by
  induction ops using List.reverseRecOn with
  | nil =>
    exact ⟨⟨LinkedMap.empty_wf, rfl, fun b hb => absurd hb List.not_mem_nil⟩, rfl, rfl⟩
  | append_singleton ops op ih =>
    obtain ⟨hrep, hmax, httl⟩ := ih fun op' hop' => hplain op' (List.mem_append_left _ hop')
    obtain ⟨hmax', httl'⟩ := apply_max ((new max ttl).run ops) op
    have hlength := (ExpiringLru.run_bounded (new max ttl).max
      (ops.map (·.toLru (new max ttl).ttl))).length
    have hstep := hrep.apply (by rw [hmax]; exact hlength) (hplain op (by simp))
    rw [hmax, httl] at hstep
    rw [run_concat, reference_concat]
    exact ⟨hstep, hmax'.trans hmax, httl'.trans httl⟩

/-- What the map holds, by the operations on the table. -/
theorem mem_reference_iff (hpos : 0 < a.max) (ops : List AffinityOp) (tenant key backend : String)
    (expires : Time) :
    ⟨(tenant, key), backend, expires⟩ ∈ a.reference ops ↔
      ∃ before now after, ops = before ++ .put tenant key backend now :: after ∧
        now.add a.ttl = expires ∧
        ∀ mid op rest, after = mid ++ op :: rest →
          ¬ ExpiringLru.Ends a.max (a.reference (before ++ .put tenant key backend now :: mid))
            (op.toLru a.ttl) ⟨(tenant, key), backend, expires⟩ := by
  unfold reference
  rw [ExpiringLru.mem_run_iff hpos]
  constructor
  · rintro ⟨before, after, heq, hkept⟩
    obtain ⟨before, rest, rfl, rfl, hrest⟩ := List.map_eq_append_iff.mp heq
    obtain ⟨op, after, rfl, hop, rfl⟩ := List.map_eq_cons_iff.mp hrest
    cases op with
    | get tenant key now => cases hop
    | invalidateBackend backend => cases hop
    | put tenant key backend now =>
      cases hop
      refine ⟨before, now, after, rfl, rfl, fun mid op rest heq => ?_⟩
      have hsplit : after.map (·.toLru a.ttl) =
          mid.map (·.toLru a.ttl) ++ op.toLru a.ttl :: rest.map (·.toLru a.ttl) := by
        rw [heq, List.map_append, List.map_cons]
      rw [List.map_append, List.map_cons]
      exact hkept _ _ _ hsplit
  · rintro ⟨before, now, after, rfl, rfl, hkept⟩
    refine ⟨before.map (·.toLru a.ttl), after.map (·.toLru a.ttl), by
      rw [List.map_append, List.map_cons]; rfl, fun mid op rest heq => ?_⟩
    obtain ⟨mid, tail, rfl, rfl, htail⟩ := List.map_eq_append_iff.mp heq
    obtain ⟨op, rest, rfl, rfl, rfl⟩ := List.map_eq_cons_iff.mp htail
    have hend := hkept mid op rest rfl
    rw [List.map_append, List.map_cons] at hend
    exact hend

/-- **The table is a bounded map with expiry**: the map and the list hold the same entries, at most
`max`, in the order of their last uses. A read returns the backend of the last write of its pair,
unless that has expired, or since then a read found it expired, its backend was invalidated, or it
was the least recently used one when a new pair came into the full table. -/
theorem affinity_refines (max : Int) (ttl : Duration) {ops : List AffinityOp}
    (hplain : ∀ op ∈ ops, op.PlainTenant) :
    let empty := new max ttl
    let a := empty.run ops
    let l := empty.reference ops
    (LinkedMap.WF (·.key) a.table ∧ a.table.view = l.map entryOf ∧ a.len = l.length ∧
      a.len ≤ empty.max) ∧
    (∀ tenant key now, Plain tenant →
      (a.get tenant key now).1 = ExpiringLru.lookup l (tenant, key) now) ∧
    (∀ tenant key backend now, Plain tenant →
      ((a.get tenant key now).1 = some backend ↔
        ∃ before start after, ops = before ++ .put tenant key backend start :: after ∧
          now < start.add empty.ttl ∧
          ∀ mid op rest, after = mid ++ op :: rest →
            ¬ ExpiringLru.Ends empty.max
              (empty.reference (before ++ .put tenant key backend start :: mid))
              (op.toLru empty.ttl) ⟨(tenant, key), backend, start.add empty.ttl⟩)) ∧
    l.Pairwise fun x y =>
      ExpiringLru.UsedAfter empty.max (ops.map (·.toLru empty.ttl)) x.key y.key := by
  intro empty a l
  obtain ⟨hrep, -, -⟩ := run_represents max ttl hplain
  have hpos := new_max_pos max ttl
  have hbounded : ExpiringLru.Bounded empty.max l := ExpiringLru.run_bounded _ _
  have hlen : a.len = l.length := by
    rw [len, hrep.wf.len_eq, hrep.view, List.length_map]
  have hget : ∀ tenant key now, Plain tenant →
      (a.get tenant key now).1 = ExpiringLru.lookup l (tenant, key) now :=
    fun tenant key now htenant => (hrep.get htenant key now).1
  refine ⟨⟨hrep.wf, hrep.view, hlen, hlen ▸ hbounded.length⟩, hget, ?_,
    ExpiringLru.run_recency hpos _⟩
  intro tenant key backend now htenant
  rw [hget tenant key now htenant, ExpiringLru.lookup_eq_some hbounded]
  constructor
  · rintro ⟨⟨pair, value, expires⟩, hb, rfl, rfl, hlive⟩
    obtain ⟨before, start, after, heq, rfl, hkept⟩ :=
      (mem_reference_iff hpos ops tenant key value expires).mp hb
    exact ⟨before, start, after, heq, hlive, hkept⟩
  · rintro ⟨before, start, after, heq, hlive, hkept⟩
    exact ⟨_, (mem_reference_iff hpos ops tenant key backend _).mpr
      ⟨before, start, after, heq, rfl, hkept⟩, rfl, rfl, hlive⟩

/-- A read by a clock that is ahead forgets the pair for the clocks behind it. -/
theorem get_forgets_expired :
    ¬ ∀ (max : Int) (ttl : Duration) (ops : List AffinityOp) (tenant key backend : String)
      (now : Time) (before : List AffinityOp) (start : Time) (after : List AffinityOp),
      (∀ op ∈ ops, op.PlainTenant) →
      ops = before ++ .put tenant key backend start :: after →
      now < start.add (new max ttl).ttl →
      (∀ mid op rest, after = mid ++ op :: rest →
        (∀ other time, op ≠ .put tenant key other time) ∧ op ≠ .invalidateBackend backend ∧
        ¬ ExpiringLru.Evicts (new max ttl).max
          ((new max ttl).reference (before ++ .put tenant key backend start :: mid))
          (op.toLru (new max ttl).ttl)
          ⟨(tenant, key), backend, start.add (new max ttl).ttl⟩) →
      (((new max ttl).run ops).get tenant key now).1 = some backend := by
  intro h
  have hnone := h 1024 60000000000 [.put "t" "k" "b" 0, .get "t" "k" 60000000000] "t" "k" "b" 0
    [] 0 [.get "t" "k" 60000000000] (by decide) rfl (by decide) ?_
  · exact absurd hnone (by decide)
  · intro mid op rest heq
    obtain ⟨rfl, rfl, rfl⟩ : mid = [] ∧ op = .get "t" "k" 60000000000 ∧ rest = [] := by
      cases mid with
      | nil =>
        cases heq
        exact ⟨rfl, rfl, rfl⟩
      | cons x mid => simp at heq
    refine ⟨fun other time heq => AffinityOp.noConfusion heq,
      fun heq => AffinityOp.noConfusion heq, ?_⟩
    rintro ⟨b, hb, -⟩
    cases hb

/-- Two tenants with one key in a table of one entry. -/
theorem affinity_refines_sample :
    let a := (new 1 60000000000).run [.put "t1" "k" "b1" 0, .put "t2" "k" "b2" 0]
    a.len ≤ 1 ∧ (a.get "t1" "k" 0).1 = none ∧ (a.get "t2" "k" 0).1 = some "b2" := by
  have hplain : ∀ op ∈ [AffinityOp.put "t1" "k" "b1" 0, .put "t2" "k" "b2" 0],
      op.PlainTenant := by
    decide
  obtain ⟨⟨-, -, -, hlen⟩, -⟩ := affinity_refines 1 60000000000 hplain
  exact ⟨hlen, by decide, by decide⟩

end Affinity

end Kavora.Router
