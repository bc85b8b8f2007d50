import Kavora.Ledger.DecisionLedger
import Kavora.Lib.JsonLines

/-!
# Reading a journal back

* `FileOf`: a file holds the lines of some values, the last one perhaps without its line feed.
* `Directory.replay_eq`: replaying such files applies their values one after another.
* `reopen_eq`: the ledger of such files.
* `Directory.glob_insert`: a file with the last name is replayed last.
-/

namespace Kavora.Ledger

open Lib Lib.Go

/-! ## One file -/

section

variable {α : Type} [Marshal α]

/-- A written value is an object, which is read as `read a`. -/
def ReadsBack (read : α → α) : Prop :=
  ∀ {a : α} {doc}, Marshal.marshal a = some doc →
    doc.Readable ∧ (∃ ms, doc = .object ms) ∧ Marshal.unmarshal doc Marshal.zero = some (read a)

/-- The line of a value without its line feed; it fits in the buffer of the scanner. -/
def IsLineOf (a : α) (line : Bytes) : Prop :=
  ∃ doc, Marshal.marshal a = some doc ∧ line = Utf8.encode doc.print ∧ line.length < maxLine

/-- The content of a file is the lines of some values. -/
def Lines (values : List α) (content : Bytes) : Prop :=
  ∃ lines, List.Forall₂ IsLineOf values lines ∧ content = lines.flatMap (· ++ [lf])

/-- The lines of some values, the last one perhaps without its line feed. -/
def FileOf (values : List α) (content : Bytes) : Prop :=
  Lines values content ∨ Lines values (content ++ [lf])

theorem lines_nil : Lines ([] : List α) [] := ⟨[], .nil, rfl⟩

theorem Lines.append {values : List α} {content line : Bytes} (h : Lines values content) {a : α}
    (hline : IsLineOf a line) : Lines (values ++ [a]) (content ++ (line ++ [lf])) := by
  obtain ⟨lines, hlines, rfl⟩ := h
  refine ⟨lines ++ [line], List.rel_append hlines (.cons hline .nil), ?_⟩
  rw [List.flatMap_append, List.flatMap_singleton]

variable {read : α → α}

theorem IsLineOf.isLine (hread : ReadsBack read) {a : α} {line : Bytes} (h : IsLineOf a line) :
    IsLine maxLine line := by
  obtain ⟨doc, hdoc, rfl, hfits⟩ := h
  exact Json.isLine_print (hread hdoc).1 hfits

theorem IsLineOf.unmarshal (hread : ReadsBack read) {a : α} {line : Bytes} (h : IsLineOf a line) :
    unmarshalBytes α line = some (read a) := by
  obtain ⟨doc, hdoc, rfl, -⟩ := h
  obtain ⟨hreadable, -, hvalue⟩ := hread hdoc
  unfold unmarshalBytes
  rw [Utf8.runes_encode, Json.parse_print hreadable]
  exact hvalue

theorem isLine_of_mem (hread : ReadsBack read) {values : List α} {lines : List Bytes}
    (h : List.Forall₂ IsLineOf values lines) : ∀ line ∈ lines, IsLine maxLine line := by
  induction h with
  | nil => exact nofun
  | cons hline _ ih => exact List.forall_mem_cons.mpr ⟨hline.isLine hread, ih⟩

/-- A file without its last line feed ends with its last line. -/
theorem lines_open (hread : ReadsBack read) {values : List α} {content : Bytes}
    (h : Lines values (content ++ [lf])) :
    ∃ lines line, List.Forall₂ IsLineOf values (lines ++ [line]) ∧ IsLine maxLine line ∧
      content = lines.flatMap (· ++ [lf]) ++ line := by
  obtain ⟨lines, hlines, hcontent⟩ := h
  have hisLine := isLine_of_mem hread hlines
  rcases List.eq_nil_or_concat lines with rfl | ⟨lines, line, rfl⟩
  · simp at hcontent
  · rw [List.concat_eq_append] at hlines hisLine hcontent
    refine ⟨lines, line, hlines, hisLine line (by simp), ?_⟩
    rw [List.flatMap_append, List.flatMap_singleton, ← List.append_assoc] at hcontent
    exact List.append_cancel_right hcontent

/-- A file that is empty or ends with a line feed holds whole lines. -/
theorem FileOf.lines (hread : ReadsBack read) {values : List α} {content : Bytes}
    (h : FileOf values content) (hend : content = [] ∨ content.getLast? = some lf) :
    Lines values content := by
  rcases h with h | h
  · exact h
  · obtain ⟨lines, line, -, hline, rfl⟩ := lines_open hread h
    have hlast : (lines.flatMap (· ++ [lf]) ++ line).getLast? = line.getLast? :=
      List.getLast?_append_of_ne_nil _ hline.ne_nil
    rcases hend with hend | hend
    · exact absurd (List.append_eq_nil_iff.mp hend).2 hline.ne_nil
    · rw [hlast] at hend
      exact absurd (List.mem_of_getLast? hend) hline.not_lf

/-- A write of all bytes, or of all but the line feed, adds a value. -/
theorem Lines.write {values : List α} {content : Bytes} (h : Lines values content) {a : α}
    {doc : Json} (hdoc : Marshal.marshal a = some doc)
    (hfits : (Utf8.encode doc.print).length < maxLine) {n : Nat}
    (hn : (lineOf doc).length ≤ n + 1) :
    FileOf (values ++ [a]) (content ++ (lineOf doc).take n) := by
  have hadd := h.append ⟨doc, hdoc, rfl, hfits⟩
  have hlength : (lineOf doc).length = (Utf8.encode doc.print).length + 1 := by simp [lineOf]
  by_cases hall : (lineOf doc).length ≤ n
  · rw [List.take_of_length_le hall]
    exact .inl hadd
  · obtain rfl : n = (Utf8.encode doc.print).length := by omega
    refine .inr ?_
    rw [lineOf, List.take_left, List.append_assoc]
    exact hadd

variable {σ : Type} (apply : σ → α → σ)

theorem foldlM_lines (hread : ReadsBack read) {values : List α} {lines : List Bytes}
    (h : List.Forall₂ IsLineOf values lines) (s : σ) :
    lines.foldlM (fun s data => (unmarshalBytes α data).map (apply s)) s =
      some (values.foldl (fun s a => apply s (read a)) s) := by
  induction h generalizing s with
  | nil => rfl
  | cons hline _ ih =>
    rw [List.foldlM_cons, hline.unmarshal hread]
    exact ih _

/-- Replaying a file applies its values one after another. -/
theorem FileOf.replay (hread : ReadsBack read) {values : List α} {content : Bytes}
    (h : FileOf values content) (s : σ) :
    replayFile (fun s data => (unmarshalBytes α data).map (apply s)) s content =
      some (values.foldl (fun s a => apply s (read a)) s) := by
  have hscan : ∃ lines, scanLines maxLine content = some lines ∧
      List.Forall₂ IsLineOf values lines := by
    rcases h with ⟨lines, hlines, rfl⟩ | h
    · refine ⟨lines, ?_, hlines⟩
      have hscan := scanLines_lines (isLine_of_mem hread hlines) []
      rw [List.append_nil] at hscan
      rw [hscan]
      show some (lines ++ []) = some lines
      rw [List.append_nil]
    · obtain ⟨lines, line, hlines, hline, rfl⟩ := lines_open hread h
      refine ⟨lines ++ [line], ?_, hlines⟩
      have hisLine := isLine_of_mem hread hlines
      rw [scanLines_lines fun line hmem => hisLine line (List.mem_append_left _ hmem),
        hline.scanLines_open]
      rfl
  obtain ⟨lines, hscan, hlines⟩ := hscan
  unfold replayFile
  rw [hscan]
  exact foldlM_lines apply hread hlines s

end

namespace Directory

variable {directory : Directory} {kind : String}

theorem mem_glob {p : String} :
    p ∈ directory.glob kind ↔ p ∈ directory ∧ matchesKind kind p = true := by
  rw [glob, mem_sortStrings, List.mem_filter, AList.mem_keys]

theorem glob_sorted : (directory.glob kind).Pairwise (· ≤ ·) := List.pairwise_insertionSort _ _

/-- A write to a file of another kind changes no name of this kind. -/
theorem glob_insert_of_not {p : String} (hp : matchesKind kind p = false) (content : Bytes) :
    glob (AList.insert p content directory) kind = directory.glob kind := by
  unfold glob
  rw [AList.keys_insert, List.filter_cons_of_neg (by rw [hp]; exact Bool.false_ne_true),
    directory.keys_nodup.erase_eq_filter, List.filter_filter]
  refine congrArg sortStrings (List.filter_congr fun name _ => ?_)
  by_cases hname : name = p
  · subst hname
    simp [hp]
  · simp [hname]

/-- The file that is written comes last if no name of its kind is greater. -/
theorem glob_insert {p : String} (hp : matchesKind kind p = true)
    (hlast : ∀ q ∈ directory.glob kind, q ≤ p) (content : Bytes) :
    glob (AList.insert p content directory) kind = (directory.glob kind).filter (· ≠ p) ++ [p] := by
  have hleft : (glob (AList.insert p content directory) kind).Perm
      (p :: (directory.keys.erase p).filter (matchesKind kind)) := by
    unfold glob
    rw [AList.keys_insert, List.filter_cons_of_pos hp]
    exact List.perm_insertionSort _ _
  have hright : ((directory.glob kind).filter (· ≠ p) ++ [p]).Perm
      (p :: (directory.keys.erase p).filter (matchesKind kind)) := by
    refine (List.perm_append_singleton _ _).trans (List.Perm.cons p ?_)
    rw [directory.keys_nodup.erase_eq_filter, List.filter_filter]
    have hsort : (directory.glob kind).Perm (directory.keys.filter (matchesKind kind)) :=
      List.perm_insertionSort _ _
    refine (hsort.filter _).trans ?_
    rw [List.filter_filter]
    refine List.Perm.of_eq (List.filter_congr fun name _ => ?_)
    by_cases hname : name = p
    · simp [hname]
    · simp [hname]
  refine (hleft.trans hright.symm).eq_of_pairwise' glob_sorted ?_
  refine List.pairwise_append.mpr ⟨glob_sorted.filter _, List.pairwise_singleton _ _, ?_⟩
  intro q hq q' hq'
  rw [List.mem_singleton.mp hq']
  exact hlast q (List.mem_of_mem_filter hq)

/-- The names before the last one. -/
theorem glob_eq_of_last {p : String} (hp : p ∈ directory.glob kind)
    (hlast : ∀ q ∈ directory.glob kind, q ≤ p) :
    directory.glob kind = (directory.glob kind).filter (· ≠ p) ++ [p] := by
  have hmem := mem_glob.mp hp
  have hinsert := glob_insert hmem.2 hlast (directory.index p [])
  have hkeys : (glob (AList.insert p (directory.index p []) directory) kind).Perm
      (directory.glob kind) := by
    unfold glob
    rw [AList.keys_insert]
    have hkey : p ∈ directory.keys := AList.mem_keys.mp hmem.1
    refine (List.perm_insertionSort _ _).trans ?_
    exact ((List.perm_cons_erase hkey).symm.filter _).trans (List.perm_insertionSort _ _).symm
  rw [← hinsert]
  exact (hkeys.eq_of_pairwise' glob_sorted glob_sorted).symm

end Directory

/-! ## The files of a kind -/

theorem index_insert {directory : Directory} {p : String} {content : Bytes} :
    Map.index (AList.insert p content directory) p [] = content := by
  rw [Map.index, AList.lookup_insert, Option.getD_some]

theorem index_insert_ne {directory : Directory} {p q : String} {content : Bytes} (h : q ≠ p) :
    Map.index (AList.insert p content directory) q [] = directory.index q [] := by
  rw [Map.index, Map.index, AList.lookup_insert_ne h]

theorem matchesKind_path (kind : String) (now : Time) :
    matchesKind kind (path kind now) = true := by
  unfold matchesKind path
  simp only [String.toList_ofList, List.append_assoc, List.drop_left, Bool.and_eq_true,
    List.isPrefixOf_iff_prefix, List.isSuffixOf_iff_suffix]
  exact ⟨List.prefix_append _ _, List.suffix_append _ _⟩

theorem matchesKind_outcomes (now : Time) :
    matchesKind "decisions" (path "outcomes" now) = false := by
  unfold matchesKind path
  simp [List.isPrefixOf]

theorem matchesKind_decisions (now : Time) :
    matchesKind "outcomes" (path "decisions" now) = false := by
  unfold matchesKind path
  simp [List.isPrefixOf]

section

variable {α : Type} [Marshal α] {directory : Directory} {kind : String}
  {values values' : String → List α} {p : String}

/-- The files of a kind hold the values that `values` lists for each of them. -/
structure Directory.Holds (directory : Directory) (kind : String) (values : String → List α) :
    Prop where
  file : ∀ p ∈ directory.glob kind, FileOf (values p) (directory.index p [])
  listed : ∀ p, values p ≠ [] → p ∈ directory.glob kind

namespace Directory.Holds

theorem empty : Holds (∅ : Directory) kind fun _ => ([] : List α) where
  file p hp := absurd (mem_glob.mp hp).1 (AList.notMem_empty p)
  listed _ hp := absurd rfl hp

/-- A file is written. -/
theorem insert (h : directory.Holds kind values) (hp : matchesKind kind p = true)
    {content : Bytes} (hfile : FileOf (values' p) content) (hsame : ∀ q, q ≠ p → values' q = values q) :
    Holds (AList.insert p content directory) kind values' where
  file q hq := by
    by_cases hqp : q = p
    · subst hqp
      rwa [index_insert]
    · obtain ⟨hmem, hkind⟩ := mem_glob.mp hq
      have hmem : q ∈ directory := ((AList.mem_insert _).mp hmem).resolve_left hqp
      rw [index_insert_ne hqp, hsame q hqp]
      exact h.file q (mem_glob.mpr ⟨hmem, hkind⟩)
  listed q hq := by
    by_cases hqp : q = p
    · subst hqp
      exact mem_glob.mpr ⟨(AList.mem_insert _).mpr (.inl rfl), hp⟩
    · rw [hsame q hqp] at hq
      obtain ⟨hmem, hkind⟩ := mem_glob.mp (h.listed q hq)
      exact mem_glob.mpr ⟨(AList.mem_insert _).mpr (.inr hmem), hkind⟩

/-- A file of another kind is written. -/
theorem frame (h : directory.Holds kind values) (hp : matchesKind kind p = false)
    (content : Bytes) : Holds (AList.insert p content directory) kind values where
  file q hq := by
    rw [glob_insert_of_not hp] at hq
    have hqp : q ≠ p := by
      rintro rfl
      rw [(mem_glob.mp hq).2] at hp
      cases hp
    rw [index_insert_ne hqp]
    exact h.file q hq
  listed q hq := by
    rw [glob_insert_of_not hp]
    exact h.listed q hq

/-- What a file holds, also one that is not there yet. -/
theorem fileOf (h : directory.Holds kind values) (hp : matchesKind kind p = true) :
    FileOf (values p) (directory.index p []) := by
  by_cases hmem : p ∈ directory
  · exact h.file p (mem_glob.mpr ⟨hmem, hp⟩)
  · have hvalues : values p = [] := by
      by_contra hne
      exact hmem (mem_glob.mp (h.listed p hne)).1
    have hindex : directory.index p [] = [] := by
      rw [Map.index, AList.lookup_eq_none.mpr hmem, Option.getD_none]
    rw [hvalues, hindex]
    exact .inl lines_nil

/-- Replaying the files of a kind applies their values one after another. -/
theorem replay_eq {read : α → α} (hread : ReadsBack read) (h : directory.Holds kind values)
    {σ : Type} (apply : σ → α → σ) (s : σ) :
    directory.replay kind (fun s data => (unmarshalBytes α data).map (apply s)) s =
      some (((directory.glob kind).flatMap values).foldl (fun s a => apply s (read a)) s) := by
  have hfiles : ∀ paths : List String,
      (∀ p ∈ paths, FileOf (values p) (directory.index p [])) → ∀ s,
      paths.foldlM (fun s path => replayFile
        (fun s data => (unmarshalBytes α data).map (apply s)) s (directory.index path [])) s =
      some ((paths.flatMap values).foldl (fun s a => apply s (read a)) s) := by
    intro paths hpaths
    induction paths with
    | nil => exact fun s => rfl
    | cons path paths ih =>
      intro s
      rw [List.foldlM_cons, (hpaths path List.mem_cons_self).replay apply hread]
      rw [List.flatMap_cons, List.foldl_append]
      exact ih (fun path hpath => hpaths path (List.mem_cons_of_mem _ hpath)) _
  exact hfiles _ h.file s

end Directory.Holds

end

/-! ## The ledger of a journal -/

section

variable {F : Type} [Float64 F] [FloatText F] [LawfulFloatText F]

theorem readsBack_decision : ReadsBack (Decision.normal : Decision F → Decision F) :=
  Decision.read_back

theorem readsBack_outcome : ReadsBack (id : DecisionOutcome F → DecisionOutcome F) :=
  DecisionOutcome.read_back

namespace DecisionLedger

/-- An outcome of the journal. -/
def applyOutcome (ledger : DecisionLedger F) (outcome : DecisionOutcome F) : DecisionLedger F :=
  (ledger.recordOutcomeLocked outcome).getD ledger

/-- The ledger of some decisions and outcomes: the decisions first. -/
def restore (max : Int) (decisions : List (Decision F)) (outcomes : List (DecisionOutcome F)) :
    DecisionLedger F :=
  outcomes.foldl applyOutcome (decisions.foldl (fun ledger d => ledger.recordLocked d.normal)
    (new max true))

/-- **Opening a journal** restores the records of its files in the order of their names. -/
theorem reopen_eq {directory : Directory} {decisions : String → List (Decision F)}
    {outcomes : String → List (DecisionOutcome F)} (hd : directory.Holds "decisions" decisions)
    (ho : directory.Holds "outcomes" outcomes) (max : Int) :
    reopen max directory = some (restore max ((directory.glob "decisions").flatMap decisions)
      ((directory.glob "outcomes").flatMap outcomes)) := by
  unfold reopen
  simp only [hd.replay_eq readsBack_decision, Option.bind_some]
  exact ho.replay_eq readsBack_outcome applyOutcome _

end DecisionLedger

end

end Kavora.Ledger
