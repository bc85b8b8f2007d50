import Kavora.Ledger.Journal

/-!
# The files that a journal replays (`filepath.Glob`)

`replay` asks for the files that match a pattern, and the path of the directory is a part of it.

* `matchPattern`: `filepath.Match`, for patterns without classes and escapes.
* `FileSystem.replay`: the replay of the files that match.
* `replay_literal`, `reopenIn_literal`: if the path of the directory has no metacharacter, these are
  its own files.
* `glob_pattern`: if it has one, they are those of the directories that the path matches.
-/

namespace Kavora.Ledger

open Lib Lib.Go

/-! ## `filepath.Match` -/

/-- The ends of a name that remain after a `*`, which matches no separator. -/
def afterStar : List Char → List (List Char)
  | [] => [[]]
  | c :: name => (c :: name) :: if c = '/' then [] else afterStar name

/-- `filepath.Match` with a pattern that has no class and no escape. -/
def matchPattern : List Char → List Char → Bool
  | [], name => name.isEmpty
  | p :: pattern, name =>
    if p = '*' then (afterStar name).any (matchPattern pattern)
    else
      match name with
      | [] => false
      | c :: name => (if p = '?' then c ≠ '/' else p = c) && matchPattern pattern name

theorem matchPattern_cons (p : Char) (pattern name : List Char) :
    matchPattern (p :: pattern) name =
      if p = '*' then (afterStar name).any (matchPattern pattern)
      else
        match name with
        | [] => false
        | c :: name => (if p = '?' then c ≠ '/' else p = c) && matchPattern pattern name := by
  rw [matchPattern.eq_def]

/-- The characters with a meaning of their own; all others match themselves. -/
def isMeta (c : Char) : Bool := c = '*' || c = '?' || c = '[' || c = '\\'

theorem matchPattern_literal {text : List Char} (h : text.all (!isMeta ·) = true)
    (pattern name : List Char) :
    matchPattern (text ++ pattern) name =
      (text.isPrefixOf name && matchPattern pattern (name.drop text.length)) := by
  induction text generalizing name with
  | nil => rfl
  | cons c text ih =>
    obtain ⟨hc, htext⟩ := Bool.and_eq_true_iff.mp h
    have hplain : c ≠ '*' ∧ c ≠ '?' := by
      constructor
      · rintro rfl
        cases hc
      · rintro rfl
        cases hc
    rw [List.cons_append, matchPattern_cons, if_neg hplain.1]
    cases name with
    | nil => rfl
    | cons d name =>
      simp only [if_neg hplain.2, ih htext, List.isPrefixOf_cons_cons, List.length_cons,
        List.drop_succ_cons, Bool.and_assoc]
      rfl

/-- The ends of a name without a separator. -/
theorem mem_afterStar {name rest : List Char} (h : '/' ∉ name) :
    rest ∈ afterStar name ↔ rest <:+ name := by
  induction name with
  | nil => simp [afterStar]
  | cons c name ih =>
    rw [List.mem_cons, not_or] at h
    obtain ⟨hc, hname⟩ := h
    rw [afterStar, if_neg (Ne.symm hc), List.mem_cons, ih hname, List.suffix_cons_iff]

/-- The names of a kind are those that the pattern of the kind matches. -/
theorem matchPattern_kind {kind name : String} (hkind : kind.toList.all (!isMeta ·) = true)
    (hname : '/' ∉ name.toList) :
    matchPattern (kind ++ "-*.jsonl").toList name.toList = matchesKind kind name := by
  have hpattern : (kind ++ "-*.jsonl").toList = (kind ++ "-").toList ++ '*' :: ".jsonl".toList := by
    simp
  have hstart : (kind ++ "-").toList.all (!isMeta ·) = true := by
    rw [String.toList_append, List.all_append, hkind]
    rfl
  have hrest : '/' ∉ name.toList.drop (kind ++ "-").toList.length :=
    fun hmem => hname (List.mem_of_mem_drop hmem)
  have hend : (".jsonl".toList.all (!isMeta ·)) = true := by decide
  rw [hpattern, matchPattern_literal hstart, matchesKind, matchPattern_cons, if_pos rfl]
  congr 1
  rw [Bool.eq_iff_iff, List.any_eq_true, List.isSuffixOf_iff_suffix]
  constructor
  · rintro ⟨rest, hmem, hmatch⟩
    have hsuffix := (mem_afterStar hrest).mp hmem
    rw [← List.append_nil ".jsonl".toList, matchPattern_literal hend, Bool.and_eq_true,
      List.isPrefixOf_iff_prefix] at hmatch
    obtain ⟨⟨more, rfl⟩, hmore⟩ := hmatch
    rw [List.drop_left, matchPattern, List.isEmpty_iff] at hmore
    rwa [hmore, List.append_nil] at hsuffix
  · intro hsuffix
    refine ⟨_, (mem_afterStar hrest).mpr hsuffix, ?_⟩
    rw [← List.append_nil ".jsonl".toList, matchPattern_literal hend]
    decide

/-! ## `filepath.Glob` -/

/-- What `filepath.Glob` sees of a file system. -/
structure FileSystem where
  /-- The files of a directory; a path that is none has no files. -/
  directory : String → Directory
  /-- The paths that a path with a metacharacter matches, or that it is no pattern. -/
  matching : String → Option (List String)

namespace FileSystem

/-- The path of a file. -/
def join (file : String × String) : String := file.1 ++ "/" ++ file.2

/-- The files of a directory that match a pattern. -/
def globIn (fs : FileSystem) (pattern dir : String) : List (String × String) :=
  ((sortStrings (fs.directory dir).keys).filter fun name =>
    matchPattern pattern.toList name.toList).map fun name => (dir, name)

/-- `filepath.Glob` of a pattern in a directory, whose path is a pattern itself if it has a
metacharacter. -/
def glob (fs : FileSystem) (dir pattern : String) : Option (List (String × String)) :=
  (if dir.toList.any isMeta then fs.matching dir else some [dir]).map fun dirs =>
    dirs.flatMap (fs.globIn pattern)

/-- `replay` of a journal in a directory. -/
def replay {σ : Type} (fs : FileSystem) (dir kind : String) (target : σ → Bytes → Option σ)
    (s : σ) : Option σ :=
  (fs.glob dir (kind ++ "-*.jsonl")).bind fun files =>
    (files.insertionSort fun a b => join a ≤ join b).foldlM
      (fun s file => replayFile target s ((fs.directory file.1).index file.2 [])) s

variable {fs : FileSystem} {dir kind : String}

theorem join_le_join (dir a b : String) : join (dir, a) ≤ join (dir, b) ↔ a ≤ b := by
  have hlist (text : List Char) : text ++ b.toList < text ++ a.toList ↔ b.toList < a.toList := by
    induction text with
    | nil => rfl
    | cons c text ih =>
      rw [List.cons_append, List.cons_append, List.cons_lt_cons_iff, ih]
      simp
  rw [← not_lt, ← not_lt, String.lt_iff_toList_lt, String.lt_iff_toList_lt]
  simp only [join, String.toList_append]
  exact not_congr (hlist _)

/-- The files of a kind in a directory. -/
theorem globIn_kind (hkind : kind.toList.all (!isMeta ·) = true)
    (hnames : ∀ name ∈ fs.directory dir, '/' ∉ name.toList) :
    fs.globIn (kind ++ "-*.jsonl") dir =
      (((sortStrings (fs.directory dir).keys).filter (matchesKind kind)).map fun name =>
        (dir, name)) := by
  unfold globIn
  refine congrArg _ (List.filter_congr fun name hname => ?_)
  exact matchPattern_kind hkind (hnames name (AList.mem_keys.mpr (mem_sortStrings.mp hname)))

/-- `sort.Strings` puts the paths in the order of the names. -/
theorem sort_paths (directory : Directory) (dir kind : String) :
    ((((sortStrings directory.keys).filter (matchesKind kind)).map fun name =>
      (dir, name)).insertionSort fun a b => join a ≤ join b) =
        (directory.glob kind).map fun name => (dir, name) := by
  let names := (sortStrings directory.keys).filter (matchesKind kind)
  have hkeys : (sortStrings directory.keys).Perm directory.keys := List.perm_insertionSort _ _
  have hperm : (names.insertionSort (· ≤ ·)).Perm (directory.glob kind) :=
    (List.perm_insertionSort _ _).trans ((hkeys.filter _).trans (List.perm_insertionSort _ _).symm)
  have hnames : names.insertionSort (· ≤ ·) = directory.glob kind :=
    hperm.eq_of_pairwise' (List.pairwise_insertionSort _ _) Directory.glob_sorted
  rw [← hnames]
  exact (List.map_insertionSort (· ≤ ·) (fun a b => join a ≤ join b) _ _
    fun a _ b _ => (join_le_join dir a b).symm).symm

/-- **A journal replays its own files** if the path of its directory has no metacharacter. -/
theorem replay_literal {σ : Type} (hdir : dir.toList.any isMeta = false)
    (hkind : kind.toList.all (!isMeta ·) = true)
    (hnames : ∀ name ∈ fs.directory dir, '/' ∉ name.toList) (target : σ → Bytes → Option σ)
    (s : σ) : fs.replay dir kind target s = (fs.directory dir).replay kind target s := by
  have hfiles : fs.glob dir (kind ++ "-*.jsonl") =
      some (((sortStrings (fs.directory dir).keys).filter (matchesKind kind)).map fun name =>
        (dir, name)) := by
    unfold glob
    rw [if_neg (Bool.eq_false_iff.mp hdir), Option.map_some, List.flatMap_cons, List.flatMap_nil,
      List.append_nil, globIn_kind hkind hnames]
  unfold replay Directory.replay
  rw [hfiles, Option.bind_some, sort_paths, List.foldlM_map]

/-- A journal whose path is a pattern replays the files of the directories that it matches. -/
theorem glob_pattern (hdir : dir.toList.any isMeta = true) {dirs : List String}
    (hdirs : fs.matching dir = some dirs) {pattern : String} {files : List (String × String)}
    (hfiles : fs.glob dir pattern = some files) : ∀ file ∈ files, file.1 ∈ dirs := by
  unfold glob at hfiles
  rw [if_pos hdir, hdirs, Option.map_some] at hfiles
  obtain rfl := Option.some.inj hfiles
  intro file hfile
  obtain ⟨d, hd, hfile⟩ := List.mem_flatMap.mp hfile
  obtain ⟨name, -, rfl⟩ := List.mem_map.mp hfile
  exact hd

end FileSystem

namespace DecisionLedger

variable {F : Type} [Float64 F] [FloatText F]

/-- `NewDecisionLedgerWithJournal` with a journal in a directory. -/
def reopenIn (fs : FileSystem) (max : Int) (dir : String) : Option (DecisionLedger F) :=
  let decisions := fs.replay dir "decisions" (fun ledger data =>
    (unmarshalBytes (Decision F) data).map fun decision => ledger.recordLocked decision)
  let outcomes := fs.replay dir "outcomes" (fun ledger data =>
    (unmarshalBytes (DecisionOutcome F) data).map fun outcome =>
      (ledger.recordOutcomeLocked outcome).getD ledger)
  (decisions (new max true)).bind outcomes

/-- A ledger is reopened from the files of its own directory. -/
theorem reopenIn_literal {fs : FileSystem} {dir : String} (hdir : dir.toList.any isMeta = false)
    (hnames : ∀ name ∈ fs.directory dir, '/' ∉ name.toList) (max : Int) :
    reopenIn fs max dir = (reopen max (fs.directory dir) : Option (DecisionLedger F)) := by
  have hdecisions : "decisions".toList.all (!isMeta ·) = true := by decide
  have houtcomes : "outcomes".toList.all (!isMeta ·) = true := by decide
  unfold reopenIn reopen
  simp only [FileSystem.replay_literal hdir hdecisions hnames,
    FileSystem.replay_literal hdir houtcomes hnames]

end DecisionLedger

end Kavora.Ledger
