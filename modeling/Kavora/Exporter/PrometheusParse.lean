import Kavora.Lib.Regex
import Kavora.Lib.Lines
import Kavora.Lib.PyValue
import Kavora.Exporter.Adapters

/-!
# The relaxed parser of metrics (`exporter/prometheus_parse.py`)

Where the official parser fails, the lines of a scrape are read one by one with two regular
expressions, and the values of each name are added up.

* `parsePrometheusTextRelaxedLines`: the sums of a text for a label filter.
* `reads_lineRE`, `reads_labelRE`: what the expressions take, and their groups.
* `parseLabelsFrom_succ`: the loop over the labels ends by itself.
* `readLine_chars`: what a label value of any line cannot hold.
-/

namespace Kavora.Exporter

open Lib Lib.Go Lib.Go.Float64

/-! ## The expressions -/

/-- `[a-zA-Z_:]`. -/
def isNameStart (c : Char) : Bool := c.isAlpha || c = '_' || c = ':'

/-- `[a-zA-Z0-9_:]`. -/
def isNameChar (c : Char) : Bool := isNameStart c || c.isDigit

/-- `[a-zA-Z_]`. -/
def isLabelStart (c : Char) : Bool := c.isAlpha || c = '_'

/-- `[a-zA-Z0-9_]`. -/
def isLabelChar (c : Char) : Bool := isLabelStart c || c.isDigit

/-- `[-+0-9.eE]`. -/
def isNumberChar (c : Char) : Bool := c.isDigit || ['-', '+', '.', 'e', 'E'].contains c

/-- A name: a first character, and others. -/
def nameRE (start next : Char → Bool) : Regex := .one start ++ .star (.one next)

/-- `[-+0-9.eE]+|NaN|nan|Inf|inf`. -/
def numberRE : Regex :=
  .alt (.plus (.one isNumberChar))
    (.alt (.text ['N', 'a', 'N'])
      (.alt (.text ['n', 'a', 'n']) (.alt (.text ['I', 'n', 'f']) (.text ['i', 'n', 'f']))))

/-- `_LINE_RE`; `match` starts at the start of the text. -/
def lineRE : Regex :=
  .group 1 (nameRE isNameStart isNameChar) ++
    (.opt (.char '{' ++ (.group 2 (.star (.one (· ≠ '}'))) ++ .char '}')) ++
      (.plus (.one isspace) ++
        (.group 3 numberRE ++ (.star (.one isspace) ++ .atEnd))))

/-- `\\.|[^"\\]`. -/
def unitRE : Regex := .alt (.char '\\' ++ .anyChar) (.one fun c => c ≠ '"' && c ≠ '\\')

/-- `_LABEL_RE`. -/
def labelRE : Regex :=
  .star (.one isspace) ++
    (.group 1 (nameRE isLabelStart isLabelChar) ++
      (.star (.one isspace) ++
        (.char '=' ++
          (.star (.one isspace) ++
            (.char '"' ++
              (.group 2 (.star unitRE) ++ (.char '"' ++ .star (.one isspace))))))))

/-! ## The parser -/

/-- `_unescape_label_value`. -/
def unescapeLabelValue : List Char → List Char
  | [] => []
  | '\\' :: next :: raw => (if next = 'n' then '\n' else next) :: unescapeLabelValue raw
  | c :: raw => c :: unescapeLabelValue raw

/-- The loop of `_parse_labels_relaxed` with fuel for each character. -/
def parseLabelsFrom : Nat → Map String String → List Char → Map String String
  | 0, labels, _ => labels
  | fuel + 1, labels, text =>
    if text = [] then labels
    else
      match labelRE.prefixMatch text with
      | none => labels
      | some m =>
        parseLabelsFrom fuel
          (labels.insert (.ofList (m.group 1)) (.ofList (unescapeLabelValue (m.group 2))))
          (m.rest.dropWhile fun c => c = ' ' || c = ',')

/-- `_parse_labels_relaxed`. -/
def parseLabelsRelaxed (raw : List Char) : Map String String :=
  parseLabelsFrom (strip raw).length ∅ (strip raw)

/-- The items of a dict of labels. -/
abbrev LabelFilter := List (String × String)

/-- `_labels_match`. -/
def labelsMatch (sampleLabels : Map String String) (filt : LabelFilter) : Bool :=
  filt.all fun item => sampleLabels.lookup item.1 = some item.2

/-- What a line says: a name, labels and the text of a number. -/
structure Reading where
  name : String
  labels : Map String String
  value : String

/-- The line that `raw` is, unless it is empty, a comment or matches nothing. -/
def readLine (raw : List Char) : Option Reading :=
  let line := strip raw
  if line = [] ∨ line.head? = some '#' then none
  else
    (lineRE.prefixMatch line).map fun m =>
      { name := .ofList (m.group 1)
        labels := parseLabelsRelaxed (m.group 2)
        value := .ofList (m.group 3) }

variable {F : Type} [Float64 F] [PyNumber F]

/-- Adds the number of a line to the sum of its name, if the labels match and it is a number. -/
def addReading (labelFilter : Option LabelFilter) (out : Metrics F) (reading : Reading) :
    Metrics F :=
  if labelFilter.all (labelsMatch reading.labels) then
    match PyNumber.floatOfText reading.value with
    | some x => out.insert reading.name (out.index reading.name (ofInt 0) + x)
    | none => out
  else out

/-- `parse_prometheus_text_relaxed_lines`. -/
def parsePrometheusTextRelaxedLines (text : List Char) (labelFilter : Option LabelFilter) :
    Metrics F :=
  (splitlines text).foldl
    (fun out raw =>
      match readLine raw with
      | some reading => addReading labelFilter out reading
      | none => out)
    ∅

/-! ## What the expressions take -/

section Reads

open Regex

variable {xs rest : List Char} {g g' : Groups}

/-- A name with the classes of its first and of its other characters. -/
def IsName (start next : Char → Bool) (name : List Char) : Prop :=
  ∃ c cs, name = c :: cs ∧ start c = true ∧ ∀ d ∈ cs, next d = true

theorem reads_nameRE {start next : Char → Bool} :
    (nameRE start next).Reads xs rest g g' ↔ IsName start next xs ∧ g' = g := by
  unfold nameRE
  rw [reads_seq]
  constructor
  · rintro ⟨_, cs, _, rfl, hone, hstar⟩
    obtain ⟨c, rfl, hc, rfl⟩ := reads_one.mp hone
    obtain ⟨hcs, hg⟩ := reads_star_one.mp hstar
    exact ⟨⟨c, cs, rfl, hc, hcs⟩, hg⟩
  · rintro ⟨⟨c, cs, rfl, hc, hcs⟩, rfl⟩
    exact ⟨[c], cs, g', rfl, reads_one.mpr ⟨c, rfl, hc, rfl⟩, reads_star_one.mpr ⟨hcs, rfl⟩⟩

/-- The text of a number, or the name of one that is not finite. -/
def IsNumber (value : List Char) : Prop :=
  (value ≠ [] ∧ ∀ c ∈ value, isNumberChar c = true) ∨
    value ∈ [['N', 'a', 'N'], ['n', 'a', 'n'], ['I', 'n', 'f'], ['i', 'n', 'f']]

theorem reads_numberRE : numberRE.Reads xs rest g g' ↔ IsNumber xs ∧ g' = g := by
  unfold numberRE IsNumber
  simp only [reads_alt, reads_text, reads_plus_one, List.mem_cons, List.not_mem_nil, or_false]
  tauto

/-- The labels of a line in their braces, if there are any. -/
def braced : Option (List Char) → List Char
  | none => []
  | some body => '{' :: (body ++ ['}'])

/-- The groups of a line. -/
def lineGroups (name : List Char) (body : Option (List Char)) (value : List Char) : Groups :=
  fun index =>
    if index = 3 then some value
    else if index = 2 then body
    else if index = 1 then some name
    else none

theorem reads_bracesRE :
    (opt (char '{' ++ (group 2 (star (one (· ≠ '}'))) ++ char '}'))).Reads xs rest g g' ↔
      ∃ body, xs = braced body ∧ (∀ b ∈ body, '}' ∉ b) ∧
        g' = match body with
          | some b => Function.update g 2 (some b)
          | none => g := by
  rw [reads_opt]
  constructor
  · rintro (hbraces | ⟨rfl, rfl⟩)
    · obtain ⟨_, _, _, rfl, hopen, hinside⟩ := reads_seq.mp hbraces
      obtain ⟨rfl, rfl⟩ := reads_char.mp hopen
      obtain ⟨body, _, _, rfl, hgroup, hclose⟩ := reads_seq.mp hinside
      obtain ⟨rfl, rfl⟩ := reads_char.mp hclose
      obtain ⟨_, hstar, rfl⟩ := reads_group.mp hgroup
      obtain ⟨hbody, rfl⟩ := reads_star_one.mp hstar
      refine ⟨some body, rfl, ?_, rfl⟩
      rintro b hb hmem
      cases hb
      exact of_decide_eq_true (hbody _ hmem) rfl
    · exact ⟨none, rfl, nofun, rfl⟩
  · rintro ⟨body, rfl, hbody, rfl⟩
    cases body with
    | none => exact .inr ⟨rfl, rfl⟩
    | some b =>
      have hb : ∀ c ∈ b, decide (c ≠ '}') = true := fun c hc =>
        decide_eq_true fun heq => hbody b rfl (heq ▸ hc)
      refine .inl (reads_seq.mpr ⟨['{'], b ++ ['}'], g, rfl, reads_char.mpr ⟨rfl, rfl⟩, ?_⟩)
      refine reads_seq.mpr ⟨b, ['}'], _, rfl, reads_group.mpr ⟨g, ?_, rfl⟩,
        reads_char.mpr ⟨rfl, rfl⟩⟩
      exact reads_star_one.mpr ⟨hb, rfl⟩

theorem lineGroups_eq (name : List Char) (body : Option (List Char)) (value : List Char) :
    lineGroups name body value =
      Function.update
        (match body with
          | some b => Function.update (Function.update (fun _ => none) 1 (some name)) 2 (some b)
          | none => Function.update (fun _ => none) 1 (some name))
        3 (some value) := by
  funext index
  unfold lineGroups
  cases body with
  | none =>
    simp only [Function.update_apply]
    split_ifs <;> first | rfl | omega
  | some b => simp only [Function.update_apply]

theorem reads_lineRE :
    lineRE.Reads xs rest (fun _ => none) g' ↔
      ∃ name body space value tail, xs = name ++ (braced body ++ (space ++ (value ++ tail))) ∧
        IsName isNameStart isNameChar name ∧ (∀ b ∈ body, '}' ∉ b) ∧
        (space ≠ [] ∧ ∀ c ∈ space, isspace c = true) ∧ IsNumber value ∧
        (∀ c ∈ tail, isspace c = true) ∧ (rest = [] ∨ rest = ['\n']) ∧
        g' = lineGroups name body value := by
  unfold lineRE
  constructor
  · intro h
    obtain ⟨name, _, _, rfl, hgroup₁, h₁⟩ := reads_seq.mp h
    obtain ⟨_, hreads₁, rfl⟩ := reads_group.mp hgroup₁
    obtain ⟨hname, rfl⟩ := reads_nameRE.mp hreads₁
    obtain ⟨_, _, _, rfl, hbraces, h₂⟩ := reads_seq.mp h₁
    obtain ⟨body, rfl, hbody, rfl⟩ := reads_bracesRE.mp hbraces
    obtain ⟨space, _, _, rfl, hplus, h₃⟩ := reads_seq.mp h₂
    obtain ⟨hne, hspace, rfl⟩ := reads_plus_one.mp hplus
    obtain ⟨value, _, _, rfl, hgroup₃, h₄⟩ := reads_seq.mp h₃
    obtain ⟨_, hreads₃, rfl⟩ := reads_group.mp hgroup₃
    obtain ⟨hvalue, rfl⟩ := reads_numberRE.mp hreads₃
    obtain ⟨tail, _, _, rfl, hstar, hatEnd⟩ := reads_seq.mp h₄
    obtain ⟨htail, rfl⟩ := reads_star_one.mp hstar
    obtain ⟨rfl, rfl, hend⟩ := reads_atEnd.mp hatEnd
    rw [List.append_nil, ← lineGroups_eq]
    exact ⟨name, body, space, value, tail, rfl, hname, hbody, ⟨hne, hspace⟩, hvalue, htail, hend,
      rfl⟩
  · rintro ⟨name, body, space, value, tail, rfl, hname, hbody, ⟨hne, hspace⟩, hvalue, htail, hend,
      rfl⟩
    rw [lineGroups_eq]
    refine reads_seq.mpr ⟨name, _, _, rfl,
      reads_group.mpr ⟨_, reads_nameRE.mpr ⟨hname, rfl⟩, rfl⟩, ?_⟩
    refine reads_seq.mpr ⟨_, _, _, rfl, reads_bracesRE.mpr ⟨body, rfl, hbody, rfl⟩, ?_⟩
    refine reads_seq.mpr ⟨space, _, _, rfl, reads_plus_one.mpr ⟨hne, hspace, rfl⟩, ?_⟩
    refine reads_seq.mpr ⟨value, _, _, rfl,
      reads_group.mpr ⟨_, reads_numberRE.mpr ⟨hvalue, rfl⟩, rfl⟩, ?_⟩
    exact reads_seq.mpr ⟨tail, [], _, (List.append_nil tail).symm,
      reads_star_one.mpr ⟨htail, rfl⟩, reads_atEnd.mpr ⟨rfl, rfl, hend⟩⟩

/-- The text between the quotes of a label. -/
inductive RawValue : List Char → Prop
  | nil : RawValue []
  | escaped {c : Char} {raw : List Char} : c ≠ '\n' → RawValue raw → RawValue ('\\' :: c :: raw)
  | plain {c : Char} {raw : List Char} : c ≠ '"' → c ≠ '\\' → RawValue raw → RawValue (c :: raw)

theorem reads_unitRE :
    unitRE.Reads xs rest g g' ↔
      ((∃ c, xs = ['\\', c] ∧ c ≠ '\n') ∨ ∃ c, xs = [c] ∧ c ≠ '"' ∧ c ≠ '\\') ∧ g' = g := by
  unfold unitRE anyChar
  rw [reads_alt]
  constructor
  · rintro (hescaped | hplain)
    · obtain ⟨_, _, _, rfl, hslash, hany⟩ := reads_seq.mp hescaped
      obtain ⟨rfl, rfl⟩ := reads_char.mp hslash
      obtain ⟨c, rfl, hc, rfl⟩ := reads_one.mp hany
      exact ⟨.inl ⟨c, rfl, of_decide_eq_true hc⟩, rfl⟩
    · obtain ⟨c, rfl, hc, rfl⟩ := reads_one.mp hplain
      rw [Bool.and_eq_true, decide_eq_true_eq, decide_eq_true_eq] at hc
      exact ⟨.inr ⟨c, rfl, hc⟩, rfl⟩
  · rintro ⟨⟨c, rfl, hc⟩ | ⟨c, rfl, hc⟩, rfl⟩
    · exact .inl (reads_seq.mpr ⟨['\\'], [c], g', rfl, reads_char.mpr ⟨rfl, rfl⟩,
        reads_one.mpr ⟨c, rfl, decide_eq_true hc, rfl⟩⟩)
    · refine .inr (reads_one.mpr ⟨c, rfl, ?_, rfl⟩)
      rw [Bool.and_eq_true, decide_eq_true_eq, decide_eq_true_eq]
      exact hc

theorem reads_units : (star unitRE).Reads xs rest g g' ↔ RawValue xs ∧ g' = g := by
  constructor
  · intro h
    -- By the length: a turn leaves fewer characters.
    induction hlength : xs.length using Nat.strong_induction_on generalizing xs g with
    | _ length ih =>
      rcases reads_star.mp h with ⟨rfl, rfl⟩ | ⟨unit, ys, g₁, hne, rfl, hunit, hstar⟩
      · exact ⟨.nil, rfl⟩
      obtain ⟨hcases, rfl⟩ := reads_unitRE.mp hunit
      have hpos := List.length_pos_of_ne_nil hne
      rw [List.length_append] at hlength
      obtain ⟨hraw, hg⟩ := ih ys.length (by omega) hstar rfl
      rcases hcases with ⟨c, rfl, hc⟩ | ⟨c, rfl, hquote, hslash⟩
      · exact ⟨.escaped hc hraw, hg⟩
      · exact ⟨.plain hquote hslash hraw, hg⟩
  · rintro ⟨hraw, rfl⟩
    induction hraw with
    | nil => exact reads_star.mpr (.inl ⟨rfl, rfl⟩)
    | @escaped c raw hc _ ih =>
      exact reads_star.mpr (.inr ⟨['\\', c], raw, g', List.cons_ne_nil _ _, rfl,
        reads_unitRE.mpr ⟨.inl ⟨c, rfl, hc⟩, rfl⟩, ih⟩)
    | @plain c raw hquote hslash _ ih =>
      exact reads_star.mpr (.inr ⟨[c], raw, g', List.cons_ne_nil _ _, rfl,
        reads_unitRE.mpr ⟨.inr ⟨c, rfl, hquote, hslash⟩, rfl⟩, ih⟩)

/-- The groups of a label. -/
def labelGroups (name raw : List Char) : Groups :=
  Function.update (Function.update (fun _ => none) 1 (some name)) 2 (some raw)

theorem reads_labelRE :
    labelRE.Reads xs rest (fun _ => none) g' ↔
      ∃ space₁ name space₂ space₃ raw space₄,
        xs = space₁ ++ (name ++ (space₂ ++ ('=' :: (space₃ ++ ('"' :: (raw ++ '"' :: space₄)))))) ∧
        IsName isLabelStart isLabelChar name ∧ RawValue raw ∧
        (∀ space ∈ [space₁, space₂, space₃, space₄], ∀ c ∈ space, isspace c = true) ∧
        g' = labelGroups name raw := by
  unfold labelRE
  constructor
  · intro h
    obtain ⟨space₁, _, _, rfl, hstar₁, h₁⟩ := reads_seq.mp h
    obtain ⟨hspace₁, rfl⟩ := reads_star_one.mp hstar₁
    obtain ⟨name, _, _, rfl, hgroup₁, h₂⟩ := reads_seq.mp h₁
    obtain ⟨_, hreads₁, rfl⟩ := reads_group.mp hgroup₁
    obtain ⟨hname, rfl⟩ := reads_nameRE.mp hreads₁
    obtain ⟨space₂, _, _, rfl, hstar₂, h₃⟩ := reads_seq.mp h₂
    obtain ⟨hspace₂, rfl⟩ := reads_star_one.mp hstar₂
    obtain ⟨_, _, _, rfl, hequals, h₄⟩ := reads_seq.mp h₃
    obtain ⟨rfl, rfl⟩ := reads_char.mp hequals
    obtain ⟨space₃, _, _, rfl, hstar₃, h₅⟩ := reads_seq.mp h₄
    obtain ⟨hspace₃, rfl⟩ := reads_star_one.mp hstar₃
    obtain ⟨_, _, _, rfl, hopen, h₆⟩ := reads_seq.mp h₅
    obtain ⟨rfl, rfl⟩ := reads_char.mp hopen
    obtain ⟨raw, _, _, rfl, hgroup₂, h₇⟩ := reads_seq.mp h₆
    obtain ⟨_, hreads₂, rfl⟩ := reads_group.mp hgroup₂
    obtain ⟨hraw, rfl⟩ := reads_units.mp hreads₂
    obtain ⟨_, space₄, _, rfl, hclose, hstar₄⟩ := reads_seq.mp h₇
    obtain ⟨rfl, rfl⟩ := reads_char.mp hclose
    obtain ⟨hspace₄, rfl⟩ := reads_star_one.mp hstar₄
    refine ⟨space₁, name, space₂, space₃, raw, space₄, rfl, hname, hraw, ?_, rfl⟩
    simp only [List.forall_mem_cons]
    exact ⟨hspace₁, hspace₂, hspace₃, hspace₄, List.forall_mem_nil _⟩
  · rintro ⟨space₁, name, space₂, space₃, raw, space₄, rfl, hname, hraw, hspaces, rfl⟩
    simp only [List.forall_mem_cons] at hspaces
    obtain ⟨hspace₁, hspace₂, hspace₃, hspace₄, -⟩ := hspaces
    refine reads_seq.mpr ⟨space₁, _, _, rfl, reads_star_one.mpr ⟨hspace₁, rfl⟩, ?_⟩
    refine reads_seq.mpr ⟨name, _, _, rfl,
      reads_group.mpr ⟨_, reads_nameRE.mpr ⟨hname, rfl⟩, rfl⟩, ?_⟩
    refine reads_seq.mpr ⟨space₂, _, _, rfl, reads_star_one.mpr ⟨hspace₂, rfl⟩, ?_⟩
    refine reads_seq.mpr ⟨['='], _, _, rfl, reads_char.mpr ⟨rfl, rfl⟩, ?_⟩
    refine reads_seq.mpr ⟨space₃, _, _, rfl, reads_star_one.mpr ⟨hspace₃, rfl⟩, ?_⟩
    refine reads_seq.mpr ⟨['"'], _, _, rfl, reads_char.mpr ⟨rfl, rfl⟩, ?_⟩
    refine reads_seq.mpr ⟨raw, _, _, rfl,
      reads_group.mpr ⟨_, reads_units.mpr ⟨hraw, rfl⟩, rfl⟩, ?_⟩
    exact reads_seq.mpr ⟨['"'], space₄, _, rfl, reads_char.mpr ⟨rfl, rfl⟩,
      reads_star_one.mpr ⟨hspace₄, rfl⟩⟩

end Reads

/-! ## The loop over the labels -/

section Labels

variable {text : List Char} {m : Regex.State}

/-- What is found of a label. -/
theorem labelRE_prefixMatch (h : labelRE.prefixMatch text = some m) :
    m.rest.length < text.length ∧ m.rest ⊆ text ∧ m.group 2 ⊆ text := by
  obtain ⟨xs, htext, hreads⟩ := Regex.prefixMatch_reads h
  obtain ⟨space₁, name, space₂, space₃, raw, space₄, hxs, -, -, -, hgroups⟩ :=
    reads_labelRE.mp hreads
  have hgroup : m.group 2 = raw := by
    unfold Regex.State.group
    rw [hgroups]
    rfl
  have hmem : '=' ∈ xs := by
    rw [hxs]
    simp
  have hraw : raw ⊆ xs := by
    intro c hc
    rw [hxs]
    simp [hc]
  rw [hgroup, htext, List.length_append]
  refine ⟨?_, List.subset_append_right _ _, List.Subset.trans hraw (List.subset_append_left _ _)⟩
  have := List.length_pos_of_mem hmem
  omega

/-- Fuel for each character of the text is enough: the loop ends. -/
theorem parseLabelsFrom_succ {fuel : Nat} {labels : Map String String}
    (h : text.length ≤ fuel) :
    parseLabelsFrom (fuel + 1) labels text = parseLabelsFrom fuel labels text := by
  induction fuel generalizing labels text with
  | zero =>
    rw [List.length_eq_zero_iff.mp (Nat.le_zero.mp h)]
    rfl
  | succ fuel ih =>
    rw [parseLabelsFrom, parseLabelsFrom]
    split
    · rfl
    · cases hfound : labelRE.prefixMatch text with
      | none => rfl
      | some m =>
        have hrest := (labelRE_prefixMatch hfound).1
        have hdrop := (List.dropWhile_sublist (l := m.rest) fun c => c = ' ' || c = ',').length_le
        exact ih (by omega)

theorem unescapeLabelValue_chars {P : Char → Prop} (hnewline : P '\n') {raw : List Char}
    (h : ∀ c ∈ raw, P c) : ∀ c ∈ unescapeLabelValue raw, P c := by
  induction raw using unescapeLabelValue.induct with
  | case1 => exact nofun
  | case2 next raw ih =>
    obtain ⟨-, hnext, hraw⟩ := by simpa only [List.forall_mem_cons] using h
    rw [unescapeLabelValue]
    refine List.forall_mem_cons.mpr ⟨?_, ih hraw⟩
    split
    · exact hnewline
    · exact hnext
  | case3 c raw hslash ih =>
    obtain ⟨hc, hraw⟩ := List.forall_mem_cons.mp h
    rw [unescapeLabelValue]
    · exact List.forall_mem_cons.mpr ⟨hc, ih hraw⟩
    · exact hslash

/-- The values of the labels hold characters of the text, and newlines. -/
theorem parseLabelsFrom_chars {P : Char → Prop} (hnewline : P '\n') {fuel : Nat}
    {labels : Map String String} (htext : ∀ c ∈ text, P c)
    (hlabels : ∀ k v, labels.lookup k = some v → ∀ c ∈ v.toList, P c) :
    ∀ k v, (parseLabelsFrom fuel labels text).lookup k = some v → ∀ c ∈ v.toList, P c := by
  induction fuel generalizing labels text with
  | zero => exact hlabels
  | succ fuel ih =>
    rw [parseLabelsFrom]
    split
    · exact hlabels
    · cases hfound : labelRE.prefixMatch text with
      | none => exact hlabels
      | some m =>
        obtain ⟨-, hrest, hgroup⟩ := labelRE_prefixMatch hfound
        refine ih (fun c hc => htext c (hrest ((List.dropWhile_sublist _).subset hc))) ?_
        intro k v hlookup
        by_cases hk : k = .ofList (m.group 1)
        · rw [hk, AList.lookup_insert] at hlookup
          cases hlookup
          rw [String.toList_ofList]
          exact unescapeLabelValue_chars hnewline fun c hc => htext c (hgroup hc)
        · rw [AList.lookup_insert_ne hk] at hlookup
          exact hlabels k v hlookup

/-- A character that a label value keeps. -/
def Kept (c : Char) : Prop := c ≠ '}' ∧ (isLineBreak c = true → c = '\n')

/-- No line has a label value with a brace or the end of a line. -/
theorem readLine_chars {raw : List Char} {reading : Reading} (h : readLine raw = some reading)
    (hraw : ∀ c ∈ raw, isLineBreak c = false) :
    ∀ k v, reading.labels.lookup k = some v → ∀ c ∈ v.toList, Kept c := by
  unfold readLine at h
  dsimp only at h
  split at h
  · cases h
  obtain ⟨m, hfound, rfl⟩ := Option.map_eq_some_iff.mp h
  obtain ⟨xs, hline, hreads⟩ := Regex.prefixMatch_reads hfound
  obtain ⟨name, body, space, value, tail, hxs, -, hbody, -, -, -, -, hgroups⟩ :=
    reads_lineRE.mp hreads
  have hgroup : m.group 2 = body.getD [] := by
    unfold Regex.State.group
    rw [hgroups]
    rfl
  have hkept : ∀ c ∈ m.group 2, Kept c := by
    intro c hc
    rw [hgroup] at hc
    cases body with
    | none => cases hc
    | some b =>
      refine ⟨fun hbrace => hbody b rfl (hbrace ▸ hc), fun hbreak => ?_⟩
      have hmem : c ∈ strip raw := by
        rw [hline, hxs]
        simp only [braced, List.mem_append, List.mem_cons]
        tauto
      rw [hraw c (strip_subset raw hmem)] at hbreak
      cases hbreak
  exact parseLabelsFrom_chars ⟨by decide, fun _ => rfl⟩
    (fun c hc => hkept c (strip_subset _ hc)) (by simp)

end Labels

end Kavora.Exporter
