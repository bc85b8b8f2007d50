import Kavora.Lib.Grouping
import Kavora.Exporter.PrometheusParse

/-!
# What the relaxed parser keeps

Samples are rendered in the text format, a line for each, and read back by the relaxed parser.

* `Sample`: a sample with well-formed names and the text of a number.
* `ReadsSums`: the parser returns the sums of the samples that a filter selects.
* `relaxed_lines_keep_samples`: this holds for every filter if and only if no label value holds a
  `}` or the end of a line other than `\n`.
-/

namespace Kavora.Exporter

open Lib Lib.Go Lib.Go.Float64

/-! ## Samples -/

/-- A sample of a counter or a gauge. -/
structure Sample (F : Type) [PyNumber F] where
  name : String
  labels : List (String × String)
  /-- The text of the number. -/
  value : String
  number : F
  name_ok : IsName isNameStart isNameChar name.toList
  labels_ok : ∀ label ∈ labels, IsName isLabelStart isLabelChar label.1.toList
  labels_nodup : (labels.map Prod.fst).Nodup
  value_ok : value.toList ≠ [] ∧ ∀ c ∈ value.toList, isNumberChar c = true
  number_ok : PyNumber.floatOfText value = some number

/-- The escapes of the text format. -/
def escapeChar (c : Char) : List Char :=
  if c = '\\' then ['\\', '\\'] else if c = '"' then ['\\', '"']
  else if c = '\n' then ['\\', 'n'] else [c]

/-- A label's value as it stands between quotes. -/
def escapeLabelValue (value : List Char) : List Char := value.flatMap escapeChar

/-- A label with its value. -/
def renderLabel (label : String × String) : List Char :=
  label.1.toList ++ ('=' :: '"' :: (escapeLabelValue label.2.toList ++ ['"']))

/-- The labels with a comma between two of them. -/
def renderLabels : List (String × String) → List Char
  | [] => []
  | label :: labels =>
    renderLabel label ++ if labels = [] then [] else ',' :: renderLabels labels

variable {F : Type} [PyNumber F]

namespace Sample

/-- The labels of a sample between braces, unless there are none. -/
def body (sample : Sample F) : Option (List Char) :=
  if sample.labels = [] then none else some (renderLabels sample.labels)

def line (sample : Sample F) : List Char :=
  sample.name.toList ++ (braced sample.body ++ ' ' :: sample.value.toList)

/-- The labels of a sample match a filter. -/
def isSelected (labelFilter : Option LabelFilter) (sample : Sample F) : Bool :=
  labelFilter.all fun filt => filt.all fun item => item ∈ sample.labels

/-- No label value ends a line. -/
def OneLine (sample : Sample F) : Prop :=
  ∀ label ∈ sample.labels, ∀ c ∈ label.2.toList, isLineBreak c = true → c = '\n'

/-- No label value holds a closing brace. -/
def isUnbraced (sample : Sample F) : Bool := sample.labels.all fun label => '}' ∉ label.2.toList

end Sample

/-- Samples as the text that an engine serves. -/
def render (samples : List (Sample F)) : List Char :=
  (samples.map (·.line)).flatMap (· ++ ['\n'])

variable [Float64 F]

/-- The sum of the samples of a name, where there is one. -/
def sumOf (name : String) (samples : List (Sample F)) : Option F :=
  if name ∈ samples.map (·.name) then
    some ((samples.filter fun sample => sample.name = name).foldl
      (fun sum sample => sum + sample.number) (ofInt 0))
  else none

/-- The parser returns for each name the sum of the samples that the filter selects. -/
def ReadsSums (samples : List (Sample F)) (labelFilter : Option LabelFilter) : Prop :=
  ∀ name, (parsePrometheusTextRelaxedLines (F := F) (render samples) labelFilter).lookup name =
    sumOf name (samples.filter (·.isSelected labelFilter))

/-! ## Characters -/

/-- A visible character of ASCII. -/
def Visible (c : Char) : Prop := 33 ≤ c.toNat ∧ c.toNat ≤ 126

instance (c : Char) : Decidable (Visible c) := inferInstanceAs (Decidable (_ ∧ _))

section Characters

variable {c : Char}

theorem Visible.not_space (h : Visible c) : isspace c = false := by
  obtain ⟨hlow, hhigh⟩ := h
  simp only [isspace, List.contains_eq_mem, List.mem_cons, List.not_mem_nil, or_false,
    Bool.or_eq_false_iff, Bool.and_eq_false_iff, decide_eq_false_iff_not]
  omega

theorem Visible.not_break (h : Visible c) : isLineBreak c = false := by
  obtain ⟨hlow, hhigh⟩ := h
  simp only [isLineBreak, List.contains_eq_mem, List.mem_cons, List.not_mem_nil, or_false,
    decide_eq_false_iff_not]
  omega

theorem visible_of_alpha (h : c.isAlpha = true) : Visible c := by
  delta Char.isAlpha Char.isUpper Char.isLower at h
  simp only [ge_iff_le, Bool.or_eq_true, Bool.and_eq_true, decide_eq_true_eq,
    UInt32.le_iff_toNat_le] at h
  unfold Visible Char.toNat
  have : ('A' : Char).val.toNat = 65 := rfl
  have : ('Z' : Char).val.toNat = 90 := rfl
  have : ('a' : Char).val.toNat = 97 := rfl
  have : ('z' : Char).val.toNat = 122 := rfl
  omega

theorem visible_of_digit (h : c.isDigit = true) : Visible c := by
  simp only [Char.isDigit, Bool.and_eq_true, decide_eq_true_eq, UInt32.le_iff_toNat_le] at h
  unfold Visible Char.toNat
  have : ('0' : Char).val.toNat = 48 := rfl
  have : ('9' : Char).val.toNat = 57 := rfl
  omega

theorem visible_of_nameChar (h : isNameChar c = true) : Visible c := by
  simp only [isNameChar, isNameStart, Bool.or_eq_true, decide_eq_true_eq] at h
  obtain ((halpha | rfl) | rfl) | hdigit := h
  · exact visible_of_alpha halpha
  · decide
  · decide
  · exact visible_of_digit hdigit

theorem nameChar_of_labelChar (h : isLabelChar c = true) : isNameChar c = true := by
  simp only [isLabelChar, isLabelStart, isNameChar, isNameStart, Bool.or_eq_true] at h ⊢
  tauto

theorem visible_of_numberChar (h : isNumberChar c = true) : Visible c := by
  simp only [isNumberChar, List.contains_eq_mem, List.mem_cons, List.not_mem_nil, or_false,
    Bool.or_eq_true, decide_eq_true_eq] at h
  obtain hdigit | rfl | rfl | rfl | rfl | rfl := h
  · exact visible_of_digit hdigit
  all_goals decide

theorem not_class_of_space {p : Char → Bool} (hp : ∀ c, p c = true → Visible c)
    (hc : isspace c = true) : p c = false := by
  by_contra h
  rw [(hp c (eq_true_of_ne_false h)).not_space] at hc
  cases hc

end Characters

/-! ## Names -/

section Names

variable {start next : Char → Bool} {name : List Char}

theorem IsName.all (h : IsName start next name) (hstart : ∀ c, start c = true → next c = true) :
    ∀ c ∈ name, next c = true := by
  obtain ⟨c, cs, rfl, hc, hcs⟩ := h
  exact List.forall_mem_cons.mpr ⟨hstart c hc, hcs⟩

/-- A name does not start with a character that none of its characters is. -/
theorem IsName.head {p : Char → Bool} (h : IsName start next name) (rest : List Char)
    (hp : ∀ c, start c = true → p c = false) : ∀ c ∈ (name ++ rest).head?, p c = false := by
  obtain ⟨c, cs, rfl, hc, -⟩ := h
  intro d hd
  cases hd
  exact hp c hc

theorem nameChar_of_nameStart {c : Char} (h : isNameStart c = true) : isNameChar c = true := by
  unfold isNameChar
  rw [h, Bool.true_or]

theorem labelChar_of_labelStart {c : Char} (h : isLabelStart c = true) : isLabelChar c = true := by
  unfold isLabelChar
  rw [h, Bool.true_or]

end Names

/-! ## One label -/

section Label

theorem unescape_escape (value : List Char) :
    unescapeLabelValue (escapeLabelValue value) = value := by
  induction value with
  | nil => rfl
  | cons c value ih =>
    unfold escapeLabelValue escapeChar at *
    rw [List.flatMap_cons]
    split_ifs with hslash hquote hnewline
    · rw [List.cons_append, List.singleton_append, unescapeLabelValue, ih, hslash]
      rfl
    · rw [List.cons_append, List.singleton_append, unescapeLabelValue, ih, hquote]
      rfl
    · rw [List.cons_append, List.singleton_append, unescapeLabelValue, ih, hnewline]
      rfl
    · rw [List.singleton_append, unescapeLabelValue, ih]
      exact fun _ _ heq => absurd heq hslash

theorem rawValue_escape (value : List Char) : RawValue (escapeLabelValue value) := by
  induction value with
  | nil => exact .nil
  | cons c value ih =>
    unfold escapeLabelValue escapeChar at *
    rw [List.flatMap_cons]
    split_ifs with hslash hquote hnewline
    · exact .escaped (by decide) ih
    · exact .escaped (by decide) ih
    · exact .escaped (by decide) ih
    · exact .plain hquote hslash ih

/-- A quoted value ends at the first quote that is not escaped. -/
theorem RawValue.quote_inj {a b x y : List Char} (ha : RawValue a) (hb : RawValue b)
    (h : a ++ '"' :: x = b ++ '"' :: y) : a = b ∧ x = y := by
  induction ha generalizing b with
  | nil =>
    cases hb with
    | nil => exact ⟨rfl, (List.cons.inj h).2⟩
    | escaped => exact absurd (List.cons.inj h).1 (by decide)
    | plain hquote => exact absurd (List.cons.inj h).1.symm hquote
  | escaped _ _ ih =>
    cases hb with
    | nil => exact absurd (List.cons.inj h).1 (by decide)
    | escaped _ hb =>
      obtain ⟨rfl, hraw⟩ := List.cons.inj (List.cons.inj h).2
      obtain ⟨rfl, hxy⟩ := ih hb hraw
      exact ⟨rfl, hxy⟩
    | plain _ hslash => exact absurd (List.cons.inj h).1.symm hslash
  | plain hquote hslash _ ih =>
    cases hb with
    | nil => exact absurd (List.cons.inj h).1 hquote
    | escaped => exact absurd (List.cons.inj h).1 hslash
    | plain _ _ hb =>
      obtain ⟨rfl, htail⟩ := List.cons.inj h
      obtain ⟨rfl, hxy⟩ := ih hb htail
      exact ⟨rfl, hxy⟩

/-- A rendered label before a comma or the end is found with its name and its escaped value. -/
theorem labelRE_renderLabel {label : String × String}
    (hname : IsName isLabelStart isLabelChar label.1.toList) {tail : List Char}
    (htail : ∀ c ∈ tail.head?, c = ',') :
    labelRE.prefixMatch (renderLabel label ++ tail) =
      some
        { rest := tail
          groups := labelGroups label.1.toList (escapeLabelValue label.2.toList) } := by
  have hspace : ∀ c, isLabelChar c = true → Visible c := fun c hc =>
    visible_of_nameChar (nameChar_of_labelChar hc)
  refine Regex.prefixMatch_eq_some (reads_labelRE.mpr
    ⟨[], label.1.toList, [], [], escapeLabelValue label.2.toList, [], rfl, hname,
      rawValue_escape _, by simp, rfl⟩) ?_
  intro ys rest g htext hreads
  obtain ⟨space₁, name, space₂, space₃, raw, space₄, rfl, hname', hraw, hspaces, rfl⟩ :=
    reads_labelRE.mp hreads
  simp only [List.forall_mem_cons] at hspaces
  obtain ⟨hspace₁, hspace₂, hspace₃, hspace₄, -⟩ := hspaces
  unfold renderLabel at htext
  simp only [List.append_assoc, List.cons_append, List.nil_append] at htext
  -- The pieces of the text are found one after the other.
  have hstart : ∀ c, isLabelStart c = true → isspace c = false := fun c hc =>
    (hspace c (labelChar_of_labelStart hc)).not_space
  obtain ⟨rfl, h₁⟩ := class_append_inj (p := isspace) (a := []) (List.forall_mem_nil _) hspace₁
    (hname.head _ hstart) (hname'.head _ hstart) htext
  obtain ⟨hsame, h₂⟩ := class_append_inj (p := isLabelChar)
    (hname.all fun _ => labelChar_of_labelStart) (hname'.all fun _ => labelChar_of_labelStart)
    (head?_cons_class (by decide))
    (head?_append_class (fun c hc => not_class_of_space hspace (hspace₂ c hc))
      (head?_cons_class (by decide))) h₁
  obtain ⟨rfl, h₃⟩ := class_append_inj (p := isspace) (a := []) (List.forall_mem_nil _) hspace₂
    (head?_cons_class (by decide)) (head?_cons_class (by decide)) h₂
  obtain ⟨rfl, h₄⟩ := class_append_inj (p := isspace) (a := []) (List.forall_mem_nil _) hspace₃
    (head?_cons_class (by decide)) (head?_cons_class (by decide)) (List.cons.inj h₃).2
  obtain ⟨hvalue, h₅⟩ := (rawValue_escape _).quote_inj hraw (List.cons.inj h₄).2
  rw [hsame, hvalue]
  refine ⟨?_, rfl⟩
  cases space₄ with
  | nil => exact h₅.symm
  | cons c space₄ =>
    have hc := hspace₄ c List.mem_cons_self
    rw [htail c (by rw [h₅]; rfl)] at hc
    cases hc

end Label

/-! ## All labels of a sample -/

section Labels

variable {labels : List (String × String)}

/-- The labels of a sample as the parser keeps them. -/
def labelMap (labels : List (String × String)) : Map String String :=
  labels.foldl (fun acc label => acc.insert label.1 label.2) ∅

theorem lookup_foldl_insert (hnodup : (labels.map Prod.fst).Nodup) (acc : Map String String)
    {k v : String} :
    (labels.foldl (fun acc label => acc.insert label.1 label.2) acc).lookup k = some v ↔
      (k, v) ∈ labels ∨ k ∉ labels.map Prod.fst ∧ acc.lookup k = some v := by
  induction labels generalizing acc with
  | nil =>
    simp only [List.foldl_nil, List.not_mem_nil, List.map_nil, not_false_eq_true, true_and,
      false_or]
  | cons label labels ih =>
    obtain ⟨key, value⟩ := label
    rw [List.map_cons, List.nodup_cons] at hnodup
    rw [List.foldl_cons, ih hnodup.2]
    by_cases hk : k = key
    · subst hk
      have hnot : (k, v) ∉ labels := fun hmem =>
        hnodup.1 (List.mem_map.mpr ⟨(k, v), hmem, rfl⟩)
      simp only [AList.lookup_insert, Option.some.injEq, List.mem_cons, Prod.mk.injEq, true_and,
        List.map_cons, hnodup.1, hnot, not_false_eq_true, false_or, or_false, not_true_eq_false,
        false_and, eq_comm]
    · simp only [AList.lookup_insert_ne hk, List.mem_cons, Prod.mk.injEq, hk, false_and, false_or,
        List.map_cons]

theorem lookup_labelMap (hnodup : (labels.map Prod.fst).Nodup) {k v : String} :
    (labelMap labels).lookup k = some v ↔ (k, v) ∈ labels := by
  unfold labelMap
  rw [lookup_foldl_insert hnodup, AList.lookup_empty]
  simp only [reduceCtorEq, and_false, or_false]

theorem renderLabel_ne (label : String × String) : renderLabel label ≠ [] := by
  unfold renderLabel
  simp

/-- After a label the loop goes on with the next one. -/
theorem dropWhile_separator
    (hnames : ∀ label ∈ labels, IsName isLabelStart isLabelChar label.1.toList) :
    (if labels = [] then [] else ',' :: renderLabels labels).dropWhile
        (fun c => c = ' ' || c = ',') = renderLabels labels := by
  cases labels with
  | nil => rfl
  | cons label labels =>
    rw [if_neg (List.cons_ne_nil _ _), List.dropWhile_cons_of_pos rfl]
    obtain ⟨c, cs, hname, hc, -⟩ := hnames label List.mem_cons_self
    have hstop : ¬ (decide (c = ' ') || decide (c = ',')) = true := by
      rw [Bool.or_eq_true, decide_eq_true_eq, decide_eq_true_eq]
      rintro (rfl | rfl)
      · cases hc
      · cases hc
    unfold renderLabels renderLabel
    rw [hname]
    exact List.dropWhile_cons_of_neg hstop

theorem parseLabelsFrom_render {fuel : Nat} {acc : Map String String}
    (hnames : ∀ label ∈ labels, IsName isLabelStart isLabelChar label.1.toList)
    (hfuel : (renderLabels labels).length ≤ fuel) :
    parseLabelsFrom fuel acc (renderLabels labels) =
      labels.foldl (fun acc label => acc.insert label.1 label.2) acc := by
  induction labels generalizing fuel acc with
  | nil =>
    cases fuel with
    | zero => rfl
    | succ fuel => exact if_pos rfl
  | cons label labels ih =>
    obtain ⟨hname, hnames⟩ := List.forall_mem_cons.mp hnames
    have hcomma :
        ∀ c ∈ (if labels = [] then [] else ',' :: renderLabels labels).head?, c = ',' := by
      split
      · exact nofun
      · rintro c ⟨rfl⟩
        rfl
    have hpos := List.length_pos_of_ne_nil (renderLabel_ne label)
    rw [renderLabels] at hfuel ⊢
    rw [List.length_append] at hfuel
    obtain ⟨fuel, rfl⟩ : ∃ n, fuel = n + 1 := ⟨fuel - 1, by omega⟩
    rw [parseLabelsFrom, if_neg (by simp [renderLabel_ne]), labelRE_renderLabel hname hcomma]
    have hfirst : ∀ rest : List Char, Regex.State.group
        { rest, groups := labelGroups label.1.toList (escapeLabelValue label.2.toList) } 1 =
          label.1.toList := fun _ => rfl
    have hsecond : ∀ rest : List Char, Regex.State.group
        { rest, groups := labelGroups label.1.toList (escapeLabelValue label.2.toList) } 2 =
          escapeLabelValue label.2.toList := fun _ => rfl
    dsimp only
    rw [hfirst, hsecond, unescape_escape, String.ofList_toList, String.ofList_toList,
      dropWhile_separator hnames, List.foldl_cons]
    refine ih hnames ?_
    have hdrop := (List.dropWhile_sublist
      (l := if labels = [] then [] else ',' :: renderLabels labels)
      fun c => c = ' ' || c = ',').length_le
    rw [dropWhile_separator hnames] at hdrop
    omega

/-- The text of labels is trimmed already. -/
theorem strip_renderLabels
    (hnames : ∀ label ∈ labels, IsName isLabelStart isLabelChar label.1.toList) :
    strip (renderLabels labels) = renderLabels labels := by
  refine strip_eq_self ?_ ?_
  · cases labels with
    | nil => exact nofun
    | cons label labels =>
      unfold renderLabels renderLabel
      rw [List.append_assoc]
      refine (hnames label List.mem_cons_self).head _ fun c hc => ?_
      exact (visible_of_nameChar (nameChar_of_labelChar (labelChar_of_labelStart hc))).not_space
  · have hquote : ∀ c ∈ (renderLabels labels).getLast?, c = '"' := by
      clear hnames
      induction labels with
      | nil => exact nofun
      | cons label labels ih =>
        intro c hc
        rw [renderLabels] at hc
        split at hc
        · rw [List.append_nil] at hc
          unfold renderLabel at hc
          simp only [List.getLast?_append, List.getLast?_cons] at hc
          simpa using hc.symm
        · rename_i hne
          rw [List.getLast?_append] at hc
          obtain ⟨next, rest, rfl⟩ := List.exists_cons_of_ne_nil hne
          have hsome : (renderLabels (next :: rest)) ≠ [] := by
            rw [renderLabels]
            simp [renderLabel_ne]
          rw [List.getLast?_cons, List.getLast?_eq_some_getLast hsome] at hc
          exact ih c (by rw [List.getLast?_eq_some_getLast hsome]; simpa using hc)
    intro c hc
    rw [hquote c hc]
    rfl

theorem parseLabelsRelaxed_render
    (hnames : ∀ label ∈ labels, IsName isLabelStart isLabelChar label.1.toList) :
    parseLabelsRelaxed (renderLabels labels) = labelMap labels := by
  unfold parseLabelsRelaxed
  rw [strip_renderLabels hnames]
  exact parseLabelsFrom_render hnames le_rfl

/-- What the text of labels is made of. -/
theorem mem_renderLabels
    (hnames : ∀ label ∈ labels, IsName isLabelStart isLabelChar label.1.toList) {c : Char}
    (hc : c ∈ renderLabels labels) :
    Visible c ∧ c ≠ '}' ∨ ∃ label ∈ labels, c ∈ label.2.toList ∧ c ≠ '\n' := by
  induction labels with
  | nil => cases hc
  | cons label labels ih =>
    obtain ⟨hname, hnames⟩ := List.forall_mem_cons.mp hnames
    rw [renderLabels] at hc
    rcases List.mem_append.mp hc with hc | hc
    · unfold renderLabel at hc
      rcases List.mem_append.mp hc with hc | hc
      · have hlabel := hname.all (fun _ => labelChar_of_labelStart) c hc
        refine .inl ⟨visible_of_nameChar (nameChar_of_labelChar hlabel), ?_⟩
        rintro rfl
        cases hlabel
      simp only [List.mem_cons, List.mem_append, List.not_mem_nil, or_false] at hc
      obtain rfl | rfl | hc | rfl := hc
      · exact .inl (by decide)
      · exact .inl (by decide)
      · obtain ⟨d, hd, hc⟩ := List.mem_flatMap.mp hc
        unfold escapeChar at hc
        split_ifs at hc with hslash hquote hnewline
        all_goals
          simp only [List.mem_cons, List.not_mem_nil, or_false, or_self] at hc
        · exact .inl (by rw [hc]; decide)
        · rcases hc with rfl | rfl
          · exact .inl (by decide)
          · exact .inl (by decide)
        · rcases hc with rfl | rfl
          · exact .inl (by decide)
          · exact .inl (by decide)
        · rw [hc]
          exact .inr ⟨label, List.mem_cons_self, hd, hnewline⟩
      · exact .inl (by decide)
    · split at hc
      · cases hc
      · rcases List.mem_cons.mp hc with rfl | hc
        · exact .inl (by decide)
        · rcases ih hnames hc with hvisible | ⟨other, hother, hmem⟩
          · exact .inl hvisible
          · exact .inr ⟨other, List.mem_cons_of_mem _ hother, hmem⟩

/-- A brace of a value stays in the text of the labels. -/
theorem brace_mem_renderLabels {label : String × String} (hlabel : label ∈ labels)
    (hbrace : '}' ∈ label.2.toList) : '}' ∈ renderLabels labels := by
  induction labels with
  | nil => cases hlabel
  | cons first labels ih =>
    rw [renderLabels]
    rcases List.mem_cons.mp hlabel with rfl | hlabel
    · have hescaped : '}' ∈ escapeLabelValue label.2.toList :=
        List.mem_flatMap.mpr ⟨'}', hbrace, by decide⟩
      refine List.mem_append_left _ ?_
      unfold renderLabel
      simp [hescaped]
    · rw [if_neg (List.ne_nil_of_mem hlabel)]
      exact List.mem_append_right _ (List.mem_cons_of_mem _ (ih hlabel))

end Labels

/-! ## One line -/

theorem braced_head {p : Char → Bool} (body : Option (List Char)) {rest : List Char}
    (hbrace : p '{' = false) (hrest : ∀ c ∈ rest.head?, p c = false) :
    ∀ c ∈ (braced body ++ rest).head?, p c = false := by
  cases body with
  | none => exact hrest
  | some b => exact head?_cons_class hbrace

/-- Braces end at the first closing one. -/
theorem braced_inj {a b : Option (List Char)} {x y : List Char} (ha : ∀ l ∈ a, '}' ∉ l)
    (hb : ∀ l ∈ b, '}' ∉ l) (hx : ∀ c ∈ x.head?, decide (c = '{') = false)
    (hy : ∀ c ∈ y.head?, decide (c = '{') = false) (h : braced a ++ x = braced b ++ y) :
    a = b ∧ x = y := by
  cases a with
  | none =>
    cases b with
    | none => exact ⟨rfl, h⟩
    | some l =>
      have hopen := hx '{' (by rw [show x = _ from h]; rfl)
      cases hopen
  | some k =>
    cases b with
    | none =>
      have hopen := hy '{' (by rw [show y = _ from h.symm]; rfl)
      cases hopen
    | some l =>
      simp only [braced, List.cons_append, List.append_assoc, List.nil_append] at h
      obtain ⟨hkl, hxy⟩ := append_separator_inj (ha k rfl) (hb l rfl) (List.cons.inj h).2
      rw [hkl]
      exact ⟨rfl, hxy⟩

/-- A number does not start with a space. -/
theorem IsNumber.head {value : List Char} (h : IsNumber value) (rest : List Char) :
    ∀ c ∈ (value ++ rest).head?, isspace c = false := by
  rcases h with ⟨hne, hall⟩ | hname
  · obtain ⟨c, cs, rfl⟩ := List.exists_cons_of_ne_nil hne
    exact head?_cons_class (visible_of_numberChar (hall c List.mem_cons_self)).not_space
  · simp only [List.mem_cons, List.not_mem_nil, or_false] at hname
    obtain rfl | rfl | rfl | rfl := hname
    all_goals exact head?_cons_class (by decide)

namespace Sample

omit [Float64 F]

variable {sample : Sample F}

theorem mem_body {c : Char} {b : List Char} (hb : b ∈ sample.body) (hc : c ∈ b) :
    Visible c ∧ c ≠ '}' ∨ ∃ label ∈ sample.labels, c ∈ label.2.toList ∧ c ≠ '\n' := by
  unfold body at hb
  split at hb
  · cases hb
  · cases hb
    exact mem_renderLabels sample.labels_ok hc

theorem body_getD (sample : Sample F) : sample.body.getD [] = renderLabels sample.labels := by
  unfold body
  split
  · rename_i hnil
    rw [hnil]
    rfl
  · rfl

theorem isUnbraced_iff :
    sample.isUnbraced = true ↔ ∀ label ∈ sample.labels, '}' ∉ label.2.toList := by
  unfold isUnbraced
  rw [List.all_eq_true]
  exact forall₂_congr fun _ _ => decide_eq_true_iff

theorem body_unbraced (h : sample.isUnbraced = true) : ∀ b ∈ sample.body, '}' ∉ b := by
  intro b hb hmem
  rcases mem_body hb hmem with ⟨-, hne⟩ | ⟨label, hlabel, hbrace, -⟩
  · exact hne rfl
  · exact isUnbraced_iff.mp h label hlabel hbrace

/-- The regular expression reads the whole line of a sample. -/
theorem reads_line (h : sample.isUnbraced = true) :
    lineRE.Reads sample.line [] (fun _ => none)
      (lineGroups sample.name.toList sample.body sample.value.toList) :=
  reads_lineRE.mpr ⟨sample.name.toList, sample.body, [' '], sample.value.toList, [],
    by rw [List.append_nil]; rfl, sample.name_ok, body_unbraced h,
    ⟨List.cons_ne_nil _ _, List.forall_mem_singleton.mpr rfl⟩, .inl sample.value_ok,
    List.forall_mem_nil _, .inl rfl, rfl⟩

/-- The line of a sample is found with its name, its labels and its number. -/
theorem lineRE_line (h : sample.isUnbraced = true) :
    lineRE.prefixMatch sample.line =
      some
        { rest := []
          groups := lineGroups sample.name.toList sample.body sample.value.toList } := by
  have hunbraced := body_unbraced h
  obtain ⟨hne, hnumber⟩ := sample.value_ok
  have hvalue : IsNumber sample.value.toList := .inl ⟨hne, hnumber⟩
  have hunique := Regex.prefixMatch_eq_some (reads_line h)
  rw [List.append_nil] at hunique
  refine hunique ?_
  intro ys rest g htext hreads'
  obtain ⟨name, b, space, value, tail, rfl, hname', hbody', ⟨hspaceNe, hspace⟩, hvalue', htail,
    hend, rfl⟩ := reads_lineRE.mp hreads'
  unfold line at htext
  simp only [List.append_assoc] at htext
  have hspaceHead : ∀ {p : Char → Bool} (rest : List Char), (∀ c, isspace c = true → p c = false) →
      ∀ c ∈ (space ++ rest).head?, p c = false := by
    intro p rest hp
    obtain ⟨c, cs, rfl⟩ := List.exists_cons_of_ne_nil hspaceNe
    exact head?_cons_class (hp c (hspace c List.mem_cons_self))
  -- The pieces of the line are found one after the other.
  obtain ⟨hsame, h₁⟩ := class_append_inj (p := isNameChar)
    (sample.name_ok.all fun _ => nameChar_of_nameStart) (hname'.all fun _ => nameChar_of_nameStart)
    (braced_head _ (by decide) (head?_cons_class (by decide)))
    (braced_head _ (by decide) (hspaceHead _ fun _ =>
      not_class_of_space fun _ => visible_of_nameChar)) htext
  obtain ⟨rfl, h₂⟩ := braced_inj hunbraced hbody' (head?_cons_class (by decide))
    (hspaceHead _ fun c hc => by
      refine decide_eq_false fun hopen => ?_
      rw [hopen] at hc
      cases hc) h₁
  have h₂ : [' '] ++ (sample.value.toList ++ []) = space ++ (value ++ (tail ++ rest)) := by
    rw [List.append_nil]
    exact h₂
  obtain ⟨-, h₃⟩ := class_append_inj (List.forall_mem_singleton.mpr rfl) hspace (hvalue.head _)
    (hvalue'.head _) h₂
  have hend' : ∀ c ∈ rest.head?, isNumberChar c = false := by
    rcases hend with rfl | rfl
    · exact head?_nil_class
    · exact head?_cons_class rfl
  rcases hvalue' with ⟨-, hnumber'⟩ | hname
  · obtain ⟨hvalue', h₄⟩ := class_append_inj (p := isNumberChar) hnumber hnumber' head?_nil_class
      (head?_append_class
        (fun c hc => not_class_of_space (fun _ => visible_of_numberChar) (htail c hc))
        hend') h₃
    rw [hsame, hvalue']
    exact ⟨(List.append_eq_nil_iff.mp h₄.symm).2, rfl⟩
  · -- No decimal number starts with a letter.
    rw [List.append_nil] at h₃
    rw [h₃] at hnumber
    simp only [List.mem_cons, List.not_mem_nil, or_false] at hname
    obtain rfl | rfl | rfl | rfl := hname
    all_goals cases hnumber _ List.mem_cons_self

/-- A second closing brace is nothing that may follow the first. -/
theorem lineRE_brace (h : sample.isUnbraced = false) : lineRE.prefixMatch sample.line = none := by
  obtain ⟨label, hlabel, hbrace⟩ : ∃ label ∈ sample.labels, '}' ∈ label.2.toList := by
    by_contra hnone
    push Not at hnone
    rw [isUnbraced_iff.mpr hnone] at h
    cases h
  have hmem := brace_mem_renderLabels hlabel hbrace
  have hbody : sample.body = some (renderLabels sample.labels) :=
    if_neg (List.ne_nil_of_mem hlabel)
  cases hfound : lineRE.prefixMatch sample.line with
  | none => rfl
  | some m =>
    obtain ⟨xs, hline, hreads⟩ := Regex.prefixMatch_reads hfound
    obtain ⟨name, body, space, value, tail, hxs, hname, hunbraced, ⟨-, hspace⟩, hvalue, htail, hend,
      -⟩ := reads_lineRE.mp hreads
    have hnone : ∀ {l : List Char}, '}' ∉ l → l.count '}' = 0 := List.count_eq_zero_of_not_mem
    have hvalue : '}' ∉ value := by
      rcases hvalue with ⟨-, hnumber⟩ | hname
      · exact fun hmem => Bool.false_ne_true (hnumber _ hmem)
      · simp only [List.mem_cons, List.not_mem_nil, or_false] at hname
        obtain rfl | rfl | rfl | rfl := hname
        all_goals decide
    have hfew : sample.line.count '}' ≤ 1 := by
      rw [hline, hxs]
      simp only [List.count_append]
      rw [hnone fun hmem => Bool.false_ne_true (hname.all (fun _ => nameChar_of_nameStart) _ hmem),
        hnone fun hmem => Bool.false_ne_true (hspace _ hmem), hnone hvalue,
        hnone fun hmem => Bool.false_ne_true (htail _ hmem)]
      have hrest : m.rest.count '}' = 0 := hnone (by rcases hend with hend | hend <;> simp [hend])
      have hbraced : (braced body).count '}' ≤ 1 := by
        cases body with
        | none => exact Nat.zero_le _
        | some b =>
          have := hnone (hunbraced b rfl)
          simp only [braced, List.count_cons, List.count_append, List.count_nil]
          simp [this]
      omega
    have hmany : 2 ≤ sample.line.count '}' := by
      have := List.count_pos_iff.mpr hmem
      unfold line
      rw [hbody]
      simp only [braced, List.count_cons, List.count_append, List.count_nil]
      simp only [beq_self_eq_true, if_true]
      omega
    omega

/-- No sample has an empty line, a comment or a line with spaces around it. -/
theorem strip_line (sample : Sample F) :
    strip sample.line = sample.line ∧ sample.line ≠ [] ∧ sample.line.head? ≠ some '#' := by
  obtain ⟨hne, hnumber⟩ := sample.value_ok
  have hstart : ∀ c ∈ sample.line.head?, isspace c = false :=
    sample.name_ok.head _ fun c hc => (visible_of_nameChar (nameChar_of_nameStart hc)).not_space
  refine ⟨strip_eq_self hstart fun c hc => ?_, ?_, ?_⟩
  · have hline : sample.line =
        sample.name.toList ++ (braced sample.body ++ [' ']) ++ sample.value.toList := by
      unfold line
      simp only [List.append_assoc, List.singleton_append]
    rw [hline, List.getLast?_append_of_ne_nil _ hne] at hc
    exact (visible_of_numberChar (hnumber c (List.mem_of_getLast? hc))).not_space
  · obtain ⟨c, cs, hname, -, -⟩ := sample.name_ok
    unfold line
    rw [hname]
    exact List.cons_ne_nil _ _
  · obtain ⟨c, cs, hname, hc, -⟩ := sample.name_ok
    unfold line
    rw [hname]
    rintro ⟨rfl⟩
    cases hc

/-- A line without a brace in a label value is read as its sample, one with a brace not at all. -/
theorem readLine_line (sample : Sample F) :
    readLine sample.line =
      if sample.isUnbraced then
        some
          { name := sample.name
            labels := labelMap sample.labels
            value := sample.value }
      else none := by
  obtain ⟨hstrip, hne, hcomment⟩ := sample.strip_line
  unfold readLine
  rw [hstrip]
  dsimp only
  rw [if_neg (not_or.mpr ⟨hne, hcomment⟩)]
  by_cases hunbraced : sample.isUnbraced = true
  · have hsecond : Regex.State.group
        { rest := []
          groups := lineGroups sample.name.toList sample.body sample.value.toList } 2 =
            renderLabels sample.labels := sample.body_getD
    rw [lineRE_line hunbraced, if_pos hunbraced, Option.map_some, hsecond,
      parseLabelsRelaxed_render sample.labels_ok]
    unfold Regex.State.group lineGroups
    simp only [OfNat.one_ne_ofNat, if_true, if_false, Option.getD_some, String.ofList_toList]
  · rw [lineRE_brace (eq_false_of_ne_true hunbraced), if_neg hunbraced, Option.map_none]

/-- A line has no end of a line but in a label value. -/
theorem line_noBreak (h : sample.OneLine) : ∀ c ∈ sample.line, isLineBreak c = false := by
  have hbody : ∀ b ∈ sample.body, ∀ c ∈ b, isLineBreak c = false := by
    intro b hb c hc
    rcases mem_body hb hc with ⟨hvisible, -⟩ | ⟨label, hlabel, hmem, hnewline⟩
    · exact hvisible.not_break
    · by_contra hbreak
      exact hnewline (h label hlabel c hmem (eq_true_of_ne_false hbreak))
  intro c hc
  unfold line at hc
  rcases List.mem_append.mp hc with hc | hc
  · exact (visible_of_nameChar
      (sample.name_ok.all (fun _ => nameChar_of_nameStart) c hc)).not_break
  rcases List.mem_append.mp hc with hc | hc
  · cases hsome : sample.body with
    | none =>
      rw [hsome] at hc
      cases hc
    | some b =>
      rw [hsome] at hc
      simp only [braced, List.mem_cons, List.mem_append, List.not_mem_nil, or_false] at hc
      obtain rfl | hc | rfl := hc
      · rfl
      · exact hbody b hsome c hc
      · rfl
  · rcases List.mem_cons.mp hc with rfl | hc
    · rfl
    · exact (visible_of_numberChar (sample.value_ok.2 c hc)).not_break

/-- The parser compares a filter with the labels of the sample. -/
theorem labelsMatch_labelMap (sample : Sample F) (labelFilter : Option LabelFilter) :
    labelFilter.all (labelsMatch (labelMap sample.labels)) = sample.isSelected labelFilter := by
  cases labelFilter with
  | none => rfl
  | some filt =>
    unfold isSelected labelsMatch
    simp only [Option.all_some]
    congr 1
    funext item
    exact decide_eq_decide.mpr (lookup_labelMap sample.labels_nodup)

end Sample

/-! ## The sums -/

section Sums

variable {samples : List (Sample F)} {labelFilter : Option LabelFilter}

/-- Samples of one line each: those that are selected and have no brace are added up. -/
theorem parse_render (hlines : ∀ sample ∈ samples, sample.OneLine) :
    parsePrometheusTextRelaxedLines (render samples) labelFilter =
      Grouping.tally (·.name) (fun _ => ofInt 0) (fun (sum : F) sample => sum + sample.number) ∅
        ((samples.filter (·.isSelected labelFilter)).filter (·.isUnbraced)) := by
  have hbreaks : ∀ line ∈ samples.map (·.line), ∀ c ∈ line, isLineBreak c = false := by
    intro line hline
    obtain ⟨sample, hsample, rfl⟩ := List.mem_map.mp hline
    exact sample.line_noBreak (hlines sample hsample)
  unfold parsePrometheusTextRelaxedLines render Grouping.tally
  rw [splitlines_lines hbreaks, List.foldl_map, List.filter_filter, List.foldl_filter]
  refine List.foldl_ext _ _ _ fun out sample _ => ?_
  rw [sample.readLine_line]
  by_cases hunbraced : sample.isUnbraced = true
  · rw [if_pos hunbraced, hunbraced, Bool.true_and]
    dsimp only [addReading]
    rw [sample.labelsMatch_labelMap, sample.number_ok]
  · rw [if_neg hunbraced, eq_false_of_ne_true hunbraced, Bool.false_and]
    rfl

theorem lookup_parse_render (hlines : ∀ sample ∈ samples, sample.OneLine) (name : String) :
    (parsePrometheusTextRelaxedLines (F := F) (render samples) labelFilter).lookup name =
      sumOf name ((samples.filter (·.isSelected labelFilter)).filter (·.isUnbraced)) := by
  rw [parse_render hlines]
  exact Grouping.lookup_tally _ name

/-- A filter by a value that no line can have selects nothing. -/
theorem parse_lost {text : List Char} {k v : String} {c : Char} (hc : c ∈ v.toList)
    (hlost : ¬ Kept c) :
    parsePrometheusTextRelaxedLines (F := F) text (some [(k, v)]) = ∅ := by
  unfold parsePrometheusTextRelaxedLines
  refine List.foldlRecOn (splitlines text) _ (motive := fun out : Metrics F => out = ∅) rfl ?_
  rintro _ rfl raw hraw
  split
  · rename_i reading hread
    have hlookup : reading.labels.lookup k ≠ some v := fun hlookup =>
      hlost (readLine_chars hread (splitlines_noBreak raw hraw) k v hlookup c hc)
    dsimp only [addReading]
    rw [if_neg]
    simp [labelsMatch, hlookup]
  · rfl

end Sums

/-- **What the relaxed parser keeps, exactly.** It returns the right sums for every filter if and
only if no label value holds a `}` or the end of a line; and where none ends a line, the sums for a
filter are right if and only if the selected samples with a `}` change none of them. -/
theorem relaxed_lines_keep_samples (samples : List (Sample F)) :
    ((∀ labelFilter, ReadsSums samples labelFilter) ↔
      ∀ sample ∈ samples, ∀ label ∈ sample.labels, ∀ c ∈ label.2.toList, Kept c) ∧
    ∀ labelFilter, (∀ sample ∈ samples, sample.OneLine) →
      (ReadsSums samples labelFilter ↔ ∀ name,
        sumOf name ((samples.filter (·.isSelected labelFilter)).filter (·.isUnbraced)) =
          sumOf name (samples.filter (·.isSelected labelFilter))) := by
  have hexact : ∀ labelFilter, (∀ sample ∈ samples, sample.OneLine) →
      (ReadsSums samples labelFilter ↔ ∀ name,
        sumOf name ((samples.filter (·.isSelected labelFilter)).filter (·.isUnbraced)) =
          sumOf name (samples.filter (·.isSelected labelFilter))) := by
    intro labelFilter hlines
    unfold ReadsSums
    simp only [lookup_parse_render hlines]
  refine ⟨⟨fun hreads sample hsample label hlabel c hc => ?_, fun hkept labelFilter => ?_⟩, hexact⟩
  · -- The filter by this label selects the sample, but no line that is read.
    by_contra hlost
    have hnone := hreads (some [(label.1, label.2)]) sample.name
    have hselected : sample ∈ samples.filter (·.isSelected (some [(label.1, label.2)])) := by
      refine List.mem_filter.mpr ⟨hsample, ?_⟩
      simpa [Sample.isSelected] using hlabel
    rw [parse_lost hc hlost, AList.lookup_empty, sumOf,
      if_pos (List.mem_map.mpr ⟨sample, hselected, rfl⟩)] at hnone
    cases hnone
  · have hlines : ∀ sample ∈ samples, sample.OneLine := fun sample hsample label hlabel c hc =>
      (hkept sample hsample label hlabel c hc).2
    refine (hexact labelFilter hlines).mpr fun name => ?_
    rw [List.filter_eq_self.mpr fun sample hsample => ?_]
    exact Sample.isUnbraced_iff.mpr fun label hlabel hbrace =>
      (hkept sample (List.mem_filter.mp hsample).1 label hlabel _ hbrace).1 rfl

namespace RelaxedSample

local instance : Float64 Rat := .rational id

/-- Whole numbers of one digit. -/
local instance : PyNumber Rat where
  floatOfText text :=
    match text.toList with
    | [c] => if c.isDigit then some (c.toNat - 48 : Nat) else none
    | _ => none
  intOfText _ := none
  trunc x := x.floor

example :
    (parsePrometheusTextRelaxedLines (F := Rat)
      "m\x7ba=\"x,\\\"\"\x7d 1\nm\x7ba=\"y\"\x7d 2\n".toList
      (some [("a", "x,\"")])).lookup "m" = some 1 := by
  decide +kernel

theorem name_m : IsName isNameStart isNameChar "m".toList :=
  ⟨'m', [], rfl, rfl, List.forall_mem_nil _⟩

theorem label_path : IsName isLabelStart isLabelChar "path".toList :=
  ⟨'p', ['a', 't', 'h'], rfl, rfl, List.all_eq_true.mp rfl⟩

theorem number_one : PyNumber.floatOfText "1" = some (1 : Rat) := by
  decide +kernel

/-- `m{path="/v1/{id}"} 1`. -/
def templated : Sample Rat where
  name := "m"
  labels := [("path", "/v1/\x7bid\x7d")]
  value := "1"
  number := 1
  name_ok := name_m
  labels_ok := List.forall_mem_singleton.mpr label_path
  labels_nodup := List.nodup_singleton _
  value_ok := ⟨List.cons_ne_nil _ _, List.all_eq_true.mp rfl⟩
  number_ok := number_one

/-- The line of a label with a template is dropped. -/
theorem templated_lost : ¬ ReadsSums [templated] none := by
  intro h
  have hnone : (parsePrometheusTextRelaxedLines (F := Rat) (render [templated]) none).lookup "m" =
      none := by
    decide +kernel
  rw [h "m"] at hnone
  cases hnone

end RelaxedSample

end Kavora.Exporter
