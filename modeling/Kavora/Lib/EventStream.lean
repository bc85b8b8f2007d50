import Kavora.Lib.Bytes

/-!
# The event-stream format

What a conforming reader of a `text/event-stream` dispatches: a leading byte order mark is dropped,
a line ends at a line feed, a carriage return or both, a blank line dispatches the data collected so
far, and the value of a `data` field is a line of the data. A line that does not end, and data
without a blank line after them, are discarded.

* `payloads`: the data of the dispatched events.
* `lines_append`: the format is read line by line.
* `dispatch_group`: lines with at most one group of data and a blank line at the end dispatch that
  group.
-/

namespace Kavora.Lib.EventStream

/-- The byte order mark. -/
def bom : Bytes := [0xEF, 0xBB, 0xBF]

/-- The lines of the input that end, after `current` of the first line. `afterCr` says that the
last byte was a carriage return, which ends its line together with a line feed after it. -/
def lines (afterCr : Bool) (current : Bytes) : Bytes → List Bytes
  | [] => []
  | b :: l =>
    if b = lf then
      if afterCr then lines false current l else current :: lines false [] l
    else if b = cr then current :: lines true [] l
    else lines false (current ++ [b]) l

/-- The value of a line that is a `data` field: after the colon and one space, or nothing in a line
without a colon. -/
def dataField (line : Bytes) : Option Bytes :=
  let name := line.takeWhile (· ≠ 0x3A)
  if name ≠ utf8 "data" then none
  else
    let value := (line.drop (name.length + 1))
    some ((stripPrefix [0x20] value).getD value)

/-- The lines of the data so far, and the data of the dispatched events. -/
structure Reader where
  data : List Bytes
  payloads : List Bytes
  deriving DecidableEq, Repr

namespace Reader

/-- A line adds to the open event, or ends it. -/
def line (self : Reader) (line : Bytes) : Reader :=
  if line = [] then
    if self.data = [] then self
    else { data := [], payloads := self.payloads ++ [[lf].intercalate self.data] }
  else match dataField line with
  | some value => { self with data := self.data ++ [value] }
  | none => self

end Reader

/-- The data of the events that a reader dispatches. -/
def payloads (stream : Bytes) : List Bytes :=
  let stream := (stripPrefix bom stream).getD stream
  ((lines false [] stream).foldl Reader.line { data := [], payloads := [] }).payloads

/-! ## Line by line -/

theorem lines_append {l : Bytes} (hl : l.getLast? = some lf) (rest : Bytes) (afterCr : Bool)
    (current : Bytes) (h : afterCr = true → current = []) :
    lines afterCr current (l ++ rest) = lines afterCr current l ++ lines false [] rest := by
  induction l generalizing afterCr current with
  | nil => simp at hl
  | cons b l ih =>
    rw [List.cons_append, lines, lines]
    by_cases hlf : b = lf
    · rw [if_pos hlf, if_pos hlf]
      cases l with
      | nil =>
        cases afterCr with
        | false => simp [lines]
        | true => simp [lines, h rfl]
      | cons b' l =>
        have hl' : (b' :: l).getLast? = some lf := by simpa using hl
        cases afterCr with
        | false =>
          simp only [Bool.false_eq_true, if_false]
          rw [ih hl' false [] nofun]
          rfl
        | true => exact ih hl' false current nofun
    · cases l with
      | nil => simp [hlf] at hl
      | cons b' l =>
        have hl' : (b' :: l).getLast? = some lf := by simpa using hl
        rw [if_neg hlf, if_neg hlf]
        by_cases hcr : b = cr
        · rw [if_pos hcr, if_pos hcr, ih hl' true [] fun _ => rfl]
          rfl
        · rw [if_neg hcr, if_neg hcr, ih hl' false _ nofun]

/-- The bytes of the lines are bytes of the input other than line ends. -/
theorem mem_lines {l : Bytes} {afterCr : Bool} {current line : Bytes} {b : UInt8}
    (hline : line ∈ lines afterCr current l) (hb : b ∈ line) : b ∈ current ∨ b ∈ l ∧ b ≠ cr := by
  induction l generalizing afterCr current with
  | nil => cases hline
  | cons c l ih =>
    rw [lines] at hline
    by_cases hlf : c = lf
    · rw [if_pos hlf] at hline
      cases afterCr with
      | true => exact (ih hline).imp_right fun h => ⟨List.mem_cons_of_mem _ h.1, h.2⟩
      | false =>
        rcases List.mem_cons.mp hline with rfl | hline
        · exact .inl hb
        · have h := (ih hline).resolve_left List.not_mem_nil
          exact .inr ⟨List.mem_cons_of_mem _ h.1, h.2⟩
    · rw [if_neg hlf] at hline
      by_cases hcr : c = cr
      · rw [if_pos hcr] at hline
        rcases List.mem_cons.mp hline with rfl | hline
        · exact .inl hb
        · have h := (ih hline).resolve_left List.not_mem_nil
          exact .inr ⟨List.mem_cons_of_mem _ h.1, h.2⟩
      · rw [if_neg hcr] at hline
        rcases ih hline with h | h
        · rcases List.mem_append.mp h with h | h
          · exact .inl h
          · rw [List.mem_singleton.mp h]
            exact .inr ⟨List.mem_cons_self, hcr⟩
        · exact .inr ⟨List.mem_cons_of_mem _ h.1, h.2⟩

/-- Every carriage return is followed by a line feed. -/
def crlfOnly : Bytes → Bool
  | [] => true
  | b :: l => (b ≠ cr || l.head? = some lf) && crlfOnly l

theorem stripLineEnd_cons {b : UInt8} {line : Bytes} (hb : b ≠ cr)
    (hline : line.getLast? = some lf) : stripLineEnd (b :: line) = b :: stripLineEnd line := by
  have hne : line ≠ [] := by rintro rfl; simp at hline
  have hlast : (b :: line).getLast? = some lf := by
    cases line with
    | nil => exact absurd rfl hne
    | cons b' line => simpa using hline
  rw [stripLineEnd, stripLineEnd, stripSuffix, stripSuffix, if_pos hline, if_pos hlast,
    List.dropLast_cons_of_ne_nil hne]
  dsimp only
  cases hd : line.dropLast with
  | nil => simp [stripSuffix, hb]
  | cons c rest =>
    simp only [stripSuffix, List.getLast?_cons_cons]
    split <;> simp

theorem splitInclusive_cons {b : UInt8} {l c : Bytes} {cs : List Bytes} (hb : b ≠ lf)
    (h : splitInclusive l = c :: cs) : splitInclusive (b :: l) = (b :: c) :: cs := by
  rw [splitInclusive, if_neg hb, h]

/-- A text that ends with a line feed is split into lines that do. -/
theorem splitInclusive_getLast {l c : Bytes} {cs : List Bytes} (hl : l.getLast? = some lf)
    (h : splitInclusive l = c :: cs) : c.getLast? = some lf := by
  induction l generalizing c with
  | nil => simp at hl
  | cons b l ih =>
    by_cases hb : b = lf
    · rw [splitInclusive, if_pos hb] at h
      cases h
      simp [hb]
    · cases l with
      | nil => simp [hb] at hl
      | cons b' l =>
        have hl' : (b' :: l).getLast? = some lf := by simpa using hl
        cases hs : splitInclusive (b' :: l) with
        | nil =>
          have := flatten_splitInclusive (b' :: l)
          simp [hs] at this
        | cons c' cs' =>
          rw [splitInclusive_cons hb hs] at h
          cases h
          have := ih hl' hs
          cases c' with
          | nil => simp at this
          | cons x c' => simpa using this

theorem ends_tail {b : UInt8} {l : Bytes} (h : (b :: l).getLast? = some lf) :
    l = [] ∨ l.getLast? = some lf := by
  cases l with
  | nil => exact .inl rfl
  | cons b' l => exact .inr (by simpa using h)

/-- Where carriage returns only stand before line feeds, the lines are those of `str::lines`. -/
theorem lines_eq_strLines {l : Bytes} (hl : l = [] ∨ l.getLast? = some lf)
    (hcrlf : crlfOnly l = true) (current : Bytes) : lines false current l =
      match splitInclusive l with
      | [] => []
      | c :: cs => (current ++ stripLineEnd c) :: cs.map stripLineEnd := by
  induction hn : l.length using Nat.strongRecOn generalizing l current with
  | _ n ih =>
    cases l with
    | nil => rfl
    | cons b l =>
      rw [crlfOnly, Bool.and_eq_true] at hcrlf
      have hl' := ends_tail (hl.resolve_left (List.cons_ne_nil _ _))
      rw [lines]
      by_cases hlf : b = lf
      · have htail := ih l.length (by simp only [← hn, List.length_cons]; omega) hl' hcrlf.2 [] rfl
        rw [if_pos hlf, splitInclusive, if_pos hlf, htail]
        simp only [Bool.false_eq_true, if_false, hlf]
        have hend : stripLineEnd [lf] = [] := by decide
        rw [hend, List.append_nil]
        cases splitInclusive l with
        | nil => rfl
        | cons c cs => simp
      · rw [if_neg hlf]
        by_cases hcr : b = cr
        · cases l with
          | nil => simp [hcr] at hcrlf
          | cons b' l =>
            obtain rfl : b' = lf := by simpa [hcr] using hcrlf.1
            have hcrlf' : crlfOnly l = true := by
              have := hcrlf.2
              rw [crlfOnly, Bool.and_eq_true] at this
              exact this.2
            have htail := ih l.length (by simp only [← hn, List.length_cons]; omega)
              (ends_tail (hl'.resolve_left (List.cons_ne_nil _ _))) hcrlf' [] rfl
            have hsplit : splitInclusive (lf :: l) = [lf] :: splitInclusive l := by
              rw [splitInclusive, if_pos rfl]
            rw [if_pos hcr, splitInclusive_cons hlf hsplit, lines, if_pos rfl, if_pos rfl, htail]
            have hend : stripLineEnd [b, lf] = [] := by rw [hcr]; decide
            dsimp only
            rw [hend, List.append_nil]
            cases splitInclusive l with
            | nil => rfl
            | cons c cs => simp
        · have hlast : l.getLast? = some lf := hl'.resolve_left fun hnil => by simp_all
          have htail := ih l.length (by simp only [← hn, List.length_cons]; omega) hl' hcrlf.2
            (current ++ [b]) rfl
          rw [if_neg hcr, htail]
          cases hs : splitInclusive l with
          | nil =>
            have := flatten_splitInclusive l
            rw [hs] at this
            simp [← this] at hlast
          | cons c cs =>
            rw [splitInclusive_cons hlf hs]
            dsimp only
            rw [stripLineEnd_cons hcr (splitInclusive_getLast hlast hs), List.append_assoc]
            rfl

/-! ## One group of data -/

/-- No blank line stands between two lines with data. -/
def OneGroup (lines : List Bytes) : Prop :=
  ∀ before after, lines = before ++ [] :: after →
    before.filterMap dataField = [] ∨ after.filterMap dataField = []

theorem dataField_nil : dataField [] = none := by decide

theorem OneGroup.tail {line : Bytes} {lines : List Bytes} (h : OneGroup (line :: lines)) :
    OneGroup lines := by
  intro before after heq
  refine (h (line :: before) after (by rw [heq]; rfl)).imp_left fun hnil => ?_
  cases hd : dataField line with
  | none => rwa [List.filterMap_cons_none hd] at hnil
  | some v => rw [List.filterMap_cons_some hd] at hnil; cases hnil

/-- Lines with one group of data, then a blank line: the group is dispatched. `data` are the lines
of the group so far, and nothing is left of it. -/
theorem dispatch_group {lines : List Bytes} (data payloads : List Bytes) (h : OneGroup lines)
    (hdata : data ≠ [] → ∀ before after, lines = before ++ [] :: after →
      after.filterMap dataField = []) :
    (lines ++ [[]]).foldl Reader.line { data, payloads } =
      { data := []
        payloads := payloads ++
          if data ++ lines.filterMap dataField = [] then []
          else [[lf].intercalate (data ++ lines.filterMap dataField)] } := by
  induction lines generalizing data payloads with
  | nil =>
    by_cases hd : data = []
    · simp [Reader.line, hd]
    · simp [Reader.line, hd]
  | cons line lines ih =>
    rw [List.cons_append, List.foldl_cons]
    by_cases hline : line = []
    · subst hline
      rw [List.filterMap_cons_none dataField_nil]
      by_cases hd : data = []
      · subst hd
        exact ih [] payloads h.tail nofun
      · have hnone := hdata hd [] lines rfl
        have hstep := ih [] (payloads ++ [[lf].intercalate data]) h.tail nofun
        rw [hnone] at hstep ⊢
        simpa [Reader.line, hd] using hstep
    · cases hv : dataField line with
      | none =>
        have hread : Reader.line { data, payloads } line = { data, payloads } := by
          simp [Reader.line, hline, hv]
        rw [hread, List.filterMap_cons_none hv]
        exact ih data payloads h.tail fun hd before after heq => hdata hd (line :: before) after (by rw [heq]; rfl)
      | some v =>
        have hread : Reader.line { data, payloads } line = { data := data ++ [v], payloads } := by
          simp [Reader.line, hline, hv]
        rw [hread, List.filterMap_cons_some hv]
        have hstep := ih (data ++ [v]) payloads h.tail
          fun _ before after heq => ?_
        · simpa using hstep
        · refine (h (line :: before) after (by rw [heq]; rfl)).resolve_left ?_
          rw [List.filterMap_cons_some hv]
          simp

/-- Lines without data dispatch nothing when there is no data before them. -/
theorem dispatch_nothing {lines : List Bytes} (payloads : List Bytes)
    (h : ∀ line ∈ lines, dataField line = none) :
    lines.foldl Reader.line { data := [], payloads } = { data := [], payloads } := by
  induction lines with
  | nil => rfl
  | cons line lines ih =>
    have hread : Reader.line { data := [], payloads } line = { data := [], payloads } := by
      simp [Reader.line, h line List.mem_cons_self]
    rw [List.foldl_cons, hread, ih fun l hl => h l (List.mem_cons_of_mem _ hl)]

end Kavora.Lib.EventStream
