import Mathlib.Data.List.Sort
import Mathlib.Data.String.Basic
import Kavora.Lib.JsonSyntax

/-!
# `json.dumps` of Python

* `Json.dumps`: the text with sorted keys and without white space, where each character beyond ASCII
  is escaped.
* `Json.dumps_first`: the text of an object starts with its least key.
-/

namespace Kavora.Lib

/-- `float.__repr__`. -/
class PyRepr (F : Type) where
  repr : F → List Char

namespace Json

/-- A character in a string, with `ensure_ascii`. -/
def pyEscapeChar (c : Char) : List Char :=
  if c = '"' then ['\\', '"']
  else if c = '\\' then ['\\', '\\']
  else if c.toNat = 8 then ['\\', 'b']
  else if c.toNat = 9 then ['\\', 't']
  else if c.toNat = 10 then ['\\', 'n']
  else if c.toNat = 12 then ['\\', 'f']
  else if c.toNat = 13 then ['\\', 'r']
  else if 0x20 ≤ c.toNat ∧ c.toNat < 0x7F then [c]
  else if c.toNat < 0x10000 then escapeUnit c.toNat
  else
    escapeUnit (0xD800 + (c.toNat - 0x10000) / 0x400) ++
      escapeUnit (0xDC00 + (c.toNat - 0x10000) % 0x400)

/-- A string as `json.dumps` writes it. -/
def pyQuote (s : String) : List Char := '"' :: (s.toList.flatMap pyEscapeChar ++ ['"'])

/-- Texts with commas between them. -/
def commas (texts : List (List Char)) : List Char := [','].intercalate texts

/-- `sort_keys`. -/
def sortItems (items : List (String × List Char)) : List (String × List Char) :=
  items.insertionSort fun item item' => item.1 ≤ item'.1

mutual

/-- `json.dumps(value, sort_keys=True, separators=(",", ":"))`. -/
def dumps : Json → List Char
  | .null => ['n', 'u', 'l', 'l']
  | .bool true => ['t', 'r', 'u', 'e']
  | .bool false => ['f', 'a', 'l', 's', 'e']
  | .number text => text.toList
  | .string s => pyQuote s.text
  | .array values => '[' :: (commas (dumpsValues values) ++ [']'])
  | .object ms =>
    '{' :: (commas ((sortItems (dumpsItems ms)).map fun item => pyQuote item.1 ++ ':' :: item.2) ++
      ['}'])

/-- The texts of some values. -/
def dumpsValues : List Json → List (List Char)
  | [] => []
  | v :: vs => dumps v :: dumpsValues vs

/-- The keys with the texts of their values. -/
def dumpsItems : List (JsonText × Json) → List (String × List Char)
  | [] => []
  | (name, v) :: ms => (name.text, dumps v) :: dumpsItems ms

end

theorem map_dumpsItems (ms : List (JsonText × Json)) :
    (dumpsItems ms).map (·.1) = ms.map (·.1.text) := by
  induction ms with
  | nil => rfl
  | cons m ms ih =>
    obtain ⟨name, v⟩ := m
    rw [dumpsItems, List.map_cons, ih, List.map_cons]

/-- The least key comes first. -/
theorem sortItems_first {items : List (String × List Char)} {key : String}
    (hmem : key ∈ items.map (·.1)) (hleast : ∀ key' ∈ items.map (·.1), key ≤ key') :
    ∃ text rest, sortItems items = (key, text) :: rest := by
  have hperm : (sortItems items).Perm items := List.perm_insertionSort _ items
  have hsorted : (sortItems items).Pairwise fun item item' => item.1 ≤ item'.1 :=
    List.pairwise_insertionSort _ items
  obtain ⟨item, hitem, rfl⟩ := List.mem_map.mp hmem
  have hitem := hperm.mem_iff.mpr hitem
  cases hsort : sortItems items with
  | nil =>
    rw [hsort] at hitem
    cases hitem
  | cons first rest =>
    rw [hsort] at hitem hsorted hperm
    have hfirst : first.1 ≤ item.1 := by
      rcases List.mem_cons.mp hitem with rfl | hitem
      · exact le_refl _
      · exact (List.pairwise_cons.mp hsorted).1 item hitem
    have hleast := hleast first.1
      (List.mem_map_of_mem (hperm.mem_iff.mp List.mem_cons_self))
    refine ⟨first.2, rest, ?_⟩
    rw [le_antisymm hleast hfirst]

theorem dumps_first {ms : List (JsonText × Json)} {key : String} (hmem : key ∈ ms.map (·.1.text))
    (hleast : ∀ key' ∈ ms.map (·.1.text), key ≤ key') :
    ∃ rest, dumps (.object ms) = '{' :: (pyQuote key ++ rest) := by
  rw [← map_dumpsItems] at hmem hleast
  obtain ⟨text, items, hitems⟩ := sortItems_first hmem hleast
  rw [dumps, hitems, List.map_cons]
  cases items with
  | nil =>
    refine ⟨':' :: text ++ ['}'], ?_⟩
    simp [commas]
  | cons item items =>
    refine ⟨':' :: text ++ ',' :: (commas ((item :: items).map fun item =>
      pyQuote item.1 ++ ':' :: item.2) ++ ['}']), ?_⟩
    simp [commas, List.intercalate]

end Json

end Kavora.Lib
