/-
**What the services rely on about `serde_json`.**

A document is printed into a text of the store or of a message and parsed back. The parser follows at
most 127 levels of arrays and objects; what it has parsed has no more.

* `Ordered`, `JsonLaws` — the documents of a number of levels, and the law.
* `printValue`, `printValue_append` — the text of a document, which can be told from what follows it.
* `printedJson`, `printed_laws` — a serializer and its parser, for which the law holds.
-/

import CloudTwin.External
import CloudTwin.Lib.JsonText

namespace CloudTwin

open Lib Lib.Text Lib.JsonText

/-! ### Documents that are read back -/

/-- A document with so many levels at most: without numbers of JSON, the keys of an object in order. -/
inductive Ordered : Nat → Json → Prop
  | null {levels : Nat} : Ordered levels .null
  | bool {levels : Nat} (value : Bool) : Ordered levels (.bool value)
  | str {levels : Nat} (text : String) : Ordered levels (.str text)
  | arr {levels : Nat} (items : List Json) (values : ∀ item ∈ items, Ordered levels item) :
      Ordered (levels + 1) (.arr items)
  | obj {levels : Nat} (members : List (String × Json))
      (keys : (members.map Prod.fst).Pairwise (· < ·))
      (values : ∀ member ∈ members, Ordered levels member.2) : Ordered (levels + 1) (.obj members)

/-- A document that the parser accepts. -/
abbrev Parsed (value : Json) : Prop := Ordered 127 value

/-- **What the services rely on about `serde_json`**: a document that is printed is read back, if it
has no more levels than the parser follows. -/
structure JsonLaws (external : External) : Prop where
  reads : ∀ value, Parsed value → external.jsonFromStr (external.jsonToString value) = some value

theorem Ordered.succ {levels : Nat} {value : Json} (ordered : Ordered levels value) :
    Ordered (levels + 1) value := by
  induction ordered with
  | null => exact .null
  | bool value => exact .bool value
  | str text => exact .str text
  | arr items _ ih => exact .arr items ih
  | obj members keys _ ih => exact .obj members keys ih

theorem Ordered.mono {few many : Nat} (less : few ≤ many) {value : Json}
    (ordered : Ordered few value) : Ordered many value := by
  induction less with
  | refl => exact ordered
  | step _ ih => exact ih.succ

/-- What stands in an object has fewer levels. -/
theorem Ordered.get {levels : Nat} {value held : Json} {name : String}
    (ordered : Ordered (levels + 1) value) (found : value.get name = some held) :
    Ordered levels held := by
  cases ordered with
  | obj members _ values =>
    have found : members.lookup name = some held := found
    obtain ⟨before, after, split, _⟩ := List.lookup_eq_some_iff.mp found
    exact values (name, held) (by rw [split]; simp)
  | _ => cases found

theorem printed_injective [External] (laws : JsonLaws ‹External›) {value other : Json}
    (parsed : Parsed value) (otherParsed : Parsed other)
    (same : External.jsonToString value = External.jsonToString other) : value = other := by
  have read := laws.reads value parsed
  rw [same, laws.reads other otherParsed] at read
  exact (Option.some.inj read).symm

/-! ### A serializer -/

mutual

def printValue : Json → List Char
  | .null => ['n', 'u', 'l', 'l']
  | .bool true => ['t', 'r', 'u', 'e']
  | .bool false => ['f', 'a', 'l', 's', 'e']
  | .num value => (toString value).toList
  | .float text => text.toList
  | .str text => quoted text.toList
  | .arr items => '[' :: printItems items
  | .obj members => '{' :: printMembers members

def printItems : List Json → List Char
  | [] => [']']
  | item :: rest => printValue item ++ moreItems rest

def moreItems : List Json → List Char
  | [] => [']']
  | item :: rest => ',' :: (printValue item ++ moreItems rest)

def printMembers : List (String × Json) → List Char
  | [] => ['}']
  | (name, value) :: rest => quoted name.toList ++ ':' :: (printValue value ++ moreValues rest)

def moreValues : List (String × Json) → List Char
  | [] => ['}']
  | (name, value) :: rest =>
    ',' :: (quoted name.toList ++ ':' :: (printValue value ++ moreValues rest))

end

/-- A value does not begin like the end of a list. -/
theorem printValue_begins {levels : Nat} {value : Json} (ordered : Ordered levels value) :
    ∃ char chars, printValue value = char :: chars ∧ char ≠ ']' := by
  cases ordered with
  | null => exact ⟨_, _, rfl, by decide⟩
  | bool value => cases value <;> exact ⟨_, _, rfl, by decide⟩
  | str text => exact ⟨_, _, rfl, by decide⟩
  | arr items => exact ⟨_, _, rfl, by decide⟩
  | obj members => exact ⟨_, _, rfl, by decide⟩

mutual

/-- **A value can be told from what follows its text.** -/
theorem printValue_append : ∀ value other : Json, ∀ {levels many : Nat}, Ordered levels value →
    Ordered many other → ∀ rest tail, printValue value ++ rest = printValue other ++ tail → value = other ∧ rest = tail
  | .null, other, _, _, _, ordered, rest, tail, same => by
    cases ordered with
    | null => simpa [printValue] using same
    | bool value => cases value <;> simp [printValue] at same
    | _ => simp [printValue, quoted] at same
  | .bool value, other, _, _, _, ordered, rest, tail, same => by
    cases ordered with
    | bool another => cases value <;> cases another <;> simp_all [printValue]
    | _ => cases value <;> simp [printValue, quoted] at same
  | .str text, other, _, _, _, ordered, rest, tail, same => by
    cases ordered with
    | str another =>
      simp only [printValue] at same
      obtain ⟨chars, rest⟩ := quoted_append same
      exact ⟨by rw [String.toList_inj.mp chars], rest⟩
    | bool value => cases value <;> simp [printValue, quoted] at same
    | _ => simp [printValue, quoted] at same
  | .arr items, other, _, _, first, ordered, rest, tail, same => by
    cases ordered with
    | arr others values =>
      simp only [printValue, List.cons_append, List.cons.injEq, true_and] at same
      cases first with
      | arr _ firstValues =>
        obtain ⟨rfl, after⟩ := printItems_append items others firstValues values rest tail same
        exact ⟨rfl, after⟩
    | bool value => cases value <;> simp [printValue] at same
    | _ => simp [printValue, quoted] at same
  | .obj members, other, _, _, first, ordered, rest, tail, same => by
    cases ordered with
    | obj others _ values =>
      simp only [printValue, List.cons_append, List.cons.injEq, true_and] at same
      cases first with
      | obj _ _ firstValues =>
        obtain ⟨rfl, after⟩ := printMembers_append members others firstValues values rest tail same
        exact ⟨rfl, after⟩
    | bool value => cases value <;> simp [printValue] at same
    | _ => simp [printValue, quoted] at same
  | .num _, _, _, _, ordered, _, _, _, _ => by cases ordered
  | .float _, _, _, _, ordered, _, _, _, _ => by cases ordered

theorem printItems_append : ∀ items others : List Json, ∀ {levels many : Nat},
    (∀ item ∈ items, Ordered levels item) → (∀ item ∈ others, Ordered many item) →
    ∀ rest tail, printItems items ++ rest = printItems others ++ tail → items = others ∧ rest = tail
  | [], [], _, _, _, _, _, _, same => by simpa [printItems] using same
  | [], other :: others, _, _, _, values, rest, tail, same => by
    obtain ⟨char, chars, begins, differs⟩ := printValue_begins (values other List.mem_cons_self)
    simp [printItems, begins, differs.symm] at same
  | item :: items, [], _, _, values, _, rest, tail, same => by
    obtain ⟨char, chars, begins, differs⟩ := printValue_begins (values item List.mem_cons_self)
    simp [printItems, begins, differs] at same
  | item :: items, other :: others, _, _, values, otherValues, rest, tail, same => by
    simp only [printItems, List.append_assoc] at same
    obtain ⟨rfl, later⟩ := printValue_append item other (values item List.mem_cons_self)
      (otherValues other List.mem_cons_self) _ _ same
    obtain ⟨rfl, last⟩ := moreItems_append items others
      (fun item there => values item (List.mem_cons_of_mem _ there))
      (fun item there => otherValues item (List.mem_cons_of_mem _ there)) rest tail later
    exact ⟨rfl, last⟩

theorem moreItems_append : ∀ items others : List Json, ∀ {levels many : Nat},
    (∀ item ∈ items, Ordered levels item) → (∀ item ∈ others, Ordered many item) →
    ∀ rest tail, moreItems items ++ rest = moreItems others ++ tail → items = others ∧ rest = tail
  | [], [], _, _, _, _, _, _, same => by simpa [moreItems] using same
  | [], _ :: _, _, _, _, _, _, _, same => by simp [moreItems] at same
  | _ :: _, [], _, _, _, _, _, _, same => by simp [moreItems] at same
  | item :: items, other :: others, _, _, values, otherValues, rest, tail, same => by
    simp only [moreItems, List.cons_append, List.cons.injEq, true_and, List.append_assoc] at same
    obtain ⟨rfl, later⟩ := printValue_append item other (values item List.mem_cons_self)
      (otherValues other List.mem_cons_self) _ _ same
    obtain ⟨rfl, last⟩ := moreItems_append items others
      (fun item there => values item (List.mem_cons_of_mem _ there))
      (fun item there => otherValues item (List.mem_cons_of_mem _ there)) rest tail later
    exact ⟨rfl, last⟩

theorem printMembers_append : ∀ members others : List (String × Json), ∀ {levels many : Nat},
    (∀ member ∈ members, Ordered levels member.2) → (∀ member ∈ others, Ordered many member.2) →
    ∀ rest tail, printMembers members ++ rest = printMembers others ++ tail →
      members = others ∧ rest = tail
  | [], [], _, _, _, _, _, _, same => by simpa [printMembers] using same
  | [], (_, _) :: _, _, _, _, _, _, _, same => by simp [printMembers, quoted] at same
  | (_, _) :: _, [], _, _, _, _, _, _, same => by simp [printMembers, quoted] at same
  | (name, value) :: members, (otherName, other) :: others, _, _, values, otherValues, rest, tail, same => by
    simp only [printMembers, List.append_assoc, List.cons_append] at same
    obtain ⟨chars, after⟩ := quoted_append same
    obtain rfl := String.toList_inj.mp chars
    obtain ⟨rfl, later⟩ := printValue_append value other (values _ List.mem_cons_self)
      (otherValues _ List.mem_cons_self) _ _ (List.cons.inj after).2
    obtain ⟨rfl, last⟩ := moreValues_append members others
      (fun member there => values member (List.mem_cons_of_mem _ there))
      (fun member there => otherValues member (List.mem_cons_of_mem _ there)) rest tail later
    exact ⟨rfl, last⟩

theorem moreValues_append : ∀ members others : List (String × Json), ∀ {levels many : Nat},
    (∀ member ∈ members, Ordered levels member.2) → (∀ member ∈ others, Ordered many member.2) →
    ∀ rest tail, moreValues members ++ rest = moreValues others ++ tail →
      members = others ∧ rest = tail
  | [], [], _, _, _, _, _, _, same => by simpa [moreValues] using same
  | [], (_, _) :: _, _, _, _, _, _, _, same => by simp [moreValues] at same
  | (_, _) :: _, [], _, _, _, _, _, _, same => by simp [moreValues] at same
  | (name, value) :: members, (otherName, other) :: others, _, _, values, otherValues, rest, tail, same => by
    simp only [moreValues, List.cons_append, List.cons.injEq, true_and, List.append_assoc] at same
    obtain ⟨chars, after⟩ := quoted_append same
    obtain rfl := String.toList_inj.mp chars
    obtain ⟨rfl, later⟩ := printValue_append value other (values _ List.mem_cons_self)
      (otherValues _ List.mem_cons_self) _ _ (List.cons.inj after).2
    obtain ⟨rfl, last⟩ := moreValues_append members others
      (fun member there => values member (List.mem_cons_of_mem _ there))
      (fun member there => otherValues member (List.mem_cons_of_mem _ there)) rest tail later
    exact ⟨rfl, last⟩

end

def printJson (value : Json) : String :=
  String.ofList (printValue value)

theorem printJson_injective {levels many : Nat} {value other : Json} (ordered : Ordered levels value)
    (otherOrdered : Ordered many other) (same : printJson value = printJson other) : value = other := by
  have chars : printValue value ++ [] = printValue other ++ [] := by
    rw [String.ofList_inj.mp same]
  exact (printValue_append value other ordered otherOrdered [] [] chars).1

open Classical in
/-- The serializer, and the parser of its texts. -/
@[reducible]
noncomputable def printedJson : External where
  jsonFromStr text :=
    if printed : ∃ value, Parsed value ∧ printJson value = text then some printed.choose else none
  jsonToString := printJson
  sha256Hex := External.sample.sha256Hex
  md5Hex := External.sample.md5Hex
  parsesF64 := External.sample.parsesF64
  uuid := External.sample.uuid

theorem printed_laws : JsonLaws printedJson where
  reads value ordered := by
    have printed : ∃ other, Parsed other ∧ printJson other = printJson value := ⟨value, ordered, rfl⟩
    exact (dif_pos printed).trans
      (congrArg some (printJson_injective printed.choose_spec.1 ordered printed.choose_spec.2))

/-- Its UUIDs are those of the other samples. -/
theorem printed_uuids : UuidLaws printedJson :=
  ⟨sample_laws.fresh, sample_laws.noBar⟩

end CloudTwin
