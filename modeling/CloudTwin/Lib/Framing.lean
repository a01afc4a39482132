/-
**Binary formats that are read from the front.**

A reader takes a value from the front of the bytes and leaves the rest. It is exact when it reads just
what the encoding writes; exact readers are put together, and a list of encodings is read back.

* `be`, `ofBe` — numbers in a fixed number of bytes, the highest first; `be_ofBe`, `ofBe_be`.
* `part`, `number` — so many bytes, and a number of so many bytes; `part_iff`, `number_iff`.
* `many`, `many_iff` — values one after the other, to the end.
-/

import Mathlib

namespace CloudTwin.Lib.Framing

/-! ### Numbers in bytes -/

/-- The lowest bytes of a number, the highest of them first. -/
def be : Nat → Nat → List UInt8
  | 0, _ => []
  | width + 1, value => be width (value / 256) ++ [UInt8.ofNat value]

def ofBe (bytes : List UInt8) : Nat :=
  bytes.foldl (fun value byte => value * 256 + byte.toNat) 0

theorem be_length (width : Nat) : ∀ value, (be width value).length = width := by
  induction width with
  | zero => exact fun _ => rfl
  | succ width ih =>
    intro value
    unfold be
    rw [List.length_append, ih]
    rfl

theorem ofBe_append (bytes : List UInt8) (byte : UInt8) :
    ofBe (bytes ++ [byte]) = ofBe bytes * 256 + byte.toNat := by
  unfold ofBe
  rw [List.foldl_append]
  rfl

theorem ofBe_be (width : Nat) : ∀ {value : Nat}, value < 256 ^ width → ofBe (be width value) = value := by
  induction width with
  | zero =>
    intro value small
    rw [Nat.lt_one_iff.mp small]
    rfl
  | succ width ih =>
    intro value small
    have high : value / 256 < 256 ^ width := Nat.div_lt_of_lt_mul (by rwa [pow_succ, mul_comm] at small)
    have low : (UInt8.ofNat value).toNat = value % 256 := rfl
    unfold be
    rw [ofBe_append, ih high, low]
    omega

theorem ofBe_lt (bytes : List UInt8) : ofBe bytes < 256 ^ bytes.length := by
  induction bytes using List.reverseRecOn with
  | nil => exact Nat.one_pos
  | append_singleton bytes byte ih =>
    have small := byte.toNat_lt
    rw [ofBe_append, List.length_append, List.length_singleton, pow_succ]
    omega

theorem be_ofBe (bytes : List UInt8) : be bytes.length (ofBe bytes) = bytes := by
  induction bytes using List.reverseRecOn with
  | nil => rfl
  | append_singleton bytes byte ih =>
    have small := byte.toNat_lt
    have high : (ofBe bytes * 256 + byte.toNat) / 256 = ofBe bytes := by omega
    have low : UInt8.ofNat (ofBe bytes * 256 + byte.toNat) = byte := by
      refine UInt8.toNat_inj.mp ?_
      show (ofBe bytes * 256 + byte.toNat) % 256 = byte.toNat
      omega
    rw [List.length_append, List.length_singleton, ofBe_append]
    unfold be
    rw [high, low, ih]

/-! ### Readers -/

/-- A reader of values: what is read, and what is left. -/
abbrev Reader (α : Type) := List UInt8 → Option (α × List UInt8)

/-- **A reader that reads what is written**, for the values with a property. -/
def Exact {α : Type} (valid : α → Prop) (encode : α → List UInt8) (read : Reader α) : Prop :=
  ∀ bytes value rest, read bytes = some (value, rest) ↔ valid value ∧ bytes = encode value ++ rest

def part (count : Nat) : Reader (List UInt8) := fun bytes =>
  if count ≤ bytes.length then some (bytes.take count, bytes.drop count) else none

def number (width : Nat) : Reader Nat := fun bytes =>
  (part width bytes).map fun (read, rest) => (ofBe read, rest)

theorem part_iff {count : Nat} {bytes value rest : List UInt8} :
    part count bytes = some (value, rest) ↔ value.length = count ∧ bytes = value ++ rest := by
  unfold part
  constructor
  · intro read
    split at read
    · rename_i enough
      obtain ⟨rfl, rfl⟩ := Prod.mk.inj (Option.some.inj read)
      exact ⟨List.length_take_of_le enough, (List.take_append_drop count bytes).symm⟩
    · cases read
  · rintro ⟨rfl, rfl⟩
    rw [if_pos (by rw [List.length_append]; omega), List.take_left, List.drop_left]

theorem number_iff {width value : Nat} {bytes rest : List UInt8} :
    number width bytes = some (value, rest) ↔ value < 256 ^ width ∧ bytes = be width value ++ rest := by
  unfold number
  rw [Option.map_eq_some_iff]
  constructor
  · rintro ⟨⟨read, left⟩, taken, same⟩
    obtain ⟨rfl, rfl⟩ := Prod.mk.inj same
    obtain ⟨rfl, rfl⟩ := part_iff.mp taken
    exact ⟨ofBe_lt read, by rw [be_ofBe]⟩
  · rintro ⟨small, rfl⟩
    exact ⟨(be width value, rest), part_iff.mpr ⟨be_length width value, rfl⟩,
      Prod.ext (ofBe_be width small) rfl⟩

/-- Values one after the other, to the end of the bytes. -/
def manyFrom {α : Type} (read : Reader α) : Nat → List UInt8 → Option (List α)
  | _, [] => some []
  | 0, _ :: _ => none
  | fuel + 1, bytes => do
    let (value, rest) ← read bytes
    let values ← manyFrom read fuel rest
    some (value :: values)

def many {α : Type} (read : Reader α) (bytes : List UInt8) : Option (List α) :=
  manyFrom read bytes.length bytes

/-- **Encodings one after the other are read back**, and nothing else is. -/
theorem many_iff {α : Type} {valid : α → Prop} {encode : α → List UInt8} {read : Reader α}
    (exact' : Exact valid encode read) (filled : ∀ value, encode value ≠ []) {bytes : List UInt8}
    {values : List α} :
    many read bytes = some values ↔ (∀ value ∈ values, valid value) ∧ bytes = values.flatMap encode := by
  have nothing : ∀ (fuel : Nat) (values : List α), manyFrom read fuel [] = some values ↔
      (∀ value ∈ values, valid value) ∧ [] = values.flatMap encode := by
    intro fuel values
    have start : manyFrom read fuel [] = some [] := by cases fuel <;> rfl
    rw [start]
    constructor
    · rintro ⟨rfl⟩
      exact ⟨fun _ member => absurd member List.not_mem_nil, rfl⟩
    · rintro ⟨-, empty⟩
      cases values with
      | nil => rfl
      | cons value rest =>
        rw [List.flatMap_cons] at empty
        exact absurd (List.append_eq_nil_iff.mp empty.symm).1 (filled value)
  have every : ∀ (fuel : Nat) (bytes : List UInt8) (values : List α), bytes.length ≤ fuel →
      (manyFrom read fuel bytes = some values ↔
        (∀ value ∈ values, valid value) ∧ bytes = values.flatMap encode) := by
    intro fuel
    induction fuel with
    | zero =>
      intro bytes values short
      obtain rfl := List.length_eq_zero_iff.mp (Nat.le_zero.mp short)
      exact nothing 0 values
    | succ fuel ih =>
      intro bytes values short
      cases bytes with
      | nil => exact nothing (fuel + 1) values
      | cons byte bytes =>
        have shorter : ∀ {value rest}, byte :: bytes = encode value ++ rest → rest.length ≤ fuel := by
          intro value rest same
          have lengths := congrArg List.length same
          have some' := List.length_pos_iff.mpr (filled value)
          rw [List.length_append] at lengths
          omega
        unfold manyFrom
        simp only [Option.bind_eq_bind, Option.bind_eq_some_iff, Prod.exists, Option.some.injEq]
        constructor
        · rintro ⟨value, rest, one, later, others, rfl⟩
          obtain ⟨good, same⟩ := (exact' _ _ _).mp one
          obtain ⟨all, rfl⟩ := (ih rest later (shorter same)).mp others
          refine ⟨fun other member => ?_, same⟩
          rcases List.mem_cons.mp member with rfl | inside
          · exact good
          · exact all other inside
        · rintro ⟨all, same⟩
          cases values with
          | nil => cases same
          | cons value values =>
            rw [List.flatMap_cons] at same
            refine ⟨value, values.flatMap encode, (exact' _ _ _).mpr ⟨all value List.mem_cons_self, same⟩,
              values, (ih _ values (shorter same)).mpr ⟨fun other inside =>
                all other (List.mem_cons_of_mem _ inside), rfl⟩, rfl⟩
  exact every bytes.length bytes values (le_refl _)

end CloudTwin.Lib.Framing
