/-
**The numbers of `f64`.**

A number is read from its text exactly, as a rational, and rounded to the nearest number with a
mantissa of 53 bits, to the even one of two. Numbers of that kind keep their value.

* `parseDecimal` — the rational of a decimal text; `parseF64` — `str::parse::<f64>`.
* `F64.partialCmp` — `f64::partial_cmp`.
* `Exact`, `round_exact` — the integers that have an exact representation.
-/

import CloudTwin.Lib.Text
import Mathlib

namespace CloudTwin.Lib

open Text

/-- A number; the two zeros compare equal and are one here. -/
inductive F64 where
  | nan
  | infinite (negative : Bool)
  | finite (value : ℚ)

/-! ### Rounding -/

/-- The nearest integer, the even one of two. -/
def roundEven (value : ℚ) : ℤ :=
  let below := ⌊value⌋
  let excess := value - below
  if excess < 1 / 2 then below
  else if 1 / 2 < excess then below + 1
  else if below % 2 = 0 then below
  else below + 1

/-- The exponent of the last bit of a number of this size. -/
def lastBit (value : ℚ) : ℤ :=
  max (Int.log 2 |value| - 52) (-1074)

/-- **The nearest number with a mantissa of 53 bits.** -/
def F64.round (value : ℚ) : F64 :=
  let unit : ℚ := 2 ^ lastBit value
  let rounded := (roundEven (value / unit) : ℚ) * unit
  if |rounded| < 2 ^ 1024 then .finite rounded else .infinite (decide (value < 0))

/-- The rational is an integer with a mantissa of 53 bits. -/
def Exact (value : ℚ) : Prop :=
  |value| < 2 ^ 1024 ∧ ∃ (mantissa : ℤ) (exponent : ℕ), value = mantissa * 2 ^ exponent ∧
    |mantissa| < 2 ^ 53

theorem roundEven_intCast (value : ℤ) : roundEven (value : ℚ) = value := by
  simp [roundEven]

theorem lastBit_le {mantissa : ℤ} (exponent : ℕ) (small : |mantissa| < 2 ^ 53)
    (nonzero : mantissa ≠ 0) : lastBit ((mantissa : ℚ) * 2 ^ exponent) ≤ exponent := by
  have positive : (0 : ℚ) < |(mantissa : ℚ) * 2 ^ exponent| := by
    rw [abs_pos]
    exact mul_ne_zero (Int.cast_ne_zero.mpr nonzero) (by positivity)
  have bound : |(mantissa : ℚ) * 2 ^ exponent| < ((2 : ℕ) : ℚ) ^ ((exponent : ℤ) + 53) := by
    have cast : |(mantissa : ℚ)| < 2 ^ 53 := by exact_mod_cast small
    have power : |(2 : ℚ) ^ exponent| = 2 ^ exponent := abs_of_pos (by positivity)
    rw [abs_mul, power, zpow_add₀ (by norm_num), zpow_natCast]
    push_cast
    rw [mul_comm]
    exact mul_lt_mul_of_pos_left (by exact_mod_cast cast) (by positivity)
  have log := (Int.lt_zpow_iff_log_lt (by norm_num) positive).mp bound
  unfold lastBit
  omega

/-- **A number with an exact representation keeps its value.** -/
theorem round_exact {value : ℚ} (exact : Exact value) : F64.round value = .finite value := by
  obtain ⟨range, mantissa, exponent, rfl, small⟩ := exact
  have rounded : (roundEven ((mantissa : ℚ) * 2 ^ exponent / 2 ^ lastBit (mantissa * 2 ^ exponent)) : ℚ) *
      2 ^ lastBit ((mantissa : ℚ) * 2 ^ exponent) = mantissa * 2 ^ exponent := by
    by_cases zero : mantissa = 0
    · subst zero
      simp [roundEven]
    · obtain ⟨rest, split⟩ := Int.le.dest (lastBit_le exponent small zero)
      have power : ∀ bit : ℤ, bit + rest = exponent → (2 : ℚ) ^ exponent = 2 ^ rest * 2 ^ bit := by
        intro bit same
        rw [← zpow_natCast, ← same, zpow_add₀ (by norm_num), zpow_natCast, mul_comm]
      have unit := power _ split
      have nonzero : (2 : ℚ) ^ lastBit ((mantissa : ℚ) * 2 ^ exponent) ≠ 0 :=
        zpow_ne_zero _ (by norm_num)
      have whole : (mantissa : ℚ) * 2 ^ exponent / 2 ^ lastBit ((mantissa : ℚ) * 2 ^ exponent) =
          ((mantissa * 2 ^ rest : ℤ) : ℚ) := by
        rw [div_eq_iff nonzero]
        push_cast
        rw [mul_assoc, ← unit]
      rw [whole, roundEven_intCast, ← whole, div_mul_cancel₀ _ nonzero]
  unfold F64.round
  simp only [rounded]
  rw [if_pos range]

/-! ### Comparison -/

/-- `f64::partial_cmp`. -/
def F64.partialCmp : F64 → F64 → Option Ordering
  | .nan, _ => none
  | _, .nan => none
  | .finite first, .finite second => some (cmp first second)
  | .infinite negative, .finite _ => some (if negative then .lt else .gt)
  | .finite _, .infinite negative => some (if negative then .gt else .lt)
  | .infinite first, .infinite second =>
    some (if first = second then .eq else if first then .lt else .gt)

/-! ### Texts -/

def isDigit (char : Char) : Bool :=
  '0' ≤ char && char ≤ '9'

/-- A sign, and what follows it. -/
def signOf : List Char → ℤ × List Char
  | '-' :: rest => (-1, rest)
  | '+' :: rest => (1, rest)
  | chars => (1, chars)

/-- The exponent that ends a number. -/
def exponentOf : List Char → Option ℤ
  | [] => some 0
  | char :: rest =>
    if char = 'e' ∨ char = 'E' then
      let (sign, rest) := signOf rest
      (digits rest).map fun value => sign * value
    else none

/-- The fraction, and what follows it. -/
def fractionOf : List Char → List Char × List Char
  | '.' :: rest => (rest.takeWhile isDigit, rest.dropWhile isDigit)
  | chars => ([], chars)

/-- **The rational of a decimal text**: digits with a sign, a point and an exponent. -/
def parseDecimal (text : String) : Option ℚ := do
  let (sign, chars) := signOf text.toList
  let whole := chars.takeWhile isDigit
  let (fraction, rest) := fractionOf (chars.dropWhile isDigit)
  let mantissa ← digits (whole ++ fraction)
  let exponent ← exponentOf rest
  some (sign * mantissa * 10 ^ (exponent - fraction.length))

/-- `str::parse::<f64>().ok()`. -/
def parseF64 (text : String) : Option F64 :=
  match parseDecimal text with
  | some value => some (.round value)
  | none =>
    let (sign, chars) := signOf text.toList
    let name := toAsciiLowercase (String.ofList chars)
    if name = "inf" ∨ name = "infinity" then some (.infinite (decide (sign < 0)))
    else if name = "nan" then some .nan
    else none

end CloudTwin.Lib
