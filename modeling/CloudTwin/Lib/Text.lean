/-
**The text functions of the Rust standard library that the services use.**

A Rust `String` is a Lean `String`: both are sequences of Unicode scalar values, and both compare
them in an order that agrees with the order of their UTF-8 bytes. The functions work on the list of
characters, so that they evaluate in the kernel.

* `parseI64` — `str::parse::<i64>`, range check included.
* `decimal` and `decimal_lt` — the decimal text of a number with a fixed count of digits, and the
  fact that such texts are ordered as the numbers are.
* `utf8` and `fromUtf8_utf8` — the bytes of a text and the way back.
-/

import Mathlib.Data.List.Basic
import Mathlib.Data.String.Basic
import Mathlib.Tactic.Linarith
import Mathlib.Tactic.Ring

namespace CloudTwin.Lib.Text

/-- `char::is_whitespace`: the code points with the property `White_Space`. -/
def isWhitespace (char : Char) : Bool :=
  let code := char.toNat
  (9 ≤ code && code ≤ 13) || code == 0x20 || code == 0x85 || code == 0xA0 || code == 0x1680 ||
    (0x2000 ≤ code && code ≤ 0x200A) || code == 0x2028 || code == 0x2029 || code == 0x202F ||
    code == 0x205F || code == 0x3000

/-- `str::trim`. -/
def trim (text : String) : String :=
  String.ofList
    ((text.toList.dropWhile isWhitespace).reverse.dropWhile isWhitespace).reverse

/-- `str::trim_end_matches` of a character. -/
def trimEndMatches (char : Char) (text : String) : String :=
  String.ofList (text.toList.reverse.dropWhile (· == char)).reverse

/-- `str::starts_with`. -/
def startsWith (text start : String) : Bool :=
  start.toList.isPrefixOf text.toList

/-- `str::ends_with`. -/
def endsWith (text ending : String) : Bool :=
  ending.toList.isSuffixOf text.toList

/-- `str::strip_suffix`. -/
def stripSuffix (text ending : String) : Option String :=
  if endsWith text ending then
    some (String.ofList (text.toList.take (text.toList.length - ending.toList.length)))
  else none

/-- `text.split(char).next()`: what stands before the first such character. -/
def beforeFirst (char : Char) (text : String) : String :=
  String.ofList (text.toList.takeWhile (· != char))

/-- `text.rsplit(char).next()`: what stands after the last such character. -/
def afterLast (char : Char) (text : String) : String :=
  String.ofList (text.toList.reverse.takeWhile (· != char)).reverse

/-- `text.split(char)`, on characters: `current` holds the part being read, reversed. -/
def splitGo (char : Char) : List Char → List Char → List (List Char)
  | current, [] => [current.reverse]
  | current, next :: rest =>
    if next == char then current.reverse :: splitGo char [] rest
    else splitGo char (next :: current) rest

/-- `text.split(char).collect::<Vec<_>>()`. -/
def split (char : Char) (text : String) : List String :=
  (splitGo char [] text.toList).map String.ofList

/-- `str::split_whitespace`. -/
def splitWhitespace (text : String) : List String :=
  ((text.toList.splitOnP isWhitespace).filter fun part => !part.isEmpty).map String.ofList

/-- `[..].join(" ")`. -/
def joinBlank (parts : List String) : String :=
  String.ofList (List.intercalate [' '] (parts.map String.toList))

/-- `str::to_ascii_lowercase`. -/
def toAsciiLowercase (text : String) : String :=
  String.ofList (text.toList.map Char.toLower)

/-- `str::eq_ignore_ascii_case`. -/
def eqIgnoreAsciiCase (first second : String) : Bool :=
  toAsciiLowercase first == toAsciiLowercase second

/-- `char::is_ascii_alphanumeric`. -/
def isAsciiAlphanumeric (char : Char) : Bool :=
  ('0' ≤ char && char ≤ '9') || ('A' ≤ char && char ≤ 'Z') || ('a' ≤ char && char ≤ 'z')

/-- The value of a list of decimal digits, `none` at any other character. -/
def digitsValue : List Char → Nat → Option Nat
  | [], value => some value
  | char :: rest, value =>
    if '0' ≤ char && char ≤ '9' then digitsValue rest (value * 10 + (char.toNat - '0'.toNat))
    else none

/-- The value of a non-empty list of decimal digits. -/
def digits (chars : List Char) : Option Nat :=
  if chars.isEmpty then none else digitsValue chars 0

/-- `str::parse::<i64>().ok()`: an optional sign, digits, and the range of an `i64`. -/
def parseI64 (text : String) : Option Int :=
  match text.toList with
  | '-' :: rest => do
    let value ← digits rest
    if value ≤ 2 ^ 63 then some (-(value : Int)) else none
  | '+' :: rest => do
    let value ← digits rest
    if value < 2 ^ 63 then some (value : Int) else none
  | chars => do
    let value ← digits chars
    if value < 2 ^ 63 then some (value : Int) else none

/-- `{:X}`. -/
def upperHex (value : Nat) : String :=
  String.ofList ((Nat.toDigits 16 value).map Char.toUpper)

/-! ### UTF-8 -/

/-- `str::as_bytes`. -/
def utf8 (text : String) : List UInt8 :=
  text.toList.flatMap String.utf8EncodeChar

/-- `String::from_utf8(bytes).ok()`. -/
def fromUtf8 (bytes : List UInt8) : Option String :=
  String.fromUTF8? bytes.toByteArray

theorem fromUtf8_utf8 (text : String) : fromUtf8 (utf8 text) = some text := by
  have bytes : (utf8 text).toByteArray = text.toByteArray := String.utf8Encode_toList
  have valid : (utf8 text).toByteArray.IsValidUTF8 := by
    rw [bytes]
    exact text.isValidUTF8
  rw [fromUtf8, String.fromUTF8?, dif_pos valid]
  congr 1
  exact String.toByteArray_inj.mp bytes

theorem utf8_injective : Function.Injective utf8 := by
  intro first second same
  have decoded := fromUtf8_utf8 first
  rw [same, fromUtf8_utf8] at decoded
  exact (Option.some.inj decoded).symm

/-- The bytes of a non-empty text do not start with a continuation byte. -/
theorem utf8_head (char : Char) (rest : List Char) :
    ∃ byte tail, utf8 (String.ofList (char :: rest)) = byte :: tail ∧
      (byte.toNat < 128 ∨ 192 ≤ byte.toNat) := by
  have bounded : char.val.toNat < 1114112 := by
    rcases char.valid with low | ⟨_, high⟩
    · exact Nat.lt_trans low (by decide)
    · exact high
  have small : ∀ value < 256, (UInt8.ofNat value).toNat = value := fun value => Nat.mod_eq_of_lt
  rw [utf8, String.toList_ofList, List.flatMap_cons, String.utf8EncodeChar]
  generalize char.val.toNat = code at bounded
  -- One case for each length of the encoding; only the first byte is looked at.
  split
  · exact ⟨_, _, rfl, Or.inl (by rw [small] <;> omega)⟩
  · split
    · exact ⟨_, _, rfl, Or.inr (by rw [small] <;> omega)⟩
    · split
      · exact ⟨_, _, rfl, Or.inr (by rw [small] <;> omega)⟩
      · exact ⟨_, _, rfl, Or.inr (by rw [small] <;> omega)⟩

/-! ### Splitting -/

theorem splitGo_append (char : Char) (part : List Char) (absent : char ∉ part)
    (rest : List Char) : ∀ current, splitGo char current (part ++ char :: rest) =
      (current.reverse ++ part) :: splitGo char [] rest := by
  induction part with
  | nil => intro current; simp [splitGo]
  | cons next part ih =>
    intro current
    have different : (next == char) = false :=
      beq_eq_false_iff_ne.mpr fun same => absent (same ▸ List.mem_cons_self)
    rw [List.cons_append, splitGo, different]
    simp only [Bool.false_eq_true, if_false]
    rw [ih (fun member => absent (List.mem_cons_of_mem _ member)), List.reverse_cons]
    simp

theorem splitGo_last (char : Char) (part : List Char) (absent : char ∉ part) :
    ∀ current, splitGo char current part = [current.reverse ++ part] := by
  induction part with
  | nil => intro current; simp [splitGo]
  | cons next part ih =>
    intro current
    have different : (next == char) = false :=
      beq_eq_false_iff_ne.mpr fun same => absent (same ▸ List.mem_cons_self)
    rw [splitGo, different]
    simp only [Bool.false_eq_true, if_false]
    rw [ih fun member => absent (List.mem_cons_of_mem _ member), List.reverse_cons]
    simp

/-! ### Decimal numbers -/

/-- `format!("{:0width$}", value)`. -/
def decimal (width value : Nat) : String :=
  let shown := Nat.toDigits 10 value
  String.ofList (List.replicate (width - shown.length) '0' ++ shown)

theorem digitsValue_eq (chars : List Char) :
    ∀ value, (∀ char ∈ chars, char.isDigit = true) →
      digitsValue chars value = some (Nat.ofDigitChars 10 chars value) := by
  induction chars with
  | nil => exact fun _ _ => rfl
  | cons char chars ih =>
    intro value isDigits
    have isDigit := isDigits char List.mem_cons_self
    have range : ('0' ≤ char && char ≤ '9') = true := by
      simpa [Char.isDigit, Char.le_def] using isDigit
    rw [digitsValue, if_pos range, ih _ fun other member =>
      isDigits other (List.mem_cons_of_mem _ member)]
    rw [Nat.ofDigitChars, Nat.ofDigitChars, List.foldl_cons, Nat.mul_comm]

/-- **The text of a number parses as the number.** -/
theorem parseI64_toString (value : Nat) (small : value < 2 ^ 63) :
    parseI64 (toString (value : Int)) = some (value : Int) := by
  have text : (toString (value : Int)).toList = Nat.toDigits 10 value := by
    show (toString value).toList = _
    rw [Nat.toString_eq_ofList_toDigits, String.toList_ofList]
  have isDigits : ∀ char ∈ Nat.toDigits 10 value, char.isDigit = true :=
    fun char member => Nat.isDigit_of_mem_toDigits (by decide) (by decide) member
  have parsed : digits (Nat.toDigits 10 value) = some value := by
    have nonempty : (Nat.toDigits 10 value).isEmpty = false := by
      rw [List.isEmpty_eq_false_iff]
      exact List.ne_nil_of_length_pos Nat.length_toDigits_pos
    rw [digits, nonempty, if_neg Bool.false_ne_true, digitsValue_eq _ _ isDigits,
      Nat.ofDigitChars_toDigits (by decide) (by decide)]
  unfold parseI64
  rw [text]
  -- No digit is a sign.
  split
  · rename_i rest shape
    exact absurd (isDigits '-' (shape ▸ List.mem_cons_self)) (by decide)
  · rename_i rest shape
    exact absurd (isDigits '+' (shape ▸ List.mem_cons_self)) (by decide)
  · rw [parsed]
    exact if_pos small

/-- Lists of one length compare at the first place where they differ, whatever follows them. -/
theorem append_lt_append {α : Type} [LinearOrder α] :
    ∀ {first second : List α}, first.length = second.length → first < second →
      ∀ restFirst restSecond : List α, first ++ restFirst < second ++ restSecond
  | [], [], _, less, _, _ => absurd less (lt_irrefl _)
  | head :: first, head' :: second, length, less, restFirst, restSecond => by
      rw [List.cons_append, List.cons_append, List.cons_lt_cons_iff]
      rcases List.cons_lt_cons_iff.mp less with here | ⟨same, later⟩
      · exact Or.inl here
      · exact Or.inr ⟨same, append_lt_append (Nat.succ.inj length) later _ _⟩

theorem append_lt_append_left {α : Type} [LinearOrder α] (start : List α) {first second : List α}
    (less : first < second) : start ++ first < start ++ second := by
  induction start with
  | nil => exact less
  | cons head start ih => exact List.cons_lt_cons_iff.mpr (Or.inr ⟨rfl, ih⟩)

theorem digitChar_lt : ∀ second < 10, ∀ first < second,
    Nat.digitChar first < Nat.digitChar second := by
  decide

/-- **Numbers with one count of digits are ordered as their digits are.** -/
theorem toDigits_lt {first second : Nat} (less : first < second)
    (length : (Nat.toDigits 10 first).length = (Nat.toDigits 10 second).length) :
    Nat.toDigits 10 first < Nat.toDigits 10 second := by
  induction second using Nat.strong_induction_on generalizing first with
  | _ second ih =>
    by_cases short : second < 10
    · rw [Nat.toDigits_of_lt_base short, Nat.toDigits_of_lt_base (by omega)]
      exact List.cons_lt_cons_iff.mpr (Or.inl (digitChar_lt second short first less))
    · have longer : (Nat.toDigits 10 second).length ≠ 1 := by
        rw [Nat.toDigits_of_base_le (by decide) (by omega), List.length_append]
        have := Nat.length_toDigits_pos (b := 10) (n := second / 10)
        simp only [List.length_singleton]
        omega
      have large : 10 ≤ first := by
        by_contra small
        rw [← length, Nat.toDigits_of_lt_base (by omega)] at longer
        exact longer rfl
      rw [Nat.toDigits_of_base_le (by decide) large,
        Nat.toDigits_of_base_le (n := second) (by decide) (by omega)] at length ⊢
      have lengthQuotient : (Nat.toDigits 10 (first / 10)).length =
          (Nat.toDigits 10 (second / 10)).length := by
        simp only [List.length_append, List.length_singleton] at length
        omega
      by_cases same : first / 10 = second / 10
      · rw [same]
        refine append_lt_append_left _ (List.cons_lt_cons_iff.mpr (Or.inl ?_))
        exact digitChar_lt _ (by omega) _ (by omega)
      · exact append_lt_append lengthQuotient
          (ih (second / 10) (by omega) (by omega) lengthQuotient) _ _

/-- **Decimal texts of `width` digits are ordered as the numbers are.** -/
theorem decimal_lt {width first second : Nat} (wide : 10 ^ width ≤ first)
    (bounded : second < 10 ^ (width + 1)) (less : first < second) :
    decimal (width + 1) first < decimal (width + 1) second := by
  have exactLength : ∀ value, 10 ^ width ≤ value → value < 10 ^ (width + 1) →
      (Nat.toDigits 10 value).length = width + 1 := by
    intro value low high
    have upper := (Nat.length_toDigits_le_iff (by decide) (Nat.succ_pos width)).mpr high
    have lower : ¬ (Nat.toDigits 10 value).length ≤ width := by
      intro short
      by_cases zero : width = 0
      · subst zero
        exact absurd (Nat.length_toDigits_pos (b := 10) (n := value)) (by omega)
      · exact absurd ((Nat.length_toDigits_le_iff (by decide) (Nat.pos_of_ne_zero zero)).mp short)
          (by omega)
    omega
  have lengthFirst := exactLength first wide (by omega)
  have lengthSecond := exactLength second (by omega) bounded
  rw [String.lt_iff_toList_lt, decimal, decimal, String.toList_ofList, String.toList_ofList,
    lengthFirst, lengthSecond, Nat.sub_self]
  exact toDigits_lt less (lengthFirst.trans lengthSecond.symm)

theorem decimal_isDigit (width value : Nat) : ∀ char ∈ (decimal width value).toList,
    char.isDigit = true := by
  intro char member
  rw [decimal, String.toList_ofList] at member
  rcases List.mem_append.mp member with zero | digit
  · rw [(List.mem_replicate.mp zero).2]
    decide
  · exact Nat.isDigit_of_mem_toDigits (by decide) (by decide) digit

theorem decimal_injective (width : Nat) : Function.Injective (decimal width) := by
  have value : ∀ number, Nat.ofDigitChars 10 (decimal width number).toList 0 = number := by
    intro number
    rw [decimal, String.toList_ofList, Nat.ofDigitChars, List.foldl_append]
    have zeros : ∀ count : Nat, (List.replicate count '0').foldl
        (fun sofar char => 10 * sofar + (char.toNat - '0'.toNat)) 0 = 0 := by
      intro count
      induction count with
      | zero => rfl
      | succ count ih => rw [List.replicate_succ, List.foldl_cons]; exact ih
    rw [zeros]
    exact Nat.ofDigitChars_toDigits (by decide) (by decide)
  intro first second same
  rw [← value first, same, value second]

end CloudTwin.Lib.Text
