/-
**Bytes as text, and positions in a text.**

* `fromUtf8Lossy` — `String::from_utf8_lossy`: each maximal part of a character that is cut short, and
  each byte that begins none, becomes `U+FFFD`.
* `find` and `rfind` — the first and the last position of a character.
* `fromUtf8Lossy_utf8` — a text is read back from its bytes.
-/

import CloudTwin.Lib.Text

namespace CloudTwin.Lib.Text

/-- A character that is being read: the bytes still to come, the range of the next one, and the bits
read so far. -/
structure Partial where
  needed : Nat
  low : Nat
  high : Nat
  value : Nat

def replacement : Char := '\uFFFD'

/-- A byte that begins a character: the characters it completes, and the character it begins. -/
def beginChar (byte : Nat) : List Char × Option Partial :=
  if byte < 0x80 then ([Char.ofNat byte], none)
  else if 0xC2 ≤ byte ∧ byte ≤ 0xDF then ([], some ⟨1, 0x80, 0xBF, byte - 0xC0⟩)
  else if byte = 0xE0 then ([], some ⟨2, 0xA0, 0xBF, 0⟩)
  else if byte = 0xED then ([], some ⟨2, 0x80, 0x9F, 0xD⟩)
  else if 0xE1 ≤ byte ∧ byte ≤ 0xEF then ([], some ⟨2, 0x80, 0xBF, byte - 0xE0⟩)
  else if byte = 0xF0 then ([], some ⟨3, 0x90, 0xBF, 0⟩)
  else if 0xF1 ≤ byte ∧ byte ≤ 0xF3 then ([], some ⟨3, 0x80, 0xBF, byte - 0xF0⟩)
  else if byte = 0xF4 then ([], some ⟨3, 0x80, 0x8F, 4⟩)
  else ([replacement], none)

/-- A byte that goes on with a character, or ends it too early and begins another. -/
def nextByte (reading : Option Partial) (byte : Nat) : List Char × Option Partial :=
  match reading with
  | none => beginChar byte
  | some part =>
    if part.low ≤ byte ∧ byte ≤ part.high then
      let value := part.value * 64 + (byte - 0x80)
      if part.needed = 1 then ([Char.ofNat value], none)
      else ([], some ⟨part.needed - 1, 0x80, 0xBF, value⟩)
    else
      let (chars, reading) := beginChar byte
      (replacement :: chars, reading)

def lossyGo : Option Partial → List UInt8 → List Char
  | none, [] => []
  | some _, [] => [replacement]
  | reading, byte :: rest =>
    let (chars, reading) := nextByte reading byte.toNat
    chars ++ lossyGo reading rest

/-- `String::from_utf8_lossy`. -/
def fromUtf8Lossy (bytes : List UInt8) : String :=
  String.ofList (lossyGo none bytes)

/-- `text.find(char)`, as an index of characters. -/
def find (char : Char) (text : List Char) : Option Nat :=
  text.findIdx? (· == char)

/-- `text.rfind(char)`, as an index of characters. -/
def rfind (char : Char) (text : List Char) : Option Nat :=
  (text.reverse.findIdx? (· == char)).map fun index => text.length - 1 - index

/-- `str::trim_end`. -/
def trimEnd (text : String) : String :=
  String.ofList (text.toList.reverse.dropWhile isWhitespace).reverse

/-- `str::to_ascii_uppercase`. -/
def toAsciiUppercase (text : String) : String :=
  String.ofList (text.toList.map Char.toUpper)

/-- `text.split_once(char)`. -/
def splitOnce (char : Char) (text : String) : Option (String × String) :=
  if char ∈ text.toList then
    some (beforeFirst char text, String.ofList ((text.toList.dropWhile (· != char)).drop 1))
  else none

/-- `str::parse::<u64>().ok()`: an optional plus, digits, and the range of a `u64`. -/
def parseU64 (text : String) : Option Nat :=
  let chars := if text.toList.head? = some '+' then text.toList.drop 1 else text.toList
  (digits chars).filter fun value => value < 2 ^ 64

example : fromUtf8Lossy [0x61, 0xC3, 0xA9, 0xE2, 0x82, 0x41, 0xFF] = "aé\uFFFDA\uFFFD" := by
  decide

/-! ### Texts and their bytes -/

theorem lossyGo_char (char : Char) (rest : List UInt8) :
    lossyGo none (String.utf8EncodeChar char ++ rest) = char :: lossyGo none rest := by
  have valid : char.val.toNat < 0xD800 ∨ 0xDFFF < char.val.toNat ∧ char.val.toNat < 0x110000 :=
    char.valid
  have same : Char.ofNat char.val.toNat = char := Char.ofNat_toNat char
  have small : ∀ value < 256, (UInt8.ofNat value).toNat = value := fun value => Nat.mod_eq_of_lt
  rw [String.utf8EncodeChar]
  generalize char.val.toNat = code at valid same
  subst same
  -- One case for each length of the encoding.
  split
  · simp only [List.cons_append, List.nil_append, lossyGo, nextByte, beginChar]
    rw [small _ (by omega), if_pos (by omega)]
    rfl
  · split
    · have value : (code / 64 % 32 + 192 - 192) * 64 + (code % 64 + 128 - 128) = code := by omega
      simp only [List.cons_append, List.nil_append, lossyGo, nextByte, beginChar]
      rw [small _ (by omega), small _ (by omega), if_neg (by omega), if_pos (by omega)]
      simp only [List.nil_append]
      rw [if_pos (by omega), if_pos trivial, value]
      rfl
    · split
      · have value : ((code / 4096 % 16 + 224 - 224) * 64 + (code / 64 % 64 + 128 - 128)) * 64 +
            (code % 64 + 128 - 128) = code := by omega
        obtain ⟨low, high, begins, above, below⟩ : ∃ low high,
            beginChar (code / 4096 % 16 + 224) = ([], some ⟨2, low, high, code / 4096 % 16 + 224 - 224⟩) ∧
              low ≤ code / 64 % 64 + 128 ∧ code / 64 % 64 + 128 ≤ high := by
          unfold beginChar
          rw [if_neg (by omega), if_neg (by omega)]
          by_cases first : code / 4096 % 16 + 224 = 0xE0
          · rw [if_pos first, first]
            exact ⟨_, _, rfl, by omega, by omega⟩
          · rw [if_neg first]
            by_cases last : code / 4096 % 16 + 224 = 0xED
            · rw [if_pos last, last]
              exact ⟨_, _, rfl, by omega, by omega⟩
            · rw [if_neg last, if_pos (by omega)]
              exact ⟨_, _, rfl, by omega, by omega⟩
        simp only [List.cons_append, List.nil_append, lossyGo, nextByte]
        rw [small _ (by omega), small _ (by omega), small _ (by omega), begins]
        simp only [List.nil_append]
        rw [if_pos ⟨above, below⟩, if_neg (by omega)]
        simp only [List.nil_append, Nat.add_one_sub_one]
        rw [if_pos (by omega), if_pos trivial, value]
        rfl
      · have value : (((code / 262144 % 8 + 240 - 240) * 64 + (code / 4096 % 64 + 128 - 128)) * 64 +
            (code / 64 % 64 + 128 - 128)) * 64 + (code % 64 + 128 - 128) = code := by omega
        obtain ⟨low, high, begins, above, below⟩ : ∃ low high,
            beginChar (code / 262144 % 8 + 240) = ([], some ⟨3, low, high, code / 262144 % 8 + 240 - 240⟩) ∧
              low ≤ code / 4096 % 64 + 128 ∧ code / 4096 % 64 + 128 ≤ high := by
          unfold beginChar
          rw [if_neg (by omega), if_neg (by omega), if_neg (by omega), if_neg (by omega),
            if_neg (by omega)]
          by_cases first : code / 262144 % 8 + 240 = 0xF0
          · rw [if_pos first, first]
            exact ⟨_, _, rfl, by omega, by omega⟩
          · rw [if_neg first]
            by_cases last : code / 262144 % 8 + 240 = 0xF4
            · rw [if_neg (by omega), if_pos last, last]
              exact ⟨_, _, rfl, by omega, by omega⟩
            · rw [if_pos (by omega)]
              exact ⟨_, _, rfl, by omega, by omega⟩
        simp only [List.cons_append, List.nil_append, lossyGo, nextByte]
        rw [small _ (by omega), small _ (by omega), small _ (by omega), small _ (by omega), begins]
        simp only [List.nil_append]
        rw [if_pos ⟨above, below⟩, if_neg (by omega)]
        simp only [List.nil_append, Nat.add_one_sub_one]
        rw [if_pos (by omega), if_neg (by omega)]
        simp only [List.nil_append, Nat.add_one_sub_one]
        rw [if_pos (by omega), if_pos trivial, value]
        rfl

/-- **A text is read back from its bytes.** -/
theorem fromUtf8Lossy_utf8 (text : String) : fromUtf8Lossy (utf8 text) = text := by
  have chars : ∀ list : List Char, lossyGo none (list.flatMap String.utf8EncodeChar) = list := by
    intro list
    induction list with
    | nil => rfl
    | cons char rest ih => rw [List.flatMap_cons, lossyGo_char, ih]
  rw [fromUtf8Lossy, utf8, chars, String.ofList_toList]

/-- A byte of a text that is below 128 is a character of it. -/
theorem mem_utf8 {text : String} {byte : UInt8} (member : byte ∈ utf8 text)
    (ascii : byte.toNat < 128) : Char.ofNat byte.toNat ∈ text.toList := by
  obtain ⟨char, here, inside⟩ := List.mem_flatMap.mp member
  have bounded : char.val.toNat < 1114112 := by
    rcases char.valid with low | ⟨_, high⟩
    · exact Nat.lt_trans low (by decide)
    · exact high
  have same : Char.ofNat char.val.toNat = char := Char.ofNat_toNat char
  have small : ∀ value < 256, (UInt8.ofNat value).toNat = value := fun value => Nat.mod_eq_of_lt
  have found : byte.toNat = char.val.toNat := by
    rw [String.utf8EncodeChar] at inside
    generalize char.val.toNat = code at bounded inside
    split at inside
    · rw [List.mem_singleton.mp inside]
      exact small _ (by omega)
    · split at inside
      · simp only [List.mem_cons, List.not_mem_nil, or_false] at inside
        rcases inside with rfl | rfl
        all_goals
          rw [small _ (by omega)] at ascii
          omega
      · split at inside
        · simp only [List.mem_cons, List.not_mem_nil, or_false] at inside
          rcases inside with rfl | rfl | rfl
          all_goals
            rw [small _ (by omega)] at ascii
            omega
        · simp only [List.mem_cons, List.not_mem_nil, or_false] at inside
          rcases inside with rfl | rfl | rfl | rfl
          all_goals
            rw [small _ (by omega)] at ascii
            omega
  rw [found, same]
  exact here

/-- What has no blank is trimmed. -/
theorem trim_plain {chars : List Char} (plain : ∀ char ∈ chars, isWhitespace char = false) :
    trim (String.ofList chars) = String.ofList chars := by
  have kept : ∀ list : List Char, (∀ char ∈ list, isWhitespace char = false) →
      list.dropWhile isWhitespace = list := by
    intro list blankless
    cases list with
    | nil => rfl
    | cons first rest =>
      rw [List.dropWhile_cons_of_neg]
      rw [blankless first (List.mem_cons_self ..)]
      decide
  unfold trim
  rw [String.toList_ofList, kept chars plain,
    kept chars.reverse (fun char member => plain char (List.mem_reverse.mp member)),
    List.reverse_reverse]

/-- The text of a number parses as the number. -/
theorem parseU64_toString {value : Nat} (small : value < 2 ^ 64) :
    parseU64 (toString value) = some value := by
  have text : (toString value).toList = Nat.toDigits 10 value := by
    rw [Nat.toString_eq_ofList_toDigits, String.toList_ofList]
  have isDigits : ∀ char ∈ Nat.toDigits 10 value, char.isDigit = true :=
    fun char member => Nat.isDigit_of_mem_toDigits (by decide) (by decide) member
  have unsigned : (Nat.toDigits 10 value).head? ≠ some '+' := fun signed =>
    absurd (isDigits '+' (List.mem_of_mem_head? signed)) (by decide)
  have parsed : digits (Nat.toDigits 10 value) = some value := by
    have nonempty : (Nat.toDigits 10 value).isEmpty = false := by
      rw [List.isEmpty_eq_false_iff]
      exact List.ne_nil_of_length_pos Nat.length_toDigits_pos
    rw [digits, nonempty, if_neg Bool.false_ne_true, digitsValue_eq _ _ isDigits,
      Nat.ofDigitChars_toDigits (by decide) (by decide)]
  unfold parseU64
  simp only [text, if_neg unsigned, parsed, Option.filter_some, decide_eq_true small, if_true]

end CloudTwin.Lib.Text
