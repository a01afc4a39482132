/-
**Percent-encoding.**

A byte of a text is kept or written as `%` and two hexadecimal digits. A reader takes a `%` with two such
digits behind it for the byte, and any other `%` as it stands; so a text whose encoding keeps no `%` is
read back, whatever else is kept.

* `escapeByte`, `percentEncode`, `percentDecode` — the functions of the crate `percent_encoding`.
* `decode_escaped` — the encoding of bytes is read back, with anything behind it.
* `percentDecode_encode` — a text is read back; `not_mem_percentEncode`, what no encoding has in it.
-/

import CloudTwin.Lib.Utf8

namespace CloudTwin.Lib.Percent

open Text

/-! ### The functions -/

def hexUpper (digit : Nat) : Char :=
  if digit < 10 then Char.ofNat (48 + digit) else Char.ofNat (55 + digit)

/-- `char::to_digit(16)` of a byte. -/
def hexValue (byte : UInt8) : Option Nat :=
  let code := byte.toNat
  if 48 ≤ code ∧ code ≤ 57 then some (code - 48)
  else if 65 ≤ code ∧ code ≤ 70 then some (code - 55)
  else if 97 ≤ code ∧ code ≤ 102 then some (code - 87)
  else none

def percentSign : UInt8 := 37

/-- A byte that is kept, or its escape. -/
def escapeByte (keep : UInt8 → Bool) (byte : UInt8) : List Char :=
  if keep byte then [Char.ofNat byte.toNat]
  else ['%', hexUpper (byte.toNat / 16), hexUpper (byte.toNat % 16)]

/-- The escapes of a character. -/
def escapeChar (keep : UInt8 → Bool) (char : Char) : List Char :=
  (String.utf8EncodeChar char).flatMap (escapeByte keep)

/-- `utf8_percent_encode`. -/
def percentEncode (keep : UInt8 → Bool) (text : String) : String :=
  String.ofList (text.toList.flatMap (escapeChar keep))

/-- The bytes of `percent_decode`. -/
def decodeBytes : List UInt8 → List UInt8
  | [] => []
  | [byte] => [byte]
  | [byte, next] => [byte, next]
  | byte :: high :: low :: rest =>
    if byte = percentSign then
      match hexValue high, hexValue low with
      | some first, some second => UInt8.ofNat (first * 16 + second) :: decodeBytes rest
      | _, _ => byte :: decodeBytes (high :: low :: rest)
    else byte :: decodeBytes (high :: low :: rest)

/-- `percent_decode_str(text).decode_utf8_lossy()`. -/
def percentDecode (text : String) : String :=
  fromUtf8Lossy (decodeBytes (utf8 text))

/-! ### Reading back -/

/-- What can be kept: characters of one byte, the percent sign not among them. -/
structure Keeps (keep : UInt8 → Bool) : Prop where
  ascii : ∀ byte, keep byte = true → byte.toNat < 128
  noPercent : keep percentSign = false

theorem decodeBytes_cons {byte : UInt8} (other : byte ≠ percentSign) (rest : List UInt8) :
    decodeBytes (byte :: rest) = byte :: decodeBytes rest := by
  match rest with
  | [] => rfl
  | [_] => rfl
  | _ :: _ :: _ => rw [decodeBytes, if_neg other]

theorem hexDigit_read : ∀ digit < 16, ∃ byte, String.utf8EncodeChar (hexUpper digit) = [byte] ∧
    hexValue byte = some digit := by
  have digits : ∀ digit < 16, String.utf8EncodeChar (hexUpper digit) =
      [UInt8.ofNat (hexUpper digit).toNat] ∧
        hexValue (UInt8.ofNat (hexUpper digit).toNat) = some digit := by decide
  exact fun digit small => ⟨_, digits digit small⟩

theorem utf8_ascii : ∀ code < 128, String.utf8EncodeChar (Char.ofNat code) = [UInt8.ofNat code] := by
  decide

/-- **A byte that was encoded is read back**, whatever stands behind it. -/
theorem decode_escapeByte {keep : UInt8 → Bool} (keeps : Keeps keep) (byte : UInt8) (rest : List UInt8) :
    decodeBytes ((escapeByte keep byte).flatMap String.utf8EncodeChar ++ rest) = byte :: decodeBytes rest := by
  unfold escapeByte
  split
  · rename_i kept
    have other : byte ≠ percentSign := by
      rintro rfl
      rw [keeps.noPercent] at kept
      cases kept
    rw [List.flatMap_singleton, utf8_ascii _ (keeps.ascii byte kept), UInt8.ofNat_toNat,
      List.singleton_append, decodeBytes_cons other]
  · have small := byte.toNat_lt
    obtain ⟨high, highBytes, highValue⟩ := hexDigit_read (byte.toNat / 16) (by omega)
    obtain ⟨low, lowBytes, lowValue⟩ := hexDigit_read (byte.toNat % 16) (by omega)
    have sign : String.utf8EncodeChar '%' = [percentSign] := by decide
    have whole : byte.toNat / 16 * 16 + byte.toNat % 16 = byte.toNat := by omega
    simp only [List.flatMap_cons, List.flatMap_nil, sign, highBytes, lowBytes,
      List.cons_append, List.nil_append]
    rw [decodeBytes, if_pos rfl, highValue, lowValue]
    dsimp only
    rw [whole, UInt8.ofNat_toNat]

theorem decode_escaped {keep : UInt8 → Bool} (keeps : Keeps keep) (bytes rest : List UInt8) :
    decodeBytes ((bytes.flatMap (escapeByte keep)).flatMap String.utf8EncodeChar ++ rest) =
      bytes ++ decodeBytes rest := by
  induction bytes with
  | nil => rfl
  | cons byte bytes ih =>
    rw [List.flatMap_cons, List.flatMap_append, List.append_assoc, decode_escapeByte keeps, ih,
      List.cons_append]

/-- **The escapes of a character are read as its bytes**, whatever stands behind them. -/
theorem decode_escapeChar {keep : UInt8 → Bool} (keeps : Keeps keep) (char : Char) (rest : List UInt8) :
    decodeBytes ((escapeChar keep char).flatMap String.utf8EncodeChar ++ rest) =
      String.utf8EncodeChar char ++ decodeBytes rest :=
  decode_escaped keeps _ rest

/-- **A text whose characters are each read back is read back.** -/
theorem percentDecode_of_chars (write : Char → List Char)
    (read : ∀ char rest, decodeBytes ((write char).flatMap String.utf8EncodeChar ++ rest) =
      String.utf8EncodeChar char ++ decodeBytes rest) (text : String) :
    percentDecode (String.ofList (text.toList.flatMap write)) = text := by
  have all : ∀ chars : List Char, decodeBytes ((chars.flatMap write).flatMap String.utf8EncodeChar) =
      chars.flatMap String.utf8EncodeChar := by
    intro chars
    induction chars with
    | nil => rfl
    | cons char chars ih => rw [List.flatMap_cons, List.flatMap_append, read, ih, List.flatMap_cons]
  unfold percentDecode utf8
  rw [String.toList_ofList, all]
  exact fromUtf8Lossy_utf8 text

theorem percentDecode_encode {keep : UInt8 → Bool} (keeps : Keeps keep) (text : String) :
    percentDecode (percentEncode keep text) = text :=
  percentDecode_of_chars (escapeChar keep) (decode_escapeChar keeps) text

/-- What stands in an encoding: kept characters, percent signs and digits. -/
theorem mem_escapeChar {keep : UInt8 → Bool} {char other : Char} (member : other ∈ escapeChar keep char) :
    (∃ byte, keep byte = true ∧ other = Char.ofNat byte.toNat) ∨ other = '%' ∨
      ∃ digit < 16, other = hexUpper digit := by
  obtain ⟨byte, _, inside⟩ := List.mem_flatMap.mp member
  unfold escapeByte at inside
  split at inside
  · rename_i kept
    exact .inl ⟨byte, kept, List.mem_singleton.mp inside⟩
  · have small := byte.toNat_lt
    simp only [List.mem_cons, List.not_mem_nil, or_false] at inside
    rcases inside with sign | high | low
    · exact .inr (.inl sign)
    · exact .inr (.inr ⟨_, by omega, high⟩)
    · exact .inr (.inr ⟨_, by omega, low⟩)

/-- A character that is neither kept nor of an escape stands in no encoding. -/
theorem not_mem_percentEncode {keep : UInt8 → Bool} {other : Char}
    (escaped : ∀ byte, keep byte = true → other ≠ Char.ofNat byte.toNat)
    (plain : other ≠ '%' ∧ ∀ digit < 16, other ≠ hexUpper digit) (text : String) :
    other ∉ (percentEncode keep text).toList := by
  unfold percentEncode
  rw [String.toList_ofList]
  intro member
  obtain ⟨char, _, inside⟩ := List.mem_flatMap.mp member
  rcases mem_escapeChar inside with ⟨byte, kept, same⟩ | same | ⟨digit, small, same⟩
  · exact escaped byte kept same
  · exact plain.1 same
  · exact plain.2 digit small same

end CloudTwin.Lib.Percent
