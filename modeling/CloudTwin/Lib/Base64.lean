/-
**Base64 over byte lists.**

Three bytes are four sextets, a sextet is a character of an alphabet. The two engines of the Rust
`base64` crate that services use are the standard one (padded with `=`) and the URL-safe one without padding; both refuse a
text whose unused low bits are not zero.

* `bytesOf_sextetsOf` — regrouping the sextets gives the bytes back.
* `decode_encode` and `encode_injective` — the unpadded engine, over any alphabet.
* `encode_head` — the first character of an encoding is the top six bits of the first byte.
-/

import Mathlib.Data.List.Basic
import Mathlib.Tactic.Linarith

namespace CloudTwin.Lib.Base64

/-- **An alphabet**: sixty-four characters and the way back from a character. -/
structure Alphabet where
  symbol : Nat → Char
  value : Char → Option Nat
  value_symbol : ∀ sextet < 64, value (symbol sextet) = some sextet

/-- Letters, digits and two more characters, in the order of the base64 alphabets. -/
def symbolWith (plus slash : Char) (sextet : Nat) : Char :=
  if sextet < 26 then Char.ofNat (65 + sextet)
  else if sextet < 52 then Char.ofNat (97 + (sextet - 26))
  else if sextet < 62 then Char.ofNat (48 + (sextet - 52))
  else if sextet = 62 then plus
  else slash

/-- The sextet of a character, by search. -/
def valueWith (plus slash : Char) (char : Char) : Option Nat :=
  (List.range 64).find? fun sextet => symbolWith plus slash sextet == char

/-- `A–Z a–z 0–9 + /`. -/
def standardAlphabet : Alphabet where
  symbol := symbolWith '+' '/'
  value := valueWith '+' '/'
  value_symbol := by decide

/-- `A–Z a–z 0–9 - _`. -/
def urlSafeAlphabet : Alphabet where
  symbol := symbolWith '-' '_'
  value := valueWith '-' '_'
  value_symbol := by decide

/-! ### Regrouping bits -/

/-- Bytes as sextets, most significant bits first; the last sextet is filled with zero bits. -/
def sextetsOf : List UInt8 → List Nat
  | [] => []
  | [first] => [first.toNat / 4, first.toNat % 4 * 16]
  | [first, second] =>
    [first.toNat / 4, first.toNat % 4 * 16 + second.toNat / 16, second.toNat % 16 * 4]
  | first :: second :: third :: rest =>
    first.toNat / 4 :: (first.toNat % 4 * 16 + second.toNat / 16) ::
      (second.toNat % 16 * 4 + third.toNat / 64) :: third.toNat % 64 :: sextetsOf rest

/-- Sextets as bytes; a lone sextet and non-zero left-over bits are refused. -/
def bytesOf : List Nat → Option (List UInt8)
  | [] => some []
  | [_] => none
  | [first, second] =>
    if second % 16 = 0 then some [UInt8.ofNat (first * 4 + second / 16)] else none
  | [first, second, third] =>
    if third % 4 = 0 then
      some [UInt8.ofNat (first * 4 + second / 16), UInt8.ofNat (second % 16 * 16 + third / 4)]
    else none
  | first :: second :: third :: fourth :: rest =>
    (bytesOf rest).map fun bytes =>
      UInt8.ofNat (first * 4 + second / 16) :: UInt8.ofNat (second % 16 * 16 + third / 4) ::
        UInt8.ofNat (third % 4 * 64 + fourth) :: bytes

theorem sextetsOf_lt (bytes : List UInt8) : ∀ sextet ∈ sextetsOf bytes, sextet < 64 := by
  fun_induction sextetsOf bytes with
  | case1 => simp
  | case2 first =>
    have small := first.toNat_lt
    simp only [List.mem_cons, List.not_mem_nil, or_false, forall_eq_or_imp, forall_eq]
    omega
  | case3 first second =>
    have small := first.toNat_lt
    have small' := second.toNat_lt
    simp only [List.mem_cons, List.not_mem_nil, or_false, forall_eq_or_imp, forall_eq]
    omega
  | case4 first second third rest ih =>
    have small := first.toNat_lt
    have small' := second.toNat_lt
    have small'' := third.toNat_lt
    simp only [List.mem_cons, forall_eq_or_imp]
    exact ⟨by omega, by omega, by omega, by omega, ih⟩

/-- A byte computed from its own value. -/
theorem ofNat_eq {byte : UInt8} {value : Nat} (same : value = byte.toNat) :
    UInt8.ofNat value = byte := by
  rw [same, UInt8.ofNat_toNat]

/-- **Regrouping the sextets gives the bytes back.** -/
theorem bytesOf_sextetsOf (bytes : List UInt8) : bytesOf (sextetsOf bytes) = some bytes := by
  fun_induction sextetsOf bytes with
  | case1 => rfl
  | case2 first =>
    have small := first.toNat_lt
    rw [bytesOf, if_pos (by omega), ofNat_eq (show _ = first.toNat by omega)]
  | case3 first second =>
    have small := first.toNat_lt
    have small' := second.toNat_lt
    rw [bytesOf, if_pos (by omega), ofNat_eq (show _ = first.toNat by omega),
      ofNat_eq (show _ = second.toNat by omega)]
  | case4 first second third rest ih =>
    have small := first.toNat_lt
    have small' := second.toNat_lt
    have small'' := third.toNat_lt
    rw [bytesOf, ih, Option.map_some, ofNat_eq (show _ = first.toNat by omega),
      ofNat_eq (show _ = second.toNat by omega), ofNat_eq (show _ = third.toNat by omega)]

/-! ### Texts -/

/-- The unpadded text of a byte list. -/
def encode (alphabet : Alphabet) (bytes : List UInt8) : String :=
  String.ofList ((sextetsOf bytes).map alphabet.symbol)

/-- The bytes of an unpadded text. -/
def decode (alphabet : Alphabet) (text : String) : Option (List UInt8) :=
  (text.toList.mapM alphabet.value).bind bytesOf

theorem mapM_value_symbol (alphabet : Alphabet) :
    ∀ sextets : List Nat, (∀ sextet ∈ sextets, sextet < 64) →
      (sextets.map alphabet.symbol).mapM alphabet.value = some sextets
  | [], _ => rfl
  | sextet :: rest, small => by
      have head := alphabet.value_symbol sextet (small sextet List.mem_cons_self)
      have tail := mapM_value_symbol alphabet rest
        fun other member => small other (List.mem_cons_of_mem _ member)
      rw [List.map_cons, List.mapM_cons, head, tail]
      rfl

/-- **Decoding an encoding gives the bytes back.** -/
theorem decode_encode (alphabet : Alphabet) (bytes : List UInt8) :
    decode alphabet (encode alphabet bytes) = some bytes := by
  rw [decode, encode, String.toList_ofList, mapM_value_symbol alphabet _ (sextetsOf_lt bytes)]
  exact bytesOf_sextetsOf bytes

theorem encode_injective (alphabet : Alphabet) : Function.Injective (encode alphabet) := by
  intro first second same
  have decoded := decode_encode alphabet first
  rw [same, decode_encode] at decoded
  exact (Option.some.inj decoded).symm

/-- The first character is the top six bits of the first byte. -/
theorem encode_head (alphabet : Alphabet) (byte : UInt8) (rest : List UInt8) :
    (encode alphabet (byte :: rest)).toList.head? = some (alphabet.symbol (byte.toNat / 4)) := by
  rw [encode, String.toList_ofList, List.head?_map]
  match rest with
  | [] => rfl
  | [_] => rfl
  | _ :: _ :: _ => rfl

/-- `URL_SAFE_NO_PAD.encode`. -/
def urlSafeNoPadEncode (bytes : List UInt8) : String :=
  encode urlSafeAlphabet bytes

/-- `URL_SAFE_NO_PAD.decode`. -/
def urlSafeNoPadDecode (text : String) : Option (List UInt8) :=
  decode urlSafeAlphabet text

/-- The padding that fills a text up to a multiple of four characters. -/
def padding (count : Nat) : List Char :=
  List.replicate ((4 - count % 4) % 4) '='

/-- `STANDARD.encode`. -/
def standardEncode (bytes : List UInt8) : String :=
  let text := (encode standardAlphabet bytes).toList
  String.ofList (text ++ padding text.length)

/-- `STANDARD.decode`: the padding has to be there, and no more than that. -/
def standardDecode (text : String) : Option (List UInt8) :=
  let body := text.toList.takeWhile (· != '=')
  if text.toList = body ++ padding body.length then decode standardAlphabet (String.ofList body)
  else none

example : standardDecode (standardEncode [104, 105]) = some [104, 105] := by decide

end CloudTwin.Lib.Base64
