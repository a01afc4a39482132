/-
**Cyclic redundancy checks.**

A reflected check feeds the bits of the data, the lowest of each byte first, into a shift register
that is combined with the polynomial each time a one leaves it. Software does a whole byte at a time,
with a table of what eight steps make of the low byte of the register.

* `feedBit`, `feedBits`, `feedBytes` — the register, one bit at a time.
* `reflected` — the check: the register from and to a complement.
* `shiftStep` — the step of an empty bit; `feedBits_eq` — the bits may be combined at once.
* `iterate_low` — what leaves the register decides, and the rest is only shifted: the table lookup.
-/

import Mathlib

namespace CloudTwin.Lib.Crc

variable {w : Nat}

/-- One bit of the data: the polynomial is combined if it differs from the bit that leaves. -/
def feedBit (poly register : BitVec w) (bit : Bool) : BitVec w :=
  if register.getLsbD 0 ^^ bit then register >>> 1 ^^^ poly else register >>> 1

/-- The lowest bits of a word, the lowest first. -/
def lowBits (count : Nat) (word : BitVec w) : List Bool :=
  (List.range count).map word.getLsbD

def feedBits (poly register : BitVec w) (bits : List Bool) : BitVec w :=
  bits.foldl (feedBit poly) register

/-- The bytes in order, each from its lowest bit on. -/
def feedBytes (poly register : BitVec w) (bytes : List UInt8) : BitVec w :=
  bytes.foldl (fun register byte => feedBits poly register (lowBits 8 byte.toBitVec)) register

/-- **The reflected check** with complements before and after. -/
def reflected (poly : BitVec w) (bytes : List UInt8) : BitVec w :=
  ~~~ feedBytes poly (~~~ 0) bytes

/-- A check continued from that of the data before. -/
def continued (poly check : BitVec w) (bytes : List UInt8) : BitVec w :=
  ~~~ feedBytes poly (~~~ check) bytes

theorem feedBytes_append (poly register : BitVec w) (first second : List UInt8) :
    feedBytes poly register (first ++ second) =
      feedBytes poly (feedBytes poly register first) second := by
  rw [feedBytes, List.foldl_append]
  rfl

/-- A check may be continued across any split of the data. -/
theorem reflected_append (poly : BitVec w) (first second : List UInt8) :
    reflected poly (first ++ second) = continued poly (reflected poly first) second := by
  rw [reflected, continued, feedBytes_append, reflected, BitVec.not_not]

/-! ### Many bits at once -/

/-- A step without a bit of data. -/
def shiftStep (poly register : BitVec w) : BitVec w :=
  if register.getLsbD 0 then register >>> 1 ^^^ poly else register >>> 1

theorem lowBits_succ (count : Nat) (word : BitVec w) :
    lowBits (count + 1) word = word.getLsbD 0 :: lowBits count (word >>> 1) := by
  rw [lowBits, List.range_succ_eq_map, List.map_cons, List.map_map, lowBits]
  refine congrArg (word.getLsbD 0 :: ·) (List.map_congr_left fun index _ => ?_)
  rw [BitVec.getLsbD_ushiftRight, Nat.add_comm]
  rfl

/-- A bit may be combined with the register before the step. -/
theorem feedBit_eq (poly register word : BitVec w) :
    feedBit poly register (word.getLsbD 0) ^^^ word >>> 1 = shiftStep poly (register ^^^ word) := by
  unfold feedBit shiftStep
  rw [BitVec.getLsbD_xor, BitVec.ushiftRight_xor_distrib]
  split
  · rw [BitVec.xor_assoc, BitVec.xor_comm poly, ← BitVec.xor_assoc]
  · rfl

/-- **The bits may all be combined before the steps**: what is not fed yet is taken out again. -/
theorem feedBits_eq (poly : BitVec w) (count : Nat) : ∀ register word : BitVec w,
    feedBits poly register (lowBits count word) =
      (shiftStep poly)^[count] (register ^^^ word) ^^^ word >>> count := by
  induction count with
  | zero =>
    intro register word
    show register = (register ^^^ word) ^^^ word >>> 0
    rw [BitVec.ushiftRight_zero, BitVec.xor_assoc, BitVec.xor_self, BitVec.xor_zero]
  | succ count ih =>
    intro register word
    rw [lowBits_succ, Function.iterate_succ_apply, ← feedBit_eq]
    show feedBits poly (feedBit poly register (word.getLsbD 0)) (lowBits count (word >>> 1)) = _
    rw [ih, ← BitVec.shiftRight_add, Nat.add_comm 1 count]

/-- **Steps depend on the bits that leave the register**; the others are only shifted. -/
theorem iterate_low (poly : BitVec w) {count : Nat} {register low : BitVec w}
    (same : lowBits count register = lowBits count low) (small : low >>> count = 0#w) :
    (shiftStep poly)^[count] register = (shiftStep poly)^[count] low ^^^ register >>> count := by
  have whole := feedBits_eq poly count 0#w register
  have part := feedBits_eq poly count 0#w low
  rw [same, part, BitVec.zero_xor, BitVec.zero_xor, small, BitVec.xor_zero] at whole
  rw [whole, BitVec.xor_assoc, BitVec.xor_self, BitVec.xor_zero]

end CloudTwin.Lib.Crc
