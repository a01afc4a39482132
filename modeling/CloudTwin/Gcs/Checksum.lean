/-
**Object checksums** (`crc32c`, `gcp/storage/models.rs`).

A checksum takes one lookup a byte, in a table of 256 words that is filled once by eight shifts each.

* `crcStep`, `crcTable`, `crc32c` — the code.
* `crcUpdate_eq` — a lookup does what feeding the eight bits does.
* `crc32c_bitwise` — the checksum is the bitwise check, and may be continued.
-/

import CloudTwin.Lib.Crc
import CloudTwin.Lib.Text

namespace CloudTwin.Gcs

open Lib.Crc

/-- `0x82F6_3B78`, the reflected polynomial. -/
def castagnoli : UInt32 := 0x82F63B78

/-- One round of the loop that fills the table. -/
def crcStep (c : UInt32) : UInt32 :=
  if c &&& 1 ≠ 0 then c >>> 1 ^^^ castagnoli else c >>> 1

def crcTable : Vector UInt32 256 :=
  Vector.ofFn fun i => crcStep^[8] (UInt32.ofNat i)

/-- The index of the entry for a byte. -/
def crcIndex (crc : UInt32) (b : UInt8) : UInt32 :=
  (crc ^^^ b.toUInt32) &&& 0xFF

theorem crcIndex_lt (crc : UInt32) (b : UInt8) : (crcIndex crc b).toNat < 256 := by
  rw [crcIndex, UInt32.toNat_and]
  exact Nat.lt_of_le_of_lt Nat.and_le_right (by decide)

/-- One byte of the data. -/
def crcUpdate (crc : UInt32) (b : UInt8) : UInt32 :=
  crcTable.get ⟨(crcIndex crc b).toNat, crcIndex_lt crc b⟩ ^^^ crc >>> 8

/-- `crc32c`, continued from the checksum of the data before. -/
def crc32cFrom (crc : UInt32) (data : List UInt8) : UInt32 :=
  ~~~ data.foldl crcUpdate (~~~ crc)

/-- **CRC-32C (Castagnoli), as used by GCS object checksums.** -/
def crc32c (data : List UInt8) : UInt32 :=
  ~~~ data.foldl crcUpdate (~~~ 0)

example : crc32c (Lib.Text.utf8 "123456789") = 0xE3069283 ∧ crc32c [] = 0 := by
  decide +kernel

/-! ### A lookup and eight steps -/

theorem crcStep_eq (c : UInt32) :
    (crcStep c).toBitVec = shiftStep castagnoli.toBitVec c.toBitVec := by
  have low : c &&& 1 ≠ 0 ↔ c.toBitVec.getLsbD 0 = true := by
    rw [Ne, ← UInt32.toBitVec_inj, UInt32.toBitVec_and]
    show ¬ c.toBitVec &&& 1#32 = 0#32 ↔ _
    rw [BitVec.and_one_eq_setWidth_ofBool_getLsbD]
    cases c.toBitVec.getLsbD 0 <;> decide
  unfold crcStep shiftStep
  by_cases one : c &&& 1 ≠ 0
  · rw [if_pos one, if_pos (low.mp one)]
    rfl
  · rw [if_neg one, if_neg fun wrong => one (low.mpr wrong)]
    rfl

theorem crcSteps_eq (count : Nat) : ∀ c : UInt32,
    (crcStep^[count] c).toBitVec = (shiftStep castagnoli.toBitVec)^[count] c.toBitVec := by
  induction count with
  | zero => exact fun _ => rfl
  | succ count ih =>
    intro c
    rw [Function.iterate_succ_apply, ih, crcStep_eq, Function.iterate_succ_apply]

theorem crcTable_get (i : Fin 256) : crcTable.get i = crcStep^[8] (UInt32.ofNat i) := by
  rw [crcTable, Vector.get_eq_getElem, Vector.getElem_ofFn]

/-- A word and its low byte have the same low bits. -/
theorem lowBits_byte (word : BitVec 32) : lowBits 8 word = lowBits 8 (word &&& 0xFF#32) := by
  have ones : ∀ index < 8, (0xFF#32).getLsbD index = true := by decide
  refine List.map_congr_left fun index member => ?_
  rw [BitVec.getLsbD_and, ones index (List.mem_range.mp member), Bool.and_true]

theorem byte_shifted (word : BitVec 32) : (word &&& 0xFF#32) >>> 8 = 0#32 := by
  have zeros : ∀ index < 32, (0xFF#32).getLsbD (8 + index) = false := by decide
  refine BitVec.eq_of_getLsbD_eq fun index inside => ?_
  rw [BitVec.getLsbD_ushiftRight, BitVec.getLsbD_and, zeros index inside, Bool.and_false]
  exact BitVec.getLsbD_zero.symm

theorem lowBits_extended (b : BitVec 8) : lowBits 8 (b.setWidth 32) = lowBits 8 b := by
  refine List.map_congr_left fun index member => ?_
  have inside := List.mem_range.mp member
  rw [BitVec.getLsbD_setWidth, decide_eq_true (by omega), Bool.true_and]

theorem extended_shifted (b : BitVec 8) : b.setWidth 32 >>> 8 = 0#32 := by
  refine BitVec.eq_of_getLsbD_eq fun index inside => ?_
  rw [BitVec.getLsbD_ushiftRight, BitVec.getLsbD_setWidth, BitVec.getLsbD_of_ge b _ (by omega),
    Bool.and_false]
  exact BitVec.getLsbD_zero.symm

/-- **A lookup does what feeding the eight bits does.** -/
theorem crcUpdate_eq (crc : UInt32) (b : UInt8) :
    (crcUpdate crc b).toBitVec =
      feedBits castagnoli.toBitVec crc.toBitVec (lowBits 8 b.toBitVec) := by
  have found : (crcUpdate crc b).toBitVec =
      (shiftStep castagnoli.toBitVec)^[8] ((crc.toBitVec ^^^ b.toBitVec.setWidth 32) &&& 0xFF#32) ^^^
        crc.toBitVec >>> 8 := by
    rw [crcUpdate, crcTable_get, UInt32.toBitVec_xor, crcSteps_eq, UInt32.ofNat_toNat]
    rfl
  have shifted : (crc.toBitVec ^^^ b.toBitVec.setWidth 32) >>> 8 = crc.toBitVec >>> 8 := by
    rw [BitVec.ushiftRight_xor_distrib, extended_shifted, BitVec.xor_zero]
  rw [← lowBits_extended, feedBits_eq, extended_shifted, BitVec.xor_zero,
    iterate_low castagnoli.toBitVec (lowBits_byte _) (byte_shifted _), shifted, found]

theorem crcUpdates_eq (data : List UInt8) : ∀ crc : UInt32,
    (data.foldl crcUpdate crc).toBitVec = feedBytes castagnoli.toBitVec crc.toBitVec data := by
  induction data with
  | nil => exact fun _ => rfl
  | cons b data ih =>
    intro crc
    rw [List.foldl_cons, ih, crcUpdate_eq]
    rfl

theorem crc32cFrom_eq (crc : UInt32) (data : List UInt8) :
    (crc32cFrom crc data).toBitVec = continued castagnoli.toBitVec crc.toBitVec data := by
  rw [crc32cFrom, UInt32.toBitVec_not, crcUpdates_eq, UInt32.toBitVec_not]
  rfl

/-- **The table-driven checksum is the bitwise one**, and can be continued across any split. -/
theorem crc32c_bitwise (data : List UInt8) :
    (crc32c data).toBitVec = reflected 0x82F63B78#32 data ∧
      ∀ rest, crc32c (data ++ rest) = crc32cFrom (crc32c data) rest := by
  have whole : ∀ data, (crc32c data).toBitVec = reflected castagnoli.toBitVec data :=
    fun data => crc32cFrom_eq 0 data
  refine ⟨whole data, fun rest => UInt32.toBitVec_inj.mp ?_⟩
  rw [whole, crc32cFrom_eq, whole, reflected_append]

end CloudTwin.Gcs
