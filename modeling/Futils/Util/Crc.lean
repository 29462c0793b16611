import Futils.Core.Basic
import Mathlib.Logic.Function.Iterate

/-!
# CRC-32

`crc32` takes a byte at a time from a table.  The step by one bit is linear in exclusive or, so that
eight steps are those of the low byte, and the other bits moved down.
-/

namespace Futils.Crc

open Function Nat

/-- The step of `make_crc_table` by one bit. -/
def bitStep (c : Nat) : Nat := if c.testBit 0 then 0xEDB88320 ^^^ (c >>> 1) else c >>> 1

def crcTable : List Nat := (List.range 256).map bitStep^[8]

def crc32 (input : Bytes) : Nat :=
  input.foldl (fun c i => crcTable.getD ((c ^^^ i.toNat) &&& 0xff) 0 ^^^ (c >>> 8)) 0xffffffff ^^^
    0xffffffff

/-- Division by the polynomial, whose bits stand in reverse order: a one that leaves the register
takes the polynomial away. -/
def divideBit (c : Nat) : Nat := c / 2 ^^^ c % 2 * 0xEDB88320

/-- The definition of the checksum: the register takes in a byte and is divided bit by bit. -/
def bitwiseCrc (input : Bytes) : Nat :=
  input.foldl (fun c i => divideBit^[8] (c ^^^ i.toNat)) 0xffffffff ^^^ 0xffffffff

theorem divideBit_eq : divideBit = bitStep := by
  funext c
  rw [divideBit, bitStep, shiftRight_one, testBit_zero]
  obtain even | odd := mod_two_eq_zero_or_one c
  · simp [even]
  · simp [odd, Nat.xor_comm]

theorem bitStep_xor : Semiconj₂ bitStep (· ^^^ ·) (· ^^^ ·) := by
  intro a b
  have cancel (p x y : Nat) : (p ^^^ x) ^^^ (p ^^^ y) = x ^^^ y := by
    rw [Nat.xor_comm p x, Nat.xor_assoc, ← Nat.xor_assoc p p y, Nat.xor_self, Nat.zero_xor]
  simp only [bitStep, testBit_xor, shiftRight_xor_distrib]
  cases a.testBit 0 <;> cases b.testBit 0 <;> simp [cancel] <;> ac_rfl

/-- Zero bits are only shifted out. -/
theorem bitSteps_mul (n c : Nat) : bitStep^[n] (2 ^ n * c) = c := by
  induction n with
  | zero => simp
  | succ n ih =>
    have even : bitStep (2 ^ (n + 1) * c) = 2 ^ n * c := by
      rw [bitStep, testBit_two_pow_mul, shiftRight_one, pow_succ, mul_right_comm]
      simp
    rw [iterate_succ_apply, even, ih]

theorem low_xor_high (x : Nat) : (x &&& 0xff) ^^^ 2 ^ 8 * (x >>> 8) = x := by
  refine eq_of_testBit_eq fun i => ?_
  rw [testBit_xor, testBit_and, show 0xff = 2 ^ 8 - 1 from rfl, testBit_two_pow_sub_one,
    testBit_two_pow_mul, testBit_shiftRight]
  by_cases low : i < 8
  · simp [low, not_le.2 low]
  · simp [low, not_lt.1 low]

/-- Eight steps are one look at the table. -/
theorem bitSteps_byte (c : Nat) (i : UInt8) : bitStep^[8] (c ^^^ i.toNat) =
    crcTable.getD ((c ^^^ i.toNat) &&& 0xff) 0 ^^^ (c >>> 8) := by
  have high : (c ^^^ i.toNat) >>> 8 = c >>> 8 := by
    rw [shiftRight_xor_distrib, shiftRight_eq_div_pow i.toNat, div_eq_of_lt i.toNat_lt,
      xor_zero]
  have small : (c ^^^ i.toNat) &&& 0xff < 256 := lt_succ_of_le and_le_right
  conv_lhs => rw [← low_xor_high (c ^^^ i.toNat), bitStep_xor.iterate, bitSteps_mul, high]
  rw [crcTable, List.getD_eq_getElem?_getD, List.getElem?_map, List.getElem?_range small]
  rfl

/-- The table gives the checksum that is defined bit by bit. -/
theorem crc32_eq_bitwiseCrc (input : Bytes) : crc32 input = bitwiseCrc input := by
  simp only [crc32, bitwiseCrc, divideBit_eq, bitSteps_byte]

example : bitwiseCrc ([1, 2, 3, 4, 5, 6, 7, 8, 9].map (48 + ·)) = 0xCBF43926 := by decide +kernel

end Futils.Crc
