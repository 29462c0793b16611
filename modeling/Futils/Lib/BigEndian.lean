import Mathlib.Data.List.Basic
import Mathlib.Tactic.Ring

/-!
# Big-endian integers of fixed width

`toBytes width value` is the low `width` bytes of `value`, most significant first, and `ofBytes`
reads a byte string back.
-/

namespace Futils.Lib.BigEndian

/-- The low `width` bytes of `value`, most significant first. -/
def toBytes : Nat → Nat → List UInt8
  | 0, _ => []
  | width + 1, value => UInt8.ofNat (value / 256 ^ width) :: toBytes width value

def ofBytes : List UInt8 → Nat
  | [] => 0
  | byte :: rest => byte.toNat * 256 ^ rest.length + ofBytes rest

@[simp] theorem length_toBytes (width value : Nat) : (toBytes width value).length = width := by
  induction width with
  | zero => rfl
  | succ width ih => simp [toBytes, ih]

theorem ofBytes_toBytes (width value : Nat) :
    ofBytes (toBytes width value) = value % 256 ^ width := by
  induction width with
  | zero => simp [toBytes, ofBytes, Nat.mod_one]
  | succ width ih =>
    have top : (UInt8.ofNat (value / 256 ^ width)).toNat = value / 256 ^ width % 256 := by simp
    rw [toBytes, ofBytes, length_toBytes, ih, top, Nat.pow_succ 256 _, Nat.mod_mul,
      Nat.add_comm, Nat.mul_comm]

theorem ofBytes_lt (bytes : List UInt8) : ofBytes bytes < 256 ^ bytes.length := by
  induction bytes with
  | nil => decide
  | cons byte rest ih =>
    have byte_lt := byte.toNat_lt
    calc ofBytes (byte :: rest) < (byte.toNat + 1) * 256 ^ rest.length := by
          rw [ofBytes, Nat.succ_mul]
          omega
      _ ≤ 256 ^ (rest.length + 1) := by
          rw [Nat.mul_comm]
          exact Nat.mul_le_mul_left _ byte_lt

/-- The low bytes of an integer that ends in a byte string are the byte string. -/
theorem toBytes_ofBytes (high : Nat) (bytes : List UInt8) :
    toBytes bytes.length (high * 256 ^ bytes.length + ofBytes bytes) = bytes := by
  induction bytes generalizing high with
  | nil => rfl
  | cons byte rest ih =>
    have value_eq : high * 256 ^ (rest.length + 1) +
        (byte.toNat * 256 ^ rest.length + ofBytes rest) =
          (high * 256 + byte.toNat) * 256 ^ rest.length + ofBytes rest := by
      rw [Nat.pow_succ, Nat.add_mul, Nat.mul_assoc, Nat.mul_comm 256, Nat.add_assoc]
    rw [List.length_cons, ofBytes, value_eq, toBytes, ih, Nat.mul_comm, Nat.mul_add_div
      (Nat.pow_pos (by decide)), Nat.div_eq_of_lt (ofBytes_lt _)]
    congr 1
    exact UInt8.toNat_inj.1 (by simp)

end Futils.Lib.BigEndian
