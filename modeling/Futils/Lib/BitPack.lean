import Mathlib.Data.List.Basic

/-!
# Bit strings in bytes

Bits are laid into bytes from the most significant one on.  `pack` writes every whole byte of a bit
string and `unpack` reads them back.
-/

namespace Futils.Lib.BitPack

/-- The number a bit string stands for, most significant bit first. -/
def ofBits (bits : List Bool) : Nat := bits.foldl (fun value bit => 2 * value + bit.toNat) 0

/-- The `width` low bits of a number, most significant bit first. -/
def toBits : Nat → Nat → List Bool
  | 0, _ => []
  | width + 1, value => value.testBit width :: toBits width value

/-- Every whole byte of a bit string. -/
def pack : List Bool → List UInt8
  | b0 :: b1 :: b2 :: b3 :: b4 :: b5 :: b6 :: b7 :: bits =>
    UInt8.ofNat (ofBits [b0, b1, b2, b3, b4, b5, b6, b7]) :: pack bits
  | _ => []

def unpack (bytes : List UInt8) : List Bool := bytes.flatMap fun byte => toBits 8 byte.toNat

@[simp] theorem length_toBits (width value : Nat) : (toBits width value).length = width := by
  induction width with
  | zero => rfl
  | succ width ih => simp [toBits, ih]

theorem toBits_ofBits_byte : ∀ b0 b1 b2 b3 b4 b5 b6 b7 : Bool,
    toBits 8 (UInt8.ofNat (ofBits [b0, b1, b2, b3, b4, b5, b6, b7])).toNat =
      [b0, b1, b2, b3, b4, b5, b6, b7] := by
  decide

theorem length_pack (bits : List Bool) : (pack bits).length = bits.length / 8 := by
  fun_induction pack bits with
  | case1 b0 b1 b2 b3 b4 b5 b6 b7 bits ih =>
    simp only [List.length_cons]
    omega
  | case2 bits short =>
    have few : bits.length < 8 := by
      match bits, short with
      | [], _ | [_], _ | [_, _], _ | [_, _, _], _ | [_, _, _, _], _ => simp
      | [_, _, _, _, _], _ | [_, _, _, _, _, _], _ | [_, _, _, _, _, _, _], _ => simp
      | b0 :: b1 :: b2 :: b3 :: b4 :: b5 :: b6 :: b7 :: rest, short =>
        exact (short b0 b1 b2 b3 b4 b5 b6 b7 _ rfl).elim
    simp [Nat.div_eq_of_lt few]

/-- Packing loses nothing of a bit string that fills its bytes. -/
theorem unpack_pack {bits : List Bool} (aligned : 8 ∣ bits.length) : unpack (pack bits) = bits := by
  fun_induction pack bits with
  | case1 b0 b1 b2 b3 b4 b5 b6 b7 bits ih =>
    have rest : 8 ∣ bits.length := by
      simp only [List.length_cons] at aligned
      omega
    have head := toBits_ofBits_byte b0 b1 b2 b3 b4 b5 b6 b7
    have tail := ih rest
    simp only [unpack, List.flatMap_cons] at tail ⊢
    rw [tail, head]
    rfl
  | case2 bits short =>
    have empty : bits.length / 8 = 0 := by
      rw [← length_pack, pack.eq_2 _ short]
      rfl
    have none : bits = [] := List.length_eq_zero_iff.1 (by omega)
    simp [none, unpack]

end Futils.Lib.BitPack
