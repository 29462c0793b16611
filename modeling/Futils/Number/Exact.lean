import Futils.Number.Parse
import Mathlib.Data.List.Induction

/-!
# Parsed integers are exact

A number that grows digit by digit is compared with the largest value of its type before it is
multiplied by the radix, but not before the digit is added.  The result is therefore exact unless the
digits before some digit denote exactly the quotient of the largest value, and that digit is larger
than the remainder.  The smallest value of a signed type is not reached by a positive number.
-/

namespace Futils.Number

open Sequencer PushBackParserInt List IntType

def digit (c : UInt8) : Nat := (numberTransform c).getD 0

def denoted (radix : Nat) (digits : Bytes) : Nat :=
  digits.foldl (fun value c => value * radix + digit c) 0

inductive Sign
  | none | plus | minus
deriving DecidableEq

namespace Sign

def text : Sign → Bytes
  | .none => []
  | .plus => [43]
  | .minus => [45]

def apply (sign : Sign) (value : Nat) : Int := if sign = .minus then -value else value

end Sign

def IntType.Holds (type : IntType) (value : Int) : Prop := type.min ≤ value ∧ value ≤ type.max
deriving Decidable

/-- No digit is added to the quotient of the largest value that exceeds the remainder. -/
def Carried (type : IntType) (radix : Nat) (digits : Bytes) : Prop :=
  ∀ n < digits.length, denoted radix (digits.take n) = type.max / radix →
    digit (current digits n) ≤ type.max % radix

instance (type : IntType) (radix : Nat) (digits : Bytes) : Decidable (Carried type radix digits) :=
  inferInstanceAs (Decidable (∀ n < digits.length, _ → _))

section Digits

variable {type : IntType} {radix value : Nat} {c : UInt8} {digits : Bytes} {minus : Bool}

theorem denoted_append (radix : Nat) (front : Bytes) (c : UInt8) :
    denoted radix (front ++ [c]) = denoted radix front * radix + digit c := by
  rw [denoted, foldl_append]
  rfl

theorem numberTransform_of_radix (valid : isRadixChar radix c) :
    numberTransform c = some (digit c) ∧ digit c < radix := by
  unfold isRadixChar digit at *
  cases found : numberTransform c with
  | none => simp [found] at valid
  | some d => simpa [found] using valid

theorem wrap_of_holds {value : Int} (holds : type.Holds value) : type.wrap value = value := by
  obtain ⟨low, high⟩ := holds
  rw [wrap, Int.emod_eq_of_lt (by omega) (by omega)]
  omega

theorem holds_of_le (le : value ≤ type.max) : type.Holds value := by
  refine ⟨?_, by omega⟩
  rw [IntType.min]
  split <;> omega

/-- A digit that does not lead out of the type is added exactly. -/
theorem pushBack_of_le (valid : isRadixChar radix c)
    (quotient : value ≤ type.max / radix) (le : value * radix + digit c ≤ type.max) :
    pushBack type radix { result := value, minus } c =
      { result := (value * radix + digit c : Nat), minus } := by
  obtain ⟨transformed, below⟩ := numberTransform_of_radix valid
  have accepted : ¬ ((value : Int) ≠ 0 ∧ ((type.max / radix : Nat) : Int) < value) := fun refused =>
    absurd (Int.ofNat_lt.1 refused.2) (not_lt.2 quotient)
  have shifted : type.wrap (value * radix) = (value * radix : Nat) :=
    wrap_of_holds (holds_of_le (by omega))
  have sum : type.wrap ((value * radix : Nat) + digit c) = (value * radix + digit c : Nat) :=
    wrap_of_holds (holds_of_le le)
  have defined : type.undefinedAt ((value * radix : Nat) + digit c) = false := by
    rw [undefinedAt, decide_eq_false (by omega : ¬ (type.max : Int) < _), Bool.and_false]
  simp only [pushBack, accepted, transformed, shifted, sum, defined, Bool.false_eq_true, if_false,
    not_le.2 below, Bool.or_false]

theorem pushBack_of_lt (beyond : type.max / radix < value) :
    (pushBack type radix { result := value, minus } c).overflow := by
  have filled : (value : Int) ≠ 0 := Int.natCast_ne_zero.2 (Nat.ne_zero_of_lt beyond)
  rw [pushBack, if_neg Bool.false_ne_true, if_pos ⟨filled, Int.ofNat_lt.2 beyond⟩]

theorem pushBack_overflow {parser : PushBackParserInt} (exceeded : parser.overflow) :
    (pushBack type radix parser c).overflow := by
  rw [pushBack, if_pos exceeded, exceeded]

theorem Carried.front {front : Bytes} (carried : Carried type radix (front ++ [c])) :
    Carried type radix front := by
  intro n below quotient
  have small := carried n (by simp; omega)
  rw [take_append_of_le_length (le_of_lt below)] at small
  simpa [current, getElem?_append_left below] using small quotient

theorem Carried.last {front : Bytes} (carried : Carried type radix (front ++ [c]))
    (quotient : denoted radix front = type.max / radix) : digit c ≤ type.max % radix := by
  have small := carried front.length (by simp)
  rw [take_left] at small
  simpa [current] using small quotient

/-- The digits have been added up exactly, or their number is larger than the type allows. -/
theorem pushed_spec (valid : ∀ c ∈ digits, isRadixChar radix c)
    (carried : Carried type radix digits) :
    let parser := digits.foldl (pushBack type radix) { minus }
    (denoted radix digits ≤ type.max → parser = { result := denoted radix digits, minus }) ∧
      (type.max < denoted radix digits → parser.overflow) := by
  induction digits using reverseRecOn with
  | nil => exact ⟨fun _ => rfl, fun exceeded => absurd exceeded (Nat.not_lt_zero _)⟩
  | append_singleton front c ih =>
    obtain ⟨sum, exceeded⟩ :=
      ih (fun b member => valid b (mem_append_left _ member)) carried.front
    have last := valid c (by simp)
    have below := (numberTransform_of_radix last).2
    have quotient := Nat.div_add_mod' type.max radix
    have remainder := Nat.mod_lt type.max (Nat.zero_lt_of_lt below)
    simp only [foldl_append, denoted_append]
    rcases Nat.lt_or_ge type.max (denoted radix front) with tooLarge | fits
    · have larger := Nat.le_mul_of_pos_right (denoted radix front) (Nat.zero_lt_of_lt below)
      exact ⟨fun le => by omega, fun _ => pushBack_overflow (exceeded tooLarge)⟩
    · rw [sum fits]
      rcases Nat.lt_or_ge (type.max / radix) (denoted radix front) with beyond | within
      · have product := Nat.mul_le_mul_right radix beyond
        rw [Nat.succ_mul] at product
        exact ⟨fun le => by omega, fun _ => pushBack_of_lt beyond⟩
      · refine ⟨pushBack_of_le last within, fun tooLarge => ?_⟩
        -- only the quotient itself leads out of the type, and its digit is bounded
        rcases Nat.lt_or_eq_of_le within with less | same
        · have product := Nat.mul_le_mul_right radix less
          rw [Nat.succ_mul] at product
          omega
        · have small := carried.last same
          rw [same] at tooLarge
          omega

end Digits

/-- The sign and the digits of a number are read up to the first byte that is no digit. -/
theorem parseInteger_digits {type : IntType} {radix : Nat} {sign : Sign} {before digits rest : Bytes}
    (radixOk : acceptableRadix radix) (signable : sign = .minus → type.signed)
    (filled : digits ≠ []) (valid : ∀ c ∈ digits, isRadixChar radix c)
    (ends : ∀ c ∈ rest.head?, isRadixChar radix c = false) :
    parseInteger type radix (before ++ (sign.text ++ (digits ++ rest))) before.length =
      let parser := digits.foldl (pushBack type radix) { minus := sign = .minus }
      (if parser.overflow then .overflow else .none, parser,
        before.length + sign.text.length + digits.length) := by
  have blank : ∀ c : UInt8, c = 43 ∨ c = 45 → isRadixChar radix c = false := by
    rintro - (rfl | rfl) <;> rfl
  obtain ⟨c, others, rfl⟩ := exists_cons_of_ne_nil filled
  have first := valid c mem_cons_self
  have noPlus : c ≠ 43 := fun same => by simp [blank c (.inl same)] at first
  have noMinus : (c == 45) = false :=
    beq_eq_false_iff_ne.2 fun same => by simp [blank c (.inr same)] at first
  have taken : (c :: (others ++ rest)).takeWhile (isRadixChar radix) = c :: others := by
    rw [← cons_append, takeWhile_append_of_pos valid]
    cases rest with
    | nil => simp
    | cons b rest => simp [ends b rfl]
  cases sign with
  | none => simp [parseInteger, Sign.text, noPlus, noMinus, taken, radixOk]
  | plus => simp [parseInteger, Sign.text, taken, radixOk]
  | minus => simp [parseInteger, Sign.text, signable rfl, taken, radixOk]

/-- The number is a value of the type exactly when its digits do not exceed the largest one. -/
theorem holds_apply {type : IntType} {sign : Sign} {value : Nat}
    (signable : sign = .minus → type.signed) (reached : sign = .minus → value ≠ type.max + 1) :
    type.Holds (sign.apply value) ↔ value ≤ type.max := by
  rw [Sign.apply]
  split
  case isTrue minus =>
    have other := reached minus
    simp only [IntType.Holds, IntType.min, signable minus, if_true]
    omega
  case isFalse => exact ⟨fun holds => by have high := holds.2; omega, holds_of_le⟩

/-- A number that is spelled in digits is parsed exactly: it is returned if it is a value of the type,
and refused otherwise. -/
theorem parseInteger_exact (bits : Nat) (signed : Bool) (radix : Nat) (binary : 2 ≤ radix)
    (small : radix ≤ 36) (sign : Sign)
    (signable : sign = .minus → signed = true) (before digits rest : Bytes) (filled : digits ≠ [])
    (valid : ∀ c ∈ digits, isRadixChar radix c = true)
    (ends : ∀ c ∈ rest.head?, isRadixChar radix c = false)
    (carried : Carried (.ofBits bits signed) radix digits)
    (reached : sign = .minus → denoted radix digits ≠ (ofBits bits signed).max + 1) :
    let type := ofBits bits signed
    let value := sign.apply (denoted radix digits)
    let number := parseInteger type radix (before ++ (sign.text ++ (digits ++ rest))) before.length
    if type.Holds value then
      number.1 = .none ∧ number.2.1.construct type = value ∧ number.2.1.undefined = false ∧
        number.2.2 = before.length + sign.text.length + digits.length
    else number.1 = .overflow := by
  intro type value number
  have holds : type.Holds value ↔ _ := holds_apply signable reached
  have read : number = _ := parseInteger_digits
    (by simp [acceptableRadix, binary, small]) signable filled valid ends
  obtain ⟨sum, exceeded⟩ := @pushed_spec _ _ _ _ valid carried
  rw [read]
  split
  case isTrue inside =>
    rw [sum (holds.1 inside)]
    refine ⟨rfl, ?_, rfl, rfl⟩
    by_cases minus : sign = .minus
    · have same : value = -(denoted radix digits : Int) := if_pos minus
      simp only [construct, minus, decide_true, Bool.false_eq_true, if_false, if_true]
      rw [← same, wrap_of_holds inside]
    · simp [construct, value, Sign.apply, minus]
  case isFalse outside =>
    exact if_pos (exceeded (not_le.1 fun le => outside (holds.2 le)))

theorem parseInteger_exact_octet :
    (parseInteger (.ofBits 8 false) 10 (ascii "255,") 0).1 = .none ∧
      (parseInteger (.ofBits 8 false) 10 (ascii "255,") 0).2.1.construct (.ofBits 8 false) = 255 := by
  have read := parseInteger_exact 8 false 10 (by decide) (by decide) .none (by decide) []
    (ascii "255") (ascii ",") (by decide) (by decide +kernel) (by decide +kernel) (by decide +kernel)
    (by decide)
  exact ⟨read.1, read.2.1⟩

/-- 256 is read as the octet 0, -2147483648 overflows on the way, and the smallest octet is refused
in binary. -/
theorem parseInteger_inexact :
    (parseInteger (.ofBits 8 false) 10 (ascii "256") 0).1 = .none ∧
      (parseInteger (.ofBits 8 false) 10 (ascii "256") 0).2.1.construct (.ofBits 8 false) = 0 ∧
      (parseInteger (.ofBits 64 false) 10 (ascii "18446744073709551616") 0).1 = .none ∧
      (parseInteger (.ofBits 32 true) 10 (ascii "-2147483648") 0).2.1.undefined = true ∧
      (parseInteger (.ofBits 8 true) 2 (ascii "-10000000") 0).1 = .overflow := by
  decide +kernel

end Futils.Number
