import Futils.Quic.Varint

/-!
# Fitting frame data to the room of a packet

`calc_data.h` decides how many bytes of data a frame can carry in `to_fit` bytes, with or without a
length field.  The signed intermediate length may become negative before the shorter length field
of the shrunken data is taken into account.
-/

namespace Futils.Quic.Frame

open Varint

/-- `StreamDataRange`: the fixed part of a frame and the data it may carry. -/
structure StreamDataRange where
  /-- Bytes of the frame besides the length field and the data. -/
  fixedLength : Nat
  maxLength : Nat
  minZero : Bool := false

namespace StreamDataRange

/-- `length_exists_max_len`: the frame with its length field. -/
def lengthExistsMaxLen (range : StreamDataRange) : Nat :=
  (range.fixedLength + minLen range.maxLength + range.maxLength) % 2 ^ 64

/-- `length_no_max_len`: the frame without length field. -/
def lengthNoMaxLen (range : StreamDataRange) : Nat :=
  (range.fixedLength + range.maxLength) % 2 ^ 64

end StreamDataRange

open StreamDataRange

/-- Conversion of a signed length to `uint64_t`. -/
def toU64 (value : Int) : Nat := (value % 2 ^ 64).toNat

/-- The loop of `correct_delta`, with `left` rounds to go at round `i`. -/
def correctDeltaLoop (toFit : Nat) (range : StreamDataRange) (dataLen : Int) : Nat → Nat → Nat
  | i, 0 => i - 1
  | i, left + 1 =>
    if { range with maxLength := toU64 (dataLen + i) }.lengthExistsMaxLen > toFit then i - 1
    else correctDeltaLoop toFit range dataLen (i + 1) left

variable (toFit : Nat) (range : StreamDataRange)

/-- `correct_delta`: how many of `delta` saved bytes the data can use. -/
def correctDelta (dataLen : Int) (delta : Nat) : Nat :=
  correctDeltaLoop toFit range dataLen 1 delta

/-- The data length of `shrink_to_fit_with_len` before the length field is looked at again. -/
def shrunkLen : Int :=
  if range.lengthExistsMaxLen > toFit then
    range.maxLength - (range.lengthExistsMaxLen - toFit : Nat)
  else range.maxLength

/-- The correction for a length field that became shorter with the data. -/
def correctedLen (dataLen : Int) : Int :=
  let lengthLen := minLen range.maxLength
  let fixedLengthLen := if dataLen < 0 then 1 else minLen dataLen.toNat
  let diffVarintLen := lengthLen - fixedLengthLen
  if diffVarintLen ≠ 0 then dataLen + correctDelta toFit range dataLen diffVarintLen
  else dataLen

/-- `shrink_to_fit_with_len`: frame length, data length and whether the frame can be sent. -/
def shrinkToFitWithLen : Nat × Nat × Bool :=
  if !inRange range.maxLength 8 then (0, 0, false)
  else
    let dataLen := correctedLen toFit range (shrunkLen toFit range)
    if (if range.minZero then dataLen < 0 else dataLen ≤ 0) then (0, 0, false)
    else ({ range with maxLength := dataLen.toNat }.lengthExistsMaxLen, dataLen.toNat, true)

/-- `shrink_to_fit_no_len`: frame length, data length and whether the frame fills `toFit`. -/
def shrinkToFitNoLen : Nat × Nat × Bool :=
  let toWrite := range.lengthNoMaxLen
  if toWrite > toFit ∧ range.maxLength < toWrite - toFit then (0, 0, false)
  else
    let dataLen := if toWrite > toFit then range.maxLength - (toWrite - toFit) else range.maxLength
    let fixedToWrite := { range with maxLength := dataLen }.lengthNoMaxLen
    (fixedToWrite, dataLen, fixedToWrite == toFit)

section Specification

variable {toFit : Nat} {range : StreamDataRange}

/-- Length of the frame that carries `size` bytes with a length field, before it wraps. -/
def StreamDataRange.sized (range : StreamDataRange) (size : Nat) : Nat :=
  range.fixedLength + minLen size + size

theorem lengthExistsMaxLen_eq {size : Nat} (fixed_lt : range.fixedLength < 2 ^ 62)
    (size_lt : size < 2 ^ 62) :
    { range with maxLength := size }.lengthExistsMaxLen = range.sized size := by
  have len_le := minLen_le size
  simp only [lengthExistsMaxLen, sized]
  omega

theorem lengthNoMaxLen_eq {size : Nat} (fixed_lt : range.fixedLength < 2 ^ 62)
    (size_lt : size < 2 ^ 62) :
    { range with maxLength := size }.lengthNoMaxLen = range.fixedLength + size := by
  simp only [lengthNoMaxLen]
  omega

theorem sized_mono {small large : Nat} (le : small ≤ large) (bound : large < 2 ^ 62) :
    range.sized small ≤ range.sized large := by
  have len_le := minLen_mono le bound
  simp only [sized]
  omega

theorem toU64_natCast {value : Nat} (bound : value < 2 ^ 62) : toU64 (value : Int) = value := by
  simp only [toU64]
  omega

/-- The loop of `correct_delta` stops at the last length it found to fit. -/
theorem correctDeltaLoop_fits {dataLen : Int} {i left : Nat} :
    let used := correctDeltaLoop toFit range dataLen i left
    used ≤ i - 1 + left ∧ (used = i - 1 ∨
      { range with maxLength := toU64 (dataLen + used) }.lengthExistsMaxLen ≤ toFit) := by
  induction left generalizing i with
  | zero => exact ⟨le_rfl, .inl rfl⟩
  | succ left ih =>
    rw [correctDeltaLoop]
    split
    case isTrue => exact ⟨by omega, .inl rfl⟩
    case isFalse next_fits =>
      obtain ⟨used_le, used_fits⟩ := @ih (i + 1)
      rw [Nat.add_sub_cancel] at used_le used_fits
      refine ⟨by omega, .inr ?_⟩
      rcases used_fits with used_eq | used_fits
      · rw [used_eq]
        omega
      · exact used_fits

theorem correctedLen_fits {dataLen : Int} {size : Nat} (fixed_lt : range.fixedLength < 2 ^ 62)
    (bound : dataLen < 2 ^ 62) (fits : 0 ≤ dataLen → range.sized dataLen.toNat ≤ toFit)
    (corrected : correctedLen toFit range dataLen = size) :
    dataLen ≤ size ∧ size < 2 ^ 62 ∧ range.sized size ≤ toFit := by
  have len_le := minLen_le range.maxLength
  obtain ⟨lengthLen, length_len_eq⟩ : ∃ lengthLen, lengthLen =
    if dataLen < 0 then 1 else minLen dataLen.toNat := ⟨_, rfl⟩
  simp only [correctedLen, ← length_len_eq] at corrected
  split at corrected
  case isTrue saved =>
    obtain ⟨used_le, used_fits⟩ := @correctDeltaLoop_fits toFit range dataLen 1
      (minLen range.maxLength - lengthLen)
    rw [correctDelta] at corrected
    -- A shorter length field means that the data is far below the bound.
    have small : dataLen < 64 * 256 ^ 3 := by
      by_cases negative : dataLen < 0
      · omega
      · rw [if_neg negative] at length_len_eq
        rcases @minLen_cases dataLen.toNat (by omega) with case | case | case | case <;> omega
    refine ⟨by omega, by omega, ?_⟩
    rcases used_fits with used_eq | used_fits
    · have same : dataLen.toNat = size := by omega
      rw [← same]
      exact fits (by omega)
    · rwa [corrected, toU64_natCast (by omega), lengthExistsMaxLen_eq fixed_lt (by omega)]
        at used_fits
  case isFalse =>
    subst corrected
    exact ⟨Int.le_refl _, by omega, fits (by omega)⟩

variable (fixed_lt : range.fixedLength < 2 ^ 62) (max_lt : range.maxLength < 2 ^ 62)
include fixed_lt max_lt

/-- A frame that fits with its length field is sent in full, unless it must not be empty. -/
theorem shrinkToFitWithLen_full (fits : range.sized range.maxLength ≤ toFit) :
    shrinkToFitWithLen toFit range =
      if range.minZero || range.maxLength != 0 then
        (range.sized range.maxLength, range.maxLength, true)
      else (0, 0, false) := by
  have in_range : inRange range.maxLength 8 := by
    simp only [inRange, border, decide_eq_true_eq]
    omega
  have length_eq : range.lengthExistsMaxLen = range.sized range.maxLength :=
    lengthExistsMaxLen_eq fixed_lt max_lt
  have shrunk_eq : shrunkLen toFit range = range.maxLength := by
    rw [shrunkLen]
    omega
  have corrected_eq : correctedLen toFit range range.maxLength = range.maxLength := by
    simp only [correctedLen]
    rw [if_neg (show ¬ (range.maxLength : Int) < 0 by omega), if_neg (by simp)]
  have refused : (if range.minZero then (range.maxLength : Int) < 0
      else (range.maxLength : Int) ≤ 0) ↔ ¬ (range.minZero || range.maxLength != 0) := by
    cases range.minZero <;> simp
  simp only [shrinkToFitWithLen, in_range, shrunk_eq, corrected_eq, refused,
    Int.toNat_natCast, length_eq, ite_not]
  rw [if_neg (by simp)]

/-- The data of a frame that does not fit is shortened so that it does. -/
theorem shrunkLen_fits :
    shrunkLen toFit range ≤ range.maxLength ∧ (0 ≤ shrunkLen toFit range →
      range.sized (shrunkLen toFit range).toNat ≤ toFit) := by
  have length_eq := lengthExistsMaxLen_eq fixed_lt max_lt
  rw [shrunkLen, length_eq]
  split
  case isTrue cut =>
    refine ⟨by omega, fun positive => ?_⟩
    obtain ⟨size, size_eq⟩ : ∃ size : Nat,
        (range.maxLength : Int) - (range.sized _ - toFit : Nat) = size :=
      ⟨_, (Int.toNat_of_nonneg positive).symm⟩
    have len_mono := minLen_mono (show size ≤ range.maxLength by omega) max_lt
    rw [size_eq, Int.toNat_natCast]
    simp only [sized] at cut size_eq ⊢
    omega
  case isFalse => exact ⟨Int.le_refl _, fun _ => by rw [Int.toNat_natCast]; omega⟩

/-- What `shrink_to_fit_with_len` accepts fits and is not longer than the data. -/
theorem shrinkToFitWithLen_fits {len size : Nat}
    (shrunk : shrinkToFitWithLen toFit range = (len, size, true)) :
    size ≤ range.maxLength ∧ range.sized size ≤ toFit ∧ (range.minZero ∨ 0 < size) := by
  by_cases whole : range.sized range.maxLength ≤ toFit
  · rw [shrinkToFitWithLen_full fixed_lt max_lt whole] at shrunk
    split at shrunk
    case isTrue accepted =>
      simp only [Prod.mk.injEq, and_true] at shrunk
      rw [← shrunk.2]
      exact ⟨le_rfl, whole, by simpa [Nat.pos_iff_ne_zero] using accepted⟩
    case isFalse => simp at shrunk
  · obtain ⟨shrunk_le, shrunk_fits⟩ := @shrunkLen_fits _ _ fixed_lt max_lt
    simp only [shrinkToFitWithLen] at shrunk
    rw [if_neg (by simpa [inRange, border] using max_lt)] at shrunk
    by_cases refused : if range.minZero then
        correctedLen toFit range (shrunkLen toFit range) < 0
      else correctedLen toFit range (shrunkLen toFit range) ≤ 0
    · simp [if_pos refused] at shrunk
    · rw [if_neg refused, Prod.mk.injEq, Prod.mk.injEq] at shrunk
      have positive : 0 ≤ correctedLen toFit range (shrunkLen toFit range) := by
        split at refused <;> omega
      have size_eq : correctedLen toFit range (shrunkLen toFit range) = size := by omega
      obtain ⟨-, size_lt, size_fits⟩ :=
        correctedLen_fits fixed_lt (by omega) shrunk_fits size_eq
      refine ⟨?_, size_fits, ?_⟩
      · by_contra longer
        have longer_sized :=
          @sized_mono range _ _ (le_of_lt (not_le.1 longer)) size_lt
        omega
      · split at refused
        · exact .inl ‹_›
        · exact .inr (by omega)

/-- A frame that fits only without its length field is shortened, and the shorter one fits. -/
theorem shrinkToFitWithLen_short (room : range.fixedLength + range.maxLength < toFit)
    (short : toFit < range.sized range.maxLength) :
    ∃ size, shrinkToFitWithLen toFit range = (range.sized size, size, true) ∧
      size < range.maxLength ∧ range.sized size ≤ toFit := by
  have in_range : inRange range.maxLength 8 := by
    simp only [inRange, border, decide_eq_true_eq]
    omega
  have length_eq := lengthExistsMaxLen_eq fixed_lt max_lt
  have len_le := minLen_le range.maxLength
  -- A length field of one byte always fits, so the data is longer than 63 bytes.
  have long : 64 ≤ range.maxLength := by
    by_contra small
    have one := minLen_of_lt (not_le.1 small)
    simp only [sized] at short
    omega
  have shrunk_pos : 0 < shrunkLen toFit range := by
    rw [shrunkLen, length_eq]
    simp only [sized] at short ⊢
    omega
  obtain ⟨shrunk_le, shrunk_fits⟩ := @shrunkLen_fits _ _ fixed_lt max_lt
  obtain ⟨size, size_eq⟩ : ∃ size : Nat,
      correctedLen toFit range (shrunkLen toFit range) = size :=
    ⟨_, (Int.toNat_of_nonneg (by simp only [correctedLen]; split <;> omega)).symm⟩
  obtain ⟨shrunk_le_size, size_lt, size_fits⟩ :=
    correctedLen_fits fixed_lt (by omega) shrunk_fits size_eq
  have not_refused : ¬ (if range.minZero then (size : Int) < 0 else (size : Int) ≤ 0) := by
    split <;> omega
  refine ⟨size, ?_, ?_, size_fits⟩
  · simp only [shrinkToFitWithLen, in_range, size_eq]
    rw [if_neg (by simp), if_neg not_refused, Int.toNat_natCast,
      lengthExistsMaxLen_eq fixed_lt size_lt]
  · by_contra reaches
    have longer := @sized_mono range _ _ (not_lt.1 reaches) size_lt
    omega

theorem lengthNoMaxLen_self : range.lengthNoMaxLen = range.fixedLength + range.maxLength :=
  lengthNoMaxLen_eq fixed_lt max_lt

theorem shrinkToFitNoLen_no_room (no_room : toFit < range.fixedLength) :
    shrinkToFitNoLen toFit range = (0, 0, false) := by
  have length_eq := lengthNoMaxLen_self fixed_lt max_lt
  simp only [shrinkToFitNoLen]
  rw [if_pos (by omega)]

/-- Without a length field a frame is cut to fill the room it has. -/
theorem shrinkToFitNoLen_cut (room : range.fixedLength ≤ toFit)
    (cut : toFit ≤ range.fixedLength + range.maxLength) :
    shrinkToFitNoLen toFit range = (toFit, toFit - range.fixedLength, true) := by
  have length_eq := lengthNoMaxLen_self fixed_lt max_lt
  have data_eq : (if range.lengthNoMaxLen > toFit then
      range.maxLength - (range.lengthNoMaxLen - toFit) else range.maxLength) =
        toFit - range.fixedLength := by
    split <;> omega
  have fixed_eq : { range with maxLength := toFit - range.fixedLength }.lengthNoMaxLen = toFit := by
    rw [lengthNoMaxLen_eq fixed_lt (by omega)]
    omega
  simp only [shrinkToFitNoLen, data_eq, fixed_eq, beq_self_eq_true]
  rw [if_neg (by omega)]

/-- Data that leaves room is not sent without a length field. -/
theorem shrinkToFitNoLen_longer (longer : range.fixedLength + range.maxLength < toFit) :
    shrinkToFitNoLen toFit range =
      (range.fixedLength + range.maxLength, range.maxLength, false) := by
  have length_eq := lengthNoMaxLen_self fixed_lt max_lt
  have not_exact := beq_eq_false_iff_ne.2 (Nat.ne_of_lt longer)
  have data_eq : (if range.lengthNoMaxLen > toFit then
      range.maxLength - (range.lengthNoMaxLen - toFit) else range.maxLength) =
        range.maxLength := if_neg (by omega)
  simp only [shrinkToFitNoLen, data_eq]
  rw [if_neg (by omega), length_eq, not_exact]

end Specification

end Futils.Quic.Frame
