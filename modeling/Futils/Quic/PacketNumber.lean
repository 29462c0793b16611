import Futils.Core.Basic

/-!
# Packet numbers on the wire

A sender writes the low bytes of a packet number, as many as the distance to the largest acknowledged
number asks for.  The receiver takes, of the numbers that end like the wire value, the one closest to
the number it expects next.
-/

namespace Futils.Quic.PacketNumber

structure WireVal where
  value : Nat
  len : Nat
deriving DecidableEq

/-- The answers of `decode`.  Its window is an `int`, which cannot hold the shift by 32. -/
inductive Decoded
  | value (pn : Nat)
  | unexpectedWireLen
  | undefinedShift
deriving DecidableEq

def isWireLen (len : Nat) : Bool := decide (1 ≤ len ∧ len ≤ 4)

/-- `delta` in `decode`. -/
def delta (a b : Nat) : Nat := if a < b then b - a else a - b

/-- `closer` in `decode`: `a` only if it is strictly closer to `t`. -/
def closer (t a b : Nat) : Nat := if delta t a < delta t b then a else b

/-- The candidate that `decode` selects, in the window of the expected number or one beside it. -/
def select (window expected value : Nat) : Nat :=
  let base := expected - expected % window
  let next := add64 base window
  let prev := if base < window then 0 else base - window
  closer expected (add64 base value) (closer expected (add64 prev value) (add64 next value))

def decode (value len largestPn : Nat) : Decoded :=
  if !isWireLen len then .unexpectedWireLen
  else if 31 < 8 * len then .undefinedShift
  else .value (select (2 ^ (8 * len)) (add64 largestPn 1) value)

/-- The loop of `shift_count`: the highest bit that is set below `bits`. -/
def highestBit (bit : Nat) : Nat → Option Nat
  | 0 => none
  | bits + 1 => if bit.testBit bits then some bits else highestBit bit bits

/-- `shift_count`, which is all ones when no bit is set. -/
def shiftCount (bit : Nat) : Nat :=
  if bit = 1 then 0
  else if bit = 2 ∨ bit = 3 then 1
  else (highestBit bit 64).getD max64

/-- `num_unacked` in `encode`. -/
def numUnacked (pn largestAck : Nat) : Nat :=
  if largestAck = max64 then add64 pn 1 else sub64 pn largestAck

/-- `min_bytes` in `encode`. -/
def minBytes (unacked : Nat) : Nat :=
  let bits := add64 (shiftCount unacked) 1
  bits / 8 + if bits % 8 ≠ 0 then 1 else 0

def encode (pn largestAck : Nat) : Option WireVal :=
  let len := minBytes (numUnacked pn largestAck)
  if 1 ≤ len ∧ len ≤ 4 then some ⟨pn % 2 ^ (8 * len), len⟩ else none

section Window

variable {window pn expected : Nat}

/-- Less than half a window ahead of the expected number, half a window ahead in the next one, or in
the very first. -/
def Near (window pn expected : Nat) : Prop :=
  pn < window ∨ 2 * (pn - expected) < window ∨
    2 * (pn - expected) = window ∧ pn / window ≠ expected / window
deriving Decidable

theorem closer_of_lt {t a b : Nat} (closest : delta t a < delta t b) : closer t a b = a :=
  if_pos closest

theorem closer_of_le {t a b : Nat} (closest : delta t b ≤ delta t a) : closer t a b = b :=
  if_neg (not_lt.2 closest)

theorem closer_cases (t a b : Nat) : closer t a b = a ∨ closer t a b = b := by
  unfold closer
  split <;> simp

theorem delta_of_le {a b : Nat} (ordered : a ≤ b) : delta a b = b - a := by
  unfold delta
  split <;> omega

theorem delta_of_ge {a b : Nat} (ordered : b ≤ a) : delta a b = a - b := if_neg (by omega)

/-- The candidates of `select`, with the expected number `base + position`. -/
theorem select_eq {base position value : Nat} (multiple : window ∣ base) (inside : position < window)
    (low : value < window) (range : base < 2 ^ 62) (small : window < 2 ^ 32) :
    select window (base + position) value =
      closer (base + position) (base + value)
        (closer (base + position) ((if base < window then 0 else base - window) + value)
          (base + window + value)) := by
  have mod : (base + position) % window = position := by
    rw [Nat.add_mod, Nat.mod_eq_zero_of_dvd multiple, Nat.zero_add, Nat.mod_mod,
      Nat.mod_eq_of_lt inside]
  simp only [select, mod, Nat.add_sub_cancel]
  rw [add64_of_lt (show base + value < 2 ^ 64 by omega),
    add64_of_lt (show base + window < 2 ^ 64 by omega),
    add64_of_lt (show base + window + value < 2 ^ 64 by omega), add64_of_lt]
  split <;> omega

variable {base position value before : Nat}

/-- The candidate in the window before that of the expected number, if there is one. -/
def Before (window base value before : Nat) : Prop :=
  base = 0 ∧ before = value ∨ window ≤ base ∧ before = base - window + value

/-- In the window of the expected number, less than half a window ahead or without a window before.
-/
theorem closer_same_window (inside : position < window) (low : value < window)
    (ahead : position ≤ value) (candidate : Before window base value before) :
    closer (base + position) (base + value)
        (closer (base + position) before (base + window + value)) = base + value ↔
      base = 0 ∨ 2 * (value - position) < window := by
  have here : delta (base + position) (base + value) = value - position := by
    rw [delta_of_le (by omega)]
    omega
  have next : delta (base + position) (base + window + value) = window + value - position := by
    rw [delta_of_le (by omega)]
    omega
  rcases candidate with ⟨first, rfl⟩ | ⟨later, rfl⟩
  · subst first
    simp only [Nat.zero_add] at here next ⊢
    rw [@closer_of_lt _ _ (window + before) (by omega), closer_of_le (le_rfl)]
    simp
  · have prev : delta (base + position) (base - window + value) = window + position - value := by
      rw [delta_of_ge (by omega)]
      omega
    by_cases same : position = value
    · rw [@closer_of_le _ _ (base + window + value) (by omega),
        closer_of_lt (by omega)]
      omega
    rw [@closer_of_lt _ (base - window + value) _ (by omega)]
    by_cases half : 2 * (value - position) < window
    · rw [closer_of_lt (by omega)]
      simp [half]
    · rw [closer_of_le (by omega)]
      omega

/-- A number in the window behind is selected when it is at most half a window ahead. -/
theorem closer_next_window (inside : position < window) (low : value < window)
    (candidate : Before window base value before) :
    closer (base + position) (base + value)
        (closer (base + position) before (base + window + value)) = base + window + value ↔
      2 * (window + value - position) ≤ window := by
  have next : delta (base + position) (base + window + value) = window + value - position := by
    rw [delta_of_le (by omega)]
    omega
  by_cases half : 2 * (window + value - position) ≤ window
  · have here : delta (base + position) (base + value) = position - value := by
      rw [delta_of_ge (by omega)]
      omega
    have prev : position - value ≤ delta (base + position) before := by
      rcases candidate with ⟨-, rfl⟩ | ⟨-, rfl⟩
      · rw [delta_of_ge (by omega)]
        omega
      · rw [delta_of_ge (by omega)]
        omega
    rw [@closer_of_le _ _ (base + window + value) (by omega),
      closer_of_le (by omega)]
    simp [half]
  · have here : delta (base + position) (base + value) < window + value - position := by
      by_cases ordered : position ≤ value
      · rw [delta_of_le (by omega)]
        omega
      · rw [delta_of_ge (by omega)]
        omega
    simp only [half, iff_false]
    intro selected
    generalize closer (base + position) before (base + window + value) = inner at selected
    unfold closer at selected
    split at selected
    · omega
    case isFalse notHere =>
      rw [selected] at notHere
      omega

theorem closer_le (candidate : Before window base value before) :
    closer (base + position) (base + value)
        (closer (base + position) before (base + window + value)) ≤ base + window + value := by
  have prev : before ≤ base + value := by
    rcases candidate with ⟨-, rfl⟩ | ⟨-, rfl⟩ <;> omega
  rcases closer_cases (base + position) (base + value)
    (closer (base + position) before (base + window + value)) with here | inner
  · omega
  · rcases closer_cases (base + position) before (base + window + value) with chosen | chosen <;>
      omega

end Window

/-- The packet number is selected exactly when it is near enough to the expected one. -/
theorem select_eq_iff {window pn expected : Nat} (positive : 0 < window) (small : window < 2 ^ 32)
    (range : pn < 2 ^ 62) (ahead : expected ≤ pn) :
    select window expected (pn % window) = pn ↔ Near window pn expected := by
  have inside := Nat.mod_lt expected positive
  have low := Nat.mod_lt pn positive
  have expectedParts := Nat.div_add_mod expected window
  have pnParts := Nat.div_add_mod pn window
  have ordered : expected / window ≤ pn / window := Nat.div_le_div_right ahead
  have parts := select_eq (Nat.dvd_mul_right _ _) inside low
    (show window * (expected / window) < 2 ^ 62 by omega) small
  have candidate : Before window (window * (expected / window)) (pn % window)
      ((if window * (expected / window) < window then 0 else
        window * (expected / window) - window) + pn % window) := by
    rcases Nat.eq_zero_or_pos (expected / window) with first | later
    · left
      rw [first, Nat.mul_zero, if_pos positive, Nat.zero_add]
      exact ⟨rfl, rfl⟩
    · have aligned := Nat.mul_le_mul_left window later
      rw [if_neg (by omega)]
      exact .inr ⟨by omega, rfl⟩
  have start : window * (expected / window) = 0 ↔ expected / window = 0 := by
    rw [Nat.mul_eq_zero, or_iff_right (by omega)]
  rw [expectedParts] at parts
  rw [parts, Near]
  -- The number lies in the window of the expected one, in the next one, or further ahead.
  obtain same | next | further : pn / window = expected / window ∨
      pn / window = expected / window + 1 ∨ expected / window + 2 ≤ pn / window := by omega
  · rw [same] at pnParts
    have selected := closer_same_window inside low (by omega) candidate
    rw [expectedParts, pnParts, start] at selected
    rw [pnParts, selected, ← same, Nat.div_eq_zero_iff]
    omega
  · have selected := closer_next_window inside low candidate
    rw [next, Nat.mul_add, Nat.mul_one] at pnParts
    rw [expectedParts, pnParts] at selected
    rw [pnParts]
    omega
  · have bound := @closer_le _ _ (expected % window) _ _ candidate
    have far := Nat.mul_le_mul_left window further
    rw [Nat.mul_add] at far
    rw [expectedParts] at bound
    omega

/-- A packet number comes back exactly when its shift is defined and it is near enough to the one
expected. -/
theorem decode_encode_iff {pn largestAck largestPn : Nat} {wire : WireVal} (range : pn < 2 ^ 62)
    (behind : largestPn < pn) (encoded : encode pn largestAck = some wire) :
    decode wire.value wire.len largestPn = .value pn ↔
      minBytes (numUnacked pn largestAck) ≤ 3 ∧
        Near (2 ^ (8 * minBytes (numUnacked pn largestAck))) pn (largestPn + 1) := by
  simp only [encode] at encoded
  generalize minBytes (numUnacked pn largestAck) = len at encoded ⊢
  split at encoded
  case isTrue valid =>
    cases encoded
    have isLen : isWireLen len := decide_eq_true valid
    simp only [decode, isLen, Bool.not_true, Bool.false_eq_true, if_false]
    by_cases short : len ≤ 3
    · have window : 2 ^ (8 * len) < 2 ^ 32 := Nat.pow_lt_pow_right (by omega) (by omega)
      rw [if_neg (by omega), add64_of_lt (by omega), Decoded.value.injEq,
        select_eq_iff (Nat.two_pow_pos _) window range behind]
      simp [short]
    · rw [if_pos (by omega)]
      simp [short]
  case isFalse => cases encoded

theorem decode_encode_close :
    encode 1000 990 = some ⟨232, 1⟩ ∧ decode 232 1 995 = .value 1000 := by
  have encoded : encode 1000 990 = some ⟨232, 1⟩ := by decide
  exact ⟨encoded, (decode_encode_iff (by decide) (by decide) encoded).2 (by decide)⟩

/-- The distance 255 fits into one byte and is decoded as another number; four bytes are never
decoded. -/
theorem decode_encode_far :
    (encode 1255 1000 = some ⟨231, 1⟩ ∧ decode 231 1 1000 = .value 999) ∧
      encode (2 ^ 24) 0 = some ⟨2 ^ 24, 4⟩ ∧ decode (2 ^ 24) 4 (2 ^ 24 - 1) = .undefinedShift := by
  decide

end Futils.Quic.PacketNumber
