import Futils.Lib.BigEndian
import Futils.Binary.Reader
import Futils.Binary.Writer

/-!
# QUIC variable-length integers

An integer below `2^62` is written in 1, 2, 4 or 8 bytes; the two top bits of the first byte tell
which.  The writer takes the shortest form unless a value asks for a length of its own.
-/

namespace Futils.Quic.Varint

open Binary Lib.BigEndian

def border : Nat → Nat
  | 1 => 0x40
  | 2 => 0x4000
  | 4 => 0x40000000
  | 8 => 0x4000000000000000
  | _ => 0

/-- A value that a field of a frame can carry. -/
abbrev Value := Fin (2 ^ 62)

def inRange (value len : Nat) : Bool := value < border len

/-- `min_len`: the shortest length for a value, `0` when there is none. -/
def minLen (value : Nat) : Nat :=
  if inRange value 1 then 1
  else if inRange value 2 then 2
  else if inRange value 4 then 4
  else if inRange value 8 then 8
  else 0

/-- `len_mask`: the length bits of the first byte. -/
def lenMask : Nat → UInt8
  | 1 => 0x00
  | 2 => 0x40
  | 4 => 0x80
  | 8 => 0xC0
  | _ => 0xff

/-- `mask_to_len`: the length announced by the first byte. -/
def maskToLen (mask : UInt8) : Nat :=
  if mask &&& 0xC0 = 0x00 then 1
  else if mask &&& 0xC0 = 0x40 then 2
  else if mask &&& 0xC0 = 0x80 then 4
  else 8

/-- `write_unchecked`: the value in `len` bytes, with the length bits set in the first one. -/
def encode (value len : Nat) : Bytes :=
  match toBytes len value with
  | [] => []
  | first :: rest => (first ||| lenMask len) :: rest

/-- `write`, for a value without a length of its own. -/
def write (value : Nat) (writer : Writer) : Writer × Bool :=
  if minLen value = 0 then (writer, false)
  else if writer.remain < minLen value then (writer, false)
  else writer.write (encode value (minLen value))

/-- `read_unchecked`: the integer without its two length bits. -/
def decode (data : Bytes) : Nat := ofBytes data % 2 ^ (8 * data.length - 2)

def read : Parser Nat
  | [] => none
  | first :: rest =>
    match Parser.take (maskToLen first) (first :: rest) with
    | none => none
    | some (data, rest) => some (decode data, rest)

/-- `read` with the check of `is_min_len`. -/
def readMinLen : Parser Nat := fun input =>
  match read input with
  | none => none
  | some (value, rest) =>
    if minLen value = input.length - rest.length then some (value, rest) else none

/-- `Value`: an integer and the length it asks for, zero for the shortest. -/
structure LenValue where
  value : Nat
  len : Nat := 0
  deriving DecidableEq

/-- `len`: the length that is written. -/
def LenValue.length (v : LenValue) : Nat := if v.len = 0 then minLen v.value else v.len

/-- `read`, with the length that was found. -/
def readValue : Parser LenValue
  | [] => none
  | first :: rest =>
    match Parser.take (maskToLen first) (first :: rest) with
    | none => none
    | some (data, rest) => some (⟨decode data, maskToLen first⟩, rest)

theorem minLen_cases {value : Nat} (bound : value < 2 ^ 62) :
    (minLen value = 1 ∧ value < 64) ∨ (minLen value = 2 ∧ value < 64 * 256) ∨
      (minLen value = 4 ∧ value < 64 * 256 ^ 3) ∨ (minLen value = 8 ∧ value < 64 * 256 ^ 7) := by
  simp only [minLen, inRange, border, decide_eq_true_eq]
  by_cases one : value < 0x40
  · exact .inl ⟨if_pos one, one⟩
  · by_cases two : value < 0x4000
    · exact .inr (.inl ⟨by rw [if_neg one, if_pos two], by omega⟩)
    · by_cases four : value < 0x40000000
      · exact .inr (.inr (.inl ⟨by rw [if_neg one, if_neg two, if_pos four], by omega⟩))
      · exact .inr (.inr (.inr ⟨by
          rw [if_neg one, if_neg two, if_neg four, if_pos (by omega)], by omega⟩))

variable {value : Nat}

theorem minLen_pos (bound : value < 2 ^ 62) : 0 < minLen value := by
  rcases minLen_cases bound with ⟨eq, -⟩ | ⟨eq, -⟩ | ⟨eq, -⟩ | ⟨eq, -⟩ <;> omega

theorem minLen_of_le (large : 2 ^ 62 ≤ value) : minLen value = 0 := by
  simp only [minLen, inRange, border, decide_eq_true_eq]
  repeat' split
  all_goals omega

theorem minLen_le (value : Nat) : minLen value ≤ 8 := by
  simp only [minLen]
  repeat' split
  all_goals omega

theorem minLen_mono {small large : Nat} (le : small ≤ large) (bound : large < 2 ^ 62) :
    minLen small ≤ minLen large := by
  simp only [minLen, inRange, border, decide_eq_true_eq]
  repeat' split
  all_goals omega

theorem minLen_of_lt (small : value < 64) : minLen value = 1 := by
  simp [minLen, inRange, border, small]

@[simp] theorem length_encode (value len : Nat) : (encode value len).length = len := by
  have length_eq := length_toBytes len value
  unfold encode
  split
  case h_1 empty =>
    rw [empty] at length_eq
    exact length_eq
  case h_2 first rest cons =>
    rw [cons] at length_eq
    exact length_eq

theorem writes_varint (bound : value < 2 ^ 62) :
    Writer.Writes (write value) (encode value (minLen value)) := by
  intro writer room
  have positive := minLen_pos bound
  have enough := room
  rw [length_encode] at enough
  rw [write, if_neg (by omega), if_neg (by omega)]
  exact Writer.writes_write _ _ _

/-- The length bits join a first byte whose two top bits are free. -/
theorem or_lenMask {first : UInt8} (small : first.toNat < 64) {len : Nat}
    (known : len = 1 ∨ len = 2 ∨ len = 4 ∨ len = 8) :
    maskToLen (first ||| lenMask len) = len ∧
      ∃ bits, (first ||| lenMask len).toNat = first.toNat + bits * 64 := by
  have all_bytes : ∀ first : Fin 64, ∀ len ∈ [1, 2, 4, 8],
      maskToLen (UInt8.ofNat first.val ||| lenMask len) = len ∧
        ∃ bits < 4, (UInt8.ofNat first.val ||| lenMask len).toNat = first.val + bits * 64 := by
    decide
  obtain ⟨len_eq, bits, -, sum⟩ := all_bytes ⟨first.toNat, small⟩ len (by simp; omega)
  rw [UInt8.ofNat_toNat] at len_eq sum
  exact ⟨len_eq, bits, sum⟩

theorem reads_encode {len : Nat} (known : len = 1 ∨ len = 2 ∨ len = 4 ∨ len = 8)
    (bound : value < 64 * 256 ^ (len - 1)) : Parser.Reads read (encode value len) value := by
  obtain ⟨width, rfl⟩ : ∃ width, len = width + 1 := ⟨len - 1, by omega⟩
  rw [Nat.add_sub_cancel] at bound
  have positive : 0 < 256 ^ width := Nat.pow_pos (by decide)
  have top_lt := (Nat.div_lt_iff_lt_mul positive).2 bound
  have top_eq : (UInt8.ofNat (value / 256 ^ width)).toNat = value / 256 ^ width := by
    rw [UInt8.toNat_ofNat', Nat.mod_eq_of_lt (Nat.lt_trans top_lt (by decide))]
  have encode_eq : encode value (width + 1) =
      (UInt8.ofNat (value / 256 ^ width) ||| lenMask (width + 1)) :: toBytes width value := rfl
  obtain ⟨len_eq, _, first_eq⟩ := or_lenMask (top_eq.symm ▸ top_lt) known
  have decode_eq : decode (encode value (width + 1)) = value := by
    rw [decode, length_encode, encode_eq, ofBytes, length_toBytes, ofBytes_toBytes, first_eq,
      top_eq, show 8 * (width + 1) - 2 = 6 + 8 * width by omega, Nat.pow_add, Nat.pow_mul,
      Nat.add_mul,
      Nat.mul_assoc, Nat.add_right_comm, Nat.add_mul_mod_self_right, Nat.mul_comm,
      Nat.div_add_mod, Nat.mod_eq_of_lt bound]
  intro rest
  have shape : encode value (width + 1) ++ rest =
      (UInt8.ofNat (value / 256 ^ width) ||| lenMask (width + 1)) ::
        (toBytes width value ++ rest) := rfl
  have taken := Parser.reads_take (encode value (width + 1)) rest
  rw [length_encode, shape] at taken
  rw [shape, read, len_eq, taken]
  simp only [decode_eq]

theorem reads_varint (bound : value < 2 ^ 62) :
    Parser.Reads read (encode value (minLen value)) value := by
  rcases minLen_cases bound with ⟨eq, lt⟩ | ⟨eq, lt⟩ | ⟨eq, lt⟩ | ⟨eq, lt⟩
  all_goals
    rw [eq]
    exact reads_encode (by simp) (by simpa using lt)

theorem reads_minLen (bound : value < 2 ^ 62) :
    Parser.Reads readMinLen (encode value (minLen value)) value := by
  intro rest
  rw [readMinLen, reads_varint bound]
  simp

theorem readValue_of_read {input rest : Bytes} (found : read input = some (value, rest)) :
    readValue input = some (⟨value, input.length - rest.length⟩, rest) := by
  cases input with
  | nil => cases found
  | cons first tail =>
    cases taken : Parser.take (maskToLen first) (first :: tail) with
    | none =>
      rw [read, taken] at found
      cases found
    | some pair =>
      rw [read, taken] at found
      rw [readValue, taken]
      cases found
      rw [Parser.take] at taken
      split at taken
      · cases taken
      cases taken
      simp only [Option.some.injEq, Prod.mk.injEq, and_true, LenValue.mk.injEq, true_and]
      rw [List.length_drop]
      omega

theorem inRange_iff {len : Nat} : inRange value len ↔
    (len = 1 ∨ len = 2 ∨ len = 4 ∨ len = 8) ∧ value < 64 * 256 ^ (len - 1) := by
  rw [inRange, border.eq_def]
  split <;> simp_all

theorem reads_value {len : Nat} (fits : inRange value len) :
    Parser.Reads readValue (encode value len) ⟨value, len⟩ := by
  obtain ⟨known, bound⟩ := inRange_iff.1 fits
  intro rest
  have found := readValue_of_read (reads_encode known bound rest)
  rw [List.length_append, Nat.add_sub_cancel, length_encode] at found
  exact found

theorem inRange_minLen (known : minLen value ≠ 0) : inRange value (minLen value) := by
  unfold minLen at known ⊢
  repeat' split
  all_goals simp_all

section Fields

/-- `write(w, a) && write(w, b) && …`: the fields of a frame one after the other. -/
def writeFields : List Nat → Writer → Writer × Bool
  | [] => fun writer => (writer, true)
  | value :: fields => Writer.andThen (write value) (writeFields fields)

/-- `len(a) + len(b) + …`. -/
def fieldsLen (fields : List Nat) : Nat := (fields.map minLen).sum

def encodeFields : List Nat → Bytes
  | [] => []
  | value :: fields => encode value (minLen value) ++ encodeFields fields

@[simp] theorem length_encodeFields (fields : List Nat) :
    (encodeFields fields).length = fieldsLen fields := by
  induction fields with
  | nil => rfl
  | cons value fields ih => simp [encodeFields, fieldsLen, ih]

theorem writes_fields {fields : List Nat} (bound : ∀ value ∈ fields, value < 2 ^ 62) :
    Writer.Writes (writeFields fields) (encodeFields fields) := by
  induction fields with
  | nil => exact Writer.writes_true
  | cons value fields ih =>
    exact .andThen (writes_varint (bound _ (by simp))) (ih (List.forall_mem_cons.1 bound).2)

/-- A field that is no variable-length integer is not written. -/
theorem writeFields_ok {fields : List Nat} {writer : Writer}
    (ok : (writeFields fields writer).2) : ∀ value ∈ fields, value < 2 ^ 62 := by
  induction fields generalizing writer with
  | nil => simp
  | cons value fields ih =>
    simp only [writeFields, Writer.andThen] at ok
    split at ok
    case isTrue written =>
      intro other member
      rcases List.mem_cons.1 member with rfl | later
      · by_contra large
        simp [write, minLen_of_le (not_lt.1 large)] at written
      · exact ih ok _ later
    case isFalse failed => exact absurd ok failed

end Fields

end Futils.Quic.Varint
