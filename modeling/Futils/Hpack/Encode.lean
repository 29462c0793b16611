import Futils.Core.Basic
import Futils.Hpack.HuffmanTable
import Futils.Lib.Incremental

/-!
# HPACK primitives

Integers with a prefix of `n` bits, and strings, which carry their length and go through the Huffman
code when that makes them shorter.  QPACK uses the same primitives with other prefixes.
-/

namespace Futils.Hpack

open Lib.BitPack Lib.PrefixCode Lib.Incremental Huffman List

/-- `HpackError`; `undefinedShift` is not a value of the source but a shift whose result the language
leaves open. -/
inductive HpackError where
  | tooLargeNumber
  | tooShortNumber
  | internal
  | inputLength
  | outputLength
  | invalidMask
  | invalidValue
  | notExists
  | tableUpdate
  | undefinedShift
  deriving DecidableEq

section Huffman

variable (str : Bytes)

/-- `get_huffman_len`: the bytes the Huffman code of a string takes. -/
def getHuffmanLen : Nat :=
  ((str.map fun byte => (codeOf byte.toNat).bits).sum + 7) / 8

def huffmanBits : List Bool := str.flatMap fun byte => (codeOf byte.toNat).write

/-- `encode_huffman`: the code words, filled up with ones to a whole byte. -/
def encodeHuffman : Bytes :=
  let bits := huffmanBits str
  pack (bits ++ List.replicate ((8 - bits.length % 8) % 8) true)

/-- `decode_huffman_achar`; `allone` is one more than the number of bits read while all are ones,
and zero after the first that is not. -/
def decodeHuffmanAchar : CodeTree Nat → List Bool → Nat → Except HpackError Nat × List Bool × Nat
  | .empty, bits, allone => (.error .invalidValue, bits, allone)
  | .leaf value, bits, allone => (.ok value, bits, allone)
  | .node _ _, [], allone => (.error .tooShortNumber, [], allone)
  | .node zero _, false :: bits, _ => decodeHuffmanAchar zero bits 0
  | .node _ one, true :: bits, allone =>
    decodeHuffmanAchar one bits (if allone ≠ 0 then allone + 1 else 0)

/-- The loop of `decode_huffman`.  A character takes at least one bit, so that as many rounds as
there are bits are enough. -/
def decodeHuffmanLoop : Nat → List Bool → Bytes → Except HpackError Bytes
  | _, [], res => .ok res
  | 0, _ :: _, _ => .error .internal
  | rounds + 1, bits, res =>
    match decodeHuffmanAchar decodeTree bits 1 with
    | (.error .tooShortNumber, rest, allone) =>
      -- the source compares `allone - 1`, which wraps at zero, with 7
      if rest ≠ [] ∧ (allone = 0 ∨ 8 < allone) then .error .tooLargeNumber else .ok res
    | (.error error, _, _) => .error error
    | (.ok value, rest, _) =>
      if 256 ≤ value then .error .invalidValue
      else decodeHuffmanLoop rounds rest (res ++ [UInt8.ofNat value])

def decodeHuffman (data : Bytes) : Except HpackError Bytes :=
  decodeHuffmanLoop (unpack data).length (unpack data) []

/-- A character is decoded on a walk through the tree. -/
theorem decodeHuffmanAchar_walk (tree : CodeTree Nat) (bits : List Bool) (allone : Nat) :
    ∃ left ones, decodeHuffmanAchar tree bits allone = match tree.walk bits with
      | .ok (value, rest) => (.ok value, rest, ones)
      | .error .outOfBits => (.error .tooShortNumber, [], ones)
      | .error .deadEnd => (.error .invalidValue, left, ones) := by
  fun_induction CodeTree.walk tree bits generalizing allone with
  | case1 bits => exact ⟨bits, allone, rfl⟩
  | case2 | case3 => exact ⟨[], allone, rfl⟩
  | case4 zero one bits ih => exact ih 0
  | case5 zero one bits ih => exact ih _

theorem length_huffmanBits :
    (huffmanBits str).length = (str.map fun byte => (codeOf byte.toNat).bits).sum := by
  have known (byte : UInt8) := length_write (lt_trans byte.toNat_lt (by decide : 2 ^ 8 < 257))
  simp [huffmanBits, known]

theorem length_encodeHuffman : (encodeHuffman str).length = getHuffmanLen str := by
  rw [encodeHuffman, length_pack, length_append, length_replicate, getHuffmanLen,
    length_huffmanBits]
  omega

/-- The loop reads a string back; what is left at the end are fewer than eight ones. -/
theorem decodeHuffmanLoop_huffmanBits {padding : Nat} (short : padding < 8) (str : Bytes) :
    ∀ (rounds : Nat) (res : Bytes),
      (huffmanBits str ++ replicate padding true).length ≤ rounds →
      decodeHuffmanLoop rounds (huffmanBits str ++ replicate padding true) res =
        .ok (res ++ str) := by
  induction str with
  | nil =>
    intro rounds res enough
    obtain ⟨_, _, stuck⟩ := decodeHuffmanAchar_walk decodeTree (replicate padding true) 1
    rw [walk_decodeTree_ones _ short] at stuck
    cases padding with
    | zero => simp [huffmanBits, decodeHuffmanLoop]
    | succ padding =>
      simp only [huffmanBits, flatMap_nil, nil_append, replicate_succ,
        length_cons] at enough stuck ⊢
      obtain ⟨-, rfl⟩ : ∃ fewer, rounds = fewer + 1 := ⟨rounds - 1, by omega⟩
      simp [decodeHuffmanLoop, stuck]
  | cons byte str ih =>
    intro rounds res enough
    have known : byte.toNat < 257 := lt_trans byte.toNat_lt (by decide)
    obtain ⟨bit, word, write⟩ := exists_cons_of_ne_nil (write_ne_nil known)
    have bits : huffmanBits (byte :: str) ++ replicate padding true =
        bit :: word ++ (huffmanBits str ++ replicate padding true) := by
      simp [huffmanBits, write]
    have walked := walk_decodeTree known (huffmanBits str ++ replicate padding true)
    rw [write] at walked
    obtain ⟨_, _, found⟩ := decodeHuffmanAchar_walk decodeTree
      (bit :: word ++ (huffmanBits str ++ replicate padding true)) 1
    rw [walked] at found
    rw [bits] at enough ⊢
    simp only [cons_append, length_cons, length_append] at enough found ⊢
    obtain ⟨rounds, rfl⟩ : ∃ fewer, rounds = fewer + 1 := ⟨rounds - 1, by omega⟩
    have small : ¬ 256 ≤ byte.toNat := not_le.2 byte.toNat_lt
    have rest := ih rounds (res ++ [byte]) (by rw [length_append]; omega)
    simp [decodeHuffmanLoop, found, small, rest]

/-- The bits of the code of a string: the code words and fewer than eight ones. -/
theorem unpack_encodeHuffman : unpack (encodeHuffman str) =
    huffmanBits str ++ replicate ((8 - (huffmanBits str).length % 8) % 8) true := by
  refine unpack_pack ?_
  rw [length_append, length_replicate]
  omega

/-- Decoding the Huffman code of a string gives the string back. -/
theorem decodeHuffman_encodeHuffman : decodeHuffman (encodeHuffman str) = .ok str := by
  have short : (8 - (huffmanBits str).length % 8) % 8 < 8 := Nat.mod_lt _ (by decide)
  rw [decodeHuffman, unpack_encodeHuffman, decodeHuffmanLoop_huffmanBits short str _ [] le_rfl,
    nil_append]

/-- A string survives the Huffman code, which takes as many bytes as computed in advance and is
padded with fewer than eight ones. -/
theorem huffman_round_trip : decodeHuffman (encodeHuffman str) = .ok str ∧
    (encodeHuffman str).length = getHuffmanLen str ∧
    ∃ padding < 8, unpack (encodeHuffman str) = huffmanBits str ++ replicate padding true :=
  ⟨decodeHuffman_encodeHuffman str, length_encodeHuffman str, _, Nat.mod_lt _ (by decide),
    unpack_encodeHuffman str⟩

end Huffman

section Integer

def prefixMask (n : Nat) : Nat := 0xff >>> (8 - n)

/-- The bytes after a full prefix: seven bits each, least significant first.  A `size_t` takes at most
ten of them. -/
def encodeTail : Nat → Nat → Bytes
  | 0, value => [UInt8.ofNat value]
  | rounds + 1, value =>
    if 0x7f < value then UInt8.ofNat (value % 0x80 ||| 0x80) :: encodeTail rounds (value / 0x80)
    else [UInt8.ofNat value]

def encodeInteger (n value firstmask : Nat) : Except HpackError Bytes :=
  if firstmask &&& prefixMask n ≠ 0 then .error .invalidMask
  else if value < prefixMask n then .ok [UInt8.ofNat (firstmask ||| value)]
  else .ok (UInt8.ofNat (firstmask ||| prefixMask n) :: encodeTail 10 (value - prefixMask n))

/-- `(byte & 0x7f) << m` on an `int`, sign-extended when added to a `uint64_t`; shifts from 32 on
are undefined. -/
def shiftInt (operand m : Nat) : Option Nat :=
  if m < 32 then
    let result := operand * 2 ^ m % 2 ^ 32
    some (if result < 2 ^ 31 then result else result + (2 ^ 64 - 2 ^ 32))
  else none

/-- The loop of `decode_integer` -/
def decodeTail : Bytes → Nat → Nat → Except HpackError (Nat × Bytes)
  | [], _, _ => .error .inputLength
  | byte :: rest, value, m =>
    match shiftInt (byte.toNat &&& 0x7f) m with
    | none => .error .undefinedShift
    | some shifted =>
      if 63 < m + 7 then .error .tooLargeNumber
      else if byte.toNat &&& 0x80 ≠ 0 then decodeTail rest (add64 value shifted) (m + 7)
      else .ok (add64 value shifted, rest)

/-- `decode_integer<n>`: the value and the bits of the first byte above the prefix. -/
def decodeInteger (n : Nat) : Bytes → Except HpackError ((Nat × Nat) × Bytes)
  | [] => .error .inputLength
  | first :: rest =>
    let firstmask := first.toNat &&& (0xff ^^^ prefixMask n)
    let value := first.toNat &&& prefixMask n
    if value < prefixMask n then .ok ((value, firstmask), rest)
    else
      match decodeTail rest value 0 with
      | .error error => .error error
      | .ok (value, rest) => .ok ((value, firstmask), rest)

/-- The first byte above a prefix of `n` bits: what a caller may pass as `firstmask`. -/
def PrefixFree (n firstmask : Nat) : Prop :=
  0 < n ∧ n ≤ 8 ∧ firstmask < 2 ^ 8 ∧ firstmask % 2 ^ n = 0
deriving Decidable

/-- The integers that survive the 32-bit shifts of `decode_integer<n>`. -/
def Representable (n value : Nat) : Prop := value < prefixMask n + 2 ^ 31
deriving Decidable

variable {n firstmask : Nat}

theorem representable_of_lt {value : Nat} (small : value < 2 ^ 31) : Representable n value :=
  Nat.lt_add_left _ small

theorem shiftInt_of_lt {operand m : Nat} (width : m < 32) (fits : operand * 2 ^ m < 2 ^ 31) :
    shiftInt operand m = some (operand * 2 ^ m) := by
  have same : operand * 2 ^ m % 2 ^ 32 = operand * 2 ^ m := Nat.mod_eq_of_lt (by omega)
  rw [shiftInt, if_pos width, same]
  simp only [if_pos fits]

/-- The two bytes a group of seven bits is written as, with and without the continuation bit. -/
theorem group_bits : ∀ group < 0x80,
    ((UInt8.ofNat group).toNat &&& 0x7f = group ∧ (UInt8.ofNat group).toNat &&& 0x80 = 0) ∧
    (UInt8.ofNat (group ||| 0x80)).toNat &&& 0x7f = group ∧
      (UInt8.ofNat (group ||| 0x80)).toNat &&& 0x80 ≠ 0 := by
  decide

section Tail

variable {group m acc : Nat} (rest : Bytes) (small : group < 0x80) (width : m < 32)
  (fits : group * 2 ^ m < 2 ^ 31) (room : acc + group * 2 ^ m < 2 ^ 64)
include small width fits room

theorem decodeTail_last :
    decodeTail (UInt8.ofNat group :: rest) acc m = .ok (acc + group * 2 ^ m, rest) := by
  obtain ⟨⟨low, last⟩, -⟩ := group_bits _ small
  have bounded : ¬ 63 < m + 7 := by omega
  simp only [decodeTail, low, shiftInt_of_lt width fits, last, add64_of_lt room, if_neg bounded,
    ne_eq, not_true_eq_false, if_false]

theorem decodeTail_more :
    decodeTail (UInt8.ofNat (group ||| 0x80) :: rest) acc m =
      decodeTail rest (acc + group * 2 ^ m) (m + 7) := by
  obtain ⟨-, low, more⟩ := group_bits _ small
  have bounded : ¬ 63 < m + 7 := by omega
  simp only [decodeTail, low, shiftInt_of_lt width fits, if_pos more, add64_of_lt room,
    if_neg bounded]

end Tail

/-- The loop reads back what the loop of `encode_integer` wrote, as long as no shift overflows. -/
theorem decodeTail_encodeTail (rest : Bytes) :
    ∀ (rounds value m acc : Nat), value < 0x80 ^ (rounds + 1) → m < 32 → value * 2 ^ m < 2 ^ 31 →
      acc + value * 2 ^ m < 2 ^ 64 →
      decodeTail (encodeTail rounds value ++ rest) acc m = .ok (acc + value * 2 ^ m, rest) := by
  intro rounds
  induction rounds with
  | zero =>
    intro value m acc bound width fits room
    exact decodeTail_last _ (by simpa using bound) width fits room
  | succ rounds ih =>
    intro value m acc bound width fits room
    by_cases small : value ≤ 0x7f
    · rw [encodeTail, if_neg (by omega)]
      exact decodeTail_last _ (by omega) width fits room
    · -- a further group means that at least seven bits are left below the sign bit
      have narrow : m < 24 := by
        have scaled : 0x80 * 2 ^ m ≤ value * 2 ^ m := Nat.mul_le_mul_right _ (by omega)
        exact (Nat.pow_lt_pow_iff_right (by decide : 1 < 2)).1 (by omega)
      have split : value % 0x80 * 2 ^ m + value / 0x80 * 2 ^ (m + 7) = value * 2 ^ m := by
        have whole := Nat.mod_add_div value 0x80
        calc value % 0x80 * 2 ^ m + value / 0x80 * 2 ^ (m + 7)
            = (value % 0x80 + 0x80 * (value / 0x80)) * 2 ^ m := by ring
          _ = value * 2 ^ m := by rw [whole]
      rw [encodeTail, if_pos (by omega), cons_append,
        decodeTail_more _ (Nat.mod_lt _ (by decide)) width (by omega) (by omega),
        ih _ _ _ _ (by omega) (by omega) (by omega)]
      · rw [Nat.add_assoc, split]
      · exact Nat.div_lt_of_lt_mul (by omega)

theorem prefixMask_eq : ∀ n ≤ 8, prefixMask n = 2 ^ n - 1 := by
  decide

theorem and_prefixMask : ∀ n ≤ 8, ∀ byte < 256,
    byte &&& prefixMask n = byte % 2 ^ n ∧
      byte &&& (0xff ^^^ prefixMask n) = byte - byte % 2 ^ n := by
  decide +kernel

theorem PrefixFree.and_eq_zero (free : PrefixFree n firstmask) :
    firstmask &&& prefixMask n = 0 := by
  rw [(and_prefixMask n free.2.1 _ free.2.2.1).1, free.2.2.2]

theorem PrefixFree.mask_pos (free : PrefixFree n firstmask) : 0 < prefixMask n := by
  have power : 2 ^ 1 ≤ 2 ^ n := Nat.pow_le_pow_right (by decide) free.1
  rw [prefixMask_eq n free.2.1]
  omega

/-- A first byte falls apart into the bits of the caller and those of the integer. -/
theorem first_bits {low : Nat} (free : PrefixFree n firstmask) (small : low ≤ prefixMask n) :
    (UInt8.ofNat (firstmask ||| low)).toNat &&& prefixMask n = low ∧
      (UInt8.ofNat (firstmask ||| low)).toNat &&& (0xff ^^^ prefixMask n) = firstmask := by
  obtain ⟨-, width, byte, multiple⟩ := free
  rw [prefixMask_eq n width] at small
  obtain ⟨factor, rfl⟩ := Nat.dvd_of_mod_eq_zero multiple
  have below : low < 2 ^ n := by omega
  have whole := (Nat.two_pow_add_eq_or_of_lt below factor).symm
  have bound : 2 ^ n * factor + low < 256 := by
    rw [← whole]
    exact Nat.or_lt_two_pow byte (lt_of_lt_of_le below (Nat.pow_le_pow_right (by decide) width))
  have toNat : (UInt8.ofNat (2 ^ n * factor ||| low)).toNat = 2 ^ n * factor + low := by
    rw [whole, UInt8.toNat_ofNat', Nat.mod_eq_of_lt bound]
  have bits := and_prefixMask n width _ bound
  have rest : (2 ^ n * factor + low) % 2 ^ n = low := by
    rw [Nat.mul_add_mod, Nat.mod_eq_of_lt below]
  rw [toNat, bits.1, bits.2, rest]
  exact ⟨rfl, Nat.add_sub_cancel _ _⟩

/-- What `encode_integer` writes: the prefix in the first byte tells the caller's bits apart. -/
structure EncodedInteger (n value firstmask : Nat) (bytes : Bytes) : Prop where
  first : ∃ low tail, low ≤ prefixMask n ∧ bytes = UInt8.ofNat (firstmask ||| low) :: tail
  decodes : ∀ rest, decodeInteger n (bytes ++ rest) = .ok ((value, firstmask), rest)

/-- `decode_integer` reads back what `encode_integer` wrote. -/
theorem encodeInteger_spec {n value firstmask : Nat} (free : PrefixFree n firstmask)
    (fits : Representable n value) :
    ∃ bytes, encodeInteger n value firstmask = .ok bytes ∧
      EncodedInteger n value firstmask bytes := by
  have width : n ≤ 8 := free.2.1
  have clear := not_not.2 free.and_eq_zero
  by_cases short : value < prefixMask n
  · refine ⟨_, by rw [encodeInteger, if_neg clear, if_pos short],
      ⟨value, [], short.le, rfl⟩, fun rest => ?_⟩
    obtain ⟨low, high⟩ := first_bits free short.le
    simp only [cons_append, nil_append, decodeInteger, low, high, if_pos short]
  · refine ⟨_, by rw [encodeInteger, if_neg clear, if_neg short],
      ⟨prefixMask n, _, le_rfl, rfl⟩, fun rest => ?_⟩
    obtain ⟨low, high⟩ := first_bits free le_rfl
    have mask : prefixMask n < 256 := by
      rw [prefixMask_eq n width]
      exact lt_of_lt_of_le (Nat.sub_lt (Nat.two_pow_pos n) (by decide))
        (Nat.pow_le_pow_right (by decide) width)
    have remaining : value - prefixMask n < 2 ^ 31 := by
      rw [Representable] at fits
      omega
    have tail := decodeTail_encodeTail rest 10 _ 0 (prefixMask n)
      (lt_trans remaining (by decide)) (by decide) (by simpa using remaining)
      (by omega)
    have back : prefixMask n + (value - prefixMask n) * 2 ^ 0 = value := by omega
    simp only [cons_append, decodeInteger, low, high, lt_irrefl, if_false, tail, back]

end Integer

section String

/-- The length `encode_string` announces: that of the Huffman code when it is the shorter one. -/
def encodedLength (value : Bytes) : Nat :=
  if getHuffmanLen value < value.length then getHuffmanLen value else value.length

def encodeString (prefixed : Nat) (value : Bytes) (commonPrefix flagHuffman : Nat) :
    Except HpackError Bytes :=
  if getHuffmanLen value < value.length then
    (encodeInteger prefixed (getHuffmanLen value) (commonPrefix ||| flagHuffman)).map
      (· ++ encodeHuffman value)
  else (encodeInteger prefixed value.length commonPrefix).map (· ++ value)

/-- `decode_string<prefixed>`: the string and the bits of the first byte above the prefix. -/
def decodeString (prefixed flagHuffman : Nat) (input : Bytes) :
    Except HpackError ((Bytes × Nat) × Bytes) :=
  match decodeInteger prefixed input with
  | .error error => .error error
  | .ok ((size, firstMask), rest) =>
    if rest.length < size then .error .inputLength
    else if firstMask &&& flagHuffman ≠ 0 then
      match decodeHuffman (rest.take size) with
      | .error error => .error error
      | .ok str => .ok ((str, firstMask), rest.drop size)
    else .ok ((rest.take size, firstMask), rest.drop size)

/-- The Huffman flag of a string stands between the caller's bits and the prefix. -/
def StringMasks (prefixed commonPrefix flagHuffman : Nat) : Prop :=
  PrefixFree prefixed commonPrefix ∧ PrefixFree prefixed (commonPrefix ||| flagHuffman) ∧
    commonPrefix &&& flagHuffman = 0 ∧ (commonPrefix ||| flagHuffman) &&& flagHuffman ≠ 0
deriving Decidable

/-- What `encode_string` writes; `mask` tells whether the Huffman code was used. -/
structure EncodedString (prefixed : Nat) (value : Bytes) (commonPrefix flagHuffman mask : Nat)
    (bytes : Bytes) : Prop where
  flagged : mask = commonPrefix ∨ mask = commonPrefix ||| flagHuffman
  first : ∃ low tail, low ≤ prefixMask prefixed ∧ bytes = UInt8.ofNat (mask ||| low) :: tail
  decodes : ∀ rest,
    decodeString prefixed flagHuffman (bytes ++ rest) = .ok ((value, mask), rest)

/-- `decode_string` reads back what `encode_string` wrote. -/
theorem encodeString_spec {prefixed commonPrefix flagHuffman : Nat} {value : Bytes}
    (masks : StringMasks prefixed commonPrefix flagHuffman)
    (fits : Representable prefixed (encodedLength value)) :
    ∃ bytes mask, encodeString prefixed value commonPrefix flagHuffman = .ok bytes ∧
      EncodedString prefixed value commonPrefix flagHuffman mask bytes := by
  obtain ⟨plain, huffman, unset, set⟩ := masks
  by_cases shorter : getHuffmanLen value < value.length
  · rw [encodedLength, if_pos shorter] at fits
    obtain ⟨head, encoded, ⟨low, tail, small, eq⟩, decodes⟩ := encodeInteger_spec huffman fits
    refine ⟨head ++ encodeHuffman _, _, by rw [encodeString, if_pos shorter, encoded]; rfl,
      .inr rfl, ⟨low, tail ++ encodeHuffman _, small, by rw [eq, cons_append]⟩,
      fun rest => ?_⟩
    have size := length_encodeHuffman value
    rw [append_assoc, decodeString, decodes, ← size]
    have enough : ¬ (encodeHuffman value ++ rest).length < (encodeHuffman value).length := by simp
    simp only [if_neg enough, if_pos set, take_left, drop_left,
      decodeHuffman_encodeHuffman]
  · rw [encodedLength, if_neg shorter] at fits
    obtain ⟨head, encoded, ⟨low, tail, small, eq⟩, decodes⟩ := encodeInteger_spec plain fits
    refine ⟨head ++ value, _, by rw [encodeString, if_neg shorter, encoded]; rfl,
      .inl rfl, ⟨low, tail ++ value, small, by rw [eq, cons_append]⟩, fun rest => ?_⟩
    have enough : ¬ (value ++ rest).length < value.length := by simp
    rw [append_assoc, decodeString, decodes]
    simp only [if_neg enough, unset, ne_eq, not_true_eq_false, if_false, take_left,
      drop_left]

end String

section Incremental

theorem stable_decodeTail (value m : Nat) :
    Stable .inputLength fun input => decodeTail input value m := by
  refine .of_answer fun input more => ?_
  induction input generalizing value m with
  | nil => exact .inl rfl
  | cons byte input ih =>
    simp only [cons_append, decodeTail]
    split
    · exact .inr rfl
    split
    · exact .inr rfl
    split
    · exact ih _ _
    · exact .inr rfl

variable {input rest : Bytes}

theorem length_decodeTail {value m result : Nat}
    (read : decodeTail input value m = .ok (result, rest)) : rest.length < input.length := by
  induction input generalizing value m with
  | nil => cases read
  | cons byte input ih =>
    simp only [decodeTail] at read
    split at read
    · cases read
    split at read
    · cases read
    split at read
    case isTrue => exact (ih read).trans (Nat.lt_succ_self _)
    case isFalse => cases read; exact Nat.lt_succ_self _

theorem stable_decodeInteger (n : Nat) : Stable .inputLength (decodeInteger n) := by
  refine .of_answer fun input more => ?_
  cases input with
  | nil => exact .inl rfl
  | cons first input =>
    simp only [cons_append, decodeInteger]
    split
    · exact .inr rfl
    rcases (stable_decodeTail _ _).answer input more with early | same
    · exact .inl (by rw [early])
    · rw [same]
      cases decodeTail input _ 0 <;> exact .inr rfl

theorem length_decodeInteger {n : Nat} {result : Nat × Nat}
    (read : decodeInteger n input = .ok (result, rest)) : rest.length < input.length := by
  match input with
  | [] => cases read
  | first :: input =>
    simp only [decodeInteger] at read
    split at read
    case isTrue => cases read; exact Nat.lt_succ_self _
    case isFalse =>
      split at read
      · cases read
      rename_i tail
      cases read
      exact (length_decodeTail tail).trans (Nat.lt_succ_self _)

theorem stable_decodeString (prefixed flagHuffman : Nat) :
    Stable .inputLength (decodeString prefixed flagHuffman) := by
  refine .of_answer fun input more => ?_
  simp only [decodeString]
  rcases (stable_decodeInteger prefixed).answer input more with early | same
  · exact .inl (by rw [early])
  rw [same]
  match decodeInteger prefixed input with
  | .error error => exact .inr rfl
  | .ok ((size, firstMask), left) =>
    simp only [Except.map]
    split
    · exact .inl rfl
    have longer : ¬ (left ++ more).length < size := by rw [length_append]; omega
    rw [take_append_of_le_length (by omega),
      drop_append_of_le_length (by omega)]
    split
    · cases decodeHuffman (left.take size) <;> exact .inr rfl
    · exact .inr rfl

theorem length_decodeString {prefixed flagHuffman : Nat} {result : Bytes × Nat}
    (read : decodeString prefixed flagHuffman input = .ok (result, rest)) :
    rest.length < input.length := by
  rw [decodeString] at read
  split at read
  · cases read
  rename_i size firstMask left head
  have shorter := length_decodeInteger head
  have dropped : (left.drop size).length ≤ left.length := by simp
  split at read
  · cases read
  split at read
  case isTrue =>
    split at read
    · cases read
    cases read; omega
  case isFalse => cases read; omega

end Incremental

end Futils.Hpack
