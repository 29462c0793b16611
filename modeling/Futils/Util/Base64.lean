import Futils.Number.Parse
import Mathlib.Data.List.TakeWhile

/-!
# Base64

`encode` takes three bytes at a time and `decode` four characters.  A group of which `decode` has read
no character makes it write without end, a single last character is taken for no data at all, and
`=` is not counted; other texts are decoded exactly, and encodings without negative elements are
decoded back.
-/

namespace Futils.Base64

open List Number

section Model

variable (c62 c63 : UInt8)

def getChar (num : Nat) : UInt8 :=
  if num < 26 then 65 + UInt8.ofNat num
  else if num < 52 then 97 + UInt8.ofNat (num - 26)
  else if num < 62 then 48 + UInt8.ofNat (num - 52)
  else if num = 62 then c62
  else if num = 63 then c63
  else 0

def getNum (c : UInt8) : Nat :=
  if 65 ≤ c ∧ c ≤ 90 then c.toNat - 65
  else if 97 ≤ c ∧ c ≤ 122 then c.toNat - 97 + 26
  else if 48 ≤ c ∧ c ≤ 57 then c.toNat - 48 + 52
  else if c = c62 then 62
  else if c = c63 then 63
  else 0xff

/-- The six-bit parts of three bytes. -/
def sextets (a b c : UInt8) : List Nat :=
  let num := a.toNat * 2 ^ 16 + b.toNat * 2 ^ 8 + c.toNat
  [num / 2 ^ 18 % 64, num / 2 ^ 12 % 64, num / 2 ^ 6 % 64, num % 64]

/-- The loop of `encode`: one character more than `read_three` has read bytes. -/
def encodeLoop : Bytes → Bytes
  | [] => []
  | [a] => ((sextets a 0 0).take 2).map (getChar c62 c63)
  | [a, b] => ((sextets a b 0).take 3).map (getChar c62 c63)
  | a :: b :: c :: data => (sextets a b c).map (getChar c62 c63) ++ encodeLoop data

def encode (noPadding : Bool) (data : Bytes) : Bytes :=
  let text := encodeLoop c62 c63 data
  if noPadding then text else text ++ replicate ((4 - text.length % 4) % 4) 61

/-- The number of a character, which may be of any type; other characters end the data. -/
def number (c : Int) : Option Nat :=
  if c < 0 ∨ 0xff < c then none
  else if getNum c62 c63 (UInt8.ofNat c.toNat) = 0xff then none
  else getNum c62 c63 (UInt8.ofNat c.toNat)

/-- The bytes `buf[1]` to `buf[redsize - 1]` of the big-endian `rep`. -/
def groupBytes (redsize rep : Nat) : Bytes :=
  ([rep / 2 ^ 16, rep / 2 ^ 8, rep].take (redsize - 1)).map UInt8.ofNat

/-- A character in a container whose elements may be signed, as those of a string are. -/
def char (signed : Bool) (c : UInt8) : Int :=
  if signed ∧ 128 ≤ c then c.toNat - 256 else c.toNat

/-- The loops of `decode`, with the part of a group that has been read.  Without any character,
`redsize - 1` wraps, and bytes behind `buf` are read: there is no result. -/
def decodeLoop : Nat → Nat → List Int → Option (Bytes × List Int)
  | redsize, rep, [] => some (groupBytes redsize rep, [])
  | redsize, rep, c :: text =>
    match number c62 c63 c with
    | none => if redsize = 0 then none else some (groupBytes redsize rep, c :: text)
    | some n =>
      let rep := rep + n * 2 ^ (6 * (3 - redsize))
      if redsize = 3 then
        (decodeLoop 0 0 text).map fun (data, left) => (groupBytes 4 rep ++ data, left)
      else decodeLoop (redsize + 1) rep text

def skipPadding (consumePadding : Bool) (left : List Int) : List Int :=
  if consumePadding then left.dropWhile (· == 61) else left

/-- `decode` of a whole text: whether nothing is left of it, and the data. -/
def decode (consumePadding : Bool) (text : List Int) : Option (Bool × Bytes) :=
  (decodeLoop c62 c63 0 0 text).map fun (data, left) =>
    ((skipPadding consumePadding left).isEmpty, data)

end Model

variable {c62 c63 : UInt8}

/-- The data whose bits are those of the numbers, without the bits left over behind the last byte; a
single last number encodes nothing. -/
def dataOf : List Nat → Bytes
  | [x, y] => [.ofNat (x * 4 + y / 16)]
  | [x, y, z] => [.ofNat (x * 4 + y / 16), .ofNat (y % 16 * 16 + z / 4)]
  | x :: y :: z :: w :: nums =>
    .ofNat (x * 4 + y / 16) :: .ofNat (y % 16 * 16 + z / 4) :: .ofNat (z % 4 * 64 + w) :: dataOf nums
  | _ => []

theorem number_lt {c : Int} {n : Nat} (known : number c62 c63 c = some n) : n < 64 := by
  simp only [number, getNum, UInt8.le_iff_toNat_le] at known
  split_ifs at known <;> cases known <;> simp_all <;> omega

theorem number_pad (other62 : c62 ≠ 61) (other63 : c63 ≠ 61) : number c62 c63 61 = none := by
  simp [number, getNum, other62.symm, other63.symm]

theorem groupBytes_numbers {x y z w : Nat} (redsize : Nat) (z_lt : z < 64) (w_lt : w < 64) :
    groupBytes redsize (x * 2 ^ 18 + y * 2 ^ 12 + z * 2 ^ 6 + w) =
      [.ofNat (x * 4 + y / 16), .ofNat (y % 16 * 16 + z / 4), .ofNat (z % 4 * 64 + w)].take
        (redsize - 1) := by
  have byte {n m : Nat} (same : n % 256 = m % 256) : UInt8.ofNat n = .ofNat m :=
    UInt8.toNat_inj.1 (by simpa using same)
  rw [groupBytes, map_take]
  refine congrArg _ ?_
  simp only [map_cons, map_nil, cons.injEq, and_true]
  exact ⟨byte (by omega), byte (by omega), byte (by omega)⟩

/-- Groups are decoded up to a character that ends the data; one that takes the place of a group
makes `decode` write without end. -/
theorem decodeLoop_numbers {body left : List Int} {nums : List Nat}
    (numbers : body.map (number c62 c63) = nums.map some)
    (ends : ∀ c ∈ left.head?, number c62 c63 c = none) :
    decodeLoop c62 c63 0 0 (body ++ left) =
      if body.length % 4 = 0 ∧ left ≠ [] then none else some (dataOf nums, left) := by
  induction nums using dataOf.induct generalizing body with
  | case1 x y =>
    simp only [map_cons, map_nil, map_eq_cons_iff, map_eq_nil_iff] at numbers
    obtain ⟨a, _, rfl, first, b, _, rfl, second, rfl⟩ := numbers
    have bytes := @groupBytes_numbers x y 0 0 2 (by simp) (by simp)
    cases left <;> simp_all [decodeLoop, dataOf]
  | case2 x y z =>
    simp only [map_cons, map_nil, map_eq_cons_iff, map_eq_nil_iff] at numbers
    obtain ⟨a, _, rfl, first, b, _, rfl, second, c, _, rfl, third, rfl⟩ := numbers
    have bytes := @groupBytes_numbers x y z 0 3 (number_lt third) (by simp)
    cases left <;> simp_all [decodeLoop, dataOf]
  | case3 x y z w nums ih =>
    simp only [map_cons, map_eq_cons_iff] at numbers
    obtain ⟨a, _, rfl, first, b, _, rfl, second, c, _, rfl, third, d, body, rfl, fourth, rest⟩ :=
      numbers
    have bytes := @groupBytes_numbers x y z w 4 (number_lt third) (number_lt fourth)
    have size : (body.length + 1 + 1 + 1 + 1) % 4 = body.length % 4 := by omega
    simp only [Nat.reducePow, Nat.reduceSub] at bytes
    by_cases stuck : body.length % 4 = 0 ∧ left ≠ []
    all_goals simp [decodeLoop, dataOf, first, second, third, fourth, ih rest, size, stuck, bytes]
  | case4 nums notTwo notThree notFour =>
    obtain _ | ⟨x, _ | ⟨y, _ | ⟨z, _ | ⟨w, nums⟩⟩⟩⟩ := nums
    · rw [map_nil, map_eq_nil_iff] at numbers
      subst numbers
      cases left <;> simp_all [decodeLoop, dataOf, groupBytes]
    · simp only [map_cons, map_nil, map_eq_cons_iff, map_eq_nil_iff] at numbers
      obtain ⟨a, _, rfl, first, rfl⟩ := numbers
      cases left <;> simp_all [decodeLoop, dataOf, groupBytes]
    · exact absurd rfl (notTwo x y)
    · exact absurd rfl (notThree x y z)
    · exact absurd rfl (notFour x y z w _)

/-- The element is a character of the alphabet. -/
abbrev inAlphabet (c62 c63 : UInt8) (c : Int) : Bool := (number c62 c63 c).isSome

/-- Every text is characters of the alphabet up to one that is not, and this decides its decoding. -/
theorem decode_split (consumePadding : Bool) (text : List Int) : ∃ body left, ∃ nums : List Nat,
    body = text.takeWhile (inAlphabet c62 c63) ∧
    left = text.dropWhile (inAlphabet c62 c63) ∧ text = body ++ left ∧
    body.map (number c62 c63) = nums.map some ∧
    decode c62 c63 consumePadding text =
      if body.length % 4 = 0 ∧ left ≠ [] then none
      else some ((skipPadding consumePadding left).isEmpty, dataOf nums) := by
  obtain ⟨body, left, body_eq, left_eq⟩ : ∃ body left,
      body = text.takeWhile (inAlphabet c62 c63) ∧
        left = text.dropWhile (inAlphabet c62 c63) := ⟨_, _, rfl, rfl⟩
  have split : text = body ++ left := by rw [body_eq, left_eq, takeWhile_append_dropWhile]
  have numbers : body.map (number c62 c63) =
      (body.map fun c => (number c62 c63 c).getD 0).map some := by
    rw [map_map]
    refine map_congr_left fun c member => ?_
    rw [body_eq] at member
    obtain ⟨n, known⟩ := Option.isSome_iff_exists.1 (all_eq_true.1 all_takeWhile c member)
    simp [known]
  have ends : ∀ c ∈ left.head?, number c62 c63 c = none := by
    intro c head
    have stops := head?_dropWhile_not (inAlphabet c62 c63) text
    rw [← left_eq, head] at stops
    simpa using stops
  refine ⟨body, left, _, body_eq, left_eq, split, numbers, ?_⟩
  rw [decode, split, decodeLoop_numbers numbers ends]
  split <;> rfl

theorem pad_of_skipPadding {consumePadding : Bool} {left : List Int}
    (skipped : skipPadding consumePadding left = []) : ∀ c ∈ left, c = 61 := by
  cases consumePadding with
  | false => simp [show left = [] from skipped]
  | true => simpa [dropWhile_eq_nil_iff] using show left.dropWhile (· == 61) = [] from skipped

/-- A text of groups, with no `=` behind it or as many as are missing in an incomplete last group of
two or three, and the data it encodes. -/
def Encodes (c62 c63 : UInt8) (text : List Int) (data : Bytes) : Prop :=
  ∃ body, ∃ pad : Nat, ∃ nums : List Nat, text = body ++ replicate pad 61 ∧
    body.map (number c62 c63) = nums.map some ∧ data = dataOf nums ∧ body.length % 4 ≠ 1 ∧
    (pad = 0 ∨ body.length % 4 ≠ 0 ∧ body.length % 4 + pad = 4)

/-- A character of the alphabet stands where a group begins; unless something but padding is left,
there is no single last character, and `=` stands for every missing one or for none. -/
def Regular (c62 c63 : UInt8) (consumePadding : Bool) (text : List Int) : Prop :=
  let last := (text.takeWhile (inAlphabet c62 c63)).length % 4
  let left := text.dropWhile (inAlphabet c62 c63)
  (last = 0 → left = []) ∧
    (skipPadding consumePadding left = [] → last ≠ 1 ∧ (left = [] ∨ last + left.length = 4))
deriving Decidable

/-- A text is decoded with success only if it is made of groups and their padding, and then to the
data they encode, exactly if it is regular. -/
theorem decode_exact (consumePadding : Bool) (text : List Int) (other62 : c62 ≠ 61)
    (other63 : c63 ≠ 61) :
    (∃ ok data, decode c62 c63 consumePadding text = some (ok, data) ∧
      (ok = true → Encodes c62 c63 text data)) ↔ Regular c62 c63 consumePadding text := by
  have pad_none := number_pad other62 other63
  obtain ⟨body, left, nums, body_eq, left_eq, split, numbers, decoded⟩ :=
    @decode_split c62 c63 consumePadding text
  rw [decoded, Regular, ← body_eq, ← left_eq]
  constructor
  · rintro ⟨ok, data, result, encodes⟩
    split at result
    · cases result
    rename_i started
    cases result
    refine ⟨fun zero => by_contra fun some => started ⟨zero, some⟩, fun skipped => ?_⟩
    obtain ⟨other, pad, known, text_eq, other_numbers, -, notSingle, padded⟩ :=
      encodes (by simp [skipped])
    -- `=` is not in the alphabet, so both say where the characters of the alphabet end
    have all : ∀ c ∈ other, (number c62 c63 c).isSome = true := by
      intro c member
      have found := mem_map_of_mem (f := number c62 c63) member
      rw [other_numbers] at found
      obtain ⟨n, -, eq⟩ := mem_map.1 found
      simp [← eq]
    have stop : (replicate pad (61 : Int)).takeWhile (inAlphabet c62 c63) = [] ∧
        (replicate pad (61 : Int)).dropWhile (inAlphabet c62 c63) =
          replicate pad 61 := by
      cases pad <;> simp [replicate_succ, pad_none]
    rw [text_eq, takeWhile_append_of_pos all, stop.1, append_nil] at body_eq
    rw [text_eq, dropWhile_append_of_pos all, stop.2] at left_eq
    rw [body_eq, left_eq]
    refine ⟨notSingle, ?_⟩
    simp only [replicate_eq_nil_iff, length_replicate]
    exact padded.imp_right And.right
  · rintro ⟨whole, padded⟩
    rw [if_neg fun both => both.2 (whole both.1)]
    refine ⟨_, _, rfl, fun done => ?_⟩
    have skipped := isEmpty_iff.1 done
    obtain ⟨notSingle, count⟩ := padded skipped
    refine ⟨body, left.length, nums, ?_, numbers, rfl, notSingle, ?_⟩
    · rw [← eq_replicate_of_mem (pad_of_skipPadding skipped)]
      exact split
    · refine count.imp length_eq_zero_iff.2 fun four => ⟨fun zero => ?_, four⟩
      rw [whole zero] at four
      simp [zero] at four

theorem decode_exact_padded : Regular 43 47 true [81, 85, 69, 61] ∧
    ∃ ok data, decode 43 47 true [81, 85, 69, 61] = some (ok, data) ∧
      (ok = true → Encodes 43 47 [81, 85, 69, 61] data) :=
  ⟨by decide, (decode_exact true _ (by decide) (by decide)).2 (by decide)⟩

/-- A complete group with padding behind it is read without end, a single character is taken for no
data, and `=` is not counted. -/
theorem decode_inexact : decode 43 47 true [81, 85, 70, 66, 61] = none ∧
    decode 43 47 true [81] = some (true, []) ∧
    decode 43 47 true [81, 81, 61] = some (true, [65]) := by decide

/-- The 62nd and the 63rd character can be told from all others. -/
structure Alphabet (c62 c63 : UInt8) : Prop where
  distinct : c62 ≠ c63
  other62 : isAlnum c62 = false ∧ c62 ≠ 61
  other63 : isAlnum c63 = false ∧ c63 ≠ 61

/-- The six-bit parts of the data, those of an incomplete last group filled up with zeros. -/
def sextetsOf : Bytes → List Nat
  | [] => []
  | [a] => (sextets a 0 0).take 2
  | [a, b] => (sextets a b 0).take 3
  | a :: b :: c :: data => sextets a b c ++ sextetsOf data

theorem encodeLoop_eq : ∀ data : Bytes,
    encodeLoop c62 c63 data = (sextetsOf data).map (getChar c62 c63)
  | [] => rfl
  | [a] => rfl
  | [a, b] => rfl
  | a :: b :: c :: data => by rw [encodeLoop, sextetsOf, map_append, encodeLoop_eq data]

/-- The parts are numbers of characters, and make up the data. -/
theorem sextetsOf_spec : ∀ data : Bytes,
    (∀ n ∈ sextetsOf data, n < 64) ∧ dataOf (sextetsOf data) = data ∧
      (sextetsOf data).length = (4 * data.length + 2) / 3
  | [] => ⟨nofun, rfl, rfl⟩
  | [a] => by
    have first := a.toNat_lt
    refine ⟨by simp [sextetsOf, sextets]; omega, ?_, by simp [sextetsOf, sextets]⟩
    simp [sextetsOf, sextets, dataOf, ← UInt8.toNat_inj]
    omega
  | [a, b] => by
    have first := a.toNat_lt
    have second := b.toNat_lt
    refine ⟨by simp [sextetsOf, sextets]; omega, ?_, by simp [sextetsOf, sextets]⟩
    simp [sextetsOf, sextets, dataOf, ← UInt8.toNat_inj]
    omega
  | a :: b :: c :: data => by
    have first := a.toNat_lt
    have second := b.toNat_lt
    have third := c.toNat_lt
    obtain ⟨small, data_eq, length_eq⟩ := sextetsOf_spec data
    refine ⟨fun n member => ?_, ?_, ?_⟩
    · rcases mem_append.1 member with group | later
      · simp only [sextets, mem_cons, not_mem_nil, or_false] at group
        omega
      · exact small n later
    · simp [sextetsOf, sextets, dataOf, data_eq, ← UInt8.toNat_inj]
      omega
    · simp only [sextetsOf, sextets, length_append, length_cons, length_nil, length_eq]
      omega

/-- Where elements are signed, the data has no part whose character makes its element negative. -/
def Positive (c62 c63 : UInt8) (signed : Bool) (data : Bytes) : Prop :=
  signed = true → ∀ n ∈ sextetsOf data, (n = 62 → c62 < 128) ∧ (n = 63 → c63 < 128)
deriving Decidable

theorem ranges_of_isAlnum (c : UInt8) : isAlnum c = false →
    ¬(65 ≤ c ∧ c ≤ 90) ∧ ¬(97 ≤ c ∧ c ≤ 122) ∧ ¬(48 ≤ c ∧ c ≤ 57) :=
  forall_byte (P := fun c => isAlnum c = false → ¬(65 ≤ c ∧ c ≤ 90) ∧ ¬(97 ≤ c ∧ c ≤ 122) ∧
    ¬(48 ≤ c ∧ c ≤ 57)) (by decide +kernel) c

theorem number_getChar {signed : Bool} (alphabet : Alphabet c62 c63) {n : Nat} (small : n < 64)
    (positive : signed = true → (n = 62 → c62 < 128) ∧ (n = 63 → c63 < 128)) :
    number c62 c63 (char signed (getChar c62 c63 n)) = some n := by
  obtain ⟨upper62, lower62, digit62⟩ := ranges_of_isAlnum c62 alphabet.other62.1
  obtain ⟨upper63, lower63, digit63⟩ := ranges_of_isAlnum c63 alphabet.other63.1
  have num : getNum c62 c63 (getChar c62 c63 n) = n := by
    obtain word | rfl | rfl : n < 62 ∨ n = 62 ∨ n = 63 := by omega
    · simp only [getChar]
      split_ifs <;> simp [getNum, UInt8.le_iff_toNat_le] <;> split_ifs <;> omega
    · simp [getChar, getNum, upper62, lower62, digit62]
    · simp [getChar, getNum, upper63, lower63, digit63, alphabet.distinct.symm]
  have byte := (getChar c62 c63 n).toNat_lt
  have unsigned : ¬(signed ∧ 128 ≤ getChar c62 c63 n) := by
    rintro ⟨rfl, large⟩
    have low := positive rfl
    simp only [UInt8.lt_iff_toNat_lt] at low
    rw [UInt8.le_iff_toNat_le] at large
    simp only [getChar] at large
    split_ifs at large <;> simp at large low <;> omega
  simp [char, unsigned, number, num]
  omega

/-- An encoding is decoded back exactly if it has no negative element, and has the length of the
standard. -/
theorem decode_of_encode {signed : Bool} (alphabet : Alphabet c62 c63) (data : Bytes)
    (noPadding consumePadding : Bool) (same : consumePadding = true ∨ noPadding = true) :
    (decode c62 c63 consumePadding ((encode c62 c63 noPadding data).map (char signed)) =
        some (true, data) ↔ Positive c62 c63 signed data) ∧
      (encode c62 c63 noPadding data).length =
        if noPadding then (4 * data.length + 2) / 3 else 4 * ((data.length + 2) / 3) := by
  obtain ⟨small, data_eq, length_eq⟩ := sextetsOf_spec data
  obtain ⟨pad, text, pads, none_pad, size⟩ : ∃ pad : Nat,
      encode c62 c63 noPadding data =
        (sextetsOf data).map (getChar c62 c63) ++ replicate pad 61 ∧
      (noPadding → pad = 0) ∧ ((sextetsOf data).length % 4 = 0 → pad = 0) ∧
      (sextetsOf data).length + pad =
        if noPadding then (4 * data.length + 2) / 3 else 4 * ((data.length + 2) / 3) := by
    rw [encode, encodeLoop_eq, length_map]
    cases noPadding with
    | true => exact ⟨0, by simp, by simp, by simp, length_eq⟩
    | false =>
      refine ⟨_, rfl, by simp, by omega, ?_⟩
      rw [if_neg (by simp)]
      omega
  have text_eq : (encode c62 c63 noPadding data).map (char signed) =
      (sextetsOf data).map (fun n => char signed (getChar c62 c63 n)) ++ replicate pad 61 := by
    rw [text, map_append, map_map, map_replicate,
      show char signed 61 = 61 by cases signed <;> rfl]
    rfl
  refine ⟨⟨fun decoded => ?_, fun positive => ?_⟩,
    by rw [text, length_append, length_map, length_replicate, size]⟩
  · rintro rfl n member
    -- a negative element is neither in the alphabet nor padding
    have found : char true (getChar c62 c63 n) ∈ (encode c62 c63 noPadding data).map (char true) :=
      text_eq ▸ mem_append_left _ (mem_map_of_mem member)
    have nonneg : 0 ≤ char true (getChar c62 c63 n) := by
      obtain ⟨body, left, nums, body_eq, left_eq, split, -, result⟩ :=
        @decode_split c62 c63 consumePadding ((encode c62 c63 noPadding data).map (char true))
      rw [result] at decoded
      split at decoded
      · cases decoded
      rw [split] at found
      rcases mem_append.1 found with inside | outside
      · rw [body_eq] at inside
        have known := all_eq_true.1 all_takeWhile _ inside
        by_contra negative
        simp [inAlphabet, number, show char true (getChar c62 c63 n) < 0 by omega] at known
      · simp only [Option.some.injEq, Prod.mk.injEq, List.isEmpty_iff] at decoded
        rw [pad_of_skipPadding decoded.1 _ outside]
        decide
    have byte := (getChar c62 c63 n).toNat_lt
    have low : getChar c62 c63 n < 128 := by
      by_contra large
      rw [char, if_pos ⟨rfl, by simpa using large⟩] at nonneg
      omega
    exact ⟨fun last => by simpa [last, getChar] using low,
      fun last => by simpa [last, getChar] using low⟩
  · have numbers : ((sextetsOf data).map fun n => char signed (getChar c62 c63 n)).map
        (number c62 c63) = (sextetsOf data).map some := by
      rw [map_map]
      exact map_congr_left fun n member =>
        number_getChar alphabet (small n member) fun isSigned => positive isSigned n member
    have decoded := @decodeLoop_numbers c62 c63 _ (replicate pad 61) _ numbers fun c head => by
      rw [(mem_replicate.1 (mem_of_mem_head? head)).2,
        number_pad alphabet.other62.2 alphabet.other63.2]
    have skipped : skipPadding consumePadding (replicate pad 61) = [] := by
      obtain rfl | rfl := same
      · simp [skipPadding]
      · simp [skipPadding, pads rfl]
    rw [decode, text_eq, decoded, if_neg, data_eq]
    · simp [skipped]
    · rintro ⟨zero, some⟩
      exact some (by rw [none_pad (by simpa using zero)]; rfl)

theorem decode_of_encode_two : decode 43 47 true ((encode 43 47 false [65, 65]).map (char true)) =
    some (true, [65, 65]) :=
  (decode_of_encode ⟨by decide, by decide, by decide⟩ _ _ _ (.inl rfl)).1.2 (by decide)

/-- A signed character is not found in the alphabet, and `decode` does not end. -/
theorem decode_of_encode_signed :
    decode 128 47 true ((encode 128 47 false [248, 0, 0]).map (char true)) = none := by decide

end Futils.Base64
