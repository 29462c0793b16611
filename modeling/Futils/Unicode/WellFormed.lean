import Futils.Unicode.Utf

/-!
# Well-formed UTF

Strict decoding accepts exactly the well-formed byte sequences, and the encoders write them: every
scalar value comes back from UTF-8 and from UTF-16, except U+E000, which the encoders refuse.
-/

namespace Futils.Unicode

open Lib.Loop Nat UInt16 Utf8

/-- The well-formed byte sequences of UTF-8: the ranges of their bytes. -/
def rows : List (List (Nat × Nat)) :=
  [[(0x00, 0x7F)],
    [(0xC2, 0xDF), (0x80, 0xBF)],
    [(0xE0, 0xE0), (0xA0, 0xBF), (0x80, 0xBF)],
    [(0xE1, 0xEC), (0x80, 0xBF), (0x80, 0xBF)],
    [(0xED, 0xED), (0x80, 0x9F), (0x80, 0xBF)],
    [(0xEE, 0xEF), (0x80, 0xBF), (0x80, 0xBF)],
    [(0xF0, 0xF0), (0x90, 0xBF), (0x80, 0xBF), (0x80, 0xBF)],
    [(0xF1, 0xF3), (0x80, 0xBF), (0x80, 0xBF), (0x80, 0xBF)],
    [(0xF4, 0xF4), (0x80, 0x8F), (0x80, 0xBF), (0x80, 0xBF)]]

def Sequence (seq : Bytes) : Prop :=
  ∃ row ∈ rows, List.Forall₂ (fun range b => range.1 ≤ b.toNat ∧ b.toNat ≤ range.2) row seq

/-- The scalar value of a sequence: the payload bits of its bytes. -/
def scalar : Bytes → Nat
  | [a] => a.toNat
  | [a, b] => (a.toNat - 0xC0) * 64 + (b.toNat - 0x80)
  | [a, b, c] => ((a.toNat - 0xE0) * 64 + (b.toNat - 0x80)) * 64 + (c.toNat - 0x80)
  | [a, b, c, d] =>
    (((a.toNat - 0xF0) * 64 + (b.toNat - 0x80)) * 64 + (c.toNat - 0x80)) * 64 + (d.toNat - 0x80)
  | _ => 0

/-- Bytes that are well-formed sequences one after another, and the scalar values they encode. -/
def WellFormed (bytes : Bytes) (codes : List Nat) : Prop :=
  ∃ seqs : List Bytes, (∀ seq ∈ seqs, Sequence seq) ∧ bytes = seqs.flatten ∧ codes = seqs.map scalar

def IsScalar (c : Nat) : Prop := c < 0xD800 ∨ 0xE000 ≤ c ∧ c ≤ 0x10FFFF

section Loop

variable {α β γ : Type} {one : List α → Bool → List β × Nat × UTFError}

/-- Sequences that are converted one by one are converted one after another. -/
theorem doConvert_flatMap {src : γ → List α} {dst : γ → List β} {seqs : List γ}
    (each : ∀ s ∈ seqs, src s ≠ [] ∧
      ∀ rest, one (src s ++ rest) false = (dst s, (src s).length, .none)) :
    doConvert one false (seqs.flatMap src) =
      some (seqs.flatMap dst, (seqs.flatMap src).length, 0, .none) := by
  -- the sequences that are left are converted from any position
  have all : ∀ (front : List α) (out : List β) (rounds : Nat), (seqs.flatMap src).length < rounds →
      iterate (convertRound one false (front ++ seqs.flatMap src)) rounds (front.length, out) =
        some (out ++ seqs.flatMap dst, (front ++ seqs.flatMap src).length, 0, .none) := by
    induction seqs with
    | nil =>
      intro front out rounds enough
      obtain ⟨-, rfl⟩ := Nat.exists_eq_succ_of_ne_zero (Nat.ne_zero_of_lt enough)
      simp [Lib.Loop.iterate, convertRound]
    | cons s seqs ih =>
      intro front out rounds enough
      obtain ⟨filled, converted⟩ := each s List.mem_cons_self
      have length := List.length_pos_iff.2 filled
      rw [List.flatMap_cons, List.length_append] at enough
      have inside : front.length < (front ++ (src s ++ seqs.flatMap src)).length := by
        simp only [List.length_append]
        omega
      have round : convertRound one false (front ++ (s :: seqs).flatMap src) (front.length, out) =
          .inl ((front ++ src s).length, out ++ dst s) := by
        simp only [List.flatMap_cons, convertRound, if_pos inside, List.drop_left, converted, ne_eq,
          not_true_eq_false, if_false]
        rw [List.length_append]
      obtain ⟨rounds, rfl⟩ := Nat.exists_eq_succ_of_ne_zero (Nat.ne_zero_of_lt enough)
      have rest := ih (List.forall_mem_cons.1 each).2 (front ++ src s)
        (out ++ dst s) rounds (by omega)
      simp only [Lib.Loop.iterate, round]
      simpa [List.append_assoc] using rest
  exact all [] [] _ (Nat.lt_succ_self _)

end Loop

namespace Utf8

variable {a b c d : UInt8} {rest seq : Bytes}

theorem sequence_one : Sequence [a] ↔ a.toNat ≤ 0x7F := by simp [Sequence, rows]

theorem sequence_two : Sequence [a, b] ↔ validRange 2 a b := by
  simp [Sequence, rows, validRange, isSecondLaterByte, UInt8.le_iff_toNat_le]

theorem validRange_three : validRange 3 a b ↔ 0xE0 ≤ a.toNat ∧ a.toNat ≤ 0xEF ∧
    0x80 ≤ b.toNat ∧ b.toNat ≤ 0xBF ∧ (a.toNat = 0xE0 → 0xA0 ≤ b.toNat) ∧
      (a.toNat = 0xED → b.toNat ≤ 0x9F) := by
  simp only [validRange, isSecondLaterByte, ← UInt8.toNat_inj, UInt8.reduceToNat]
  split
  · simp [UInt8.le_iff_toNat_le]; omega
  · split <;> simp [UInt8.le_iff_toNat_le] <;> omega

theorem validRange_four : validRange 4 a b ↔ 0xF0 ≤ a.toNat ∧ a.toNat ≤ 0xF4 ∧
    0x80 ≤ b.toNat ∧ b.toNat ≤ 0xBF ∧ (a.toNat = 0xF0 → 0x90 ≤ b.toNat) ∧
      (a.toNat = 0xF4 → b.toNat ≤ 0x8F) := by
  simp only [validRange, isSecondLaterByte, ← UInt8.toNat_inj, UInt8.reduceToNat]
  split
  · simp [UInt8.le_iff_toNat_le]; omega
  · split <;> simp [UInt8.le_iff_toNat_le] <;> omega

theorem sequence_three :
    Sequence [a, b, c] ↔ (validRange 3 a b && isSecondLaterByte c) := by
  rw [Bool.and_eq_true, validRange_three]
  simp [Sequence, rows, isSecondLaterByte, UInt8.le_iff_toNat_le]
  omega

theorem sequence_four : Sequence [a, b, c, d] ↔
    (validRange 4 a b && isSecondLaterByte c && isSecondLaterByte d) := by
  rw [Bool.and_eq_true, Bool.and_eq_true, validRange_four]
  simp [Sequence, rows, isSecondLaterByte, UInt8.le_iff_toNat_le]
  omega

theorem validRange_two : validRange 2 a b ↔
    0xC2 ≤ a.toNat ∧ a.toNat ≤ 0xDF ∧ 0x80 ≤ b.toNat ∧ b.toNat ≤ 0xBF := by
  simp [validRange, isSecondLaterByte, UInt8.le_iff_toNat_le, and_assoc]

theorem isSecondLaterByte_iff :
    isSecondLaterByte b ↔ 0x80 ≤ b.toNat ∧ b.toNat ≤ 0xBF := by
  simp [isSecondLaterByte, UInt8.le_iff_toNat_le]

theorem cases_of_sequence (sequence : Sequence seq) :
    (∃ a, seq = [a]) ∨ (∃ a b, seq = [a, b]) ∨ (∃ a b c, seq = [a, b, c]) ∨
      ∃ a b c d, seq = [a, b, c, d] := by
  obtain ⟨row, member, fits⟩ := sequence
  have lengths : ∀ row ∈ rows, 1 ≤ row.length ∧ row.length ≤ 4 := by decide
  have length := lengths row member
  rw [fits.length_eq] at length
  match seq, length with
  | [a], _ => exact .inl ⟨a, rfl⟩
  | [a, b], _ => exact .inr (.inl ⟨a, b, rfl⟩)
  | [a, b, c], _ => exact .inr (.inr (.inl ⟨a, b, c, rfl⟩))
  | [a, b, c, d], _ => exact .inr (.inr (.inr ⟨a, b, c, d, rfl⟩))
  | [], length | _ :: _ :: _ :: _ :: _ :: _, length => grind

theorem ne_nil_of_sequence (sequence : Sequence seq) : seq ≠ [] := by
  rintro rfl
  simp [Sequence, rows] at sequence

section Bits

variable {x y z w : Nat}

theorem and_masks (x : Nat) : x &&& 0x7F = x % 128 ∧ x &&& 0x3F = x % 64 ∧ x &&& 0x1F = x % 32 ∧
    x &&& 0x0F = x % 16 ∧ x &&& 0x07 = x % 8 :=
  ⟨and_two_pow_sub_one_eq_mod x 7, and_two_pow_sub_one_eq_mod x 6,
    and_two_pow_sub_one_eq_mod x 5, and_two_pow_sub_one_eq_mod x 4,
    and_two_pow_sub_one_eq_mod x 3⟩

theorem join_two (small : y < 64) : x <<< 6 ||| y = x * 64 + y := by
  rw [← shiftLeft_add_eq_or_of_lt small, shiftLeft_eq]

theorem join_three (second : y < 64) (third : z < 64) :
    x <<< 12 ||| y <<< 6 ||| z = (x * 64 + y) * 64 + z := by
  rw [shiftLeft_add x 6 6, ← shiftLeft_or_distrib, join_two second, join_two third]

theorem join_four (second : y < 64) (third : z < 64) (fourth : w < 64) :
    x <<< 18 ||| y <<< 12 ||| z <<< 6 ||| w = ((x * 64 + y) * 64 + z) * 64 + w := by
  rw [shiftLeft_add x 12 6, shiftLeft_add y 6 6, ← shiftLeft_or_distrib,
    ← shiftLeft_or_distrib, join_three second third, join_two fourth]

end Bits

theorem not_ascii (large : 0x80 ≤ a.toNat) : ¬ a ≤ 0x7F := fun small => by
  have le : a.toNat ≤ 0x7F := UInt8.le_iff_toNat_le.1 small
  omega

theorem valid_of_sequence (sequence : Sequence seq) (rest : Bytes) :
    isValidOne (seq ++ rest) = seq.length ∧
      decodeOneUnchecked (seq ++ rest) seq.length = scalar seq := by
  rcases cases_of_sequence sequence with ⟨a, rfl⟩ | ⟨a, _, rfl⟩ | ⟨a, b, _, rfl⟩ | ⟨a, b, _, _, rfl⟩
  · have ascii := sequence_one.1 sequence
    have small : a ≤ 0x7F := by rwa [UInt8.le_iff_toNat_le]
    constructor
    · rcases rest with _ | ⟨-, _ | ⟨-, _ | ⟨-, -⟩⟩⟩ <;> simp [isValidOne, small]
    · have payload : a.toNat &&& 0x7F = a.toNat := by
        rw [(and_masks _).1, mod_eq_of_lt (by omega)]
      exact payload
  · have valid := sequence_two.1 sequence
    have range := validRange_two.1 valid
    constructor
    · rcases rest with _ | ⟨-, _ | ⟨-, -⟩⟩ <;>
        simp [isValidOne, @not_ascii a (by omega), valid]
    · unfold scalar
      simp only [List.cons_append, List.length_cons, List.length_nil, decodeOneUnchecked, and_masks]
      rw [join_two (by omega)]
      omega
  · have valid := sequence_three.1 sequence
    obtain ⟨first, third⟩ := Bool.and_eq_true_iff.1 valid
    have range := validRange_three.1 first
    have last := isSecondLaterByte_iff.1 third
    have other : validRange 2 a b = false := by
      rw [Bool.eq_false_iff, ne_eq, validRange_two]
      omega
    constructor
    · rcases rest with _ | ⟨-, -⟩ <;>
        simp [isValidOne, @not_ascii a (by omega), other, first, third]
    · unfold scalar
      simp only [List.cons_append, List.length_cons, List.length_nil, decodeOneUnchecked, and_masks]
      rw [join_three (by omega) (by omega)]
      omega
  · have valid := sequence_four.1 sequence
    obtain ⟨front, fourth⟩ := Bool.and_eq_true_iff.1 valid
    obtain ⟨first, third⟩ := Bool.and_eq_true_iff.1 front
    have range := validRange_four.1 first
    have middle := isSecondLaterByte_iff.1 third
    have last := isSecondLaterByte_iff.1 fourth
    have other : validRange 2 a b = false := by
      rw [Bool.eq_false_iff, ne_eq, validRange_two]
      omega
    have another : validRange 3 a b = false := by
      rw [Bool.eq_false_iff, ne_eq, validRange_three]
      omega
    constructor
    · simp [isValidOne, @not_ascii a (by omega), other, another, first, third, fourth]
    · unfold scalar
      simp only [List.cons_append, List.length_cons, List.length_nil, decodeOneUnchecked, and_masks]
      rw [join_four (by omega) (by omega) (by omega)]
      omega

theorem sequence_of_isValidOne {data : Bytes} (valid : isValidOne data ≠ 0) :
    ∃ seq rest, data = seq ++ rest ∧ Sequence seq := by
  have one (a : UInt8) (small : a ≤ 0x7F) : Sequence [a] :=
    sequence_one.2 (UInt8.le_iff_toNat_le.1 small)
  -- the tests of each length of the input, and the sequence that each of them finds
  rcases data with _ | ⟨a, _ | ⟨b, _ | ⟨c, _ | ⟨d, _⟩⟩⟩⟩
  all_goals
    simp only [isValidOne] at valid
    repeat' split at valid
  all_goals first
    | exact absurd rfl valid
    | exact ⟨[a], _, rfl, one a ‹_›⟩
    | exact ⟨[a, b], _, rfl, sequence_two.2 ‹_›⟩
    | exact ⟨[a, b, c], _, rfl, sequence_three.2 ‹_›⟩
    | exact ⟨[a, b, c, d], _, rfl, sequence_four.2 ‹_›⟩

theorem utf8ToCode_of_sequence (sequence : Sequence seq) (rest : Bytes) (replace : Bool) :
    utf8ToCode (seq ++ rest) replace = (scalar seq, seq.length, .none) := by
  obtain ⟨valid, decoded⟩ := valid_of_sequence sequence rest
  simp [utf8ToCode, toUtf32, valid, ne_nil_of_sequence sequence, decoded]

theorem or_mark : (∀ x < 64, (UInt8.ofNat x ||| 0x80).toNat = 0x80 + x) ∧
    (∀ x < 32, (UInt8.ofNat x ||| 0xC0).toNat = 0xC0 + x) ∧
    (∀ x < 16, (UInt8.ofNat x ||| 0xE0).toNat = 0xE0 + x) ∧
    ∀ x < 8, (UInt8.ofNat x ||| 0xF0).toNat = 0xF0 + x := by
  decide +kernel

/-- The bytes that are written carry the bits of the code. -/
theorem toNat_encodeByte (code shift : Nat) :
    (encodeByte code shift 0x3F 0x80).toNat = 0x80 + code / 2 ^ shift % 64 ∧
      (encodeByte code shift 0x1F 0xC0).toNat = 0xC0 + code / 2 ^ shift % 32 ∧
      (encodeByte code shift 0x0F 0xE0).toNat = 0xE0 + code / 2 ^ shift % 16 ∧
      (encodeByte code shift 0x07 0xF0).toNat = 0xF0 + code / 2 ^ shift % 8 := by
  simp only [encodeByte, shiftRight_eq_div_pow, and_masks]
  exact ⟨or_mark.1 _ (mod_lt _ (by decide)), or_mark.2.1 _ (mod_lt _ (by decide)),
    or_mark.2.2.1 _ (mod_lt _ (by decide)), or_mark.2.2.2 _ (mod_lt _ (by decide))⟩

/-- A scalar value is written as a sequence that encodes it. -/
theorem utf8OfCode_scalar {code : Nat} (valid : IsScalar code) :
    ∃ seq, utf8OfCode code = some seq ∧ Sequence seq ∧ scalar seq = code := by
  obtain ⟨last, -, -⟩ := toNat_encodeByte code 0
  obtain ⟨second, lead2, -⟩ := toNat_encodeByte code 6
  obtain ⟨third, -, lead3, -⟩ := toNat_encodeByte code 12
  obtain ⟨-, -, -, lead4⟩ := toNat_encodeByte code 18
  simp only [IsScalar] at valid
  simp only [utf8OfCode, expectLen]
  split
  case isTrue ascii =>
    have same : (UInt8.ofNat code).toNat = code := by
      rw [UInt8.toNat_ofNat', mod_eq_of_lt (by omega)]
    exact ⟨_, rfl, sequence_one.2 (by omega), same⟩
  split
  case isTrue =>
    refine ⟨_, rfl, sequence_two.2 (validRange_two.2 ?_), ?_⟩
    · omega
    · unfold scalar
      dsimp only
      omega
  split
  case isTrue =>
    refine ⟨_, rfl, sequence_three.2 ?_, ?_⟩
    · rw [Bool.and_eq_true, validRange_three, isSecondLaterByte_iff]
      omega
    · unfold scalar
      dsimp only
      omega
  rw [if_pos (by omega)]
  refine ⟨_, rfl, sequence_four.2 ?_, ?_⟩
  · rw [Bool.and_eq_true, Bool.and_eq_true, validRange_four, isSecondLaterByte_iff,
      isSecondLaterByte_iff]
    omega
  · unfold scalar
    dsimp only
    omega

end Utf8

namespace Utf16

variable {code : Nat}

theorem isHighSurrogate_iff {c : UInt16} :
    isHighSurrogate c ↔ 0xD800 ≤ c.toNat ∧ c.toNat < 0xDC00 := by
  simp [isHighSurrogate, le_iff_toNat_le, lt_iff_toNat_lt]

theorem isLowSurrogate_iff {c : UInt16} :
    isLowSurrogate c ↔ 0xDC00 ≤ c.toNat ∧ c.toNat < 0xE000 := by
  simp [isLowSurrogate, le_iff_toNat_le, lt_iff_toNat_lt]

theorem toNat_splitSurrogateChar (high : code ≤ 0x10FFFF) :
    (splitSurrogateChar code).1.toNat = (code - 0x10000) / 1024 + 0xD800 ∧
      (splitSurrogateChar code).2.toNat = (code - 0x10000) % 1024 + 0xDC00 := by
  have bits (x : Nat) : x &&& 0x3FF = x % 1024 := and_two_pow_sub_one_eq_mod x 10
  simp only [splitSurrogateChar, bits, toNat_ofNat']
  omega

/-- A scalar value is written as words that are decoded to it. -/
theorem utf16OfCode_scalar (valid : IsScalar code) :
    ∃ words, utf16OfCode code = some words ∧ words ≠ [] ∧
      ∀ rest replace, utf16ToCode (words ++ rest) replace = (code, words.length, .none) := by
  simp only [IsScalar] at valid
  simp only [utf16OfCode, expectLen]
  split
  case isTrue small =>
    have same : (ofNat code).toNat = code := by
      rw [toNat_ofNat', mod_eq_of_lt (by omega)]
    have high : isHighSurrogate (ofNat code) = false := by
      rw [Bool.eq_false_iff, ne_eq, isHighSurrogate_iff]
      omega
    have low : isLowSurrogate (ofNat code) = false := by
      rw [Bool.eq_false_iff, ne_eq, isLowSurrogate_iff]
      omega
    refine ⟨_, rfl, List.cons_ne_nil _ _, fun rest replace => ?_⟩
    rcases rest with _ | ⟨-, -⟩ <;>
      simp [utf16ToCode, toUtf32, isValidOne, high, low, decodeOneUnchecked, same]
  rw [if_pos (by omega)]
  refine ⟨_, rfl, List.cons_ne_nil _ _, fun rest replace => ?_⟩
  obtain ⟨first, second⟩ := @toNat_splitSurrogateChar code (by omega)
  generalize splitSurrogateChar code = words at first second ⊢
  have high : isHighSurrogate words.1 := isHighSurrogate_iff.2 (by omega)
  have low : isLowSurrogate words.2 := isLowSurrogate_iff.2 (by omega)
  have joined : makeSurrogateChar words.1 words.2 = code := by
    unfold makeSurrogateChar
    omega
  have valid : isValidOne (words.1 :: words.2 :: rest) = 2 := by simp [isValidOne, high, low]
  have decoded : decodeOneUnchecked (words.1 :: words.2 :: rest) 2 = code := joined
  simp [utf16ToCode, toUtf32, valid, decoded]

end Utf16

section Conversions

variable {α β : Type}

theorem convertOne_of_decoded {decode : List α → Bool → Nat × Nat × UTFError}
    {encode : Nat → Option (List β)} {limit : UTFError} {input : List α} {code len : Nat}
    {units : List β} (decoded : decode input false = (code, len, .none))
    (encoded : encode code = some units) :
    convertOne decode encode limit input false = (units, len, .none) := by
  simp [convertOne, decoded, encoded, output]

/-- A round of strict decoding refuses the input or takes a sequence from it. -/
theorem decodeRound_cases (bytes : Bytes) (state : Nat × List Nat)
    (inside : state.1 < bytes.length) :
    convertRound utf8ToUtf32One false bytes state = .inr (state.2, state.1, 0, .utf8InputSeq) ∨
      ∃ seq rest, bytes.drop state.1 = seq ++ rest ∧ Sequence seq ∧
        convertRound utf8ToUtf32One false bytes state =
          .inl (state.1 + seq.length, state.2 ++ [scalar seq]) := by
  by_cases valid : isValidOne (bytes.drop state.1) = 0
  · simp [convertRound, inside, utf8ToUtf32One, convertOne, utf8ToCode, toUtf32, valid]
  · obtain ⟨seq, rest, split, sequence⟩ := sequence_of_isValidOne valid
    have one : utf8ToUtf32One (bytes.drop state.1) false = ([scalar seq], seq.length, .none) := by
      rw [split]
      exact convertOne_of_decoded (utf8ToCode_of_sequence sequence _ _) rfl
    exact .inr ⟨seq, rest, split, sequence, by simp [convertRound, inside, one]⟩

theorem WellFormed.snoc {bytes seq : Bytes} {codes : List Nat} (wellFormed : WellFormed bytes codes)
    (sequence : Sequence seq) : WellFormed (bytes ++ seq) (codes ++ [scalar seq]) := by
  obtain ⟨seqs, sequences, rfl, rfl⟩ := wellFormed
  refine ⟨seqs ++ [seq], ?_, by simp, by simp⟩
  simpa [or_imp, forall_and] using ⟨sequences, sequence⟩

theorem wellFormed_of_doConvert {bytes : Bytes} {result : List Nat × Nat × Nat × UTFError}
    (done : doConvert utf8ToUtf32One false bytes = some result) (fine : result.2.2.2 = .none) :
    WellFormed bytes result.1 := by
  let Taken (state : Nat × List Nat) : Prop := WellFormed (bytes.take state.1) state.2
  refine @post_of_iterate_unguarded _ _ _ Taken
    (fun result => result.2.2.2 = .none → WellFormed bytes result.1) (fun state taken => ?_) _ _ _
    ⟨[], by simp, rfl, rfl⟩ done fine
  by_cases inside : state.1 < bytes.length
  · rcases decodeRound_cases bytes state inside with refused | ⟨seq, _, split, sequence, round⟩
    · rw [refused]
      exact .leaves nofun
    · have longer : bytes.take (state.1 + seq.length) = bytes.take state.1 ++ seq := by
        rw [List.take_add, split, List.take_left]
      rw [round]
      refine .goes ?_
      show WellFormed (bytes.take (state.1 + seq.length)) _
      rw [longer]
      exact taken.snoc sequence
  · have whole := List.take_of_length_le (not_lt.1 inside)
    rw [convertRound, if_neg inside]
    exact .leaves fun _ => whole ▸ taken

theorem doConvert_isSome (bytes : Bytes) : (doConvert utf8ToUtf32One false bytes).isSome := by
  refine @iterate_isSome _ _ _ (fun state => bytes.length - state.1)
    (fun state next round => ?_) _ _ (lt_succ_self _)
  by_cases inside : state.1 < bytes.length
  · rcases decodeRound_cases bytes state inside with refused | ⟨_, -, -, sequence, taken⟩
    · rw [refused] at round
      cases round
    · rw [taken] at round
      cases round
      have filled := List.length_pos_iff.2 (ne_nil_of_sequence sequence)
      omega
  · rw [convertRound, if_neg inside] at round
    cases round

/-- The units of a code that an encoding writes. -/
def unitsOf (encode : Nat → Option (List β)) (code : Nat) : List β := (encode code).getD []

/-- A code that an encoding writes and reads back, whatever follows. -/
structure Spelled (encode : Nat → Option (List α)) (decode : List α → Bool → Nat × Nat × UTFError)
    (code : Nat) : Prop where
  encoded : encode code = some (unitsOf encode code)
  filled : unitsOf encode code ≠ []
  decoded : ∀ rest, decode (unitsOf encode code ++ rest) false =
    (code, (unitsOf encode code).length, .none)

theorem spelled_utf8 {code : Nat} (valid : IsScalar code) : Spelled utf8OfCode utf8ToCode code := by
  obtain ⟨seq, encoded, sequence, same⟩ := utf8OfCode_scalar valid
  have units : unitsOf utf8OfCode code = seq := by rw [unitsOf, encoded, Option.getD_some]
  constructor <;> rw [units]
  · exact encoded
  · exact ne_nil_of_sequence sequence
  · intro rest
    rw [utf8ToCode_of_sequence sequence, same]

theorem spelled_utf16 {code : Nat} (valid : IsScalar code) :
    Spelled utf16OfCode utf16ToCode code := by
  obtain ⟨words, encoded, filled, decoded⟩ := Utf16.utf16OfCode_scalar valid
  have units : unitsOf utf16OfCode code = words := by rw [unitsOf, encoded, Option.getD_some]
  constructor <;> rw [units]
  · exact encoded
  · exact filled
  · exact fun rest => decoded _ _

variable {codes : List Nat} {limit : UTFError}

/-- Codes that one encoding has written are read and written in another. -/
theorem doConvert_spelled {encode : Nat → Option (List α)} {target : Nat → Option (List β)}
    {decode : List α → Bool → Nat × Nat × UTFError} {dst : Nat → List β}
    (spelled : ∀ c ∈ codes, Spelled encode decode c)
    (written : ∀ c ∈ codes, target c = some (dst c)) :
    doConvert (convertOne decode target limit) false (codes.flatMap (unitsOf encode)) =
      some (codes.flatMap dst, (codes.flatMap (unitsOf encode)).length, 0, .none) :=
  doConvert_flatMap fun c member => ⟨(spelled c member).filled, fun _ =>
    convertOne_of_decoded ((spelled c member).decoded _) (written c member)⟩

theorem doConvert_fromUtf32 {encodeOne : Nat → Nat → Option (List β)} {expectLen : Nat → Nat}
    {len : Nat} (nothing : ∀ code, encodeOne code 0 = none) {dst : Nat → List β}
    (valid : ∀ c ∈ codes, isValidRange c)
    (written : ∀ c ∈ codes, encodeOne c (expectLen c) = some (dst c)) :
    doConvert (fromUtf32 encodeOne expectLen len limit) false codes =
      some (codes.flatMap dst, codes.length, 0, .none) := by
  have each := @doConvert_flatMap _ _ _ (fromUtf32 encodeOne expectLen len limit) (fun c => [c]) dst
    _ fun c member => ⟨List.cons_ne_nil _ _, fun rest => by
      have known : expectLen c ≠ 0 := fun zero => by
        have encoded := written c member
        rw [zero, nothing] at encoded
        cases encoded
      simp [fromUtf32, valid c member, written c member, known, output]⟩
  rwa [List.flatMap_singleton'] at each

/-- A string that is converted from UTF-32 has only codes of the range. -/
theorem valid_of_doConvert {encodeOne : Nat → Nat → Option (List β)} {expectLen : Nat → Nat}
    {len : Nat} {result : List β × Nat × Nat × UTFError}
    (done : doConvert (fromUtf32 encodeOne expectLen len limit) false codes = some result)
    (fine : result.2.2.2 = .none) : ∀ c ∈ codes, isValidRange c := by
  let Taken (state : Nat × List β) : Prop := ∀ c ∈ codes.take state.1, isValidRange c
  refine @post_of_iterate_unguarded _ _ _ Taken
    (fun result => result.2.2.2 = .none → ∀ c ∈ codes, isValidRange c) (fun state taken => ?_) _ _ _
    (by simp [Taken]) done fine
  by_cases inside : state.1 < codes.length
  · rw [convertRound, if_pos inside, List.drop_eq_getElem_cons inside]
    by_cases valid : isValidRange codes[state.1]
    · have longer (count : Nat) (single : count ≤ 1) : ∀ c ∈ codes.take (state.1 + count),
          isValidRange c := by
        intro c member
        have member := List.take_subset_take_left codes (Nat.add_le_add_left single _) member
        rw [List.take_succ_eq_append_getElem inside] at member
        obtain earlier | rfl := mem_snoc.1 member
        · exact taken c earlier
        · exact valid
      have single : (fromUtf32 encodeOne expectLen len limit
          (codes[state.1] :: codes.drop (state.1 + 1)) false).2.1 ≤ 1 := by
        simp only [fromUtf32, valid, output]
        cases encodeOne codes[state.1] (expectLen codes[state.1]) <;> simp <;> split <;> simp
      dsimp only
      split
      case isTrue refused => exact .leaves fun fine => absurd fine refused
      case isFalse => exact .goes (longer _ single)
    · simp [fromUtf32, valid]
      exact .leaves nofun
  · have whole := List.take_of_length_le (not_lt.1 inside)
    rw [convertRound, if_neg inside]
    exact .leaves fun _ => whole ▸ taken

end Conversions

/-- Strict decoding of UTF-8 ends for all bytes, and succeeds exactly for well-formed ones, with the
scalar values they encode. -/
theorem utf8_decoding_exact (bytes : Bytes) :
    (doConvert utf8ToUtf32One false bytes).isSome ∧ ∀ codes,
      doConvert utf8ToUtf32One false bytes = some (codes, bytes.length, 0, .none) ↔
        WellFormed bytes codes := by
  refine ⟨doConvert_isSome _, fun codes => ⟨fun done => wellFormed_of_doConvert done rfl, ?_⟩⟩
  rintro ⟨seqs, sequences, rfl, rfl⟩
  have each := @doConvert_flatMap _ _ _ utf8ToUtf32One id _ _
    fun seq member => ⟨ne_nil_of_sequence (sequences seq member), fun rest =>
      convertOne_of_decoded (utf8ToCode_of_sequence (sequences seq member) _ _) rfl⟩
  rwa [List.flatMap_id, ← List.map_eq_flatMap] at each

/-- A string of scalar values is converted to UTF-8 and to UTF-16 and back, and between the two,
exactly if U+E000 is not in it. -/
theorem utf_round_trip (codes : List Nat) (scalars : ∀ c ∈ codes, IsScalar c) :
    (∃ bytes words,
      doConvert utf32ToUtf8One false codes = some (bytes, codes.length, 0, .none) ∧
        doConvert utf32ToUtf16One false codes = some (words, codes.length, 0, .none) ∧
        doConvert utf8ToUtf32One false bytes = some (codes, bytes.length, 0, .none) ∧
        doConvert utf16ToUtf32One false words = some (codes, words.length, 0, .none) ∧
        doConvert utf8ToUtf16One false bytes = some (words, bytes.length, 0, .none) ∧
        doConvert utf16ToUtf8One false words = some (bytes, words.length, 0, .none)) ↔
      0xE000 ∉ codes := by
  refine ⟨fun ⟨_, _, converted, _⟩ member => ?_, fun encodable => ?_⟩
  · exact absurd (valid_of_doConvert converted rfl _ member) (by decide)
  have valid (c : Nat) (member : c ∈ codes) : isValidRange c := by
    have other : c ≠ 0xE000 := fun same => encodable (same ▸ member)
    have known := scalars c member
    simp only [IsScalar] at known
    simp only [isValidRange, Bool.or_eq_true, Bool.and_eq_true, decide_eq_true_eq]
    omega
  have spelled8 (c : Nat) (member : c ∈ codes) := spelled_utf8 (scalars c member)
  have spelled16 (c : Nat) (member : c ∈ codes) := spelled_utf16 (scalars c member)
  have plain (c : Nat) (_ : c ∈ codes) : (some [c] : Option (List Nat)) = some [c] := rfl
  have back8 := @doConvert_spelled _ _ _ .utf32OutputLimit _ _ _ _ spelled8 plain
  have back16 := @doConvert_spelled _ _ _ .utf32OutputLimit _ _ _ _ spelled16 plain
  rw [List.flatMap_singleton'] at back8 back16
  exact ⟨codes.flatMap _, codes.flatMap _,
    doConvert_fromUtf32 (fun _ => rfl) valid fun c member => (spelled8 c member).encoded,
    doConvert_fromUtf32 (fun _ => rfl) valid fun c member => (spelled16 c member).encoded,
    back8, back16, doConvert_spelled spelled8 fun c member => (spelled16 c member).encoded,
    doConvert_spelled spelled16 fun c member => (spelled8 c member).encoded⟩

/-- A Latin letter, a Greek one, an ideograph and a symbol beyond the first plane. -/
theorem utf_round_trip_mixed :
    ∃ bytes words,
      doConvert utf32ToUtf8One false [0x41, 0x3B1, 0x6F22, 0x1F600] = some (bytes, 4, 0, .none) ∧
        doConvert utf32ToUtf16One false [0x41, 0x3B1, 0x6F22, 0x1F600] = some (words, 4, 0, .none) ∧
        doConvert utf8ToUtf16One false bytes = some (words, bytes.length, 0, .none) := by
  obtain ⟨bytes, words, to8, to16, -, -, across, -⟩ :=
    (utf_round_trip [0x41, 0x3B1, 0x6F22, 0x1F600] (by simp [IsScalar])).2 (by simp)
  exact ⟨bytes, words, to8, to16, across⟩

/-- U+E000 is refused. -/
theorem utf_refuses_private_use :
    IsScalar 0xE000 ∧ doConvert utf32ToUtf8One false [0xE000] = some ([], 0, 0, .utf32InputRange) ∧
      doConvert utf32ToUtf16One false [0xE000] = some ([], 0, 0, .utf32InputRange) := by
  exact ⟨.inr (by decide), by decide +kernel, by decide +kernel⟩

end Futils.Unicode
