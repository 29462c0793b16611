import Futils.Quic.Types
import Futils.Quic.Frame.CalcData

/-!
# CRYPTO frames

A CRYPTO frame always has its length field and is never sent empty.
-/

namespace Futils.Quic.Frame

open Binary Varint List

structure CryptoFrame where
  offset : Nat
  cryptoData : Bytes
  deriving DecidableEq

namespace CryptoFrame

def render (frame : CryptoFrame) : Writer → Writer × Bool :=
  Writer.andThen (writeFields [FrameType.crypto.value, frame.offset, frame.cryptoData.length])
    fun writer => writer.write frame.cryptoData

def encoded (frame : CryptoFrame) : Bytes :=
  encodeFields [FrameType.crypto.value, frame.offset, frame.cryptoData.length] ++ frame.cryptoData

end CryptoFrame

/-- The data range of `make_fit_size_Crypto`. -/
def cryptoSizeRange (offset maxLength : Nat) : StreamDataRange where
  fixedLength := 1 + minLen offset
  maxLength := maxLength

/-- `make_fit_size_Crypto`: the frame with as much of `src` as `toFit` bytes can carry. -/
def makeFitSizeCrypto (toFit offset : Nat) (src : Bytes) : Option CryptoFrame :=
  let (_, len, ok) := shrinkToFitWithLen toFit (cryptoSizeRange offset src.length)
  if ok then some { offset := offset, cryptoData := substr src 0 len } else none

def cryptoLen (offset size : Nat) : Nat := 1 + minLen offset + minLen size + size

namespace CryptoFrame

theorem length_encoded (frame : CryptoFrame) :
    frame.encoded.length = cryptoLen frame.offset frame.cryptoData.length := by
  have type_len := minLen_of_lt FrameType.crypto.value_lt
  simp only [encoded, length_append, length_encodeFields, fieldsLen, map_cons,
    map_nil, sum_cons, sum_nil, cryptoLen]
  omega

theorem writes_render {frame : CryptoFrame} (offset_lt : frame.offset < 2 ^ 62)
    (data_lt : frame.cryptoData.length < 2 ^ 62) :
    Writer.Writes frame.render frame.encoded := by
  have type_lt := FrameType.crypto.value_lt
  refine .andThen (writes_fields ?_) (Writer.writes_write _)
  intro value member
  simp only [mem_cons, not_mem_nil, or_false] at member
  omega

theorem render_ok {frame : CryptoFrame} {writer : Writer} (ok : (frame.render writer).2) :
    frame.offset < 2 ^ 62 ∧ frame.cryptoData.length < 2 ^ 62 := by
  simp only [render, Writer.andThen] at ok
  split at ok
  case isTrue written =>
    have bound := writeFields_ok written
    exact ⟨bound _ (by simp), bound _ (by simp)⟩
  case isFalse failed => exact absurd ok failed

end CryptoFrame

section Specification

variable {toFit offset : Nat} {src : Bytes}

theorem fixedLength_lt : (cryptoSizeRange offset src.length).fixedLength < 2 ^ 62 := by
  have len_le := minLen_le offset
  simp only [cryptoSizeRange]
  omega

theorem makeFitSizeCrypto_cut {frame : CryptoFrame}
    (made : makeFitSizeCrypto toFit offset src = some frame) :
    frame.offset = offset ∧ frame.cryptoData <+: src ∧ frame.cryptoData ≠ [] := by
  have data_lt : src.length < 2 ^ 62 := by
    by_contra large
    have refused : shrinkToFitWithLen toFit (cryptoSizeRange offset src.length) = (0, 0, false) :=
      if_pos (by simpa [inRange, border, cryptoSizeRange] using large)
    simp [makeFitSizeCrypto, refused] at made
  obtain ⟨⟨_, size, ok⟩, shrunk⟩ : ∃ result,
      shrinkToFitWithLen toFit (cryptoSizeRange offset src.length) = result := ⟨_, rfl⟩
  simp only [makeFitSizeCrypto, shrunk] at made
  cases ok with
  | false => simp at made
  | true =>
    obtain ⟨size_le, -, positive⟩ := shrinkToFitWithLen_fits fixedLength_lt data_lt shrunk
    obtain rfl := Option.some.inj made
    have length_eq : (substr src 0 size).length = size := by
      rw [length_substr]
      simp only [cryptoSizeRange] at size_le
      omega
    refine ⟨rfl, take_prefix _ _, fun empty => ?_⟩
    rw [show substr src 0 size = [] from empty] at length_eq
    simp [cryptoSizeRange, ← length_eq] at positive

theorem makeFitSizeCrypto_of_fits (data_lt : src.length < 2 ^ 62) (some_data : src ≠ [])
    (fits : cryptoLen offset src.length ≤ toFit) :
    makeFitSizeCrypto toFit offset src = some { offset := offset, cryptoData := src } := by
  have not_empty : src.length ≠ 0 := by simpa using some_data
  rw [makeFitSizeCrypto, shrinkToFitWithLen_full fixedLength_lt data_lt (by
    simpa [StreamDataRange.sized, cryptoSizeRange, cryptoLen] using fits)]
  simp [cryptoSizeRange, not_empty, substr]

end Specification

end Futils.Quic.Frame
