import Futils.Quic.Types
import Futils.Quic.Frame.CalcData

/-!
# Frames of a sending stream

The frames that a sending stream writes, their rendering, and `make_fit_size_Stream`, which cuts
stream data to the room left in a packet.  The FIN bit is set when all of the data handed to it
fits.
-/

namespace Futils.Quic.Frame

open Binary Varint Writer StreamDataRange Option

/-- `StreamFrame`, with the flag bits of its type. -/
structure StreamFrame where
  /-- The type announces an offset field. -/
  off : Bool
  /-- The type announces a length field. -/
  len : Bool
  fin : Bool
  streamID : Nat
  offset : Nat
  streamData : Bytes
  deriving DecidableEq

namespace StreamFrame

def type (frame : StreamFrame) : FrameType := .stream frame.off frame.len frame.fin

def stop (frame : StreamFrame) : Nat := frame.offset + frame.streamData.length

def render (frame : StreamFrame) : Writer → Writer × Bool :=
  Writer.andThen (write frame.type.value) <|
    Writer.andThen (write frame.streamID) <|
      Writer.andThen (if frame.off then write frame.offset else fun writer => (writer, true)) <|
        Writer.andThen
          (if frame.len then write frame.streamData.length else fun writer => (writer, true))
          fun writer => writer.write frame.streamData

end StreamFrame

structure ResetStreamFrame where
  streamID : Nat
  applicationProtocolErrorCode : Nat
  /-- Number of bytes sent on the stream. -/
  finalSize : Nat
  deriving DecidableEq

structure StreamDataBlockedFrame where
  streamID : Nat
  maxStreamData : Nat
  deriving DecidableEq

structure DataBlockedFrame where
  maxData : Nat
  deriving DecidableEq

def ResetStreamFrame.fields (frame : ResetStreamFrame) : List Nat :=
  [FrameType.resetStream.value, frame.streamID, frame.applicationProtocolErrorCode, frame.finalSize]

def StreamDataBlockedFrame.fields (frame : StreamDataBlockedFrame) : List Nat :=
  [FrameType.streamDataBlocked.value, frame.streamID, frame.maxStreamData]

def DataBlockedFrame.fields (frame : DataBlockedFrame) : List Nat :=
  [FrameType.dataBlocked.value, frame.maxData]

def calcStreamOverhead (streamId offset : Nat) (hasOfs : Bool) : Nat :=
  1 + minLen streamId + if hasOfs then minLen offset else 0

def streamSizeRange (streamId offset maxLength : Nat) (allowZero : Bool) : StreamDataRange where
  fixedLength := calcStreamOverhead streamId offset (offset != 0)
  maxLength := maxLength
  minZero := allowZero

/-- `make_fit_size_Stream`: the frame with as much of `src` as `toFit` bytes can carry. -/
def makeFitSizeStream (toFit streamId offset : Nat) (src : Bytes) (fin allowZero : Bool) :
    Option StreamFrame :=
  let range := streamSizeRange streamId offset src.length allowZero
  let (ok, noLenData, valid) := shrinkToFitNoLen toFit range
  if valid then
    some
      { off := offset != 0
        len := false
        fin := fin && src.length == noLenData
        streamID := streamId
        offset := offset
        streamData := substr src 0 noLenData }
  else if ok = 0 then none
  else
    let (_, withLenData, useLen) := shrinkToFitWithLen toFit range
    if useLen then
      some
        { off := offset != 0
          len := true
          fin := fin && src.length == withLenData
          streamID := streamId
          offset := offset
          streamData := substr src 0 withLenData }
    else none

namespace StreamFrame

def encoded (frame : StreamFrame) : Bytes :=
  encode frame.type.value (minLen frame.type.value) ++
    (encode frame.streamID (minLen frame.streamID) ++
      ((if frame.off then encode frame.offset (minLen frame.offset) else []) ++
        ((if frame.len then encode frame.streamData.length (minLen frame.streamData.length)
          else []) ++ frame.streamData)))

theorem length_encoded (frame : StreamFrame) :
    frame.encoded.length = calcStreamOverhead frame.streamID frame.offset frame.off +
      (if frame.len then minLen frame.streamData.length else 0) + frame.streamData.length := by
  have type_len := minLen_of_lt frame.type.value_lt
  simp only [encoded, calcStreamOverhead]
  cases frame.off <;> cases frame.len <;> simp <;> omega

/-- A frame whose fields are variable-length integers renders wherever it fits. -/
theorem writes_render {frame : StreamFrame} (id_lt : frame.streamID < 2 ^ 62)
    (offset_lt : frame.offset < 2 ^ 62) (data_lt : frame.streamData.length < 2 ^ 62) :
    Writer.Writes frame.render frame.encoded := by
  have type_lt := frame.type.value_lt
  refine .andThen (writes_varint (by omega)) (.andThen (writes_varint id_lt)
    (.andThen ?_ (.andThen ?_ (writes_write _))))
  · split
    · exact writes_varint offset_lt
    · exact writes_true
  · split
    · exact writes_varint data_lt
    · exact writes_true

end StreamFrame

/-- A STREAM frame with `size` bytes of data fits `toFit` bytes: exactly, without length field, or
with one. -/
def StreamFits (toFit streamId offset size : Nat) : Prop :=
  calcStreamOverhead streamId offset (offset != 0) + size = toFit ∨
    calcStreamOverhead streamId offset (offset != 0) + minLen size + size ≤ toFit
deriving Decidable

/-- The room a STREAM frame takes when all of its data fits. -/
def streamFitLen (toFit streamId offset size : Nat) : Nat :=
  if calcStreamOverhead streamId offset (offset != 0) + size = toFit then toFit
  else calcStreamOverhead streamId offset (offset != 0) + minLen size + size

/-- A frame with the first bytes of `src` that fits, carrying FIN when these are all of them. -/
structure StreamFitted (toFit streamId offset : Nat) (src : Bytes) (fin : Bool)
    (frame : StreamFrame) : Prop where
  id_eq : frame.streamID = streamId
  offset_eq : frame.offset = offset
  data_prefix : frame.streamData <+: src
  fin_eq : frame.fin = (fin && src.length == frame.streamData.length)
  room : frame.encoded.length ≤ toFit
  full : frame.streamData.length = src.length → StreamFits toFit streamId offset src.length ∧
    frame.encoded.length = streamFitLen toFit streamId offset src.length

section Specification

variable {toFit streamId offset : Nat} {src : Bytes} {fin allowZero : Bool}

theorem calcStreamOverhead_le (streamId offset : Nat) (hasOfs : Bool) :
    calcStreamOverhead streamId offset hasOfs ≤ 17 := by
  have id_le := minLen_le streamId
  have offset_le := minLen_le offset
  simp only [calcStreamOverhead]
  split <;> omega

/-- The frame with the first `size` bytes of `src`. -/
def cutFrame (streamId offset : Nat) (src : Bytes) (fin withLen : Bool) (size : Nat) :
    StreamFrame where
  off := offset != 0
  len := withLen
  fin := fin && src.length == size
  streamID := streamId
  offset := offset
  streamData := substr src 0 size

theorem length_encoded_cutFrame {size : Nat} (withLen : Bool) (size_le : size ≤ src.length) :
    (cutFrame streamId offset src fin withLen size).encoded.length =
      calcStreamOverhead streamId offset (offset != 0) + (if withLen then minLen size else 0) +
        size := by
  have data_length : (substr src 0 size).length = size := by
    rw [length_substr]
    omega
  rw [StreamFrame.length_encoded]
  simp only [cutFrame, data_length]

theorem streamFitted_cutFrame {size : Nat} {withLen : Bool} (size_le : size ≤ src.length)
    (room : calcStreamOverhead streamId offset (offset != 0) +
      (if withLen then minLen size else 0) + size ≤ toFit)
    (no_len : withLen = false → calcStreamOverhead streamId offset (offset != 0) + size = toFit)
    (with_len : withLen →
      calcStreamOverhead streamId offset (offset != 0) + src.length ≠ toFit) :
    StreamFitted toFit streamId offset src fin (cutFrame streamId offset src fin withLen size) := by
  have data_length : (substr src 0 size).length = size := by
    rw [length_substr]
    omega
  refine ⟨rfl, rfl, List.take_prefix _ _, ?_, ?_, ?_⟩
  · simp only [cutFrame, data_length]
  · rwa [length_encoded_cutFrame _ size_le]
  · intro all
    rw [length_encoded_cutFrame _ size_le]
    simp only [cutFrame, data_length] at all
    subst all
    simp only [streamFitLen]
    cases withLen with
    | false =>
      have exact_room := no_len rfl
      rw [if_pos exact_room]
      exact ⟨.inl exact_room, exact_room⟩
    | true =>
      rw [if_neg (with_len rfl)]
      exact ⟨.inr room, rfl⟩

/-- Everything `make_fit_size_Stream` does, by the room there is. -/
theorem makeFitSizeStream_cases (data_lt : src.length < 2 ^ 62) :
    let overhead := calcStreamOverhead streamId offset (offset != 0)
    let made := makeFitSizeStream toFit streamId offset src fin allowZero
    (toFit < overhead → made = none) ∧
      (overhead ≤ toFit → toFit ≤ overhead + src.length →
        made = some (cutFrame streamId offset src fin false (toFit - overhead))) ∧
      (overhead + src.length < toFit → toFit < overhead + minLen src.length + src.length →
        ∃ size < src.length, overhead + minLen size + size ≤ toFit ∧
          made = some (cutFrame streamId offset src fin true size)) ∧
      (overhead + src.length < toFit → overhead + minLen src.length + src.length ≤ toFit →
        made = if allowZero || src.length != 0 then
          some (cutFrame streamId offset src fin true src.length) else none) := by
  intro overhead made
  have overhead_le := calcStreamOverhead_le streamId offset (offset != 0)
  have overhead_pos : 0 < overhead := by
    simp only [overhead, calcStreamOverhead]
    omega
  obtain ⟨range, range_eq⟩ : ∃ range, range = streamSizeRange streamId offset src.length allowZero :=
    ⟨_, rfl⟩
  have fixed_eq : range.fixedLength = overhead := by rw [range_eq]; rfl
  have max_eq : range.maxLength = src.length := by rw [range_eq]; rfl
  have zero_eq : range.minZero = allowZero := by rw [range_eq]; rfl
  have fixed_lt : range.fixedLength < 2 ^ 62 := by omega
  have max_lt : range.maxLength < 2 ^ 62 := by omega
  have made_eq : made = makeFitSizeStream toFit streamId offset src fin allowZero := rfl
  simp only [makeFitSizeStream, ← range_eq] at made_eq
  refine ⟨?_, ?_, ?_, ?_⟩
  · intro no_room
    rw [made_eq, shrinkToFitNoLen_no_room fixed_lt max_lt (by omega)]
    rfl
  · intro room cut
    rw [made_eq, shrinkToFitNoLen_cut fixed_lt max_lt (by omega) (by omega), fixed_eq]
    rfl
  · intro longer short
    obtain ⟨size, shrunk, shorter, fits⟩ := shrinkToFitWithLen_short fixed_lt max_lt
      (show range.fixedLength + range.maxLength < toFit by omega)
      (by rw [sized, fixed_eq, max_eq]; exact short)
    rw [made_eq, shrinkToFitNoLen_longer fixed_lt max_lt (by omega), shrunk]
    rw [sized, fixed_eq] at fits
    refine ⟨size, by omega, fits, ?_⟩
    simp only [Bool.false_eq_true, if_false]
    exact if_neg (by omega)
  · intro longer fits
    have shrunk := shrinkToFitWithLen_full fixed_lt max_lt
      (show range.sized range.maxLength ≤ toFit by
        rw [sized, fixed_eq, max_eq]
        exact fits)
    rw [made_eq, shrinkToFitNoLen_longer fixed_lt max_lt (by omega), shrunk, zero_eq, max_eq]
    simp only [Bool.false_eq_true, if_false]
    rw [if_neg (by omega)]
    cases allowZero || src.length != 0 <;> rfl

theorem makeFitSizeStream_fitted (data_lt : src.length < 2 ^ 62) {frame : StreamFrame}
    (made : makeFitSizeStream toFit streamId offset src fin allowZero = some frame) :
    StreamFitted toFit streamId offset src fin frame := by
  obtain ⟨no_room, cut, short, whole⟩ :=
    @makeFitSizeStream_cases toFit streamId offset src fin allowZero data_lt
  simp only [made] at no_room cut short whole
  by_cases room : toFit < calcStreamOverhead streamId offset (offset != 0)
  · exact absurd (no_room room) (by simp)
  · by_cases fills : toFit ≤ calcStreamOverhead streamId offset (offset != 0) + src.length
    · obtain rfl := some.inj (cut (by omega) fills)
      exact streamFitted_cutFrame (by omega) (by simp; omega) (fun _ => by omega) (by simp)
    · by_cases cut_short : toFit < calcStreamOverhead streamId offset (offset != 0) +
          minLen src.length + src.length
      · obtain ⟨_, shorter, fits, frame_eq⟩ := short (by omega) cut_short
        obtain rfl := some.inj frame_eq
        exact streamFitted_cutFrame (by omega) (by simpa using fits) (by simp)
          (fun _ => by omega)
      · have frame_eq := whole (by omega) (by omega)
        split at frame_eq
        · obtain rfl := some.inj frame_eq
          exact streamFitted_cutFrame (le_rfl) (by simp; omega) (by simp)
            (fun _ => by omega)
        · simp at frame_eq

theorem makeFitSizeStream_of_fits (data_lt : src.length < 2 ^ 62)
    (some_data : allowZero ∨ src ≠ []) (fits : StreamFits toFit streamId offset src.length) :
    ∃ frame, makeFitSizeStream toFit streamId offset src fin allowZero = some frame ∧
      frame.streamData = src := by
  obtain ⟨-, cut, -, whole⟩ := @makeFitSizeStream_cases _ _ _ src fin _ data_lt
  have all : substr src 0 src.length = src := by simp [substr]
  by_cases exact_room : calcStreamOverhead streamId offset (offset != 0) + src.length = toFit
  · refine ⟨_, cut (by omega) (by omega), ?_⟩
    simp only [cutFrame]
    rw [show toFit - calcStreamOverhead streamId offset (offset != 0) = src.length by omega, all]
  · have with_len := fits.resolve_left exact_room
    have not_empty : (allowZero || src.length != 0) := by
      rcases some_data with zero | data
      · simp [zero]
      · simp [data]
    refine ⟨_, (whole (by omega) with_len).trans (if_pos not_empty), all⟩

end Specification

end Futils.Quic.Frame
