import Futils.Quic.Frame.Writer
import Futils.Quic.Wire.Frame

/-!
# Frames are read back as they were written

For every kind of frame, the three definitions of its layout agree: what `render` writes has the
length of `len`, and `parse` reads the frame back.  A list of frames is then read back frame by frame,
as the type that `parse_frame` peeks at selects the kind.
-/

namespace Futils.Quic.Wire

open Binary Varint Lib.BigEndian Codes Writer List Nat FrameType

section Fields

variable {value : Nat}

variable (type : FrameType) (v : LenValue)

/-- `write` in one step, whether the length is asked for or the shortest. -/
theorem write_eq (writer : Writer) :
    v.write writer = if inRange v.value v.length ∧ v.length ≤ writer.remain then
      writer.write (encode v.value v.length) else (writer, false) := by
  by_cases shortest : v.len = 0
  · rw [LenValue.write, if_pos shortest, LenValue.length, if_pos shortest, Varint.write]
    by_cases known : minLen v.value = 0
    · rw [if_pos known, if_neg (by simp [known, inRange, border])]
    · rw [if_neg known, if_congr (show _ ↔ ¬ (inRange v.value (minLen v.value) ∧
        minLen v.value ≤ writer.remain) by simp [inRange_minLen known]) rfl rfl, ite_not]
  · rw [LenValue.write, if_neg shortest, LenValue.length, if_neg shortest]
    cases inRange v.value v.len with
    | false => rfl
    | true => grind

/-- The bytes of an integer, under any way of reading them. -/
theorem codes_written {α : Type} {parse : Parser α} {result : α} (v : LenValue)
    (reads : inRange v.value v.length →
      Parser.Reads parse (encode v.value v.length) result) :
    Codes false v.write v.length parse result := by
  by_cases fits : inRange v.value v.length
  · have coded := @codes_of_writes _ v.write _ _ _
      (fun writer ok => by
        rw [write_eq] at ok
        split at ok
        · exact write_ok ok
        · cases ok)
      (fun writer room => by
        rw [write_eq, if_pos ⟨fits, by simpa using room⟩]
        exact writes_write _ _ _)
      (reads fits)
    rw [length_encode] at coded
    exact coded
  · intro writer ok
    rw [write_eq, if_neg fun both => fits both.1] at ok
    cases ok

theorem codes_value : Codes false v.write v.length readValue v.settled :=
  codes_written v reads_value

theorem codes_shortest (value : Nat) :
    Codes false (write value) (minLen value) readValue ⟨value, minLen value⟩ :=
  codes_value ⟨value, 0⟩

theorem maskToLen_known (first : UInt8) : maskToLen first = 1 ∨ maskToLen first = 2 ∨
    maskToLen first = 4 ∨ maskToLen first = 8 := by
  grind [maskToLen]

/-- The first byte is its six low bits under the bits of the length. -/
theorem or_lenMask_maskToLen (first : UInt8) :
    UInt8.ofNat (first.toNat % 64) ||| lenMask (maskToLen first) = first := by
  have all_bytes : ∀ byte : Fin 256, UInt8.ofNat (byte.val % 64) |||
      lenMask (maskToLen (UInt8.ofNat byte.val)) = UInt8.ofNat byte.val := by decide +kernel
  have masked := all_bytes ⟨first.toNat, first.toNat_lt⟩
  rwa [UInt8.ofNat_toNat] at masked

/-- An integer that was read is encoded as it was, in the length that was found. -/
theorem encode_decode {first : UInt8} {more : Bytes} (whole : maskToLen first = more.length + 1) :
    inRange (decode (first :: more)) (more.length + 1) ∧
      encode (decode (first :: more)) (more.length + 1) = first :: more := by
  have below := ofBytes_lt more
  have positive : 0 < 256 ^ more.length := Nat.pow_pos (by decide)
  have small : first.toNat % 64 * 256 ^ more.length + ofBytes more < 64 * 256 ^ more.length :=
    calc _ < (first.toNat % 64 + 1) * 256 ^ more.length := by rw [succ_mul]; omega
      _ ≤ _ := mul_le_mul_right _ (mod_lt _ (by decide))
  have value_eq : decode (first :: more) = first.toNat % 64 * 256 ^ more.length + ofBytes more := by
    have split_first : first.toNat = first.toNat % 64 + first.toNat / 64 * 64 := by omega
    rw [decode, ofBytes, length_cons, show 8 * (more.length + 1) - 2 = 6 + 8 * more.length by
      omega, Nat.pow_add, Nat.pow_mul, split_first, Nat.add_mul, Nat.mul_assoc,
      Nat.add_right_comm, add_mul_mod_self_right, ← split_first, mod_eq_of_lt small]
  constructor
  · rw [value_eq, inRange_iff]
    exact ⟨whole ▸ maskToLen_known _, small⟩
  · rw [value_eq]
    show (UInt8.ofNat ((first.toNat % 64 * 256 ^ more.length + ofBytes more) /
      256 ^ more.length) ||| lenMask _) :: toBytes _ _ = _
    rw [toBytes_ofBytes, Nat.mul_comm, mul_add_div positive, div_eq_of_lt below,
      Nat.add_zero, ← whole, or_lenMask_maskToLen]

theorem readValue_spec {input rest : Bytes} {v : LenValue}
    (found : readValue input = some (v, rest)) :
    ∃ first more, input = first :: more ++ rest ∧ maskToLen first = more.length + 1 ∧
      v = ⟨decode (first :: more), more.length + 1⟩ := by
  cases input with
  | nil => cases found
  | cons first tail =>
    obtain ⟨more, len_eq⟩ : ∃ more, maskToLen first = more + 1 :=
      exists_eq_succ_of_ne_zero (by have := maskToLen_known first; omega)
    rw [readValue, Parser.take, len_eq] at found
    split at found
    · cases found
    rename_i taken
    split at taken
    · cases taken
    rename_i enough
    cases taken
    cases found
    have length_eq : (tail.take more).length = more := by
      rw [length_cons] at enough
      rw [length_take]
      omega
    exact ⟨first, tail.take more, by simp, by rw [length_eq, len_eq], by rw [length_eq]; rfl⟩

/-- Writing fails exactly without a fit or room, and then writes nothing; an unset length is the
shortest; what is written is read back, and what is read is written back. -/
theorem varint_exact (v : LenValue) (writer : Writer) :
    ((v.write writer).2 = true ↔ inRange v.value v.length = true ∧ v.length ≤ writer.remain) ∧
      ((v.write writer).2 = false → (v.write writer).1 = writer) ∧
      (v.len = 0 → v.value < 2 ^ 62 → inRange v.value v.length = true ∧
        ∀ len, inRange v.value len = true → v.length ≤ len) ∧
      Codes false v.write v.length readValue v.settled ∧
      ∀ input rest, readValue input = some (v, rest) →
        ∃ bytes, input = bytes ++ rest ∧ Writer.Writes v.write bytes := by
  refine ⟨?_, ?_, ?_, codes_value v, ?_⟩
  · rw [write_eq]
    split
    case isTrue both => simp [Writer.write, both]
    case isFalse failed => simp [failed]
  · rw [write_eq]
    split
    case isTrue both => simp [Writer.write, both]
    case isFalse failed => simp
  · intro shortest bound
    rw [LenValue.length, if_pos shortest]
    refine ⟨inRange_minLen (pos_iff_ne_zero.1 (minLen_pos bound)), fun len fits => ?_⟩
    rcases (inRange_iff.1 fits).1 with rfl | rfl | rfl | rfl <;> grind [minLen]
  · intro input rest found
    obtain ⟨first, more, rfl, whole, rfl⟩ := readValue_spec found
    obtain ⟨fits, encode_eq⟩ := encode_decode whole
    refine ⟨first :: more, rfl, fun writer room => ?_⟩
    rw [write_eq, LenValue.length, if_neg (succ_ne_zero _), if_pos ⟨fits, room⟩, encode_eq]
    exact writes_write _ _ _

theorem codes_if (present : Bool) (v : LenValue) :
    ∃ back, Codes false (writeIf present v) (lenIf present v) (readIf present) back ∧
      back.plain = if present then v.plain else ⟨0, 0⟩ := by
  cases present with
  | true => exact ⟨v.settled, codes_value v, rfl⟩
  | false => exact ⟨⟨0, 0⟩, codes_pure _, rfl⟩

theorem codes_sized (data : Bytes) :
    Codes false (writeSized data) (sizedLen data) readSized data :=
  (codes_shortest _).andThen (codes_bytes _)

@[simp] theorem minLen_type : minLen type.value = 1 := minLen_of_lt type.value_lt

@[simp] theorem typeMinlen_eq : typeMinlen type = 1 := minLen_type type

theorem codes_minLen : Codes false (Varint.write type.value) 1 readMinLen type.value := by
  have type_lt := type.value_lt
  have known := minLen_type type
  have coded := @codes_of_writes _ _ _
    _ type.value (fun writer ok => by
      rw [Varint.write, if_neg (by omega)] at ok
      split at ok
      · cases ok
      exact write_ok ok)
    (writes_varint (by omega)) (reads_minLen (by omega))
  rwa [known] at coded

variable {type} in
theorem codes_type {base : FrameType} (base_eq : type.base = base) :
    Codes false (typeMinwrite type) 1 (parseCheck base) type := by
  intro writer ok
  obtain ⟨bytes, room, render_eq, length_eq, reads⟩ := codes_minLen type writer ok
  refine ⟨bytes, room, render_eq, length_eq, fun rest last => ?_⟩
  rw [parseCheck, Parser.bind, reads rest last]
  simp [ofValue_value, base_eq]

theorem codes_typeOnly :
    Codes false (TypeOnly.render type) (TypeOnly.len type) (TypeOnly.parse type) type := by
  intro writer ok
  obtain ⟨bytes, room, render_eq, length_eq, reads⟩ := codes_minLen _ _ ok
  refine ⟨bytes, room, render_eq, by simpa [TypeOnly.len] using length_eq, fun rest last => ?_⟩
  rw [TypeOnly.parse, Parser.bind, reads _ last]
  simp [ofValue_value]

end Fields

section Kinds

/-- What is rendered is read back, up to the lengths of the integers. -/
def RoundTrips {α : Type} (plain : α → α) (ends : Bool) (render : Writer → Writer × Bool)
    (len : Nat) (parse : Parser α) (frame : α) : Prop :=
  ∃ back, Codes ends render len parse back ∧ plain back = plain frame

theorem RoundTrips.at_end {α : Type} {plain : α → α} {ends : Bool} {render : Writer → Writer × Bool}
    {len : Nat} {parse : Parser α} {frame : α}
    (trips : RoundTrips plain false render len parse frame) :
    RoundTrips plain ends render len parse frame :=
  trips.imp fun _ coded => ⟨coded.1.at_end, coded.2⟩

theorem ACKFrame.codes_ranges (ranges : List WireACKRange) :
    ∃ back, Codes false (renderAckRanges ranges) (ackRangesLen ranges)
        (parseAckRanges ranges.length) back ∧
      back.map (fun range => (⟨range.gap.plain, range.len.plain⟩ : WireACKRange)) =
        ranges.map fun range => ⟨range.gap.plain, range.len.plain⟩ := by
  induction ranges with
  | nil => exact ⟨[], codes_pure [], rfl⟩
  | cons range ranges ih =>
    obtain ⟨back, coded, same⟩ := ih
    refine ⟨⟨range.gap.settled, range.len.settled⟩ :: back, ?_, ?_⟩
    · refine of_len ((codes_value _).andThen ((codes_value _).andThen (coded.map _))) ?_
      simp only [ackRangesLen, map_cons, sum_cons]
      omega
    · rw [map_cons, same]
      rfl

theorem ACKFrame.codes_ecn (frame : ACKFrame)
    (carried : frame.getType = .ack → frame.plain.ecnCounts = {}) :
    ∃ back : ECNCounts, Codes false frame.renderEcnCounts frame.ecnCountsLen
        (parseEcnCounts frame.getType) back ∧
      (⟨back.ect0.plain, back.ect1.plain, back.ecnCe.plain⟩ : ECNCounts) =
        frame.plain.ecnCounts := by
  by_cases ecn : frame.type = .ackEcn
  · refine ⟨⟨frame.ecnCounts.ect0.settled, frame.ecnCounts.ect1.settled,
      frame.ecnCounts.ecnCe.settled⟩, ?_, rfl⟩
    rw [renderEcnCounts, ecnCountsLen, getType, if_neg (by simp [ecn]),
      if_neg (by simp [ecn]), if_pos ecn]
    refine of_len ((codes_value _).andThen ((codes_value _).andThen ((codes_value _).map _))) ?_
    omega
  · have is_ack : frame.getType = .ack := if_neg ecn
    refine ⟨{}, ?_, (carried is_ack).symm⟩
    rw [renderEcnCounts, ecnCountsLen, is_ack, if_pos ecn, if_pos ecn]
    exact codes_pure _

theorem ACKFrame.codes (frame : ACKFrame)
    (carried : frame.getType = .ack → frame.plain.ecnCounts = {}) :
    RoundTrips plain false frame.render frame.len parse frame := by
  have base_eq : frame.getType.base = .ack := by
    rw [getType]
    split <;> rfl
  obtain ⟨ranges, ranges_coded, ranges_same⟩ := codes_ranges _
  obtain ⟨counts, counts_coded, counts_same⟩ := frame.codes_ecn carried
  have checked : Codes false
      (if frame.ackRanges.length ≠ frame.ackRangeCount.value then fun writer => (writer, false)
        else renderAckRanges frame.ackRanges)
      (ackRangesLen frame.ackRanges) (parseAckRanges frame.ackRangeCount.settled.value) ranges := by
    split
    case isTrue => exact codes_fail
    case isFalse count_eq =>
      rw [show frame.ackRangeCount.settled.value = _ from (Decidable.not_not.1 count_eq).symm]
      exact ranges_coded
  refine ⟨⟨frame.getType, frame.largestAck.settled, frame.ackDelay.settled,
    frame.ackRangeCount.settled, frame.firstAckRange.settled, ranges, counts⟩, ?_, ?_⟩
  · refine of_len ((codes_type base_eq).andThen ((codes_value _).andThen ((codes_value _).andThen
      ((codes_value _).andThen ((codes_value _).andThen (checked.andThen
        (counts_coded.map _))))))) ?_
    simp only [len, typeMinlen_eq]
    omega
  · have type_eq : (if frame.getType = .ackEcn then ackEcn else .ack) =
        frame.getType := by
      rw [getType]
      split <;> simp
    simp only [plain] at counts_same ⊢
    congr 1

theorem ResetStreamFrame.codes (frame : ResetStreamFrame) :
    RoundTrips plain false frame.render frame.len parse frame := by
  refine ⟨⟨frame.streamID.settled, frame.applicationProtocolErrorCode.settled,
    frame.finalSize.settled⟩, ?_, rfl⟩
  refine of_len ((codes_type rfl).andThen ((codes_value _).andThen ((codes_value _).andThen
    ((codes_value _).map _)))) ?_
  simp only [len, typeMinlen_eq]
  omega

theorem StopSendingFrame.codes (frame : StopSendingFrame) :
    RoundTrips plain false frame.render frame.len parse frame := by
  refine ⟨⟨frame.streamID.settled, frame.applicationProtocolErrorCode.settled⟩, ?_, rfl⟩
  refine of_len ((codes_type rfl).andThen ((codes_value _).andThen ((codes_value _).map _))) ?_
  simp only [len, typeMinlen_eq]
  omega

theorem StreamFrame.codes (frame : StreamFrame)
    (carried : streamOff frame.getType = false → frame.offset.value = 0) :
    RoundTrips plain (!streamLen frame.getType) frame.render frame.len parse frame := by
  obtain ⟨off, len, fin, type_eq⟩ : ∃ off len fin, frame.getType = .stream off len fin := by
    rw [getType]
    split
    · exact ⟨_, _, _, rfl⟩
    · exact ⟨_, _, _, rfl⟩
  obtain ⟨offset, offset_coded, offset_same⟩ := codes_if off _
  have data_coded : Codes (!len)
      (if !len then fun writer => writer.write frame.streamData else writeSized frame.streamData)
      ((if !len then 0 else minLen frame.streamData.length) + frame.streamData.length)
      (if len then readSized else Parser.rest) frame.streamData := by
    cases len with
    | true => exact codes_sized frame.streamData
    | false => exact of_len (codes_rest frame.streamData) (zero_add _).symm
  rw [type_eq] at carried ⊢
  refine ⟨⟨.stream off len fin, frame.streamID.settled, offset, frame.streamData⟩, ?_, ?_⟩
  · rw [render, StreamFrame.len, type_eq]
    refine of_len ((codes_type rfl).andThen ((codes_value _).andThen (offset_coded.andThen
      (data_coded.map _)))) ?_
    simp only [streamOff, streamLen]
    cases len <;> simp <;> omega
  · have offset_eq : offset.plain = frame.offset.plain := by
      rw [offset_same]
      split
      case isTrue => rfl
      case isFalse absent =>
        rw [LenValue.plain, carried (by simpa [streamOff] using absent)]
    simp only [plain, type_eq, offset_eq]
    rfl

variable {type : FrameType}

theorem MaxStreamDataBase.codes (is_base : type.base = type) (frame : MaxStreamDataBase type) :
    RoundTrips plain false frame.render frame.len (parse type) frame := by
  refine ⟨⟨frame.streamID.settled, frame.maxStreamData.settled⟩, ?_, rfl⟩
  refine of_len ((codes_type is_base).andThen ((codes_value _).andThen ((codes_value _).map _))) ?_
  simp only [len, typeMinlen_eq]
  omega

theorem MaxDataBase.codes (is_base : type.base = type) (frame : MaxDataBase type) :
    RoundTrips plain false frame.render frame.len (parse type) frame := by
  refine ⟨⟨frame.maxData.settled⟩, ?_, rfl⟩
  refine of_len ((codes_type is_base).andThen ((codes_value _).map _)) ?_
  simp only [len, typeMinlen_eq]

theorem MaxStreamsBase.codes {base : FrameType} (frame : MaxStreamsBase base) :
    RoundTrips plain false frame.render frame.len (parse base) frame := by
  refine ⟨⟨frame.type, frame.maxStreams.settled⟩, ?_, rfl⟩
  rw [render]
  split
  case isTrue => exact codes_fail
  case isFalse base_eq =>
    refine of_len ((codes_type (Decidable.not_not.1 base_eq)).andThen ((codes_value _).map _)) ?_
    simp only [len, typeMinlen_eq]

theorem ConnectionCloseFrame.codes (frame : ConnectionCloseFrame)
    (carried : frame.getType = .connectionCloseApp → frame.frameType.value = 0) :
    RoundTrips plain false frame.render frame.len parse frame := by
  have base_eq : frame.getType.base = .connectionClose := by
    rw [getType]
    split <;> rfl
  have same_type : (frame.getType ≠ .connectionCloseApp) = (frame.type ≠ .connectionCloseApp) := by
    rw [getType]
    split <;> simp [*]
  obtain ⟨frame_type, frame_type_coded, frame_type_same⟩ := codes_if _ _
  refine ⟨⟨frame.getType, frame.errorCode.settled, frame_type, frame.reasonPhrase⟩, ?_, ?_⟩
  · have field_coded : Codes false (writeIf (frame.type ≠ .connectionCloseApp) frame.frameType)
        (lenIf (frame.type ≠ .connectionCloseApp) frame.frameType)
        (readIf (frame.getType ≠ .connectionCloseApp)) frame_type := by
      simpa only [same_type] using frame_type_coded
    refine of_len ((codes_type base_eq).andThen ((codes_value _).andThen (field_coded.andThen
      ((codes_sized _).map _)))) ?_
    simp only [len, typeMinlen_eq, sizedLen]
    omega
  · have field_eq : frame_type.plain = frame.frameType.plain := by
      rw [frame_type_same]
      split
      case isTrue => rfl
      case isFalse app =>
        have is_app : frame.type = .connectionCloseApp := by simpa using app
        rw [LenValue.plain, carried (by rw [getType, if_pos is_app])]
    have type_eq : (if frame.getType = .connectionCloseApp then connectionCloseApp
        else .connectionClose) = frame.getType := by
      rw [getType]
      split <;> simp
    simp only [plain]
    congr 1

theorem CryptoFrame.codes (frame : CryptoFrame) :
    RoundTrips plain false frame.render frame.len parse frame := by
  refine ⟨⟨frame.offset.settled, frame.cryptoData⟩, ?_, rfl⟩
  refine of_len ((codes_type rfl).andThen ((codes_value _).andThen
    ((codes_sized _).map _))) ?_
  simp only [len, typeMinlen_eq, sizedLen]
  omega

theorem NewTokenFrame.codes (frame : NewTokenFrame) :
    Codes false frame.render frame.len parse frame := by
  refine of_len ((codes_type rfl).andThen ((codes_sized _).map _)) ?_
  simp only [len, typeMinlen_eq, sizedLen]
  omega

theorem DatagramFrame.codes (frame : DatagramFrame) :
    RoundTrips plain (frame.getType ≠ .datagramLen) frame.render frame.len parse frame := by
  by_cases no_len : frame.type = .datagram
  · have type_eq : frame.getType = .datagram := if_pos no_len
    refine ⟨⟨.datagram, frame.datagramData⟩, ?_, ?_⟩
    · rw [render, type_eq, if_pos no_len]
      refine of_len ((codes_type rfl).andThen ((codes_rest _).map _)) ?_
      simp only [len, typeMinlen_eq, no_len, if_true]
    · simp only [plain, type_eq]
      rfl
  · have type_eq : frame.getType = .datagramLen := if_neg no_len
    refine ⟨⟨.datagramLen, frame.datagramData⟩, ?_, ?_⟩
    · rw [render, type_eq, if_neg no_len]
      refine of_len ((codes_type rfl).andThen ((codes_sized _).map _)) ?_
      simp only [len, typeMinlen_eq, no_len, if_false, sizedLen]
      omega
    · simp only [plain, type_eq]
      rfl

theorem codes_toBytes {α : Type} (size value : Nat) (ofNat : Nat → α) :
    Codes false (fun writer =>
        if writer.remain < size then (writer, false) else writer.write (toBytes size value)) size
      ((Parser.take size).bind fun data rest => some (ofNat (ofBytes data), rest))
      (ofNat (value % 256 ^ size)) := by
  have taken := Parser.reads_take (toBytes size value)
  have coded := @codes_of_writes _ (fun writer =>
    if writer.remain < size then (writer, false) else writer.write _) _ _ _
    (fun writer ok => by
      split at ok
      · cases ok
      exact write_ok ok)
    (fun writer room => by
      have enough := room
      rw [length_toBytes] at enough
      simp only [if_neg (not_lt.2 enough)]
      exact writes_write _ _ _) taken
  rw [length_toBytes] at coded
  have mapped := coded.map fun bytes => ofNat (ofBytes bytes)
  rw [ofBytes_toBytes] at mapped
  exact mapped

theorem PathBase.codes_num (data : UInt64) : Codes false (writeNum data) 8 readNum data := by
  have coded := codes_toBytes 8 data.toNat UInt64.ofNat
  rw [mod_eq_of_lt (show data.toNat < 256 ^ 8 from data.toNat_lt), UInt64.ofNat_toNat] at coded
  exact coded

theorem PathBase.codes (is_base : type.base = type) (frame : PathBase type) :
    Codes false frame.render frame.len (parse type) frame := by
  refine of_len ((codes_type is_base).andThen ((codes_num _).map _)) ?_
  simp only [len, typeMinlen_eq]

theorem NewConnectionIDFrame.codes_id {id : Bytes} (short : id.length ≤ 0xFF) :
    Codes false
      (andThen (fun writer => writer.write [UInt8.ofNat id.length])
        fun writer => writer.write id)
      (1 + id.length) readId id := by
  refine (codes_bytes _).andThen ?_
  have length_eq : ofBytes [UInt8.ofNat id.length] = id.length := by
    simp only [ofBytes, length_nil, UInt8.toNat_ofNat']
    omega
  rw [length_eq]
  exact codes_bytes id

theorem NewConnectionIDFrame.codes_token (token : StatelessResetToken) :
    Codes false (fun writer => writer.write token.val) 16 readToken token := codes_array _

theorem NewConnectionIDFrame.codes (frame : NewConnectionIDFrame) :
    RoundTrips plain false frame.render frame.len parse frame := by
  refine ⟨⟨frame.sequenceNumber.settled, frame.retireProiorTo.settled, frame.connectionID,
    frame.statelessResetToken⟩, ?_, rfl⟩
  rw [render]
  split
  case isTrue => exact codes_fail
  case isFalse short =>
    refine of_len ((codes_type rfl).andThen ((codes_value _).andThen ((codes_value _).andThen
      ((codes_id (not_lt.1 short)).andThen ((codes_token _).map _))))) ?_
    simp only [len, typeMinlen_eq]
    omega

theorem RetireConnectionIDFrame.codes (frame : RetireConnectionIDFrame) :
    RoundTrips plain false frame.render frame.len parse frame := by
  refine ⟨⟨frame.sequenceNumber.settled⟩, ?_, rfl⟩
  refine of_len ((codes_type rfl).andThen ((codes_value _).map _)) ?_
  simp only [len, typeMinlen_eq]

end Kinds

namespace Frame

/-- The frame is read back by the parser of its kind. -/
def ReadsBack (frame : Frame) : Prop :=
  ∃ parse back, selectFrame frame.kind = some parse ∧
    Codes (!decide frame.Delimited) frame.render frame.len parse back ∧ back.plain = frame.plain

theorem readsBack_of_codes {α : Type} {parse : Parser α} {wrap : α → Frame} {frame : Frame} {back : α}
    (selected : selectFrame frame.kind = some (parseKind parse wrap))
    (coded : Codes (!decide frame.Delimited) frame.render frame.len parse back)
    (same : (wrap back).plain = frame.plain) : ReadsBack frame :=
  ⟨_, _, selected, coded.map _, same⟩

theorem readsBack_of_roundTrips {α : Type} {plain : α → α} {parse : Parser α} {frame : α}
    (wrap : α → Frame) (selected : selectFrame (wrap frame).kind = some (parseKind parse wrap))
    (trips : RoundTrips plain (!decide (wrap frame).Delimited) (wrap frame).render (wrap frame).len
      parse frame) (unwrap : ∀ frame, (wrap frame).plain = wrap (plain frame)) :
    ReadsBack (wrap frame) := by
  obtain ⟨_, coded, same⟩ := trips
  exact readsBack_of_codes selected coded (by rw [unwrap, unwrap, same])

theorem readsBack (frame : Frame) (carried : frame.Carried) : ReadsBack frame := by
  cases frame with
  | padding => exact readsBack_of_codes rfl (codes_typeOnly .padding).at_end rfl
  | ping => exact readsBack_of_codes rfl (codes_typeOnly .ping).at_end rfl
  | handshakeDone => exact readsBack_of_codes rfl (codes_typeOnly .handshakeDone).at_end rfl
  | newToken frame => exact readsBack_of_codes rfl frame.codes.at_end rfl
  | pathChallenge frame | pathResponse frame =>
    exact readsBack_of_codes rfl (frame.codes rfl).at_end rfl
  | ack frame => exact readsBack_of_roundTrips .ack rfl (frame.codes carried).at_end fun _ => rfl
  | resetStream frame =>
    exact readsBack_of_roundTrips _ rfl frame.codes.at_end fun _ => rfl
  | stopSending frame =>
    exact readsBack_of_roundTrips _ rfl frame.codes.at_end fun _ => rfl
  | crypto frame => exact readsBack_of_roundTrips .crypto rfl frame.codes.at_end fun _ => rfl
  | maxData frame =>
    exact readsBack_of_roundTrips _ rfl (frame.codes rfl).at_end fun _ => rfl
  | maxStreamData frame =>
    exact readsBack_of_roundTrips _ rfl (frame.codes rfl).at_end fun _ => rfl
  | maxStreams frame =>
    exact readsBack_of_roundTrips _ rfl frame.codes.at_end fun _ => rfl
  | dataBlocked frame =>
    exact readsBack_of_roundTrips _ rfl (frame.codes rfl).at_end fun _ => rfl
  | streamDataBlocked frame =>
    exact readsBack_of_roundTrips _ rfl (frame.codes rfl).at_end fun _ => rfl
  | streamsBlocked frame =>
    exact readsBack_of_roundTrips _ rfl frame.codes.at_end fun _ => rfl
  | newConnectionID frame =>
    exact readsBack_of_roundTrips _ rfl frame.codes.at_end fun _ => rfl
  | retireConnectionID frame =>
    exact readsBack_of_roundTrips _ rfl frame.codes.at_end fun _ => rfl
  | connectionClose frame =>
    exact readsBack_of_roundTrips _ rfl (frame.codes carried).at_end fun _ => rfl
  | stream frame =>
    have ends_eq : decide (Delimited (.stream frame)) = streamLen frame.getType :=
      Bool.eq_iff_iff.2 decide_eq_true_iff
    exact readsBack_of_roundTrips _ rfl (ends_eq ▸ frame.codes carried) fun _ => rfl
  | datagram frame =>
    refine readsBack_of_roundTrips _ rfl ?_ fun _ => rfl
    rw [← decide_not]
    exact frame.codes

theorem len_pos (frame : Frame) : 0 < frame.len := by
  cases frame <;>
    simp only [len, TypeOnly.len, ACKFrame.len, ResetStreamFrame.len, StopSendingFrame.len,
      CryptoFrame.len, NewTokenFrame.len, StreamFrame.len, MaxDataBase.len, MaxStreamDataBase.len,
      MaxStreamsBase.len, NewConnectionIDFrame.len, RetireConnectionIDFrame.len, PathBase.len,
      ConnectionCloseFrame.len, DatagramFrame.len, typeMinlen_eq, minLen_type] <;>
    omega

end Frame

/-- The input begins with a type of this kind. -/
def Peeks (kind : FrameType) (input : Bytes) : Prop :=
  ∃ value left type, readMinLen input = some (value, left) ∧
    FrameType.ofValue value = some type ∧ type.base = kind

variable {kind : FrameType} {input : Bytes}

theorem peeks_of_parseCheck {α : Type} {next : FrameType → Parser α} {result : α × Bytes}
    (parsed : (parseCheck kind).bind next input = some result) : Peeks kind input := by
  obtain ⟨_, _, checked, -⟩ := Parser.bind_eq_some.1 parsed
  obtain ⟨value, left, found, checked⟩ := Parser.bind_eq_some.1 checked
  split at checked
  · cases checked
  rename_i detail known
  split at checked
  case isTrue base_eq => exact ⟨value, left, detail, found, known, base_eq⟩
  case isFalse => cases checked

theorem peeks_of_typeOnly (is_base : kind.base = kind) {result : FrameType × Bytes}
    (parsed : TypeOnly.parse kind input = some result) : Peeks kind input := by
  obtain ⟨value, left, found, checked⟩ := Parser.bind_eq_some.1 parsed
  split at checked
  case isTrue known => exact ⟨value, left, kind, found, known, is_base⟩
  case isFalse => cases checked

/-- A frame that is parsed begins with a type of its kind. -/
theorem peeks_of_parse {parse : Parser Frame} {result : Frame × Bytes}
    (selected : selectFrame kind = some parse) (parsed : parse input = some result) :
    Peeks kind input := by
  have of_kind {α : Type} {own : Parser α} {wrap : α → Frame}
      (peeks : ∀ result, own input = some result → Peeks kind input)
      (parsed : parseKind own wrap input = some result) : Peeks kind input := by
    obtain ⟨_, _, own_parsed, -⟩ := Parser.bind_eq_some.1 parsed
    exact peeks _ own_parsed
  unfold selectFrame at selected
  split at selected <;> cases selected
  case h_1 | h_2 | h_20 => exact of_kind (fun _ => peeks_of_typeOnly rfl) parsed
  all_goals exact of_kind (fun _ => peeks_of_parseCheck) parsed

section Lists

/-- A frame at the front of the input is handed to the callback. -/
theorem parseFrame_of_codes {frame back : Frame} {parse : Parser Frame} {bytes rest : Bytes}
    (selected : selectFrame frame.kind = some parse)
    (parsed : parse (bytes ++ rest) = some (back, rest)) :
    parseFrame (bytes ++ rest) = ([.frame back], rest, true) := by
  obtain ⟨_, _, _, found, known, base_eq⟩ := peeks_of_parse selected parsed
  rw [parseFrame, found]
  simp only [known, Option.bind_some, base_eq, selected, parsed]

/-- What a list of frames is rendered to is read back frame by frame. -/
theorem parseFrames_renderAll {frames : List Frame} (carried : ∀ frame ∈ frames, frame.Carried)
    (delimited : ∀ frame ∈ frames.dropLast, frame.Delimited) {writer : Writer}
    (rendered : (renderAll frames writer).2) :
    ∃ bytes, ∃ room : bytes.length ≤ writer.remain,
      (renderAll frames writer).1 = writer.append bytes room ∧
      bytes.length = (frames.map Frame.len).sum ∧
      ∃ parsed : List Frame, parsed.map Frame.plain = frames.map Frame.plain ∧
        ∀ fuel limit, frames.length < fuel → frames.length ≤ limit →
          parseFrames false fuel limit bytes = some (parsed.map .frame, [], true) := by
  induction frames generalizing writer with
  | nil =>
    refine ⟨[], zero_le _, by simp [renderAll, append], rfl, [], rfl, ?_⟩
    intro fuel limit enough _
    obtain ⟨-, rfl⟩ := Nat.exists_eq_add_of_lt enough
    rfl
  | cons frame frames ih =>
    obtain ⟨_, back, selected, coded, same⟩ := frame.readsBack (carried _ (by simp))
    obtain ⟨done, chain_eq⟩ := andThen_ok rendered
    rw [renderAll, chain_eq] at rendered ⊢
    obtain ⟨bytes, room, first_eq, length_eq, reads⟩ := coded _ done
    have later_delimited : ∀ other ∈ frames.dropLast, other.Delimited := by
      intro other member
      refine delimited _ ?_
      cases frames with
      | nil => cases member
      | cons => exact mem_cons_of_mem _ member
    obtain ⟨others, room_left, later_eq, others_length, parsed, parsed_same, loops⟩ :=
      ih (forall_mem_cons.1 carried).2 later_delimited rendered
    obtain ⟨room_both, joined⟩ := append_chain first_eq later_eq
    -- Only the last frame may go up to the end of the input.
    have last : (!decide frame.Delimited) → others = [] := by
      intro undelimited
      cases frames with
      | nil => simpa using others_length
      | cons next frames =>
        have := delimited frame (by simp)
        simp [this] at undelimited
    have parsed_first := parseFrame_of_codes selected (reads _ last)
    refine ⟨bytes ++ others, room_both, joined, ?_, back :: parsed, ?_, ?_⟩
    · rw [length_append, length_eq, others_length, map_cons, sum_cons]
    · rw [map_cons, map_cons, same, parsed_same]
    · intro fuel limit enough below
      obtain ⟨fuel, rfl⟩ : ∃ rounds, fuel = rounds + 1 := ⟨fuel - 1, by omega⟩
      obtain ⟨limit, rfl⟩ : ∃ rounds, limit = rounds + 1 :=
        ⟨limit - 1, by rw [length_cons] at below; omega⟩
      rw [length_cons] at enough below
      have positive := frame.len_pos
      cases written : bytes ++ others with
      | nil =>
        have := congrArg length written
        rw [length_append, length_nil] at this
        omega
      | cons first tail =>
        rw [written] at parsed_first
        rw [parseFrames]
        simp only [parsed_first,
          loops fuel limit (by omega) (by omega)]
        rfl

theorem renderAll_append (frames more : List Frame) (writer : Writer) :
    renderAll (frames ++ more) writer =
      Writer.andThen (renderAll frames) (renderAll more) writer := by
  induction frames generalizing writer with
  | nil => rfl
  | cons frame frames ih =>
    simp only [List.cons_append, renderAll, Writer.andThen]
    split
    case isTrue done => rw [ih, Writer.andThen]
    case isFalse => rfl

/-- A list that is rendered has its beginnings rendered. -/
theorem renderAll_before {frames more : List Frame} {writer : Writer}
    (rendered : (renderAll (frames ++ more) writer).2) :
    (renderAll frames writer).2 := by
  rw [renderAll_append] at rendered
  exact (andThen_ok rendered).1

theorem length_le_sum_len (frames : List Frame) : frames.length ≤ (frames.map Frame.len).sum := by
  induction frames with
  | nil => exact le_rfl
  | cons frame frames ih =>
    have positive := frame.len_pos
    rw [length_cons, map_cons, sum_cons]
    omega

end Lists

/-- Rendered frames take the bytes that `len` gives, and are read back, if what their types leave
out is zero. -/
theorem frames_round_trip {capacity : Nat} (size_t : capacity < 2 ^ 64) {frames : List Frame}
    (carried : ∀ frame ∈ frames, frame.Carried)
    (delimited : ∀ frame ∈ frames.dropLast, frame.Delimited)
    (rendered : (renderAll frames (.ofCapacity capacity)).2 = true) :
    (∀ before frame after, frames = before ++ frame :: after →
      ((renderAll (before ++ [frame]) (.ofCapacity capacity)).1.written.length =
        (renderAll before (.ofCapacity capacity)).1.written.length + frame.len)) ∧
      ∃ parsed : List Frame, parsed.map Frame.plain = frames.map Frame.plain ∧
        ∀ fuel, frames.length < fuel →
          parseFrames false fuel (2 ^ 64 - 1) (renderAll frames (.ofCapacity capacity)).1.written =
            some (parsed.map .frame, [], true) := by
  constructor
  · rintro before frame after rfl
    have early : ∀ other ∈ before, other ∈ (before ++ frame :: after).dropLast := by
      intro other member
      rw [dropLast_append_of_ne_nil (cons_ne_nil _ _)]
      exact mem_append_left _ member
    have split_eq : before ++ frame :: after = before ++ [frame] ++ after := by simp
    have with_frame := renderAll_before (split_eq ▸ rendered)
    obtain ⟨_, _, before_eq, before_length, -⟩ := parseFrames_renderAll
      (fun other member => carried _ (mem_append_left _ member))
      (fun other member => delimited _ (early _ (dropLast_subset _ member)))
      (renderAll_before with_frame)
    obtain ⟨_, _, more_eq, more_length, -⟩ := parseFrames_renderAll
      (fun other member => carried _ (by
        rw [split_eq]
        exact mem_append_left _ member))
      (fun other member => delimited _ (early _ (by simpa using member))) with_frame
    rw [before_eq, more_eq]
    simp [ofCapacity, before_length, more_length]
  · obtain ⟨bytes, room, written_eq, length_eq, parsed, same, loops⟩ :=
      parseFrames_renderAll carried delimited rendered
    have written : (renderAll frames (.ofCapacity capacity)).1.written = bytes := by
      rw [written_eq]
      rfl
    refine ⟨parsed, same, fun fuel enough => ?_⟩
    rw [written]
    refine loops _ _ enough ?_
    have := length_le_sum_len frames
    rw [remain_ofCapacity] at room
    omega

/-- PADDING, MAX_STREAMS with a long integer, ACK with ranges, and STREAM up to the end. -/
theorem frames_round_trip_mixed :
    let frames : List Frame :=
      [.padding, .maxStreams { type := .maxStreamsUni, maxStreams := ⟨100, 4⟩ },
        .ack { largestAck := ⟨90, 0⟩, ackDelay := ⟨3, 0⟩, ackRangeCount := ⟨1, 2⟩,
               firstAckRange := ⟨7, 0⟩, ackRanges := [⟨⟨1, 0⟩, ⟨5, 0⟩⟩] },
        .stream { type := .stream true false true, streamID := ⟨4, 0⟩, offset := ⟨70, 0⟩,
                  streamData := [1, 2, 3] }]
    (renderAll frames (.ofCapacity 32)).2 ∧
      ∃ parsed : List Frame, parsed.map Frame.plain = frames.map Frame.plain ∧
        ∀ fuel, frames.length < fuel →
          parseFrames false fuel (2 ^ 64 - 1) (renderAll frames (.ofCapacity 32)).1.written =
            some (parsed.map .frame, [], true) :=
  ⟨by decide +kernel, (frames_round_trip (by decide) (by decide +kernel) (by decide +kernel)
    (by decide +kernel)).2⟩

/-- STREAM without OFF, ACK without ECN and CONNECTION_CLOSE of the application leave out what is
set. -/
theorem frames_round_trip_uncarried :
    let stream (offset : Nat) : Frame :=
      .stream ⟨.stream false true false, ⟨4, 0⟩, ⟨offset, 0⟩, [1]⟩
    let ack (ce : Nat) : Frame :=
      .ack ⟨.ack, ⟨9, 0⟩, ⟨0, 0⟩, ⟨0, 0⟩, ⟨2, 0⟩, [], { ecnCe := ⟨ce, 0⟩ }⟩
    let close (type : Nat) : Frame :=
      .connectionClose ⟨.connectionCloseApp, ⟨1, 0⟩, ⟨type, 0⟩, []⟩
    let written (frame : Frame) := renderAll [frame] (.ofCapacity 16)
    let events (frame : Frame) :=
      ((parseFrames false 2 (2 ^ 64 - 1) (written frame).1.written).map fun (events, left, ok) =>
        (events.map fun
          | .frame frame => some frame.plain
          | _ => none, left, ok))
    ((written (stream 5)).2 ∧ events (stream 5) = some ([some (stream 0).plain], [], true)) ∧
      ((written (ack 6)).2 ∧ events (ack 6) = some ([some (ack 0).plain], [], true)) ∧
      ((written (close 7)).2 ∧ events (close 7) = some ([some (close 0).plain], [], true)) ∧
      (stream 5).plain ≠ (stream 0).plain ∧ (ack 6).plain ≠ (ack 0).plain ∧
      (close 7).plain ≠ (close 0).plain := by
  decide +kernel

end Futils.Quic.Wire
