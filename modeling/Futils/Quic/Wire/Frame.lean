import Futils.Binary.Codec
import Futils.Quic.Types
import Futils.Quic.Varint

/-!
# The frames of a QUIC packet on the wire

Every frame struct renders itself, gives its length and parses itself.  The fields are
variable-length integers that may ask for a length; the flag bits of the type select the optional
fields.  Fields that are only set by parsing, the lengths of the data, are not kept.
-/

namespace Futils.Quic

open Binary Lib.BigEndian Writer

namespace Varint

namespace LenValue

def write (v : LenValue) (writer : Writer) : Writer × Bool :=
  if v.len = 0 then Varint.write v.value writer
  else if !inRange v.value v.len then (writer, false)
  else if writer.remain < v.len then (writer, false)
  else writer.write (encode v.value v.len)

/-- The integer without the length: what `==` compares. -/
def plain (v : LenValue) : LenValue := ⟨v.value, 0⟩

/-- The integer as it is read back, with the length that was written. -/
def settled (v : LenValue) : LenValue := ⟨v.value, v.length⟩

end LenValue

end Varint

namespace FrameType

/-- `FrameFlags::type_detail`, for a type that is known; the enumeration keeps 32 bits. -/
def ofValue (value : Nat) : Option FrameType :=
  match value % 2 ^ 32 with
  | 0x00 => some padding
  | 0x01 => some ping
  | 0x02 => some ack
  | 0x03 => some ackEcn
  | 0x04 => some resetStream
  | 0x05 => some stopSending
  | 0x06 => some crypto
  | 0x07 => some newToken
  | 0x08 => some (stream false false false)
  | 0x09 => some (stream false false true)
  | 0x0a => some (stream false true false)
  | 0x0b => some (stream false true true)
  | 0x0c => some (stream true false false)
  | 0x0d => some (stream true false true)
  | 0x0e => some (stream true true false)
  | 0x0f => some (stream true true true)
  | 0x10 => some maxData
  | 0x11 => some maxStreamData
  | 0x12 => some maxStreamsBidi
  | 0x13 => some maxStreamsUni
  | 0x14 => some dataBlocked
  | 0x15 => some streamDataBlocked
  | 0x16 => some streamsBlockedBidi
  | 0x17 => some streamsBlockedUni
  | 0x18 => some newConnectionId
  | 0x19 => some retireConnectionId
  | 0x1a => some pathChallenge
  | 0x1b => some pathResponse
  | 0x1c => some connectionClose
  | 0x1d => some connectionCloseApp
  | 0x1e => some handshakeDone
  | 0x30 => some datagram
  | 0x31 => some datagramLen
  | _ => none

/-- `FrameFlags::type`: the type without its flags. -/
def base : FrameType → FrameType
  | stream .. => stream false false false
  | maxStreamsUni => maxStreamsBidi
  | connectionCloseApp => connectionClose
  | streamsBlockedUni => streamsBlockedBidi
  | ackEcn => ack
  | datagramLen => datagram
  | type => type

theorem ofValue_value (type : FrameType) : ofValue type.value = some type := by
  cases type with
  | stream off len fin => cases off <;> cases len <;> cases fin <;> rfl
  | _ => rfl

end FrameType

namespace Wire

open Varint

def typeMinlen (type : FrameType) : Nat := minLen type.value

def typeMinwrite (type : FrameType) : Writer → Writer × Bool := Varint.write type.value

def parseCheck (base : FrameType) : Parser FrameType :=
  readMinLen.bind fun value rest =>
    match FrameType.ofValue value with
    | none => none
    | some type => if type.base = base then some (type, rest) else none

/-- `varint::write(w, data.size()) && w.write(data)`. -/
def writeSized (data : Bytes) : Writer → Writer × Bool :=
  andThen (Varint.write data.length) fun writer => writer.write data

def sizedLen (data : Bytes) : Nat := minLen data.length + data.length

/-- `varint::read(r, length) && r.read(data, length)`. -/
def readSized : Parser Bytes := readValue.bind fun length => Parser.take length.value

/-- An integer that is only there in some types; elsewhere it is zero. -/
def readIf (present : Bool) : Parser LenValue :=
  if present then readValue else fun rest => some (⟨0, 0⟩, rest)

/-- The integer is written in some types only. -/
def writeIf (present : Bool) (v : LenValue) : Writer → Writer × Bool :=
  if present then v.write else fun writer => (writer, true)

def lenIf (present : Bool) (v : LenValue) : Nat := if present then v.length else 0

namespace TypeOnly

variable (type : FrameType)

def parse : Parser FrameType :=
  readMinLen.bind fun value rest =>
    if FrameType.ofValue value = some type then some (type, rest) else none

def len : Nat := minLen type.value

def render : Writer → Writer × Bool := Varint.write type.value

end TypeOnly

section Ack

structure WireACKRange where
  gap : LenValue
  len : LenValue
  deriving DecidableEq

structure ECNCounts where
  ect0 : LenValue := ⟨0, 0⟩
  ect1 : LenValue := ⟨0, 0⟩
  ecnCe : LenValue := ⟨0, 0⟩
  deriving DecidableEq

structure ACKFrame where
  type : FrameType := .padding
  largestAck : LenValue
  ackDelay : LenValue
  ackRangeCount : LenValue
  firstAckRange : LenValue
  ackRanges : List WireACKRange
  ecnCounts : ECNCounts := {}
  deriving DecidableEq

namespace ACKFrame

variable (frame : ACKFrame)

def getType : FrameType := if frame.type = .ackEcn then .ackEcn else .ack

def parseAckRanges : Nat → Parser (List WireACKRange)
  | 0 => fun rest => some ([], rest)
  | count + 1 =>
    readValue.bind fun gap => readValue.bind fun len =>
      (parseAckRanges count).bind fun ranges => fun rest => some (⟨gap, len⟩ :: ranges, rest)

def parseEcnCounts (type : FrameType) : Parser ECNCounts :=
  if type ≠ .ackEcn then fun rest => some ({}, rest)
  else
    readValue.bind fun ecnCe => readValue.bind fun ect0 => readValue.bind fun ect1 =>
      fun rest => some ({ ect0 := ect0, ect1 := ect1, ecnCe := ecnCe }, rest)

def parse : Parser ACKFrame :=
  (parseCheck .ack).bind fun type => readValue.bind fun largestAck =>
    readValue.bind fun ackDelay => readValue.bind fun ackRangeCount =>
      readValue.bind fun firstAckRange =>
        (parseAckRanges ackRangeCount.value).bind fun ackRanges =>
          (parseEcnCounts type).bind fun ecnCounts => fun rest =>
            some (⟨type, largestAck, ackDelay, ackRangeCount, firstAckRange, ackRanges, ecnCounts⟩,
              rest)

def ackRangesLen (ranges : List WireACKRange) : Nat :=
  (ranges.map fun range => range.gap.length + range.len.length).sum

def ecnCountsLen : Nat :=
  if frame.type ≠ .ackEcn then 0
  else frame.ecnCounts.ecnCe.length + frame.ecnCounts.ect0.length + frame.ecnCounts.ect1.length

def len : Nat :=
  typeMinlen .ack + frame.largestAck.length + frame.ackDelay.length + frame.ackRangeCount.length +
    frame.firstAckRange.length + ackRangesLen frame.ackRanges + frame.ecnCountsLen

/-- The loop of `render_ack_range`. -/
def renderAckRanges : List WireACKRange → Writer → Writer × Bool
  | [] => fun writer => (writer, true)
  | range :: ranges =>
    andThen range.gap.write (andThen range.len.write (renderAckRanges ranges))

def renderEcnCounts : Writer → Writer × Bool :=
  if frame.type ≠ .ackEcn then fun writer => (writer, true)
  else andThen frame.ecnCounts.ecnCe.write
    (andThen frame.ecnCounts.ect0.write frame.ecnCounts.ect1.write)

def render : Writer → Writer × Bool :=
  andThen (typeMinwrite frame.getType) <| andThen frame.largestAck.write <|
    andThen frame.ackDelay.write <| andThen frame.ackRangeCount.write <|
      andThen frame.firstAckRange.write <|
        andThen
          (if frame.ackRanges.length ≠ frame.ackRangeCount.value then fun writer => (writer, false)
            else renderAckRanges frame.ackRanges)
          frame.renderEcnCounts

/-- The frame without the lengths of its integers. -/
def plain (frame : ACKFrame) : ACKFrame where
  type := frame.getType
  largestAck := frame.largestAck.plain
  ackDelay := frame.ackDelay.plain
  ackRangeCount := frame.ackRangeCount.plain
  firstAckRange := frame.firstAckRange.plain
  ackRanges := frame.ackRanges.map fun range => ⟨range.gap.plain, range.len.plain⟩
  ecnCounts :=
    ⟨frame.ecnCounts.ect0.plain, frame.ecnCounts.ect1.plain, frame.ecnCounts.ecnCe.plain⟩

end ACKFrame

end Ack

section StreamManage

structure ResetStreamFrame where
  streamID : LenValue
  applicationProtocolErrorCode : LenValue
  finalSize : LenValue
  deriving DecidableEq

namespace ResetStreamFrame

variable (frame : ResetStreamFrame)

def parse : Parser ResetStreamFrame :=
  (parseCheck .resetStream).bind fun _ => readValue.bind fun streamID =>
    readValue.bind fun code => readValue.bind fun finalSize => fun rest =>
      some (⟨streamID, code, finalSize⟩, rest)

def len : Nat :=
  typeMinlen .resetStream + frame.streamID.length + frame.applicationProtocolErrorCode.length +
    frame.finalSize.length

def render : Writer → Writer × Bool :=
  andThen (typeMinwrite .resetStream) <| andThen frame.streamID.write <|
    andThen frame.applicationProtocolErrorCode.write frame.finalSize.write

def plain : ResetStreamFrame :=
  ⟨frame.streamID.plain, frame.applicationProtocolErrorCode.plain, frame.finalSize.plain⟩

end ResetStreamFrame

structure StopSendingFrame where
  streamID : LenValue
  applicationProtocolErrorCode : LenValue
  deriving DecidableEq

namespace StopSendingFrame

variable (frame : StopSendingFrame)

def parse : Parser StopSendingFrame :=
  (parseCheck .stopSending).bind fun _ => readValue.bind fun streamID =>
    readValue.bind fun code => fun rest => some (⟨streamID, code⟩, rest)

def len : Nat :=
  typeMinlen .stopSending + frame.streamID.length + frame.applicationProtocolErrorCode.length

def render : Writer → Writer × Bool :=
  andThen (typeMinwrite .stopSending) <|
    andThen frame.streamID.write frame.applicationProtocolErrorCode.write

def plain : StopSendingFrame := ⟨frame.streamID.plain, frame.applicationProtocolErrorCode.plain⟩

end StopSendingFrame

structure StreamFrame where
  type : FrameType := .padding
  streamID : LenValue
  offset : LenValue
  streamData : Bytes
  deriving DecidableEq

def streamOff : FrameType → Bool
  | .stream off _ _ => off
  | _ => false

def streamLen : FrameType → Bool
  | .stream _ len _ => len
  | _ => false

namespace StreamFrame

variable (frame : StreamFrame)

/-- `get_type`: without a STREAM type, the offset decides about its field. -/
def getType : FrameType :=
  match frame.type with
  | .stream off len fin => .stream off len fin
  | _ => .stream (frame.offset.value != 0) true false

def parse : Parser StreamFrame :=
  (parseCheck (.stream false false false)).bind fun type => readValue.bind fun streamID =>
    (readIf (streamOff type)).bind fun offset =>
      (if streamLen type then readSized else Parser.rest).bind fun streamData => fun rest =>
        some (⟨type, streamID, offset, streamData⟩, rest)

def len : Nat :=
  typeMinlen (.stream false false false) + frame.streamID.length +
    lenIf (streamOff frame.getType) frame.offset +
    (if !streamLen frame.getType then 0 else minLen frame.streamData.length) +
    frame.streamData.length

def render : Writer → Writer × Bool :=
  andThen (typeMinwrite frame.getType) <| andThen frame.streamID.write <|
    andThen (writeIf (streamOff frame.getType) frame.offset) <|
      if !streamLen frame.getType then fun writer => writer.write frame.streamData
      else writeSized frame.streamData

def plain : StreamFrame :=
  ⟨frame.getType, frame.streamID.plain, frame.offset.plain, frame.streamData⟩

end StreamFrame

structure MaxStreamDataBase (type : FrameType) where
  streamID : LenValue
  maxStreamData : LenValue
  deriving DecidableEq

namespace MaxStreamDataBase

variable {type : FrameType} (frame : MaxStreamDataBase type)

def parse (type : FrameType) : Parser (MaxStreamDataBase type) :=
  (parseCheck type).bind fun _ => readValue.bind fun streamID => readValue.bind fun maxStreamData =>
    fun rest => some (⟨streamID, maxStreamData⟩, rest)

def len : Nat := typeMinlen type + frame.streamID.length + frame.maxStreamData.length

def render : Writer → Writer × Bool :=
  andThen (typeMinwrite type) <|
    andThen frame.streamID.write frame.maxStreamData.write

def plain : MaxStreamDataBase type := ⟨frame.streamID.plain, frame.maxStreamData.plain⟩

end MaxStreamDataBase

end StreamManage

section ConnManage

structure MaxDataBase (type : FrameType) where
  maxData : LenValue
  deriving DecidableEq

namespace MaxDataBase

variable {type : FrameType} (frame : MaxDataBase type)

def parse (type : FrameType) : Parser (MaxDataBase type) :=
  (parseCheck type).bind fun _ => readValue.bind fun maxData => fun rest => some (⟨maxData⟩, rest)

def len : Nat := typeMinlen type + frame.maxData.length

def render : Writer → Writer × Bool := andThen (typeMinwrite type) frame.maxData.write

def plain : MaxDataBase type := ⟨frame.maxData.plain⟩

end MaxDataBase

/-- `MaxStreamsBase`; `base` is the type without the bit for unidirectional streams. -/
structure MaxStreamsBase (base : FrameType) where
  type : FrameType := .padding
  maxStreams : LenValue
  deriving DecidableEq

namespace MaxStreamsBase

variable {base : FrameType} (frame : MaxStreamsBase base)

def parse (base : FrameType) : Parser (MaxStreamsBase base) :=
  (parseCheck base).bind fun type => readValue.bind fun maxStreams => fun rest =>
    some (⟨type, maxStreams⟩, rest)

def len : Nat := typeMinlen base + frame.maxStreams.length

def render : Writer → Writer × Bool :=
  if frame.type.base ≠ base then fun writer => (writer, false)
  else andThen (typeMinwrite frame.type) frame.maxStreams.write

def plain : MaxStreamsBase base := ⟨frame.type, frame.maxStreams.plain⟩

end MaxStreamsBase

structure ConnectionCloseFrame where
  type : FrameType := .padding
  errorCode : LenValue
  frameType : LenValue
  reasonPhrase : Bytes
  deriving DecidableEq

namespace ConnectionCloseFrame

variable (frame : ConnectionCloseFrame)

def getType : FrameType :=
  if frame.type = .connectionCloseApp then .connectionCloseApp else .connectionClose

def parse : Parser ConnectionCloseFrame :=
  (parseCheck .connectionClose).bind fun type => readValue.bind fun errorCode =>
    (readIf (type ≠ .connectionCloseApp)).bind fun frameType =>
      readSized.bind fun reasonPhrase => fun rest =>
        some (⟨type, errorCode, frameType, reasonPhrase⟩, rest)

def len : Nat :=
  typeMinlen .connectionClose + frame.errorCode.length +
    lenIf (frame.type ≠ .connectionCloseApp) frame.frameType +
    minLen frame.reasonPhrase.length + frame.reasonPhrase.length

def render : Writer → Writer × Bool :=
  andThen (typeMinwrite frame.getType) <| andThen frame.errorCode.write <|
    andThen (writeIf (frame.type ≠ .connectionCloseApp) frame.frameType)
      (writeSized frame.reasonPhrase)

def plain : ConnectionCloseFrame :=
  ⟨frame.getType, frame.errorCode.plain, frame.frameType.plain, frame.reasonPhrase⟩

end ConnectionCloseFrame

end ConnManage

section Data

structure CryptoFrame where
  offset : LenValue
  cryptoData : Bytes
  deriving DecidableEq

namespace CryptoFrame

variable (frame : CryptoFrame)

def parse : Parser CryptoFrame :=
  (parseCheck .crypto).bind fun _ => readValue.bind fun offset => readSized.bind fun cryptoData =>
    fun rest => some (⟨offset, cryptoData⟩, rest)

def len : Nat :=
  typeMinlen .crypto + frame.offset.length + minLen frame.cryptoData.length +
    frame.cryptoData.length

def render : Writer → Writer × Bool :=
  andThen (typeMinwrite .crypto) <|
    andThen frame.offset.write (writeSized frame.cryptoData)

def plain : CryptoFrame := ⟨frame.offset.plain, frame.cryptoData⟩

end CryptoFrame

structure NewTokenFrame where
  token : Bytes
  deriving DecidableEq

namespace NewTokenFrame

variable (frame : NewTokenFrame)

def parse : Parser NewTokenFrame :=
  (parseCheck .newToken).bind fun _ => readSized.bind fun token => fun rest => some (⟨token⟩, rest)

def len : Nat := typeMinlen .newToken + minLen frame.token.length + frame.token.length

def render : Writer → Writer × Bool :=
  andThen (typeMinwrite .newToken) (writeSized frame.token)

end NewTokenFrame

structure DatagramFrame where
  type : FrameType := .padding
  datagramData : Bytes
  deriving DecidableEq

namespace DatagramFrame

variable (frame : DatagramFrame)

def getType : FrameType := if frame.type = .datagram then .datagram else .datagramLen

def parse : Parser DatagramFrame :=
  (parseCheck .datagram).bind fun type =>
    (if type = .datagramLen then readSized else Parser.rest).bind fun datagramData => fun rest =>
      some (⟨type, datagramData⟩, rest)

def len : Nat :=
  typeMinlen .datagram +
    (if frame.type = .datagram then 0 else minLen frame.datagramData.length) +
    frame.datagramData.length

def render : Writer → Writer × Bool :=
  andThen (typeMinwrite frame.getType) <|
    if frame.type = .datagram then fun writer => writer.write frame.datagramData
    else writeSized frame.datagramData

/-- The frame with the type it is rendered with. -/
def plain : DatagramFrame := ⟨frame.getType, frame.datagramData⟩

end DatagramFrame

structure PathBase (type : FrameType) where
  data : UInt64
  deriving DecidableEq

namespace PathBase

variable {type : FrameType} (frame : PathBase type)

/-- `binary::read_num` for 64 bits. -/
def readNum : Parser UInt64 := (Parser.take 8).bind fun data rest =>
  some (UInt64.ofNat (ofBytes data), rest)

/-- `binary::write_num` for 64 bits. -/
def writeNum (data : UInt64) (writer : Writer) : Writer × Bool :=
  if writer.remain < 8 then (writer, false) else writer.write (toBytes 8 data.toNat)

def parse (type : FrameType) : Parser (PathBase type) :=
  (parseCheck type).bind fun _ => readNum.bind fun data => fun rest => some (⟨data⟩, rest)

def len (_ : PathBase type) : Nat := typeMinlen type + 8

def render : Writer → Writer × Bool := andThen (typeMinwrite type) (writeNum frame.data)

end PathBase

end Data

section ConnId

abbrev StatelessResetToken := { bytes : Bytes // bytes.length = 16 }

structure NewConnectionIDFrame where
  sequenceNumber : LenValue
  retireProiorTo : LenValue
  connectionID : Bytes
  statelessResetToken : StatelessResetToken
  deriving DecidableEq

namespace NewConnectionIDFrame

variable (frame : NewConnectionIDFrame)

/-- `r.read(length) && r.read(connectionID, length)`. -/
def readId : Parser Bytes := (Parser.take 1).bind fun length => Parser.take (ofBytes length)

def readToken : Parser StatelessResetToken := fun input =>
  if enough : 16 ≤ input.length then
    some (⟨input.take 16, by rw [List.length_take]; omega⟩, input.drop 16)
  else none

def parse : Parser NewConnectionIDFrame :=
  (parseCheck .newConnectionId).bind fun _ => readValue.bind fun sequenceNumber =>
    readValue.bind fun retireProiorTo => readId.bind fun connectionID =>
      readToken.bind fun token => fun rest =>
        some (⟨sequenceNumber, retireProiorTo, connectionID, token⟩, rest)

def len : Nat :=
  typeMinlen .newConnectionId + frame.sequenceNumber.length + frame.retireProiorTo.length + 1 +
    frame.connectionID.length + 16

def render : Writer → Writer × Bool :=
  if 0xFF < frame.connectionID.length then fun writer => (writer, false)
  else
    andThen (typeMinwrite .newConnectionId) <| andThen frame.sequenceNumber.write <|
      andThen frame.retireProiorTo.write <|
        andThen
          (andThen (fun writer => writer.write [UInt8.ofNat frame.connectionID.length])
            fun writer => writer.write frame.connectionID)
          fun writer => writer.write frame.statelessResetToken.val

def plain : NewConnectionIDFrame :=
  ⟨frame.sequenceNumber.plain, frame.retireProiorTo.plain, frame.connectionID,
    frame.statelessResetToken⟩

end NewConnectionIDFrame

structure RetireConnectionIDFrame where
  sequenceNumber : LenValue
  deriving DecidableEq

namespace RetireConnectionIDFrame

variable (frame : RetireConnectionIDFrame)

def parse : Parser RetireConnectionIDFrame :=
  (parseCheck .retireConnectionId).bind fun _ => readValue.bind fun sequenceNumber => fun rest =>
    some (⟨sequenceNumber⟩, rest)

def len : Nat := typeMinlen .retireConnectionId + frame.sequenceNumber.length

def render : Writer → Writer × Bool :=
  andThen (typeMinwrite .retireConnectionId) frame.sequenceNumber.write

def plain : RetireConnectionIDFrame := ⟨frame.sequenceNumber.plain⟩

end RetireConnectionIDFrame

end ConnId

/-- The frames of `select_Frame`. -/
inductive Frame
  | padding
  | ping
  | ack (frame : ACKFrame)
  | resetStream (frame : ResetStreamFrame)
  | stopSending (frame : StopSendingFrame)
  | crypto (frame : CryptoFrame)
  | newToken (frame : NewTokenFrame)
  | stream (frame : StreamFrame)
  | maxData (frame : MaxDataBase .maxData)
  | maxStreamData (frame : MaxStreamDataBase .maxStreamData)
  | maxStreams (frame : MaxStreamsBase .maxStreamsBidi)
  | dataBlocked (frame : MaxDataBase .dataBlocked)
  | streamDataBlocked (frame : MaxStreamDataBase .streamDataBlocked)
  | streamsBlocked (frame : MaxStreamsBase .streamsBlockedBidi)
  | newConnectionID (frame : NewConnectionIDFrame)
  | retireConnectionID (frame : RetireConnectionIDFrame)
  | pathChallenge (frame : PathBase .pathChallenge)
  | pathResponse (frame : PathBase .pathResponse)
  | connectionClose (frame : ConnectionCloseFrame)
  | handshakeDone
  | datagram (frame : DatagramFrame)
  deriving DecidableEq

namespace Frame

def render : Frame → Writer → Writer × Bool
  | padding => TypeOnly.render .padding
  | ping => TypeOnly.render .ping
  | ack frame => frame.render
  | resetStream frame => frame.render
  | stopSending frame => frame.render
  | crypto frame => frame.render
  | newToken frame => frame.render
  | stream frame => frame.render
  | maxData frame => frame.render
  | maxStreamData frame => frame.render
  | maxStreams frame => frame.render
  | dataBlocked frame => frame.render
  | streamDataBlocked frame => frame.render
  | streamsBlocked frame => frame.render
  | newConnectionID frame => frame.render
  | retireConnectionID frame => frame.render
  | pathChallenge frame => frame.render
  | pathResponse frame => frame.render
  | connectionClose frame => frame.render
  | handshakeDone => TypeOnly.render .handshakeDone
  | datagram frame => frame.render

def len : Frame → Nat
  | padding => TypeOnly.len .padding
  | ping => TypeOnly.len .ping
  | ack frame => frame.len
  | resetStream frame => frame.len
  | stopSending frame => frame.len
  | crypto frame => frame.len
  | newToken frame => frame.len
  | stream frame => frame.len
  | maxData frame => frame.len
  | maxStreamData frame => frame.len
  | maxStreams frame => frame.len
  | dataBlocked frame => frame.len
  | streamDataBlocked frame => frame.len
  | streamsBlocked frame => frame.len
  | newConnectionID frame => frame.len
  | retireConnectionID frame => frame.len
  | pathChallenge frame => frame.len
  | pathResponse frame => frame.len
  | connectionClose frame => frame.len
  | handshakeDone => TypeOnly.len .handshakeDone
  | datagram frame => frame.len

/-- The case of `select_Frame` that parses the frame. -/
def kind : Frame → FrameType
  | padding => .padding
  | ping => .ping
  | ack _ => .ack
  | resetStream _ => .resetStream
  | stopSending _ => .stopSending
  | crypto _ => .crypto
  | newToken _ => .newToken
  | stream _ => .stream false false false
  | maxData _ => .maxData
  | maxStreamData _ => .maxStreamData
  | maxStreams _ => .maxStreamsBidi
  | dataBlocked _ => .dataBlocked
  | streamDataBlocked _ => .streamDataBlocked
  | streamsBlocked _ => .streamsBlockedBidi
  | newConnectionID _ => .newConnectionId
  | retireConnectionID _ => .retireConnectionId
  | pathChallenge _ => .pathChallenge
  | pathResponse _ => .pathResponse
  | connectionClose _ => .connectionClose
  | handshakeDone => .handshakeDone
  | datagram _ => .datagram

/-- The frame with the type it is rendered with, and without the lengths of its integers. -/
def plain : Frame → Frame
  | ack frame => ack frame.plain
  | resetStream frame => resetStream frame.plain
  | stopSending frame => stopSending frame.plain
  | crypto frame => crypto frame.plain
  | stream frame => stream frame.plain
  | maxData frame => maxData frame.plain
  | maxStreamData frame => maxStreamData frame.plain
  | maxStreams frame => maxStreams frame.plain
  | dataBlocked frame => dataBlocked frame.plain
  | streamDataBlocked frame => streamDataBlocked frame.plain
  | streamsBlocked frame => streamsBlocked frame.plain
  | newConnectionID frame => newConnectionID frame.plain
  | retireConnectionID frame => retireConnectionID frame.plain
  | connectionClose frame => connectionClose frame.plain
  | datagram frame => datagram frame.plain
  | frame => frame

/-- The frame says where it ends. -/
def Delimited : Frame → Prop
  | stream frame => streamLen frame.getType = true
  | datagram frame => frame.getType = .datagramLen
  | _ => True

/-- What the type of the frame leaves out is zero. -/
def Carried : Frame → Prop
  | ack frame => frame.getType = .ack → frame.plain.ecnCounts = {}
  | stream frame => streamOff frame.getType = false → frame.offset.value = 0
  | connectionClose frame => frame.getType = .connectionCloseApp → frame.frameType.value = 0
  | _ => True

instance : DecidablePred Delimited := by
  intro frame
  cases frame <;> dsimp only [Delimited] <;> infer_instance

instance : DecidablePred Carried := by
  intro frame
  cases frame <;> dsimp only [Carried] <;> infer_instance

end Frame

/-- The parser of one kind of frame, as a frame. -/
def parseKind {α : Type} (parse : Parser α) (wrap : α → Frame) : Parser Frame :=
  parse.bind fun frame rest => some (wrap frame, rest)

/-- The cases of `select_Frame`, with their `parse`; a type with flags has no case. -/
def selectFrame : FrameType → Option (Parser Frame)
  | .padding => some (parseKind (TypeOnly.parse .padding) fun _ => .padding)
  | .ping => some (parseKind (TypeOnly.parse .ping) fun _ => .ping)
  | .ack => some (parseKind ACKFrame.parse .ack)
  | .resetStream => some (parseKind ResetStreamFrame.parse .resetStream)
  | .stopSending => some (parseKind StopSendingFrame.parse .stopSending)
  | .crypto => some (parseKind CryptoFrame.parse .crypto)
  | .newToken => some (parseKind NewTokenFrame.parse .newToken)
  | .stream false false false => some (parseKind StreamFrame.parse .stream)
  | .maxData => some (parseKind (MaxDataBase.parse .maxData) .maxData)
  | .maxStreamData => some (parseKind (MaxStreamDataBase.parse .maxStreamData) .maxStreamData)
  | .maxStreamsBidi => some (parseKind (MaxStreamsBase.parse .maxStreamsBidi) .maxStreams)
  | .dataBlocked => some (parseKind (MaxDataBase.parse .dataBlocked) .dataBlocked)
  | .streamDataBlocked =>
    some (parseKind (MaxStreamDataBase.parse .streamDataBlocked) .streamDataBlocked)
  | .streamsBlockedBidi =>
    some (parseKind (MaxStreamsBase.parse .streamsBlockedBidi) .streamsBlocked)
  | .newConnectionId => some (parseKind NewConnectionIDFrame.parse .newConnectionID)
  | .retireConnectionId => some (parseKind RetireConnectionIDFrame.parse .retireConnectionID)
  | .pathChallenge => some (parseKind (PathBase.parse .pathChallenge) .pathChallenge)
  | .pathResponse => some (parseKind (PathBase.parse .pathResponse) .pathResponse)
  | .connectionClose => some (parseKind ConnectionCloseFrame.parse .connectionClose)
  | .handshakeDone => some (parseKind (TypeOnly.parse .handshakeDone) fun _ => .handshakeDone)
  | .datagram => some (parseKind DatagramFrame.parse .datagram)
  | _ => none

inductive Event
  | frame (frame : Frame)
  /-- The frame of this type could not be parsed; how far the reader got is not kept. -/
  | failed (type : FrameType)
  | unknown (type : Nat)
  deriving DecidableEq

/-- What the callback was called with, what is left, and the result. -/
abbrev Parsed := List Event × Bytes × Bool

/-- `parse_frame`, with a callback that goes on. -/
def parseFrame (input : Bytes) : Parsed :=
  match readMinLen input with
  | none => ([], input, false)
  | some (value, _) =>
    match (FrameType.ofValue value).bind fun type => selectFrame type.base with
    | none => ([.unknown value], input, false)
    | some parse =>
      match parse input with
      | none => ((FrameType.ofValue value).toList.map .failed, input, false)
      | some (frame, rest) => ([.frame frame], rest, true)

/-- `parse_frames`; `none` when it has not returned after `fuel` rounds. -/
def parseFrames (ignorePadding : Bool) : Nat → Nat → Bytes → Option Parsed
  | 0, _, _ => none
  | _ + 1, _, [] => some ([], [], true)
  | _ + 1, 0, input => some ([], input, true)
  | fuel + 1, limit + 1, first :: tail =>
    if ignorePadding && first == 0 then parseFrames ignorePadding fuel (limit + 1) tail
    else
      match parseFrame (first :: tail) with
      | (events, rest, false) => some (events, rest, false)
      | (events, rest, true) =>
        (parseFrames ignorePadding fuel limit rest).map fun (later, left, ok) =>
          (events ++ later, left, ok)

/-- `render` of one frame after the other. -/
def renderAll : List Frame → Writer → Writer × Bool
  | [] => fun writer => (writer, true)
  | frame :: frames => andThen frame.render (renderAll frames)

end Wire

end Futils.Quic
