import Futils.Core.Basic

/-!
# QUIC frame types, packet flags and errors

`types.h` numbers the frames of a QUIC packet; the eight STREAM types carry the OFF, LEN and FIN
bits in their low bits.  `PacketStatus` collects what the frames of a packet mean for loss recovery.
`transport_error.h` gives the error a connection reports.
-/

namespace Futils.Quic

/-- `FrameType`, with the flag bits of a STREAM frame as arguments. -/
inductive FrameType
  | padding
  | ping
  | ack
  | ackEcn
  | resetStream
  | stopSending
  | crypto
  | newToken
  | stream (off len fin : Bool)
  | maxData
  | maxStreamData
  | maxStreamsBidi
  | maxStreamsUni
  | dataBlocked
  | streamDataBlocked
  | streamsBlockedBidi
  | streamsBlockedUni
  | newConnectionId
  | retireConnectionId
  | pathChallenge
  | pathResponse
  | connectionClose
  | connectionCloseApp
  | handshakeDone
  | datagram
  | datagramLen
  deriving DecidableEq

namespace FrameType

def value : FrameType → Nat
  | padding => 0x00
  | ping => 0x01
  | ack => 0x02
  | ackEcn => 0x03
  | resetStream => 0x04
  | stopSending => 0x05
  | crypto => 0x06
  | newToken => 0x07
  | stream off len fin => 0x08 + off.toNat * 4 + len.toNat * 2 + fin.toNat
  | maxData => 0x10
  | maxStreamData => 0x11
  | maxStreamsBidi => 0x12
  | maxStreamsUni => 0x13
  | dataBlocked => 0x14
  | streamDataBlocked => 0x15
  | streamsBlockedBidi => 0x16
  | streamsBlockedUni => 0x17
  | newConnectionId => 0x18
  | retireConnectionId => 0x19
  | pathChallenge => 0x1a
  | pathResponse => 0x1b
  | connectionClose => 0x1c
  | connectionCloseApp => 0x1d
  | handshakeDone => 0x1e
  | datagram => 0x30
  | datagramLen => 0x31

variable (type : FrameType)

theorem value_lt : type.value < 64 := by
  cases type with
  | stream off len fin => cases off <;> cases len <;> cases fin <;> decide
  | _ => decide

def isACK : Bool := type = ack || type = ackEcn

def isConnectionClose : Bool :=
  type = connectionClose || type = connectionCloseApp

def isACKEliciting : Bool :=
  type != padding && !type.isACK && !type.isConnectionClose

def isPathProbe : Bool :=
  type = padding || type = newConnectionId || type = pathChallenge || type = pathResponse

def isByteCounted : Bool := !type.isACK

theorem isByteCounted_of_isACKEliciting {type : FrameType} (eliciting : type.isACKEliciting) :
    type.isByteCounted := by
  simp only [isACKEliciting, Bool.and_eq_true] at eliciting
  exact eliciting.1.2

end FrameType

/-- `PacketStatus`: the flags of a packet, collected from its frames. -/
structure PacketStatus where
  isAckEliciting : Bool := false
  isByteCounted : Bool := false
  isNonPathProbe : Bool := false
  mtuProbe : Bool := false
  isSkipped : Bool := false
  /-- No frame type sets the first flag without the second. -/
  counted_of_eliciting : isAckEliciting = true → isByteCounted = true := by simp
  deriving DecidableEq

namespace PacketStatus

variable (status : PacketStatus)

/-- `is_mtu_probe`, which reads the flag of `is_non_path_probe`. -/
def isMtuProbe : Bool := status.isNonPathProbe

def setMtuProbe : PacketStatus := { status with mtuProbe := true }

def setSkipped : PacketStatus := { status with isSkipped := true }

def addFrame (type : FrameType) : PacketStatus :=
  { status with
    isAckEliciting := status.isAckEliciting || type.isACKEliciting
    isByteCounted := status.isByteCounted || type.isByteCounted
    isNonPathProbe := status.isNonPathProbe || !type.isPathProbe
    counted_of_eliciting := by
      rw [Bool.or_eq_true, Bool.or_eq_true]
      exact Or.imp status.counted_of_eliciting FrameType.isByteCounted_of_isACKEliciting }

/-- The flags of a packet with these frames. -/
def ofFrames (types : List FrameType) : PacketStatus := types.foldl addFrame {}

end PacketStatus

inductive TransportError
  | noError
  | internalError
  | connectionRefused
  | flowControlError
  | streamLimitError
  | streamStateError
  | finalSizeError
  | frameEncodingError
  | transportParameterError
  | connectionIdLimitError
  | protocolViolation
  | invalidToken
  | applicationError
  | cryptoBufferExceeded
  | keyUpdateError
  | aeadLimitReached
  | noViablePath
  | cryptoError
  deriving DecidableEq

inductive PacketType
  | initial
  | zeroRTT
  | handshake
  | retry
  | versionNegotiation
  | oneRTT
  | unknown
  | longPacket
  | statelessReset
  deriving DecidableEq

/-- `QUICError`: the message, the transport error code and the frame that caused it. -/
structure QUICError where
  msg : String
  transportError : TransportError := .internalError
  packetType : PacketType := .unknown
  frameType : FrameType := .padding
  deriving DecidableEq

/-- The errors of the modelled functions: `QUICError`, or an error of the library. -/
inductive Error
  | quic (error : QUICError)
  | lib (msg : String)
  deriving DecidableEq

end Futils.Quic
