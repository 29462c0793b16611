import Mathlib.Logic.Function.Basic
import Futils.Quic.Wire.Frame

/-!
# Transport parameters

A transport parameter is an identifier, a length and that many bytes.  The defined ones have one of
five formats: an integer, a byte string, a reset token, a flag without a value, or the preferred
address.  `DefinedTransportParams` keeps one field for each; the fields of one format are kept
together, as the macros of the source treat them alike.
-/

namespace Futils.Quic.TransportParam

open Binary Varint Wire Lib.BigEndian

/-- The parameters that are `VLINT`. -/
inductive IntParam
  | maxIdleTimeout
  | maxUdpPayloadSize
  | initialMaxData
  | initialMaxStreamDataBidiLocal
  | initialMaxStreamDataBidiRemote
  | initialMaxStreamDataUni
  | initialMaxStreamsBidi
  | initialMaxStreamsUni
  | ackDelayExponent
  | maxAckDelay
  | activeConnectionIdLimit
  | maxDatagramFrameSize
  deriving DecidableEq

/-- The parameters that are `RDATA`. -/
inductive BytesParam
  | originalDstConnectionId
  | initialSrcConnectionId
  | retrySrcConnectionId
  deriving DecidableEq

/-- The parameters that are `BOOL`. -/
inductive FlagParam
  | disableActiveMigration
  | greaseQuicBit
  deriving DecidableEq

/-- `DefinedID`, by the format of the parameter. -/
inductive DefinedID
  | vlint (param : IntParam)
  | rdata (param : BytesParam)
  | bool (param : FlagParam)
  | statelessResetToken
  | preferredAddress
  deriving DecidableEq

namespace DefinedID

def value : DefinedID → Nat
  | rdata .originalDstConnectionId => 0x00
  | vlint .maxIdleTimeout => 0x01
  | statelessResetToken => 0x02
  | vlint .maxUdpPayloadSize => 0x03
  | vlint .initialMaxData => 0x04
  | vlint .initialMaxStreamDataBidiLocal => 0x05
  | vlint .initialMaxStreamDataBidiRemote => 0x06
  | vlint .initialMaxStreamDataUni => 0x07
  | vlint .initialMaxStreamsBidi => 0x08
  | vlint .initialMaxStreamsUni => 0x09
  | vlint .ackDelayExponent => 0x0a
  | vlint .maxAckDelay => 0x0b
  | bool .disableActiveMigration => 0x0c
  | preferredAddress => 0x0d
  | vlint .activeConnectionIdLimit => 0x0e
  | rdata .initialSrcConnectionId => 0x0f
  | rdata .retrySrcConnectionId => 0x10
  | vlint .maxDatagramFrameSize => 0x20
  | bool .greaseQuicBit => 0x2ab2

/-- The calls of `visit`, in the order of the source. -/
def visited : List DefinedID :=
  [rdata .originalDstConnectionId, vlint .maxIdleTimeout, statelessResetToken,
    vlint .maxUdpPayloadSize, vlint .initialMaxData, vlint .initialMaxStreamDataBidiLocal,
    vlint .initialMaxStreamDataBidiRemote, vlint .initialMaxStreamDataUni,
    vlint .initialMaxStreamsBidi, vlint .initialMaxStreamsUni, vlint .ackDelayExponent,
    vlint .maxAckDelay, bool .disableActiveMigration, preferredAddress,
    vlint .activeConnectionIdLimit, rdata .initialSrcConnectionId, rdata .retrySrcConnectionId,
    vlint .maxDatagramFrameSize, bool .greaseQuicBit]

/-- `DefinedID(id)`, for an identifier that is defined; the enumeration keeps 32 bits. -/
def ofValue (id : Nat) : Option DefinedID := visited.find? fun known => known.value == id % 2 ^ 32

theorem mem_visited (id : DefinedID) : id ∈ visited := by
  rcases id with (_ | _ | _ | _ | _ | _ | _ | _ | _ | _ | _ | _) | (_ | _ | _) | (_ | _) | _ | _ <;>
    decide

theorem nodup_visited : visited.Nodup := by decide

theorem ofValue_value (id : DefinedID) : ofValue id.value = some id := by
  rcases id with (_ | _ | _ | _ | _ | _ | _ | _ | _ | _ | _ | _) | (_ | _ | _) | (_ | _) | _ | _ <;>
    rfl

def implementedDefined : Nat := 19

theorem length_visited : visited.length = implementedDefined := rfl

/-- The value of the counter `index` when `visit` finds the identifier. -/
def index (id : DefinedID) : Fin implementedDefined :=
  ⟨visited.idxOf id, length_visited ▸ List.idxOf_lt_length_of_mem (mem_visited id)⟩

theorem index_inj {id other : DefinedID} : id.index = other.index ↔ id = other :=
  Fin.ext_iff.trans (List.idxOf_inj (mem_visited id))

def mustGreaterOrEqualIf0RTT : DefinedID → Bool
  | vlint .activeConnectionIdLimit => true
  | vlint .initialMaxData => true
  | vlint .initialMaxStreamDataBidiLocal => true
  | vlint .initialMaxStreamDataBidiRemote => true
  | vlint .initialMaxStreamDataUni => true
  | vlint .initialMaxStreamsBidi => true
  | vlint .initialMaxStreamsUni => true
  | vlint .maxDatagramFrameSize => true
  | _ => false

end DefinedID

def isDefinedBothSetAllowed (idRaw : Nat) : Bool :=
  match DefinedID.ofValue idRaw with
  | some (.vlint _) => true
  | some (.bool _) => true
  | some (.rdata .initialSrcConnectionId) => true
  | _ => false

def isDefinedServerSetAllowed (idRaw : Nat) : Bool :=
  isDefinedBothSetAllowed idRaw ||
    match DefinedID.ofValue idRaw with
    | some (.rdata .originalDstConnectionId) => true
    | some .preferredAddress => true
    | some .statelessResetToken => true
    | some (.rdata .retrySrcConnectionId) => true
    | _ => false

def isDefined (idRaw : Nat) : Bool := isDefinedServerSetAllowed idRaw

theorem isDefined_of_ofValue {idRaw : Nat} {id : DefinedID}
    (known : DefinedID.ofValue idRaw = some id) : isDefined idRaw := by
  rw [isDefined, isDefinedServerSetAllowed, isDefinedBothSetAllowed, known]
  rcases id with _ | (_ | _ | _) | _ | _ | _ <;> rfl

section Values

/-- `TransportParamValue`: the bytes, or an integer. -/
inductive TransportParamValue
  | byts (data : Bytes)
  | qvint (value : LenValue)
  deriving DecidableEq

namespace TransportParamValue

def len : TransportParamValue → Nat
  | byts data => data.length
  | qvint value => value.length

def render : TransportParamValue → Writer → Writer × Bool
  | byts data => fun writer => writer.write data
  | qvint value => value.write

/-- `as_qvarint`: one integer that takes all the bytes. -/
def asQvarint : TransportParamValue → TransportParamValue × Bool
  | qvint value => (qvint value, true)
  | byts data =>
    match readValue data with
    | some (value, []) => (qvint value, true)
    | _ => (byts data, false)

def asBytes : TransportParamValue → Bool
  | byts _ => true
  | qvint _ => false

def qvarint : TransportParamValue → Nat
  | byts _ => max64
  | qvint value => value.value

def bytes : TransportParamValue → Bytes
  | byts data => data
  | qvint _ => []

end TransportParamValue

structure TransportParameter where
  id : LenValue
  data : TransportParamValue
  deriving DecidableEq

namespace TransportParameter

def parse : Parser TransportParameter :=
  readValue.bind fun id => readValue.bind fun length =>
    (Parser.take length.value).bind fun data => fun rest => some (⟨id, .byts data⟩, rest)

def render (param : TransportParameter) : Writer → Writer × Bool :=
  Writer.andThen param.id.write (Writer.andThen (Varint.write param.data.len) param.data.render)

/-- The defined parameter that the code takes it for. -/
def defined (param : TransportParameter) : Option DefinedID := DefinedID.ofValue param.id.value

end TransportParameter

def makeTransportParam (id : DefinedID) (data : TransportParamValue) : TransportParameter :=
  ⟨⟨id.value, 0⟩, data⟩

end Values

section Address

abbrev FixedBytes (size : Nat) := { bytes : Bytes // bytes.length = size }

def zeros (size : Nat) : FixedBytes size := ⟨List.replicate size 0, List.length_replicate⟩

def readArray (size : Nat) : Parser (FixedBytes size) := fun input =>
  if enough : size ≤ input.length then
    some (⟨input.take size, by rw [List.length_take]; omega⟩, input.drop size)
  else none

/-- `binary::write_num(w, port, true)`. -/
def writePort (port : UInt16) (writer : Writer) : Writer × Bool :=
  if writer.remain < 2 then (writer, false) else writer.write (toBytes 2 port.toNat)

/-- `binary::read_num(r, port, true)`. -/
def readPort : Parser UInt16 :=
  (Parser.take 2).bind fun data => fun rest => some (UInt16.ofNat (ofBytes data), rest)

/-- `PreferredAddress`.  The source leaves the token of an address that is not enabled unset. -/
structure PreferredAddress where
  ipv4Address : FixedBytes 4 := zeros 4
  ipv4Port : UInt16 := 0
  ipv6Address : FixedBytes 16 := zeros 16
  ipv6Port : UInt16 := 0
  connectionID : Bytes := []
  statelessResetToken : StatelessResetToken := zeros 16
  enable : Bool := false
  deriving DecidableEq

namespace PreferredAddress

def parse : Parser PreferredAddress :=
  (readArray 4).bind fun ipv4Address => readPort.bind fun ipv4Port =>
    (readArray 16).bind fun ipv6Address => readPort.bind fun ipv6Port =>
      NewConnectionIDFrame.readId.bind fun connectionID => (readArray 16).bind fun token =>
        fun rest =>
          some (⟨ipv4Address, ipv4Port, ipv6Address, ipv6Port, connectionID, token, true⟩, rest)

def render (address : PreferredAddress) : Writer → Writer × Bool :=
  if address.connectionID.length = 0 ∨ 0xff < address.connectionID.length then
    fun writer => (writer, false)
  else
    Writer.andThen (fun writer => writer.write address.ipv4Address.val) <|
      Writer.andThen (writePort address.ipv4Port) <|
        Writer.andThen (fun writer => writer.write address.ipv6Address.val) <|
          Writer.andThen (writePort address.ipv6Port) <|
            Writer.andThen
              (Writer.andThen (fun writer => writer.write [UInt8.ofNat address.connectionID.length])
                fun writer => writer.write address.connectionID)
              fun writer => writer.write address.statelessResetToken.val

/-- The size of `enough_to_store_preferred_address`. -/
def enoughToStore : Nat := 4 + 2 + 16 + 2 + 1 + 20 + 16

end PreferredAddress

end Address

section Params

/-- The initializers of the integer fields. -/
def IntParam.initial : IntParam → Nat
  | maxUdpPayloadSize => 65527
  | ackDelayExponent => 3
  | maxAckDelay => 25
  | activeConnectionIdLimit => 2
  | _ => 0

structure DefinedTransportParams where
  ints : IntParam → Nat := IntParam.initial
  byteStrings : BytesParam → Bytes := fun _ => []
  flags : FlagParam → Bool := fun _ => false
  statelessResetToken : StatelessResetToken := zeros 16
  preferredAddress : PreferredAddress := {}

structure DuplicateSetChecker where
  check : Fin DefinedID.implementedDefined → Bool := fun _ => false
  detect : Bool := false

namespace DefinedTransportParams

variable (params : DefinedTransportParams) (id : DefinedID) (data : TransportParamValue)

/-- `vlint`: the integer for the field that holds `place`. -/
def vlint (acceptZeroRtt : Bool) (place : Nat) : Option Nat :=
  if !data.asQvarint.2 then none
  else if acceptZeroRtt && id.mustGreaterOrEqualIf0RTT && data.asQvarint.1.qvarint < place then none
  else some data.asQvarint.1.qvarint

def rdata : Option Bytes :=
  if !data.asBytes then none else some data.bytes

/-- `wdata`, for a token: `view::copy` answers zero for equal sizes only. -/
def wdata : Option StatelessResetToken :=
  if !data.asBytes then none
  else if same : data.bytes.length = 16 then some ⟨data.bytes, same⟩
  else none

def bool : Option Bool := if data.len ≠ 0 then none else some true

def addr : Option PreferredAddress :=
  match PreferredAddress.parse data.bytes with
  | some (address, []) => some address
  | _ => none

/-- The callback for the field of `id`; what a failed one has stored already is not kept. -/
def assign (acceptZeroRtt : Bool) : Option DefinedTransportParams :=
  match id with
  | .vlint field =>
    (vlint id data acceptZeroRtt (params.ints field)).map fun value =>
      { params with ints := Function.update params.ints field value }
  | .rdata field =>
    (rdata data).map fun value =>
      { params with byteStrings := Function.update params.byteStrings field value }
  | .bool field =>
    (bool data).map fun value => { params with flags := Function.update params.flags field value }
  | .statelessResetToken =>
    (wdata data).map fun value => { params with statelessResetToken := value }
  | .preferredAddress => (addr data).map fun value => { params with preferredAddress := value }

/-- `from_transport_param`: the fields, the table, and `{ok, changed}`. -/
def fromTransportParam (param : TransportParameter)
    (checker : DuplicateSetChecker) (acceptZeroRtt : Bool) :
    (DefinedTransportParams × DuplicateSetChecker) × Bool × Bool :=
  match param.defined with
  | none => ((params, checker), true, false)
  | some id =>
    if checker.check id.index then ((params, { checker with detect := true }), false, false)
    else
      match params.assign id param.data acceptZeroRtt with
      | none => ((params, checker), false, false)
      | some params =>
        ((params, { checker with check := Function.update checker.check id.index true }),
          true, true)

/-- The parameter that `visit_each_param` makes of a field, and whether it `exists`. -/
def visitParam : TransportParameter × Bool :=
  match id with
  | .vlint field => (makeTransportParam id (.qvint ⟨params.ints field, 0⟩), true)
  | .rdata field => (makeTransportParam id (.byts (params.byteStrings field)), true)
  | .bool field => (makeTransportParam id (.byts []), params.flags field)
  | .statelessResetToken => (makeTransportParam id (.byts params.statelessResetToken.val), true)
  | .preferredAddress =>
    (makeTransportParam id (.byts
      (params.preferredAddress.render (.ofCapacity PreferredAddress.enoughToStore)).1.written),
      params.preferredAddress.enable)

/-- `visit_each_param` with the callback of `render`, from some field on. -/
def renderEach (params : DefinedTransportParams) (shouldRender : TransportParameter → Bool) :
    List DefinedID → Writer → Writer × Bool
  | [] => fun writer => (writer, true)
  | id :: ids =>
    Writer.andThen
      (if (params.visitParam id).2 && shouldRender (params.visitParam id).1 then
        (params.visitParam id).1.render
      else fun writer => (writer, true))
      (renderEach params shouldRender ids)

def render (shouldRender : TransportParameter → Bool) : Writer → Writer × Bool :=
  params.renderEach shouldRender DefinedID.visited

end DefinedTransportParams

def isDefaultValue (param : TransportParameter) : Bool :=
  match param.defined with
  | some (.vlint .maxUdpPayloadSize) => param.data.qvarint == 65527
  | some (.vlint .ackDelayExponent) => param.data.qvarint == 3
  | some (.vlint .maxAckDelay) => param.data.qvarint == 25
  | some (.vlint .activeConnectionIdLimit) => param.data.qvarint == 2
  | some (.vlint .maxIdleTimeout) => param.data.qvarint == 0
  | some (.vlint .initialMaxData) => param.data.qvarint == 0
  | some (.vlint .initialMaxStreamDataBidiLocal) => param.data.qvarint == 0
  | some (.vlint .initialMaxStreamDataBidiRemote) => param.data.qvarint == 0
  | some (.vlint .initialMaxStreamDataUni) => param.data.qvarint == 0
  | some (.vlint .initialMaxStreamsBidi) => param.data.qvarint == 0
  | some (.vlint .initialMaxStreamsUni) => param.data.qvarint == 0
  | some (.vlint .maxDatagramFrameSize) => param.data.qvarint == 0
  | _ => false

inductive TransportParamError
  | none
  | invalidEncoding
  | lessThan2ConnectionId
  | lessThan1200UdpPayload
  | over20AckDelayExponent
  | over2pow14MaxAckDelay
  | zeroLengthConnid
  | tooLargeMaxStreamsBidi
  | tooLargeMaxStreamsUni
  deriving DecidableEq

/-- `to_string`; `none` is the null pointer, which counts as no error. -/
def TransportParamError.toString : TransportParamError → Option String
  | invalidEncoding => some "invalid transport parameter encoding"
  | lessThan2ConnectionId => some "active_connection_id_limit is less than 2"
  | lessThan1200UdpPayload => some "max_udp_payload_size is less than 1200"
  | over20AckDelayExponent => some "ack_delay_exponent is over 20"
  | zeroLengthConnid => some "preferred_address.connectionID.len is 0"
  | tooLargeMaxStreamsBidi => some "max_bidi_streams greater than 2^60"
  | tooLargeMaxStreamsUni => some "max_uni_streams greater than 2^60"
  | _ => .none

def validateTransportParam (param : DefinedTransportParams) : TransportParamError :=
  if 20 < param.ints .ackDelayExponent then .over20AckDelayExponent
  else if param.ints .activeConnectionIdLimit < 2 then .lessThan2ConnectionId
  else if param.ints .maxUdpPayloadSize < 1200 then .lessThan1200UdpPayload
  else if 2 ^ 14 < param.ints .maxAckDelay then .over2pow14MaxAckDelay
  else if param.preferredAddress.enable && param.preferredAddress.connectionID.isEmpty then
    .zeroLengthConnid
  else if 2 ^ 60 ≤ param.ints .initialMaxStreamsBidi then .tooLargeMaxStreamsBidi
  else if 2 ^ 60 ≤ param.ints .initialMaxStreamsUni then .tooLargeMaxStreamsUni
  else .none

end Params

section Suite

inductive PeerError
  | notAllowed
  | duplicate
  | invalidFormat
  | contract (base : String)
  | notParsed
  deriving DecidableEq

def PeerError.msg : PeerError → String
  | notAllowed => "client sent not allowed transport_parameter"
  | duplicate => "duplicate set of transport_parameter detected"
  | invalidFormat => "invalid transport parameter format"
  | contract _ => "TransportParameter contract is not satisfied"
  | notParsed => "failed to parse transport parameter"

structure TransportParameters where
  localParams : DefinedTransportParams := {}
  peer : DefinedTransportParams := {}
  peerChecker : DuplicateSetChecker := {}

def checkRecv (id : Nat) (isServer : Bool) : Option PeerError :=
  if isServer && isDefined id && !isDefinedBothSetAllowed id then some .notAllowed else none

/-- `set_`.  Its flag `accept_zero_rtt` is not handed to `from_transport_param`, whose own flag is
`false` then. -/
def set (params : DefinedTransportParams) (checker : DuplicateSetChecker)
    (param : TransportParameter) (isServer _acceptZeroRtt : Bool) :
    (DefinedTransportParams × DuplicateSetChecker) × Option PeerError :=
  match checkRecv param.id.value isServer with
  | some err => ((params, checker), some err)
  | none =>
    match params.fromTransportParam param checker false with
    | ((params, checker), ok, changed) =>
      if !ok then
        ((params, checker), some (if checker.detect then .duplicate else .invalidFormat))
      else if changed then
        ((params, checker), (validateTransportParam params).toString.map .contract)
      else ((params, checker), none)

namespace TransportParameters

variable (isServer acceptZeroRtt : Bool)

def setPeer (suite : TransportParameters) (param : TransportParameter) :
    TransportParameters × Option PeerError :=
  match set suite.peer suite.peerChecker param isServer acceptZeroRtt with
  | ((peer, checker), err) => ({ suite with peer := peer, peerChecker := checker }, err)

/-- The loop of `parse_peer`, for at most `fuel` parameters. -/
def parseLoop : Nat → TransportParameters → Bytes → Option (TransportParameters × Option PeerError)
  | _, suite, [] => some (suite, none)
  | 0, _, _ :: _ => none
  | fuel + 1, suite, first :: tail =>
    match TransportParameter.parse (first :: tail) with
    | none => some (suite, some .notParsed)
    | some (param, rest) =>
      match suite.setPeer isServer acceptZeroRtt param with
      | (suite, some err) => some (suite, some err)
      | (suite, none) => parseLoop fuel suite rest

def parsePeer (suite : TransportParameters) (input : Bytes) :
    Option (TransportParameters × Option PeerError) :=
  parseLoop isServer acceptZeroRtt input.length suite input

/-- The callback `should_render` of `render_local`. -/
def shouldRender (hasRetry : Bool) (param : TransportParameter) : Bool :=
  if !isServer && !isDefinedBothSetAllowed param.id.value then false
  else if !hasRetry && param.defined == some (.rdata .retrySrcConnectionId) then false
  else if isDefaultValue param then false
  else true

def renderLocal (hasRetry : Bool) (suite : TransportParameters) : Writer → Writer × Bool :=
  suite.localParams.render (shouldRender isServer hasRetry)

end TransportParameters

end Suite

end Futils.Quic.TransportParam
