import Futils.Binary.Buffer
import Futils.Quic.Types
import Futils.Quic.Varint
import Futils.Quic.PacketNumber

/-!
# Packet headers

The first byte of a packet tells the form of its header, its type and the length of its packet
number.  Long headers carry the version, both connection IDs and, behind the token of an Initial
packet, the length of what follows; the short header of a 1-RTT packet has the destination
connection ID only, without its length.
-/

namespace Futils.Quic.Packet

open Binary Lib.BigEndian PacketNumber List Nat

section Flags

/-- `packet_type_to_mask`: the first byte of a packet without the packet number length. -/
def packetTypeToMask (type : PacketType) (version : Nat) : UInt8 :=
  match type with
  | .oneRTT => 0x40
  | .versionNegotiation => 0x80
  | .initial => if version = 1 then 0xC0 else 0
  | .zeroRTT => if version = 1 then 0xD0 else 0
  | .handshake => if version = 1 then 0xE0 else 0
  | .retry => if version = 1 then 0xF0 else 0
  | _ => 0

def longPacketType (bits : UInt8) (version : Nat) : PacketType :=
  if version = 0 then .versionNegotiation
  else if version = 1 then
    if bits = 0 then .initial
    else if bits = 1 then .zeroRTT
    else if bits = 2 then .handshake
    else if bits = 3 then .retry
    else .unknown
  else .unknown

/-- `PacketFlags`: the first byte of a packet. -/
structure PacketFlags where
  value : UInt8 := 0
  deriving DecidableEq

namespace PacketFlags

variable (flags : PacketFlags)

def invalid : Bool := flags.value &&& 0x40 = 0

def isShort : Bool := flags.value &&& 0x80 = 0

def isLong : Bool := !flags.isShort

def type (version : Nat) : PacketType :=
  if flags.isShort then .oneRTT else longPacketType ((flags.value &&& 0x30) >>> 4) version

def packetNumberLength : Nat := (flags.value &&& 0x3).toNat + 1

end PacketFlags

/-- `make_packet_flags`, zero when the packet cannot be made. -/
def makePacketFlags (version : Nat) (type : PacketType) (pnLength : Nat) (spin keyPhase : Bool) :
    PacketFlags :=
  let mask := packetTypeToMask type version
  let lenMask := UInt8.ofNat (pnLength - 1)
  if mask = 0 then {}
  else
    match type with
    | .initial | .zeroRTT | .handshake =>
      if isWireLen pnLength then ⟨mask ||| lenMask⟩ else {}
    | .retry | .versionNegotiation => ⟨mask⟩
    | .oneRTT =>
      if isWireLen pnLength then
        ⟨mask ||| (if spin then 0x20 else 0) ||| (if keyPhase then 0x04 else 0) ||| lenMask⟩
      else {}
    | _ => {}

/-- The types of protected packets with a long header. -/
inductive LongType
  | initial
  | zeroRTT
  | handshake
  deriving DecidableEq

def LongType.toPacketType : LongType → PacketType
  | initial => .initial
  | zeroRTT => .zeroRTT
  | handshake => .handshake

/-- The first byte of a long packet, if it can be made, gives its type and packet number length
back. -/
theorem makePacketFlags_long {version pnLength : Nat} {type : LongType}
    (valid : (makePacketFlags version type.toPacketType pnLength false false).value ≠ 0) :
    let flags := makePacketFlags version type.toPacketType pnLength false false
    version = 1 ∧ isWireLen pnLength ∧ flags.isLong ∧
      flags.type version = type.toPacketType ∧ flags.packetNumberLength = pnLength := by
  have version_eq : version = 1 := by
    by_contra other
    refine valid ?_
    cases type <;> simp [makePacketFlags, packetTypeToMask, LongType.toPacketType, other]
  subst version_eq
  have wire_len : isWireLen pnLength := by
    by_contra other
    refine valid ?_
    cases type <;> simp [makePacketFlags, LongType.toPacketType, other]
  have range := of_decide_eq_true wire_len
  have all : ∀ type ∈ [LongType.initial, .zeroRTT, .handshake], ∀ len < 5, 1 ≤ len →
      let flags := makePacketFlags 1 type.toPacketType len false false
      flags.isLong ∧ flags.type 1 = type.toPacketType ∧ flags.packetNumberLength = len := by
    decide
  exact ⟨rfl, wire_len, all _ (by cases type <;> simp) _ (by omega) range.1⟩

theorem makePacketFlags_oneRTT {version pnLength : Nat} {spin keyPhase : Bool}
    (valid : (makePacketFlags version .oneRTT pnLength spin keyPhase).value ≠ 0) :
    let flags := makePacketFlags version .oneRTT pnLength spin keyPhase
    isWireLen pnLength ∧ flags.isShort ∧
      flags.packetNumberLength = pnLength := by
  have wire_len : isWireLen pnLength := by
    by_contra other
    refine valid ?_
    simp [makePacketFlags, other]
  have range := of_decide_eq_true wire_len
  have all : ∀ spin keyPhase : Bool, ∀ len < 5, 1 ≤ len →
      let flags := makePacketFlags 0 .oneRTT len spin keyPhase
      flags.isShort ∧ flags.packetNumberLength = len := by
    decide
  exact ⟨wire_len, all _ _ _ (by omega) range.1⟩

end Flags

section Fields

def writeVarint (value : Nat) (buffer : Buffer) : Option Buffer :=
  if Varint.minLen value = 0 then none
  else buffer.write (Varint.encode value (Varint.minLen value))

theorem appends_writeVarint (value : Nat) :
    Buffer.Appends (writeVarint value) (Varint.encode value (Varint.minLen value)) := by
  intro buffer next written
  rw [writeVarint] at written
  split at written
  · cases written
  exact Buffer.appends_write _ _ _ written

variable {value : Nat} {wire : PacketNumber.WireVal}

theorem lt_of_writeVarint {buffer next : Buffer} (written : writeVarint value buffer = some next) :
    value < 2 ^ 62 := by
  by_contra large
  simp [writeVarint, Varint.minLen_of_le (not_lt.1 large)] at written

theorem reads_varintValue (bound : value < 2 ^ 62) :
    Parser.Reads Varint.readValue (Varint.encode value (Varint.minLen value))
      ⟨value, Varint.minLen value⟩ :=
  Varint.reads_value (Varint.inRange_minLen (Varint.minLen_pos bound).ne')

theorem length_minLen (value : Nat) :
    (Varint.LenValue.mk value (Varint.minLen value)).length = Varint.minLen value := by
  rw [Varint.LenValue.length]
  split <;> rfl

def writePacketNumber (wire : PacketNumber.WireVal) (buffer : Buffer) : Option Buffer :=
  if isWireLen wire.len then buffer.write (toBytes wire.len wire.value) else none

theorem appends_writePacketNumber (wire : PacketNumber.WireVal) :
    Buffer.Appends (writePacketNumber wire) (toBytes wire.len wire.value) := by
  intro buffer next written
  rw [writePacketNumber] at written
  split at written
  · exact Buffer.appends_write _ _ _ written
  · cases written

def readPacketNumber (len : Nat) : Parser Nat :=
  .check (isWireLen len) (.bind (.take len) fun data rest => some (ofBytes data, rest))

theorem reads_ofBytes {width : Nat} (bound : value < 256 ^ width) :
    Parser.Reads (.bind (.take width) fun data rest => some (ofBytes data, rest))
      (toBytes width value) value := by
  have data_read := Parser.reads_take (toBytes width value)
  rw [length_toBytes] at data_read
  have value_eq : ofBytes (toBytes width value) = value := by
    rw [ofBytes_toBytes, mod_eq_of_lt bound]
  have both : Parser.Reads (.bind (.take width) fun data rest => some (ofBytes data, rest)) _ _ :=
    data_read.bind (Parser.reads_some _)
  rwa [append_nil, value_eq] at both

theorem reads_readPacketNumber (valid : isWireLen wire.len)
    (bound : wire.value < 256 ^ wire.len) :
    Parser.Reads (readPacketNumber wire.len) (toBytes wire.len wire.value) wire.value :=
  .check valid (reads_ofBytes bound)

theorem value_lt_of_encode {pn largestAck : Nat}
    (encoded : encode pn largestAck = some wire) : wire.value < 256 ^ wire.len := by
  rw [encode] at encoded
  split at encoded
  · cases encoded
    simp only [pow_mul]
    exact mod_lt _ (Nat.pow_pos (by decide))
  · cases encoded

end Fields

section LongHeader

/-- `LongPacketBase`, without the lengths of the IDs. -/
structure LongPacketBase where
  flags : PacketFlags := {}
  version : Nat := 0
  dstID : Bytes := []
  srcID : Bytes := []
  deriving DecidableEq

/-- `Packet::parse`. -/
def parseFlags : Parser PacketFlags
  | [] => none
  | first :: rest => some (⟨first⟩, rest)

def readID : Parser Bytes
  | [] => none
  | len :: rest => Parser.take len.toNat rest

namespace LongPacketBase

def parse : Parser LongPacketBase :=
  .bind parseFlags fun flags => .check flags.isLong <|
    .bind (.bind (.take 4) fun data rest => some (ofBytes data, rest)) fun version =>
      .bind readID fun dstID => .bind readID fun srcID rest =>
        some ({ flags := flags, version := version, dstID := dstID, srcID := srcID }, rest)

def parseCheck (type : PacketType) : Parser LongPacketBase :=
  .bind parse fun base =>
    .check (match type with
      | .initial | .zeroRTT | .handshake | .retry => decide (base.flags.type base.version = type)
      | .versionNegotiation => decide (base.version = 0)
      | _ => true) fun rest => some (base, rest)

def len (base : LongPacketBase) : Nat := 1 + 4 + 1 + base.dstID.length + 1 + base.srcID.length

def encoded (base : LongPacketBase) : Bytes :=
  [base.flags.value] ++ (toBytes 4 base.version ++ ([UInt8.ofNat base.dstID.length] ++
    (base.dstID ++ ([UInt8.ofNat base.srcID.length] ++ base.srcID))))

def renderWithVersion (base : LongPacketBase) (flags : PacketFlags) (buffer : Buffer) :
    Option Buffer :=
  if 0xff < base.dstID.length ∨ 0xff < base.srcID.length then none
  else
    Buffer.andThen (fun buffer => buffer.write [flags.value])
      (Buffer.andThen (fun buffer => buffer.write (toBytes 4 base.version))
        (Buffer.andThen (fun buffer => buffer.write [UInt8.ofNat base.dstID.length])
          (Buffer.andThen (fun buffer => buffer.write base.dstID)
            (Buffer.andThen (fun buffer => buffer.write [UInt8.ofNat base.srcID.length])
              (fun buffer => buffer.write base.srcID))))) buffer

def renderWithPnlen (base : LongPacketBase) (type : PacketType) (pnLength : Nat) (buffer : Buffer) :
    Option Buffer :=
  if !isWireLen pnLength then none
  else
    let flags := makePacketFlags base.version type pnLength false false
    if flags.value = 0 then none else base.renderWithVersion flags buffer

variable {base : LongPacketBase}

theorem renderWithVersion_some {flags : PacketFlags} {buffer next : Buffer}
    (rendered : base.renderWithVersion flags buffer = some next) :
    base.dstID.length ≤ 0xff ∧ base.srcID.length ≤ 0xff ∧
      ∃ room : ({ base with flags := flags }).encoded.length ≤ buffer.remain.length,
        next = buffer.put ({ base with flags := flags }).encoded room := by
  rw [renderWithVersion] at rendered
  split at rendered
  · cases rendered
  have appends := Buffer.Appends.andThen (Buffer.appends_write [flags.value])
    ((Buffer.appends_write (toBytes 4 base.version)).andThen
      ((Buffer.appends_write [UInt8.ofNat base.dstID.length]).andThen
        ((Buffer.appends_write base.dstID).andThen
          ((Buffer.appends_write [UInt8.ofNat base.srcID.length]).andThen
            (Buffer.appends_write base.srcID)))))
  exact ⟨by omega, by omega, appends _ _ rendered⟩

theorem renderWithPnlen_some {type : PacketType} {pnLength : Nat} {buffer next : Buffer}
    (rendered : base.renderWithPnlen type pnLength buffer = some next) :
    let flags := makePacketFlags base.version type pnLength false false
    flags.value ≠ 0 ∧ base.dstID.length ≤ 0xff ∧ base.srcID.length ≤ 0xff ∧
      ∃ room : ({ base with flags := flags }).encoded.length ≤ buffer.remain.length,
        next = buffer.put ({ base with flags := flags }).encoded room := by
  simp only [renderWithPnlen] at rendered
  split at rendered
  · cases rendered
  split at rendered
  · cases rendered
  rename_i nonzero
  exact ⟨nonzero, renderWithVersion_some rendered⟩

theorem reads_readID {id : Bytes} (small : id.length ≤ 0xff) :
    Parser.Reads readID ([UInt8.ofNat id.length] ++ id) id := by
  intro rest
  have len_eq : (UInt8.ofNat id.length).toNat = id.length := by
    rw [UInt8.toNat_ofNat', mod_eq_of_lt (by omega)]
  simp only [cons_append, readID, len_eq]
  exact Parser.reads_take id _

theorem reads_parse (long : base.flags.isLong) (version : base.version < 256 ^ 4)
    (dst_small : base.dstID.length ≤ 0xff) (src_small : base.srcID.length ≤ 0xff) :
    Parser.Reads parse base.encoded base := by
  have flags_read : Parser.Reads parseFlags [base.flags.value] base.flags := fun rest => rfl
  have all : Parser.Reads parse _ base :=
    flags_read.bind (.check long ((reads_ofBytes version).bind
      ((reads_readID dst_small).bind ((reads_readID src_small).bind (Parser.reads_some _)))))
  simpa [encoded] using all

theorem reads_parseCheck {type : LongType} (long : base.flags.isLong)
    (typed : base.flags.type base.version = type.toPacketType) (version : base.version < 256 ^ 4)
    (dst_small : base.dstID.length ≤ 0xff) (src_small : base.srcID.length ≤ 0xff) :
    Parser.Reads (parseCheck type.toPacketType) base.encoded base := by
  have all : Parser.Reads (parseCheck type.toPacketType) _ base :=
    (reads_parse long version dst_small src_small).bind
      (.check (by cases type <;> exact decide_eq_true typed) (Parser.reads_some _))
  simpa using all

theorem length_encoded (base : LongPacketBase) : base.encoded.length = base.len := by
  simp only [encoded, len, length_append, length_cons, length_nil, length_toBytes]
  omega

end LongPacketBase

end LongHeader

end Futils.Quic.Packet
