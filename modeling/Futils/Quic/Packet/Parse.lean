import Futils.Quic.Packet.Creation

/-!
# Parsing of coalesced packets

`parse_packets` splits a datagram into packets and hands each one to a callback with the range of
bytes it was read from.  Protected packets are read without their packet number first, and again as
plain packets when the protection is removed.
-/

namespace Futils.Quic.Packet

open Binary Lib.BigEndian PacketNumber LongPacketBase LongPacketPartial List

section LongPackets

/-- `InitialPacketPartial::parse` and `HandshakeZeroRTTParital::parse`. -/
def LongPacketPartial.parse (type : LongType) : Parser LongPacketPartial :=
  .bind (parseCheck type.toPacketType) fun base =>
    match type with
    | .initial =>
      .bind Varint.readValue fun tokenLength => .bind (.take tokenLength.value) fun token =>
        .bind Varint.readValue fun length rest =>
          some ({ base with tokenLength := tokenLength, token := token, length := length }, rest)
    | .zeroRTT | .handshake =>
      .bind Varint.readValue fun length rest => some ({ base with length := length }, rest)

structure LongPacketPlain extends LongPacketPartial where
  wirePn : Nat
  payload : Bytes
  authTag : Bytes
  deriving DecidableEq

def LongPacketPlain.parse (type : LongType) (tagLen : Nat) : Parser LongPacketPlain :=
  .bind (LongPacketPartial.parse type) fun packet =>
    .bind (readPacketNumber packet.flags.packetNumberLength) fun wirePn =>
      .bind (.take (sub64 (sub64 packet.length.value packet.flags.packetNumberLength) tagLen))
        fun payload => .bind (.take tagLen) fun authTag rest =>
          some ({ packet with wirePn := wirePn, payload := payload, authTag := authTag }, rest)

/-- `LongPacketPlainBase::head_len`, with the length field that was read. -/
def LongPacketPlain.headLen (type : LongType) (packet : LongPacketPlain) : Nat :=
  packet.toLongPacketPartial.len type true

structure LongPacketCipher extends LongPacketPartial where
  protectedPayload : Bytes
  authTag : Bytes
  deriving DecidableEq

def LongPacketCipher.parse (type : LongType) (tagLen : Nat) : Parser LongPacketCipher :=
  .bind (LongPacketPartial.parse type) fun packet =>
    .bind (.take (sub64 packet.length.value tagLen)) fun protectedPayload =>
      .bind (.take tagLen) fun authTag rest =>
        some ({ packet with protectedPayload := protectedPayload, authTag := authTag }, rest)

end LongPackets

section ShortPackets

structure OneRTTPacketPartial where
  flags : PacketFlags
  dstID : Bytes
  deriving DecidableEq

def OneRTTPacketPartial.parse (getDstIDLen : Bytes → Option Nat) : Parser OneRTTPacketPartial :=
  .bind parseFlags fun flags => .check flags.isShort fun input =>
    (getDstIDLen input).bind fun len =>
      Parser.bind (.take len) (fun dstID rest => some (⟨flags, dstID⟩, rest)) input

def OneRTTPacketPartial.headLen (packet : OneRTTPacketPartial) : Nat := 1 + packet.dstID.length

structure OneRTTPacketPlain extends OneRTTPacketPartial where
  wirePn : Nat
  payload : Bytes
  authTag : Bytes
  deriving DecidableEq

def OneRTTPacketPlain.parse (tagLen : Nat) (getDstIDLen : Bytes → Option Nat) :
    Parser OneRTTPacketPlain :=
  .bind (OneRTTPacketPartial.parse getDstIDLen) fun packet =>
    .bind (readPacketNumber packet.flags.packetNumberLength) fun wirePn input =>
      Parser.bind (.take (sub64 input.length tagLen)) (fun payload =>
        .bind (.take tagLen) fun authTag rest =>
          some ({ packet with wirePn := wirePn, payload := payload, authTag := authTag }, rest)) input

structure OneRTTPacketCipher extends OneRTTPacketPartial where
  protectedPayload : Bytes
  authTag : Bytes
  deriving DecidableEq

def OneRTTPacketCipher.parse (tagLen : Nat) (getDstIDLen : Bytes → Option Nat) :
    Parser OneRTTPacketCipher :=
  .bind (OneRTTPacketPartial.parse getDstIDLen) fun packet input =>
    Parser.bind (.take (sub64 input.length tagLen)) (fun protectedPayload =>
      .bind (.take tagLen) fun authTag rest =>
        some ({ packet with protectedPayload := protectedPayload, authTag := authTag }, rest)) input

end ShortPackets

section Datagrams

/-- A packet as it is handed to the callback. -/
inductive ParsedPacket
  | versionNegotiation (base : LongPacketBase) (versions : List Nat)
  | long (type : LongType) (packet : LongPacketCipher)
  | retry (base : LongPacketBase) (token integrityTag : Bytes)
  | statelessReset (unpredictableBits token : Bytes)
  | oneRTT (packet : OneRTTPacketCipher)
  deriving DecidableEq

def ParsedPacket.type : ParsedPacket → PacketType
  | .versionNegotiation .. => .versionNegotiation
  | .long type _ => type.toPacketType
  | .retry .. => .retry
  | .statelessReset .. => .statelessReset
  | .oneRTT _ => .oneRTT

/-- A call of the callback: a packet and the bytes it was read from, or an error. -/
inductive Event
  | parsed (packet : ParsedPacket) (src : Bytes)
  | failed (type : PacketType) (validType : Bool)
  deriving DecidableEq

/-- The loop of `VersionNegotiationPacket::parse`. -/
def parseVersions : Bytes → Option (List Nat)
  | [] => some []
  | a :: b :: c :: d :: rest => (parseVersions rest).map (ofBytes [a, b, c, d] :: ·)
  | _ => none

def parseVersionNegotiation : Parser ParsedPacket :=
  .bind (parseCheck .versionNegotiation) fun base input =>
    (parseVersions input).map fun versions => (.versionNegotiation base versions, [])

def parseRetry : Parser ParsedPacket :=
  .bind (parseCheck .retry) fun base input =>
    Parser.bind (.take (sub64 input.length 16)) (fun token =>
      .bind (.take 16) fun integrityTag rest => some (.retry base token integrityTag, rest)) input

def parseStatelessReset : Parser (Bytes × Bytes) :=
  .bind parseFlags fun flags => .check (flags.isShort && !flags.invalid) fun input =>
    Parser.bind (.take (sub64 input.length 16)) (fun bits =>
      .bind (.take 16) fun token rest => some ((bits, token), rest)) input

/-- The call for a packet of a known type, and the input behind the packet. -/
def invoke (type : PacketType) (parse : Parser ParsedPacket) (input : Bytes) : Event × Bytes :=
  match parse input with
  | none => (.failed type true, input)
  | some (packet, rest) => (.parsed packet (input.take (input.length - rest.length)), rest)

variable (tagLen : Nat) (isStatelessReset : Bytes → Bytes → Bool)
  (getDstIDLen : Bytes → Option Nat)

def parseLong (type : LongType) : Parser ParsedPacket :=
  .bind (LongPacketCipher.parse type tagLen) fun packet rest => some (.long type packet, rest)

def parseShort : Parser ParsedPacket :=
  .bind (OneRTTPacketCipher.parse tagLen getDstIDLen) fun packet rest => some (.oneRTT packet, rest)

/-- `parse_packet`, for an input that is not empty. -/
def parsePacket (flags : PacketFlags) (input : Bytes) : Event × Bytes :=
  if flags.isLong then
    match Parser.take 4 (input.drop 1) with
    | none => (.failed .unknown false, input)
    | some (data, _) =>
      let version := ofBytes data
      if version = 0 then invoke .versionNegotiation parseVersionNegotiation input
      else
        match flags.type version with
        | .initial => invoke .initial (parseLong tagLen .initial) input
        | .zeroRTT => invoke .zeroRTT (parseLong tagLen .zeroRTT) input
        | .handshake => invoke .handshake (parseLong tagLen .handshake) input
        | .retry => invoke .retry parseRetry input
        | _ => (.failed .longPacket false, input)
  else
    match parseStatelessReset input with
    | some ((bits, token), rest) =>
      if isStatelessReset bits token then
        (.parsed (.statelessReset bits token) (input.take (input.length - rest.length)), rest)
      else invoke .oneRTT (parseShort tagLen getDstIDLen) input
    | none => invoke .oneRTT (parseShort tagLen getDstIDLen) input

/-- The loop of `parse_packets`, at most `fuel` rounds: the calls of the callback, and whether all
input was read. -/
def parseLoop : Nat → Bytes → List Event × Bool
  | _, [] => ([], true)
  | 0, _ :: _ => ([], false)
  | fuel + 1, first :: rest =>
    match parsePacket tagLen isStatelessReset getDstIDLen ⟨first⟩ (first :: rest) with
    | (.failed type validType, _) => ([.failed type validType], false)
    | (.parsed packet src, left) =>
      let (events, ok) := parseLoop fuel left
      (.parsed packet src :: events, ok)

/-- `parse_packets`.  Every packet takes at least one byte. -/
def parsePackets (input : Bytes) : List Event × Bool :=
  parseLoop tagLen isStatelessReset getDstIDLen input.length input

inductive PlainPacket
  | long (type : LongType) (packet : LongPacketPlain)
  | oneRTT (packet : OneRTTPacketPlain)
  deriving DecidableEq

def convertCipherToPlain (src : Bytes) : ParsedPacket → Option PlainPacket
  | .long type _ => (LongPacketPlain.parse type tagLen src).map fun (packet, _) => .long type packet
  | .oneRTT cipher =>
    (OneRTTPacketPlain.parse tagLen (fun _ => some cipher.dstID.length) src).map fun (packet, _) =>
      .oneRTT packet
  | _ => none

end Datagrams

section RoundTrip

variable {type : LongType} {packet : LongPacketPartial} {wire : WireVal} {payload : Bytes}
  {tagLen : Nat}

/-- A long packet whose first byte tells its type and the length of its number, and whose lengths
fit. -/
structure Readable (type : LongType) (packet : LongPacketPartial) (wire : WireVal) (payload : Bytes)
    (tagLen : Nat) : Prop where
  version_eq : packet.version = 1
  isLong : packet.flags.isLong = true
  type_eq : packet.flags.type packet.version = type.toPacketType
  pnLength_eq : packet.flags.packetNumberLength = wire.len
  isWireLen : isWireLen wire.len = true
  value_lt : wire.value < 256 ^ wire.len
  dst_small : packet.dstID.length ≤ 0xff
  src_small : packet.srcID.length ≤ 0xff
  token_lt : packet.token.length < 2 ^ 62
  length_lt : wire.len + payload.length + tagLen < 2 ^ 62
  token_eq : type ≠ .initial → packet.token = []
  tokenLength_eq : packet.tokenLength = match type with
    | .initial => ⟨packet.token.length, Varint.minLen packet.token.length⟩
    | .zeroRTT | .handshake => ⟨0, 0⟩
  length_eq : packet.length = ⟨wire.len + payload.length + tagLen,
    Varint.minLen (wire.len + payload.length + tagLen)⟩

def longImage (type : LongType) (packet : LongPacketPartial) (wire : WireVal) (payload : Bytes)
    (tagLen : Nat) : Bytes :=
  packet.encoded ++ (packet.tokenBytes type ++ longBody wire payload tagLen)

variable (readable : Readable type packet wire payload tagLen)
include readable

theorem Readable.reads_partial :
    Parser.Reads (parse type)
      (packet.encoded ++ (packet.tokenBytes type ++
        Varint.encode packet.length.value (Varint.minLen packet.length.value))) packet := by
  have base_read :=
    reads_parseCheck readable.isLong readable.type_eq
      (by rw [readable.version_eq]; decide) readable.dst_small readable.src_small
  have length_read := reads_varintValue readable.length_lt
  rw [← readable.length_eq] at length_read
  have length_bytes : Varint.encode packet.length.value (Varint.minLen packet.length.value) =
      Varint.encode (wire.len + payload.length + tagLen)
        (Varint.minLen (wire.len + payload.length + tagLen)) := by rw [readable.length_eq]
  have tokenLength_eq := readable.tokenLength_eq
  have token_eq := readable.token_eq
  have token_lt := readable.token_lt
  rw [length_bytes]
  obtain ⟨_, tokenLength, token, _⟩ := packet
  cases type with
  | initial =>
    have tokenLength_eq : tokenLength = ⟨token.length, Varint.minLen token.length⟩ :=
      tokenLength_eq
    subst tokenLength_eq
    have all : Parser.Reads (parse .initial) _ _ :=
      base_read.bind ((reads_varintValue token_lt).bind
        ((Parser.reads_take _).bind (length_read.bind (Parser.reads_some _))))
    simpa [tokenBytes] using all
  | zeroRTT =>
    cases tokenLength_eq
    cases token_eq (by decide)
    have all : Parser.Reads (parse .zeroRTT) _ _ :=
      base_read.bind (length_read.bind (Parser.reads_some _))
    simpa [tokenBytes] using all
  | handshake =>
    cases tokenLength_eq
    cases token_eq (by decide)
    have all : Parser.Reads (parse .handshake) _ _ :=
      base_read.bind (length_read.bind (Parser.reads_some _))
    simpa [tokenBytes] using all

theorem Readable.longImage_eq : longImage type packet wire payload tagLen =
    (packet.encoded ++ (packet.tokenBytes type ++
      Varint.encode packet.length.value (Varint.minLen packet.length.value))) ++
        (toBytes wire.len wire.value ++ (payload ++ replicate tagLen 0)) := by
  simp [longImage, longBody, readable.length_eq]

/-- The plain packet is read back with every field. -/
theorem Readable.reads_plain :
    Parser.Reads (LongPacketPlain.parse type tagLen) (longImage type packet wire payload tagLen)
      { packet with
        wirePn := wire.value, payload := payload, authTag := replicate tagLen 0 } := by
  have payload_len : sub64 (sub64 packet.length.value packet.flags.packetNumberLength) tagLen =
      payload.length := by
    simp only [readable.length_eq, readable.pnLength_eq]
    rw [sub64_of_le (show wire.len ≤ wire.len + payload.length + tagLen by omega),
      sub64_of_le (by omega)]
    omega
  have number_read := reads_readPacketNumber readable.isWireLen readable.value_lt
  have payload_read := Parser.reads_take payload
  have tag_read := Parser.reads_take (replicate tagLen (0 : UInt8))
  rw [← readable.pnLength_eq] at number_read
  rw [← payload_len] at payload_read
  rw [length_replicate] at tag_read
  have all : Parser.Reads (LongPacketPlain.parse type tagLen) _ _ :=
    readable.reads_partial.bind (number_read.bind (payload_read.bind (tag_read.bind
      (Parser.reads_some _))))
  rw [readable.longImage_eq]
  simpa [readable.pnLength_eq] using all

theorem Readable.reads_cipher :
    Parser.Reads (LongPacketCipher.parse type tagLen) (longImage type packet wire payload tagLen)
      { packet with
        protectedPayload := toBytes wire.len wire.value ++ payload
        authTag := replicate tagLen 0 } := by
  have payload_len : sub64 packet.length.value tagLen =
      (toBytes wire.len wire.value ++ payload).length := by
    rw [readable.length_eq, sub64_of_le (by simp only; omega)]
    simp
  have payload_read := Parser.reads_take (toBytes wire.len wire.value ++ payload)
  have tag_read := Parser.reads_take (replicate tagLen (0 : UInt8))
  rw [← payload_len] at payload_read
  rw [length_replicate] at tag_read
  have all : Parser.Reads (LongPacketCipher.parse type tagLen) _ _ :=
    readable.reads_partial.bind (payload_read.bind (tag_read.bind (Parser.reads_some _)))
  rw [readable.longImage_eq]
  simpa using all

/-- The length of the header that is read back lacks the token. -/
theorem Readable.len_add_token :
    packet.len type true + packet.token.length =
      (packet.encoded ++ packet.tokenBytes type).length + Varint.minLen packet.length.value := by
  have encoded_length := length_encoded packet.toLongPacketBase
  have tokenLength_eq := readable.tokenLength_eq
  have token_eq := readable.token_eq
  have length_eq : packet.length.length = Varint.minLen packet.length.value := by
    rw [readable.length_eq, length_minLen]
  rw [length_append, encoded_length]
  cases type with
  | initial =>
    have token_len : packet.tokenLength.length = Varint.minLen packet.token.length := by
      rw [tokenLength_eq]
      exact length_minLen _
    simp only [LongPacketPartial.len, LongPacketPartial.tokenBytes, length_append,
      Varint.length_encode, if_true]
    omega
  | zeroRTT | handshake =>
    simp [LongPacketPartial.len, LongPacketPartial.tokenBytes, length_eq, token_eq]

omit readable in
theorem invoke_of_reads {type : PacketType} {parse : Parser ParsedPacket} {bytes rest : Bytes}
    {parsed : ParsedPacket} (reads : parse (bytes ++ rest) = some (parsed, rest)) :
    invoke type parse (bytes ++ rest) = (.parsed parsed bytes, rest) := by
  rw [invoke, reads]
  simp

variable {isStatelessReset : Bytes → Bytes → Bool} {getDstIDLen : Bytes → Option Nat}

/-- A long packet in front of a datagram is taken off it. -/
theorem Readable.parsePacket_eq (rest : Bytes) :
    parsePacket tagLen isStatelessReset getDstIDLen packet.flags
      (longImage type packet wire payload tagLen ++ rest) =
        (.parsed (.long type { packet with
          protectedPayload := toBytes wire.len wire.value ++ payload
          authTag := replicate tagLen 0 }) (longImage type packet wire payload tagLen), rest) := by
  have reads : Parser.Reads (parseLong tagLen type) _ _ :=
    readable.reads_cipher.bind (Parser.reads_some _)
  have invoked := fun packetType => @invoke_of_reads packetType _ _ _ _ (reads rest)
  rw [append_nil] at invoked
  -- The version is looked at behind the first byte.
  have version_read : ∃ more, Parser.take 4
      ((longImage type packet wire payload tagLen ++ rest).drop 1) = some (toBytes 4 1, more) := by
    have shape : ∃ more, (longImage type packet wire payload tagLen ++ rest).drop 1 =
        toBytes 4 1 ++ more := by
      simp only [longImage, encoded, readable.version_eq]
      exact ⟨_, rfl⟩
    obtain ⟨more, shape⟩ := shape
    have taken := Parser.reads_take (toBytes 4 1) more
    rw [length_toBytes] at taken
    exact ⟨more, by rw [shape, taken]⟩
  obtain ⟨_, version_read⟩ := version_read
  have type_eq := readable.type_eq
  rw [readable.version_eq] at type_eq
  have version_eq : ofBytes (toBytes 4 1) = 1 := by decide
  rw [parsePacket, if_pos readable.isLong, version_read]
  simp only [version_eq, type_eq]
  cases type <;> exact invoked _

end RoundTrip

section Short

variable {flags : PacketFlags} {dstID : Bytes} {wire : WireVal} {payload : Bytes} {tagLen : Nat}
  {isStatelessReset : Bytes → Bytes → Bool} {getDstIDLen : Bytes → Option Nat}

structure ReadableShort (flags : PacketFlags) (wire : WireVal) : Prop where
  isShort : flags.isShort = true
  pnLength_eq : flags.packetNumberLength = wire.len
  isWireLen : isWireLen wire.len = true
  value_lt : wire.value < 256 ^ wire.len

def shortImage (flags : PacketFlags) (dstID : Bytes) (wire : WireVal) (payload : Bytes)
    (tagLen : Nat) : Bytes :=
  flags.value :: (dstID ++ shortBody wire payload tagLen)

theorem parse_short_partial (short : flags.isShort)
    (dst_len : ∀ input, getDstIDLen input = some dstID.length) (rest : Bytes) :
    OneRTTPacketPartial.parse getDstIDLen (flags.value :: (dstID ++ rest)) =
      some (⟨flags, dstID⟩, rest) := by
  have taken := Parser.reads_take dstID rest
  simp only [OneRTTPacketPartial.parse, Parser.bind, parseFlags, Parser.check, short, if_true,
    dst_len, Option.bind_some, taken]

theorem take_before_tag (front : Bytes) :
    Parser.take (sub64 (front ++ replicate tagLen (0 : UInt8)).length tagLen)
      (front ++ replicate tagLen 0) = some (front, replicate tagLen 0) := by
  have front_len : sub64 (front ++ replicate tagLen (0 : UInt8)).length tagLen =
      front.length := by
    rw [sub64_of_le (by simp)]
    simp
  rw [front_len]
  exact Parser.reads_take _ _

theorem take_tag : Parser.take tagLen (replicate tagLen (0 : UInt8)) =
    some (replicate tagLen 0, []) := by
  have taken := Parser.reads_take (replicate tagLen (0 : UInt8)) []
  rwa [append_nil, length_replicate] at taken

variable (readable : ReadableShort flags wire)
  (dst_len : ∀ input, getDstIDLen input = some dstID.length)
include readable dst_len

theorem ReadableShort.parse_plain :
    OneRTTPacketPlain.parse tagLen getDstIDLen (shortImage flags dstID wire payload tagLen) =
      some (⟨⟨flags, dstID⟩, wire.value, payload, replicate tagLen 0⟩, []) := by
  have number_read := reads_readPacketNumber readable.isWireLen readable.value_lt
    (payload ++ replicate tagLen 0)
  rw [← readable.pnLength_eq] at number_read
  rw [shortImage, shortBody, ← readable.pnLength_eq]
  simp only [OneRTTPacketPlain.parse, Parser.bind, parse_short_partial readable.isShort dst_len,
    number_read, take_before_tag, take_tag]

theorem ReadableShort.parse_cipher :
    parseShort tagLen getDstIDLen (shortImage flags dstID wire payload tagLen) =
      some (.oneRTT ⟨⟨flags, dstID⟩, toBytes wire.len wire.value ++ payload,
        replicate tagLen 0⟩, []) := by
  rw [shortImage, shortBody, ← append_assoc (toBytes _ _)]
  simp only [parseShort, OneRTTPacketCipher.parse, Parser.bind,
    parse_short_partial readable.isShort dst_len, take_before_tag, take_tag]

theorem ReadableShort.parsePacket_eq
    (no_reset : ∀ bits token, isStatelessReset bits token = false) :
    parsePacket tagLen isStatelessReset getDstIDLen flags
      (shortImage flags dstID wire payload tagLen) =
        (.parsed (.oneRTT ⟨⟨flags, dstID⟩, toBytes wire.len wire.value ++ payload,
          replicate tagLen 0⟩) (shortImage flags dstID wire payload tagLen), []) := by
  have reads := @ReadableShort.parse_cipher _ _ _ payload tagLen _ readable dst_len
  rw [← append_nil (shortImage _ _ _ _ _)] at reads
  have invoked := @invoke_of_reads .oneRTT _ _ _ _ reads
  rw [append_nil] at invoked
  rw [parsePacket, if_neg (by simp [PacketFlags.isLong, readable.isShort])]
  split
  · rw [no_reset]
    exact invoked
  · exact invoked

end Short

end Futils.Quic.Packet
