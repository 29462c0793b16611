import Futils.Quic.Packet.Parse

/-!
# Created packets are parsed again

Packets that are created one after the other on a writer are found again in what was written, with
the ranges they were written to and the fields they were made from.  The one thing that is not found
again is the length of the header of an Initial packet with a token.
-/

namespace Futils.Quic.Packet

open Binary Lib.BigEndian PacketNumber CryptoPacket List Option Buffer LongPacketBase

structure Request where
  summary : PacketSummary
  largestAcked : Nat
  useFull : Bool
  render : RenderPayload

/-- `create_packet` for one packet after the other. -/
def createPackets (tagLen : Nat) : List Request → Buffer → Option (Buffer × List CryptoPacket)
  | [], buffer => some (buffer, [])
  | request :: requests, buffer =>
    match createPacket request.summary request.largestAcked tagLen request.useFull request.render
      buffer with
    | none => none
    | some (next, packet) =>
      (createPackets tagLen requests next).map fun (last, packets) => (last, packet :: packets)

namespace PlainPacket

def type : PlainPacket → PacketType
  | long type _ => type.toPacketType
  | oneRTT _ => .oneRTT

def dstID : PlainPacket → Bytes
  | long _ packet => packet.dstID
  | oneRTT packet => packet.dstID

def srcID : PlainPacket → Option Bytes
  | long _ packet => some packet.srcID
  | oneRTT _ => none

def token : PlainPacket → Option Bytes
  | long .initial packet => some packet.token
  | _ => none

def wire : PlainPacket → WireVal
  | long _ packet => ⟨packet.wirePn, packet.flags.packetNumberLength⟩
  | oneRTT packet => ⟨packet.wirePn, packet.flags.packetNumberLength⟩

def payload : PlainPacket → Bytes
  | long _ packet => packet.payload
  | oneRTT packet => packet.payload

def headLen : PlainPacket → Nat
  | long type packet => packet.headLen type
  | oneRTT packet => packet.toOneRTTPacketPartial.headLen

end PlainPacket

/-- The plain packet has what the packet was made from. -/
structure MadeFrom (request : Request) (plain : PlainPacket) : Prop where
  type_eq : plain.type = request.summary.type
  dstID_eq : plain.dstID = request.summary.dstID
  srcID_eq : plain.srcID =
    if request.summary.type = .oneRTT then none else some request.summary.srcID
  token_eq : plain.token =
    if request.summary.type = .initial then some request.summary.token else none
  wire_eq : encode request.summary.packetNumber request.largestAcked = some plain.wire
  payload_eq : ∃ room, (withPadding request.useFull request.render plain.wire room).map
    Subtype.val = some plain.payload

/-- The callback gets the packet with its range, which is read as the packet made, up to the header
length with a token. -/
def Agrees (tagLen : Nat) (request : Request) (packet : CryptoPacket) (event : Event) : Prop :=
  ∃ parsed plain, event = .parsed parsed packet.src ∧ parsed.type = request.summary.type ∧
    convertCipherToPlain tagLen packet.src parsed = some plain ∧ MadeFrom request plain ∧
    (plain.headLen = packet.headLen ↔
      (request.summary.type = .initial → request.summary.token = []))

section Created

variable {summary : PacketSummary} {largestAcked tagLen : Nat} {buffer next last : Buffer}
  {packet : CryptoPacket}

/-- The fields of a long packet, with those that only parsing sets. -/
def sentPartial (summary : PacketSummary) (type : LongType) (wire : WireVal) (length : Nat) :
    LongPacketPartial :=
  { summary.partialPacket type with
    flags := makePacketFlags summary.version type.toPacketType wire.len false false
    tokenLength := match type with
      | .initial => ⟨summary.token.length, Varint.minLen summary.token.length⟩
      | .zeroRTT | .handshake => ⟨0, 0⟩
    length := ⟨length, Varint.minLen length⟩ }

theorem appends_render {type : LongType} {wire : WireVal} {length : Nat} :
    Buffer.Appends ((summary.partialPacket type).render type wire.len)
      ((sentPartial summary type wire length).encoded ++
        (sentPartial summary type wire length).tokenBytes type) := by
  have appends_base : ∀ base : LongPacketBase,
      let flags := makePacketFlags base.version type.toPacketType wire.len false false
      Appends (base.renderWithPnlen type.toPacketType wire.len)
        ({ base with flags := flags }).encoded :=
    fun base buffer next rendered => (renderWithPnlen_some rendered).2.2.2
  cases type with
  | initial =>
    exact (appends_base _).andThen ((appends_writeVarint _).andThen (appends_write _))
  | zeroRTT | handshake =>
    have appends := appends_base (summary.partialPacket .zeroRTT).toLongPacketBase
    rw [LongPacketPartial.tokenBytes, append_nil]
    exact appends

variable {wire : WireVal} {type : LongType} {request : Request}

theorem readable_of_render {payload : Bytes}
    (encoded : encode summary.packetNumber largestAcked = some wire)
    (length_lt : wire.len + payload.length + tagLen < 2 ^ 62)
    (rendered : (summary.partialPacket type).render type wire.len buffer = some next) :
    Readable type (sentPartial summary type wire (wire.len + payload.length + tagLen)) wire payload
      tagLen := by
  have base_rendered : ∃ middle, (summary.partialPacket type).toLongPacketBase.renderWithPnlen
      type.toPacketType wire.len buffer = some middle := by
    cases type with
    | initial => exact (bind_eq_some_iff.1 rendered).imp fun _ both => both.1
    | zeroRTT | handshake => exact ⟨next, rendered⟩
  obtain ⟨_, base_rendered⟩ := base_rendered
  obtain ⟨nonzero, dst_small, src_small, -⟩ := renderWithPnlen_some base_rendered
  have summary_version : (summary.partialPacket type).version = summary.version := by
    cases type <;> rfl
  rw [summary_version] at nonzero
  obtain ⟨version_eq, wire_len, is_long, type_eq, pn_length⟩ := makePacketFlags_long nonzero
  refine
    { version_eq := summary_version.trans version_eq
      isLong := is_long
      type_eq := ?_
      pnLength_eq := pn_length
      isWireLen := wire_len
      value_lt := value_lt_of_encode encoded
      dst_small := dst_small
      src_small := src_small
      token_lt := ?_
      length_lt := length_lt
      token_eq := ?_
      tokenLength_eq := ?_
      length_eq := rfl }
  · cases type <;> exact type_eq
  · cases type with
    | initial =>
      obtain ⟨_, -, further⟩ := bind_eq_some_iff.1 rendered
      obtain ⟨_, token_written, -⟩ := bind_eq_some_iff.1 further
      exact lt_of_writeVarint token_written
    | zeroRTT | handshake => exact Nat.two_pow_pos 62
  · cases type <;> simp [sentPartial, PacketSummary.partialPacket]
  · cases type <;> rfl

theorem renderShort_some {version : Nat} {dstID : Bytes} {keyBit spin : Bool}
    (rendered : renderShort version dstID wire.len keyBit spin buffer = some next) :
    (makePacketFlags version .oneRTT wire.len spin keyBit).value ≠ 0 := by
  simp only [renderShort] at rendered
  split at rendered
  · cases rendered
  rename_i nonzero
  exact nonzero

theorem appends_renderShort {version : Nat} {dstID : Bytes} {keyBit spin : Bool} :
    Buffer.Appends (renderShort version dstID wire.len keyBit spin)
      ([(makePacketFlags version .oneRTT wire.len spin keyBit).value] ++ dstID) := by
  intro buffer next rendered
  simp only [renderShort] at rendered
  split at rendered
  · cases rendered
  exact ((appends_write _).andThen (appends_write _)) _ _ rendered

/-- What the range of a packet is, once the writer is behind its image. -/
theorem getCryptoPacket_eq {payloadLen : Nat} {image : Bytes}
    (extended : Buffer.Extends buffer image next)
    (got : getCryptoPacket summary wire tagLen buffer.index (next, payloadLen) = (last, packet)) :
    last = next ∧ packet.src = image ∧
      packet.headLen = image.length - payloadLen - tagLen - wire.len := by
  have src_eq : next.written.drop buffer.index = image := by
    rw [extended.written_eq, ← buffer.length_written, drop_left]
  simp only [getCryptoPacket, src_eq] at got
  obtain ⟨rfl, rfl⟩ := got
  exact ⟨rfl, rfl, rfl⟩

variable {isStatelessReset : Bytes → Bytes → Bool} {getDstIDLen : Bytes → Option Nat}

/-- The range of a packet, which `parse_packet` takes off in front of any further packets; none
follows a 1-RTT packet. -/
structure Parsed (tagLen : Nat) (isStatelessReset : Bytes → Bytes → Bool)
    (getDstIDLen : Bytes → Option Nat) (request : Request) (buffer next : Buffer)
    (packet : CryptoPacket) (event : Event) : Prop where
  extended : Buffer.Extends buffer packet.src next
  agrees : Agrees tagLen request packet event
  parsed_eq : ∃ first more, packet.src = first :: more ∧ ∀ rest,
    (request.summary.type = .oneRTT → rest = []) →
      parsePacket tagLen isStatelessReset getDstIDLen ⟨first⟩ (packet.src ++ rest) = (event, rest)

theorem type_eq_of_ofPacketType {packetType : PacketType}
    (long : LongType.ofPacketType packetType = some type) : packetType = type.toPacketType := by
  cases packetType <;> cases long <;> rfl

/-- A long packet that was created is read as it was made. -/
theorem agrees_long {room : Nat} {payload : Payload room} {sent : LongPacketPartial}
    (sent_eq : sent = sentPartial request.summary type wire
      (wire.len + payload.val.length + tagLen)) (typed : request.summary.type = type.toPacketType)
    (encoded : encode request.summary.packetNumber request.largestAcked = some wire)
    (padded : withPadding request.useFull request.render wire room = some payload)
    (readable : Readable type sent wire payload.val tagLen)
    (src_eq : packet.src = longImage type sent wire payload.val tagLen)
    (headLen_eq : packet.headLen = packet.src.length - payload.val.length - tagLen - wire.len) :
    Agrees tagLen request packet (.parsed (.long type { sent with
      protectedPayload := toBytes wire.len wire.value ++ payload.val
      authTag := replicate tagLen 0 }) packet.src) := by
  have plain_read := readable.reads_plain []
  rw [append_nil, ← src_eq] at plain_read
  refine ⟨_, .long type { sent with
      wirePn := wire.value, payload := payload.val, authTag := replicate tagLen 0 }, rfl,
    typed.symm, ?_, ?_, ?_⟩
  · simp only [convertCipherToPlain, plain_read, map_some]
  · have wire_eq : (⟨wire.value, sent.flags.packetNumberLength⟩ : WireVal) = wire := by
      rw [readable.pnLength_eq]
    refine
      { type_eq := typed.symm
        dstID_eq := ?_
        srcID_eq := ?_
        token_eq := ?_
        wire_eq := encoded.trans (congrArg _ wire_eq.symm)
        payload_eq := ⟨room, ?_⟩ }
    · subst sent_eq
      cases type <;> rfl
    · rw [typed]
      subst sent_eq
      cases type <;> rfl
    · rw [typed]
      subst sent_eq
      cases type <;> rfl
    · simp only [PlainPacket.wire, PlainPacket.payload, wire_eq, padded, map_some]
  · have counted := readable.len_add_token
    have image_length : packet.src.length = (sent.encoded ++ sent.tokenBytes type).length +
        Varint.minLen sent.length.value + wire.len + payload.val.length + tagLen := by
      rw [src_eq, readable.longImage_eq]
      simp only [length_append, Varint.length_encode, length_toBytes, length_replicate]
      omega
    have token_eq : (type = .initial → request.summary.token = []) ↔ sent.token.length = 0 := by
      rw [sent_eq]
      cases type <;> simp [sentPartial, PacketSummary.partialPacket]
    have type_iff : request.summary.type = .initial ↔ type = .initial := by
      rw [typed]
      cases type <;> simp [LongType.toPacketType]
    rw [type_iff, token_eq]
    show sent.len type true = _ ↔ _
    omega

theorem parsed_long (typed : request.summary.type = type.toPacketType)
    (encoded : encode request.summary.packetNumber request.largestAcked = some wire)
    (created : (renderInPlace ((request.summary.partialPacket type).render type wire.len) wire tagLen
      (withPadding request.useFull request.render wire) buffer).map
        (getCryptoPacket request.summary wire tagLen buffer.index) = some (next, packet)) :
    ∃ event, Parsed tagLen isStatelessReset getDstIDLen request buffer next packet event := by
  obtain ⟨⟨_, _⟩, rendered, got⟩ := map_eq_some_iff.1 created
  obtain ⟨_, _, padded, rfl, length_lt, ⟨_, header_rendered⟩, extended⟩ :=
    renderInPlace_some (@appends_render _ _ _ 0) rendered
  rw [append_assoc] at extended
  have readable := readable_of_render encoded length_lt header_rendered
  obtain ⟨rfl, src_eq, headLen_eq⟩ := getCryptoPacket_eq extended got
  rw [← src_eq] at extended headLen_eq
  refine ⟨_, extended, agrees_long rfl typed encoded padded readable src_eq headLen_eq, _, _, src_eq,
    fun rest _ => ?_⟩
  have parsed := @Readable.parsePacket_eq _ _ _ _ _ readable isStatelessReset getDstIDLen rest
  rw [src_eq]
  exact parsed

theorem parsed_short (typed : request.summary.type = .oneRTT)
    (dst_len : ∀ input, getDstIDLen input = some request.summary.dstID.length)
    (no_reset : ∀ bits token, isStatelessReset bits token = false)
    (encoded : encode request.summary.packetNumber request.largestAcked = some wire)
    (created : (renderShortInPlace (renderShort request.summary.version request.summary.dstID
      wire.len request.summary.keyBit request.summary.spin) wire tagLen
        (withPadding request.useFull request.render wire) buffer).map
          (getCryptoPacket request.summary wire tagLen buffer.index) = some (next, packet)) :
    ∃ event, Parsed tagLen isStatelessReset getDstIDLen request buffer next packet event := by
  obtain ⟨⟨_, _⟩, rendered, got⟩ := map_eq_some_iff.1 created
  obtain ⟨room, payload, padded, rfl, ⟨_, header_rendered⟩, extended⟩ :=
    renderShortInPlace_some appends_renderShort rendered
  obtain ⟨wire_len, is_short, pn_length⟩ := makePacketFlags_oneRTT (renderShort_some header_rendered)
  generalize makePacketFlags request.summary.version .oneRTT wire.len request.summary.spin
    request.summary.keyBit = flags at *
  have readable : ReadableShort flags wire :=
    ⟨is_short, pn_length, wire_len, value_lt_of_encode encoded⟩
  have image_eq : [flags.value] ++ request.summary.dstID ++ shortBody wire payload.val tagLen =
      shortImage flags request.summary.dstID wire payload.val tagLen := rfl
  rw [image_eq] at extended
  obtain ⟨rfl, src_eq, headLen_eq⟩ := getCryptoPacket_eq extended got
  rw [← src_eq] at extended headLen_eq
  have plain_read := @ReadableShort.parse_plain _ _ _ payload.val tagLen
    (fun _ => some request.summary.dstID.length) readable (fun _ => rfl)
  rw [← src_eq] at plain_read
  refine ⟨_, extended, ⟨.oneRTT ⟨⟨flags, request.summary.dstID⟩,
    toBytes wire.len wire.value ++ payload.val, replicate tagLen 0⟩,
    .oneRTT ⟨⟨flags, request.summary.dstID⟩, wire.value, payload.val, replicate tagLen 0⟩, rfl,
      typed.symm, ?_, ?_, ?_⟩, _, _, src_eq, fun rest last => ?_⟩
  · simp only [convertCipherToPlain, plain_read, map_some]
  · have wire_eq : (⟨wire.value, flags.packetNumberLength⟩ : WireVal) = wire := by
      rw [readable.pnLength_eq]
    exact
      { type_eq := typed.symm
        dstID_eq := rfl
        srcID_eq := by rw [typed]; rfl
        token_eq := by rw [typed]; rfl
        wire_eq := encoded.trans (congrArg _ wire_eq.symm)
        payload_eq := ⟨room, by
          simp only [PlainPacket.wire, PlainPacket.payload, wire_eq, padded, map_some]⟩ }
  · have image_length : packet.src.length =
        1 + request.summary.dstID.length + wire.len + payload.val.length + tagLen := by
      rw [src_eq, shortImage, shortBody]
      simp only [length_cons, length_append, length_toBytes, length_replicate]
      omega
    refine iff_of_true ?_ (by simp [typed])
    show 1 + request.summary.dstID.length = _
    omega
  · rw [last typed, append_nil, src_eq]
    exact readable.parsePacket_eq dst_len no_reset

/-- Every packet that `create_packet` makes is taken off a datagram as it was made. -/
theorem parsed_of_createPacket {request : Request}
    (dst_len : request.summary.type = .oneRTT → ∀ input,
      getDstIDLen input = some request.summary.dstID.length)
    (no_reset : ∀ bits token, isStatelessReset bits token = false)
    (created : createPacket request.summary request.largestAcked tagLen request.useFull
      request.render buffer = some (next, packet)) :
    ∃ event, Parsed tagLen isStatelessReset getDstIDLen request buffer next packet event := by
  rw [createPacket] at created
  split at created
  · cases created
  rename_i encoded
  split at created
  case h_1 type long => exact parsed_long (type_eq_of_ofPacketType long) encoded created
  case h_2 =>
    split at created
    case isTrue typed => exact parsed_short typed (dst_len typed) no_reset encoded created
    case isFalse => cases created

variable {requests : List Request} {packets : List CryptoPacket}
  (no_reset : ∀ bits token, isStatelessReset bits token = false)
  (short_last : ∀ request ∈ requests.dropLast, request.summary.type ≠ .oneRTT)
  (dst_len : ∀ request ∈ requests, request.summary.type = .oneRTT → ∀ input,
    getDstIDLen input = some request.summary.dstID.length)
include no_reset short_last dst_len

theorem parseLoop_createPackets
    (created : createPackets tagLen requests buffer = some (next, packets)) :
    packets.length = requests.length ∧
      Buffer.Extends buffer (packets.map src).flatten next ∧
      requests.length ≤ (packets.map src).flatten.length ∧
      ∃ events, List.Forall₂ (fun made => Agrees tagLen made.1 made.2) (requests.zip packets) events ∧
        ∀ fuel, requests.length ≤ fuel → parseLoop tagLen isStatelessReset getDstIDLen fuel
          (packets.map src).flatten = (events, true) := by
  induction requests generalizing buffer packets with
  | nil =>
    cases created
    refine ⟨rfl, ⟨by simp, rfl⟩, le_rfl, [], .nil, fun fuel _ => ?_⟩
    cases fuel <;> rfl
  | cons request requests ih =>
    rw [createPackets] at created
    split at created
    · cases created
    rename_i middle packet created_first
    obtain ⟨⟨_, later⟩, created_later, pair_eq⟩ := map_eq_some_iff.1 created
    cases pair_eq
    obtain ⟨event, extended, agrees, _, _, src_eq, parsed⟩ :=
      @parsed_of_createPacket _ _ _ _ _ _ _ (dst_len _ mem_cons_self) no_reset created_first
    have requests_nil : request.summary.type = .oneRTT → requests = [] := by
      intro short
      cases requests with
      | nil => rfl
      | cons other rest => exact absurd short (short_last request mem_cons_self)
    obtain ⟨length_eq, later_extended, length_le, events, agree, later_parsed⟩ := @ih _ _
      (fun other member => short_last _ (by
        cases requests with
        | nil => cases member
        | cons _ _ => exact mem_cons_of_mem _ member))
      (forall_mem_cons.1 dst_len).2 created_later
    have rest_nil : request.summary.type = .oneRTT →
        (later.map src).flatten = [] := by
      intro short
      rw [requests_nil short] at length_eq
      rw [eq_nil_of_length_eq_zero length_eq]
      rfl
    have parsed_first := parsed _ rest_nil
    refine ⟨by simp [length_eq], extended.trans later_extended, ?_, event :: events,
      .cons agrees agree, fun fuel enough => ?_⟩
    · simp only [map_cons, flatten_cons, length_append, src_eq, length_cons]
      omega
    · obtain ⟨fuel, rfl⟩ : ∃ less, fuel = less + 1 := ⟨fuel - 1, by simp at enough; omega⟩
      obtain ⟨_, -, rfl, -⟩ := agrees
      rw [map_cons, flatten_cons]
      rw [src_eq, cons_append] at parsed_first ⊢
      rw [parseLoop, parsed_first]
      simp only
      rw [later_parsed _ (by simpa using enough)]

/-- Packets created on one writer, the 1-RTT packet last, are found again by `parse_packets`, in
order and without an error, and their ranges make up what was written. -/
theorem parsePackets_createPackets {start final : Buffer}
    (created : createPackets tagLen requests start = some (final, packets)) :
    packets.length = requests.length ∧
      final.written = start.written ++ (packets.map src).flatten ∧
      ∃ events, parsePackets tagLen isStatelessReset getDstIDLen
          (packets.map src).flatten = (events, true) ∧
        List.Forall₂ (fun made => Agrees tagLen made.1 made.2) (requests.zip packets) events := by
  obtain ⟨length_eq, extended, length_le, events, agree, parsed⟩ :=
    parseLoop_createPackets no_reset short_last dst_len created
  exact ⟨length_eq, extended.written_eq, events, parsed _ length_le, agree⟩

end Created

def renderBytes (payload : Bytes) : RenderPayload := fun room _ =>
  if fits : payload.length ≤ room then some ⟨payload, fits⟩ else none

/-- An Initial packet without a token and a 1-RTT packet that fills the buffer. -/
theorem parsePackets_createPackets_two :
    let requests : List Request :=
      [⟨{ type := .initial, version := 1, dstID := [1, 2], srcID := [3], packetNumber := 5 }, 3, false,
          renderBytes [9, 9, 9]⟩,
        ⟨{ type := .oneRTT, dstID := [1, 2], packetNumber := 300 }, 3, true, renderBytes [8]⟩]
    let start := Buffer.ofBytes (List.replicate 100 0)
    ∃ final packets events, createPackets 16 requests start = some (final, packets) ∧
      final.written = (packets.map src).flatten ∧
      parsePackets 16 (fun _ _ => false) (fun _ => some 2) final.written = (events, true) ∧
      List.Forall₂ (fun made => Agrees 16 made.1 made.2) (requests.zip packets) events := by
  intro requests start
  have made : (createPackets 16 requests start).isSome := by decide +kernel
  obtain ⟨⟨final, packets⟩, created⟩ := Option.isSome_iff_exists.1 made
  obtain ⟨-, written, events, parsed, agree⟩ := @parsePackets_createPackets 16 _
    (fun _ => some 2) _ _ (fun _ _ => rfl) (by decide) (by simp [requests]) _ _ created
  exact ⟨final, packets, events, created, written, written ▸ parsed, agree⟩

/-- The header of an Initial packet with a token of three bytes is read three bytes too short. -/
theorem headLen_lacks_token :
    (createPacket { type := .initial, version := 1, token := [7, 7, 7], packetNumber := 5 } 3 16 false
        (renderBytes [9]) (.ofBytes (replicate 60 0))).map
      (fun made => (made.2.headLen, (LongPacketPlain.parse .initial 16 made.2.src).map
        fun parsed => (parsed.1.token, parsed.1.headLen .initial))) =
      some (12, some ([7, 7, 7], 9)) := by
  decide +kernel

end Futils.Quic.Packet
