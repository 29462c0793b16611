import Futils.Quic.Packet.Header

/-!
# Packet creation

`create_packet` renders a packet at the position of a writer.  The payload of a long packet is
rendered in place: it is written behind room for the longest length field, and moved to the front
when its length is known.
-/

namespace Futils.Quic.Packet

open Binary Lib.BigEndian PacketNumber Buffer Option

/-- `PacketSummary`, without the largest acknowledged packet number. -/
structure PacketSummary where
  type : PacketType
  version : Nat := 0
  dstID : Bytes := []
  srcID : Bytes := []
  token : Bytes := []
  packetNumber : Nat := 0
  keyBit : Bool := false
  spin : Bool := false
  deriving DecidableEq

/-- A payload that fits the room it is rendered in. -/
abbrev Payload (room : Nat) := { payload : Bytes // payload.length ≤ room }

/-- `render_payload`: what it writes into a writer of the given size, or its failure. -/
abbrev RenderPayload := (room : Nat) → WireVal → Option (Payload room)

structure CryptoPacket where
  src : Bytes
  /-- The length of the header up to the packet number. -/
  headLen : Nat
  packetNumber : Nat
  deriving DecidableEq

/-- The parts of an Initial, Handshake or 0-RTT packet up to the packet number.  Only an Initial
packet has a token. -/
structure LongPacketPartial extends LongPacketBase where
  tokenLength : Varint.LenValue := ⟨0, 0⟩
  token : Bytes := []
  length : Varint.LenValue := ⟨0, 0⟩
  deriving DecidableEq

namespace LongPacketPartial

variable (type : LongType) (packet : LongPacketPartial)

/-- `InitialPacketPartial::render` and `HandshakeZeroRTTParital::render`. -/
def render (pnLength : Nat) : Buffer → Option Buffer :=
  match type with
  | .initial =>
    andThen (packet.renderWithPnlen type.toPacketType pnLength)
      (andThen (writeVarint packet.token.length) fun buffer => buffer.write packet.token)
  | .zeroRTT | .handshake => packet.renderWithPnlen type.toPacketType pnLength

/-- `InitialPacketPartial::len` and `HandshakeZeroRTTParital::len`.  The token itself is not
counted. -/
def len (useLengthField : Bool) : Nat :=
  packet.toLongPacketBase.len +
    (match type with
      | .initial =>
        if useLengthField then packet.tokenLength.length
        else Varint.minLen packet.token.length
      | .zeroRTT | .handshake => 0) +
    if useLengthField then packet.length.length else 0

def tokenBytes : Bytes :=
  match type with
  | .initial => Varint.encode packet.token.length (Varint.minLen packet.token.length) ++ packet.token
  | .zeroRTT | .handshake => []

end LongPacketPartial

/-- `LongPacketPlainBase::render_in_place`, without padding in front of the payload; also the length
of the payload. -/
def renderInPlace (header : Buffer → Option Buffer) (wire : WireVal) (tagLen : Nat)
    (render : (room : Nat) → Option (Payload room)) (buffer : Buffer) : Option (Buffer × Nat) :=
  (header buffer).bind fun buffer =>
    let max := Varint.minLen buffer.remain.length
    let reserved := max + wire.len + tagLen
    if max < Varint.minLen (wire.len + tagLen) then none
    else if room : buffer.remain.length < reserved then none
    else
      match render (buffer.remain.length - reserved) with
      | none => none
      | some ⟨payload, fits⟩ =>
        let length := wire.len + payload.length + tagLen
        (andThen (writeVarint length) (writePacketNumber wire)
          (buffer.place reserved payload (by omega))).bind fun front =>
            -- The payload moves over what was reserved in vain.
            (front.shift buffer.index (Varint.minLen length + wire.len) reserved
              payload.length).bind fun moved =>
                ((moved.advance payload.length).fill 0 tagLen).map fun next =>
                  (next, payload.length)

/-- `OneRTTPacketPartial::render`. -/
def renderShort (version : Nat) (dstID : Bytes) (pnLength : Nat) (keyBit spin : Bool)
    (buffer : Buffer) : Option Buffer :=
  let flags := makePacketFlags version .oneRTT pnLength spin keyBit
  if flags.value = 0 then none
  else
    andThen (fun buffer => buffer.write [flags.value]) (fun buffer => buffer.write dstID)
      buffer

/-- `OneRTTPacketPlain::render_in_place`, without padding in front of the payload. -/
def renderShortInPlace (header : Buffer → Option Buffer) (wire : WireVal) (tagLen : Nat)
    (render : (room : Nat) → Option (Payload room)) (buffer : Buffer) : Option (Buffer × Nat) :=
  (andThen header (writePacketNumber wire) buffer).bind fun buffer =>
    if buffer.remain.length < tagLen then none
    else
      match render (buffer.remain.length - tagLen) with
      | none => none
      | some ⟨payload, fits⟩ =>
        ((buffer.put payload (by omega)).fill 0 tagLen).map fun next => (next, payload.length)

/-- `with_padding` in `create_packet`. -/
def withPadding (useFull : Bool) (render : RenderPayload) (wire : WireVal) (room : Nat) :
    Option (Payload room) :=
  (render room wire).map fun payload =>
    if useFull then
      ⟨payload.val ++ List.replicate (room - payload.val.length) 0, by
        have fits := payload.property
        simp only [List.length_append, List.length_replicate]
        omega⟩
    else payload

/-- `get_crypto_packet` in `create_packet`. -/
def getCryptoPacket (summary : PacketSummary) (wire : WireVal) (tagLen offset : Nat)
    (rendered : Buffer × Nat) : Buffer × CryptoPacket :=
  let src := rendered.1.written.drop offset
  (rendered.1,
    { src := src
      headLen := src.length - rendered.2 - tagLen - wire.len
      packetNumber := summary.packetNumber })

def LongType.ofPacketType : PacketType → Option LongType
  | .initial => some .initial
  | .zeroRTT => some .zeroRTT
  | .handshake => some .handshake
  | _ => none

/-- The fields of a long packet that `create_packet` sets. -/
def PacketSummary.partialPacket (summary : PacketSummary) : LongType → LongPacketPartial
  | .initial =>
    { version := summary.version, dstID := summary.dstID, srcID := summary.srcID,
      token := summary.token }
  | .zeroRTT | .handshake =>
    { version := summary.version, dstID := summary.dstID, srcID := summary.srcID }

def createPacket (summary : PacketSummary) (largestAcked tagLen : Nat) (useFull : Bool)
    (render : RenderPayload) (buffer : Buffer) : Option (Buffer × CryptoPacket) :=
  match encode summary.packetNumber largestAcked with
  | none => none
  | some wire =>
    match LongType.ofPacketType summary.type with
    | some type =>
      (renderInPlace ((summary.partialPacket type).render type wire.len) wire tagLen
        (withPadding useFull render wire) buffer).map
          (getCryptoPacket summary wire tagLen buffer.index)
    | none =>
      if summary.type = .oneRTT then
        (renderShortInPlace
          (renderShort summary.version summary.dstID wire.len summary.keyBit summary.spin) wire
          tagLen (withPadding useFull render wire) buffer).map
            (getCryptoPacket summary wire tagLen buffer.index)
      else none

section Images

/-- The length field, the packet number, the payload and the tag of a long packet. -/
def longBody (wire : WireVal) (payload : Bytes) (tagLen : Nat) : Bytes :=
  let length := wire.len + payload.length + tagLen
  Varint.encode length (Varint.minLen length) ++
    (toBytes wire.len wire.value ++ (payload ++ List.replicate tagLen 0))

/-- The packet number, the payload and the tag of a short packet. -/
def shortBody (wire : WireVal) (payload : Bytes) (tagLen : Nat) : Bytes :=
  toBytes wire.len wire.value ++ (payload ++ List.replicate tagLen 0)

variable {header : Buffer → Option Buffer} {headerBytes : Bytes} {wire : WireVal} {tagLen : Nat}
  {render : (room : Nat) → Option (Payload room)} {buffer next : Buffer} {payloadLen : Nat}

theorem renderInPlace_some (appends : Buffer.Appends header headerBytes)
    (rendered : renderInPlace header wire tagLen render buffer = some (next, payloadLen)) :
    ∃ room, ∃ payload : Payload room, render room = some payload ∧
      payloadLen = payload.val.length ∧ wire.len + payload.val.length + tagLen < 2 ^ 62 ∧
      (∃ start, header buffer = some start) ∧
      Buffer.Extends buffer (headerBytes ++ longBody wire payload.val tagLen) next := by
  obtain ⟨start, header_rendered, rendered⟩ := bind_eq_some_iff.1 rendered
  obtain ⟨header_room, rfl⟩ := appends _ _ header_rendered
  have header_extends := extends_put header_room
  generalize buffer.put headerBytes header_room = start at *
  simp only at rendered
  split at rendered
  · cases rendered
  rename_i min_le
  split at rendered
  · cases rendered
  split at rendered
  · cases rendered
  rename_i payload fits rendered_payload
  obtain ⟨front, front_rendered, rendered⟩ := bind_eq_some_iff.1 rendered
  obtain ⟨_, shifted, rendered⟩ := bind_eq_some_iff.1 rendered
  obtain ⟨_, filled, pair_eq⟩ := map_eq_some_iff.1 rendered
  cases pair_eq
  have bound : wire.len + payload.length + tagLen < 2 ^ 62 := by
    obtain ⟨_, length_written, -⟩ := bind_eq_some_iff.1 front_rendered
    exact lt_of_writeVarint length_written
  obtain ⟨front_room, rfl⟩ :=
    ((appends_writeVarint _).andThen (appends_writePacketNumber _)) _ _ front_rendered
  -- The length field takes at most the bytes that were reserved for it.
  have len_le : Varint.minLen (wire.len + payload.length + tagLen) ≤
      Varint.minLen start.remain.length := by
    have positive := Varint.minLen_pos (show wire.len + tagLen < 2 ^ 62 by omega)
    have small : start.remain.length < 2 ^ 62 := by
      by_contra large
      rw [Varint.minLen_of_le (not_lt.1 large)] at min_le
      omega
    exact Varint.minLen_mono (by omega) small
  have front_length : (Varint.encode (wire.len + payload.length + tagLen)
      (Varint.minLen (wire.len + payload.length + tagLen)) ++
        toBytes wire.len wire.value).length =
          Varint.minLen (wire.len + payload.length + tagLen) + wire.len := by
    simp
  rw [← front_length] at shifted
  have in_place := extends_shift _ (by omega) _ shifted
  obtain ⟨tag_room, rfl⟩ := appends_write _ _ _ filled
  have all := header_extends.trans (in_place.trans (extends_put tag_room))
  refine ⟨_, ⟨payload, fits⟩, rendered_payload, rfl, bound, ⟨_, header_rendered⟩, ?_⟩
  simpa [longBody] using all

theorem renderShortInPlace_some (appends : Buffer.Appends header headerBytes)
    (rendered : renderShortInPlace header wire tagLen render buffer = some (next, payloadLen)) :
    ∃ room, ∃ payload : Payload room, render room = some payload ∧
      payloadLen = payload.val.length ∧ (∃ start, header buffer = some start) ∧
      Buffer.Extends buffer (headerBytes ++ shortBody wire payload.val tagLen) next := by
  obtain ⟨start, header_rendered, rendered⟩ := bind_eq_some_iff.1 rendered
  obtain ⟨header_room, rfl⟩ := (appends.andThen (appends_writePacketNumber _)) _ _ header_rendered
  have header_extends := extends_put header_room
  generalize buffer.put (headerBytes ++ toBytes wire.len wire.value) header_room = start at *
  split at rendered
  · cases rendered
  split at rendered
  · cases rendered
  rename_i payload fits rendered_payload
  obtain ⟨_, filled, pair_eq⟩ := map_eq_some_iff.1 rendered
  cases pair_eq
  obtain ⟨tag_room, rfl⟩ := appends_write _ _ _ filled
  have all := header_extends.trans
    ((extends_put _).trans (extends_put tag_room))
  obtain ⟨middle, header_done, -⟩ := bind_eq_some_iff.1 header_rendered
  refine ⟨_, ⟨payload, fits⟩, rendered_payload, rfl, ⟨middle, header_done⟩, ?_⟩
  simpa [shortBody] using all

end Images

end Futils.Quic.Packet
