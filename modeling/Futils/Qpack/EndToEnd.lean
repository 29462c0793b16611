import Futils.Qpack.Drafting
import Futils.Lib.Machine

/-!
# QPACK end to end

An encoder writes sections and the instructions they need; a decoder reads the instructions, in
pieces of any size, and the sections; its acknowledgements go back.
-/

namespace Futils.Qpack

open Hpack (Header Representable encodedLength)
open Lib.Incremental Lib.Machine Encoder Decoder Nat SectionPrefix

/-- The decoder's instructions leave the table of the encoder alone. -/
def Untouched (enc after : FieldEncodeContext) : Prop :=
  after.encTable = enc.encTable ∧
    after.track = { enc.track with knownInsertCount := after.track.knownInsertCount }

namespace Untouched

variable {enc middle after : FieldEncodeContext}

theorem refl (enc : FieldEncodeContext) : Untouched enc enc := ⟨rfl, rfl⟩

theorem trans (first : Untouched enc middle) (second : Untouched middle after) :
    Untouched enc after := by
  refine ⟨second.1.trans first.1, ?_⟩
  rw [second.2, first.2]

theorem removeRefs (isAck : Bool) (refs : List Nat) :
    ∀ enc, Untouched enc (FieldEncodeContext.removeRefs isAck enc refs).1 := by
  induction refs with
  | nil => exact refl
  | cons ref refs ih =>
    intro enc
    rw [FieldEncodeContext.removeRefs]
    split
    case isTrue => exact refl enc
    case isFalse => exact trans ⟨rfl, rfl⟩ (ih _)

theorem removeRef (enc : FieldEncodeContext) (id : Nat) (isAck : Bool) :
    Untouched enc (enc.removeRef id isAck).1 := by
  rw [FieldEncodeContext.removeRef]
  split
  case h_1 => exact refl enc
  case h_2 acked _ =>
    have removed := removeRefs isAck acked enc
    split
    case h_1 after error eq => rwa [eq] at removed
    case h_2 after eq =>
      rw [eq] at removed
      exact ⟨removed.1, removed.2⟩

theorem increment (enc : FieldEncodeContext) (incr : Nat) :
    Untouched enc (enc.increment incr).1 := by
  rw [FieldEncodeContext.increment]
  split
  case isTrue => exact refl enc
  case isFalse => exact ⟨rfl, rfl⟩

theorem parseInstruction (enc : FieldEncodeContext) (input : Bytes) :
    Untouched enc (parseInstruction enc input).1 := by
  have answered {result : FieldEncodeContext × Option _} (rest : Bytes)
      (untouched : Untouched enc result.1) : Untouched enc (answer result rest).1 := by
    obtain ⟨_, _ | _⟩ := result <;> exact untouched
  unfold Decoder.parseInstruction
  split
  case h_1 => exact refl enc
  case h_2 top tail =>
    split
    case h_1 => exact refl enc
    case h_2 =>
      split
      case h_1 => exact refl enc
      case h_2 id mask rest _ => exact answered _ (removeRef enc id _)
    case h_3 =>
      split
      case h_1 => exact refl enc
      case h_2 id mask rest _ => exact answered _ (removeRef enc id _)
    case h_4 =>
      split
      case h_1 => exact refl enc
      case h_2 incr mask rest _ => exact answered _ (increment enc _)

theorem decoderStreamLoop (rounds : Nat) :
    ∀ enc stream, Untouched enc (Qpack.decoderStreamLoop rounds enc stream).1 := by
  induction rounds with
  | zero => exact fun enc _ => refl enc
  | succ rounds ih =>
    intro enc stream
    have parsed := parseInstruction enc stream
    rw [Qpack.decoderStreamLoop]
    split
    case h_1 after rest eq =>
      rw [eq] at parsed
      exact parsed.trans (ih _ _)
    case h_2 after eq => rwa [eq] at parsed
    case h_3 after error _ eq => rwa [eq] at parsed

theorem readDecoderStream (enc : FieldEncodeContext) (stream : Bytes) :
    Untouched enc (Qpack.readDecoderStream enc stream).1 := by
  have looped := decoderStreamLoop (stream.length + 1) enc stream
  rw [Qpack.readDecoderStream]
  split
  case h_1 after rest eq => rwa [eq] at looped
  case h_2 after rest error eq => rwa [eq] at looped

theorem coherent (untouched : Untouched enc after) (coherent : Coherent enc) : Coherent after := by
  obtain ⟨table, track⟩ := untouched
  constructor <;> rw [track]
  · rw [table]
    exact coherent.inserted
  · exact coherent.dropped
  · exact coherent.entries
  · exact coherent.fits
  · exact coherent.allowed
  · exact coherent.representable

theorem mirror_eq (untouched : Untouched enc after) (decMax : Nat) :
    mirror decMax after = mirror decMax enc := by
  obtain ⟨table, track⟩ := untouched
  rw [mirror, mirror, table, track]

end Untouched

/-- A finished section, with the headers that were given and the entries it refers to. -/
structure Block where
  id : Nat
  bytes : Bytes
  given : List Header
  refs : List Nat
  sectionPrefix : SectionPrefix

/-- A section that is read back wherever the decoder finds the entries. -/
structure Block.Sound (enc : FieldEncodeContext) (block : Block) (lines : List Line) : Prop where
  encoded : ∀ line ∈ lines,
    EncodedLine block.sectionPrefix.base line.header line.ref line.bytes
  entry : ∀ line ∈ lines, ∀ abs ∈ line.ref, enc.encTable[abs]? = some line.header
  headers : block.given = lines.map Line.header
  refs : block.refs = lines.filterMap Line.ref
  needed : block.sectionPrefix.requiredInsertCount ≤ enc.track.inserted
  base_le : block.sectionPrefix.base ≤ enc.track.inserted
  bytes : ∃ head,
    (block.sectionPrefix.encode enc.track.maxCapacity).render = .ok head ∧
      block.bytes = head ++ lines.flatMap Line.bytes

/-- The decoder counts from the wrong end of its table: the entry of the mirrored index is the same.
-/
def Mirrored (table : List Header) (refs : List Nat) : Prop :=
  ∀ abs ∈ refs, table[table.length - 1 - abs]? = table[abs]?
deriving Decidable

/-- A section with an entry from its base on has the base zero: other bases are read as negative. -/
def Anchored (sectionPrefix : SectionPrefix) : Prop :=
  sectionPrefix.requiredInsertCount ≤ sectionPrefix.base ∨ sectionPrefix.base = 0
deriving Decidable

namespace Block

variable {enc : FieldEncodeContext} {block : Block} {lines : List Line}

theorem Sound.advance {ctx after : Context} {decMax : Nat} (sound : block.Sound ctx.enc lines)
    (coherent : Coherent ctx.enc) (advances : Advances decMax ctx after) :
    block.Sound after.enc lines where
  encoded := sound.encoded
  entry line member abs found :=
    getElem?_of_isPrefix advances.grows (sound.entry _ member abs found)
  headers := sound.headers
  refs := sound.refs
  needed := sound.needed.trans (advances.inserted_le coherent)
  base_le := sound.base_le.trans (advances.inserted_le coherent)
  bytes := by
    rw [advances.sameMax]
    exact sound.bytes

theorem length_le_maxEntries (coherent : Coherent enc) {maxCapacity : Nat}
    (within : enc.track.capacity ≤ maxCapacity) : enc.track.inserted ≤ maxEntries maxCapacity := by
  have entries := coherent.entries
  have fits := coherent.fits
  rw [maxEntries]
  omega

theorem findRef_mirror (decMax : Nat) (coherent : Coherent enc) {abs : Nat} {header : Header}
    (entry : enc.encTable[abs]? = some header)
    (same : enc.encTable[enc.encTable.length - 1 - abs]? = enc.encTable[abs]?) :
    (mirror decMax enc).findRef abs = some header := by
  have within := (List.getElem?_eq_some_iff.1 entry).1
  have inserted := coherent.inserted
  have known : ¬ (abs < 0 ∨ enc.track.inserted ≤ abs) := by omega
  have relative : (mirror decMax enc).track.absToRel abs = some (enc.track.inserted - 1 - abs) :=
    if_neg known
  rw [FieldDecodeContext.findRef, relative]
  show enc.encTable[enc.track.inserted - 1 - abs]? = some header
  rw [inserted, same, entry]

/-- The prefix of a section survives. -/
theorem Sound.decodes {decMax : Nat} (sound : block.Sound enc lines) (coherent : Coherent enc)
    (within : enc.track.capacity ≤ decMax) (fits : decMax < 2 ^ 64)
    (anchored : Anchored block.sectionPrefix) :
    EncodedSectionPrefix.parse block.bytes =
        .ok (block.sectionPrefix.encode enc.track.maxCapacity, lines.flatMap Line.bytes) ∧
      (block.sectionPrefix.encode enc.track.maxCapacity).decode enc.track.inserted decMax =
        .ok block.sectionPrefix := by
  obtain ⟨_, rendered, bytes⟩ := sound.bytes
  have inserted_lt := coherent.inserted_lt
  have needed := sound.needed
  have base_le := sound.base_le
  have encRoom := length_le_maxEntries coherent coherent.allowed
  constructor
  · have countFits : (block.sectionPrefix.encode enc.track.maxCapacity).encodedInsertCount <
        2 ^ 31 := by
      simp only [encode, encodeRequiredInsertCount]
      split
      case isTrue => decide
      case isFalse =>
        have smaller := mod_le block.sectionPrefix.requiredInsertCount
          (maxEntries enc.track.maxCapacity * 2)
        omega
    have deltaFits : (block.sectionPrefix.encode enc.track.maxCapacity).deltaBase < 2 ^ 31 := by
      simp only [encode, encodeDeltaBase]
      split <;> omega
    obtain ⟨_, otherRendered, parses⟩ := render_spec countFits deltaFits
    rw [rendered] at otherRendered
    cases otherRendered
    rw [bytes, parses]
  · exact decode_encode (decodeRequiredInsertCount_encode needed encRoom
      (length_le_maxEntries coherent within) fits rfl) (by omega) (by omega) anchored

/-- A decoder that is in step with the encoder reads the headers that were given. -/
theorem Sound.reads {decMax : Nat} (sound : block.Sound enc lines) (coherent : Coherent enc)
    (within : enc.track.capacity ≤ decMax) (fits : decMax < 2 ^ 64)
    (anchored : Anchored block.sectionPrefix)
    (mirrored : Mirrored enc.encTable block.refs) :
    ∃ fields ack, readHeader (mirror decMax enc) block.id block.bytes = .ok (fields, ack) ∧
      fields.map DecodeField.header = block.given := by
  obtain ⟨parsed, decoded⟩ := sound.decodes coherent within fits anchored
  have found := fun line member abs referred =>
    findRef_mirror decMax coherent (sound.entry _ member abs referred)
      (mirrored abs (by
        rw [sound.refs]
        exact List.mem_filterMap.2 ⟨line, member, referred⟩))
  obtain ⟨fields, used, headers, read⟩ := readLines_spec _ _ [] false sound.encoded found le_rfl
  have enough : ¬ (mirror decMax enc).track.inserted < block.sectionPrefix.requiredInsertCount :=
    not_lt.2 sound.needed
  have acknowledged : ∃ ack, renderInstruction .sectionAck block.id = .ok ack := by
    rw [renderInstruction, Hpack.encodeInteger, if_neg (by decide)]
    split <;> exact ⟨_, rfl⟩
  obtain ⟨ack, rendered⟩ := acknowledged
  have decodedMirror : (block.sectionPrefix.encode enc.track.maxCapacity).decode
      (mirror decMax enc).track.inserted (mirror decMax enc).track.maxCapacity =
        .ok block.sectionPrefix := decoded
  refine ⟨fields, if used then ack else [], ?_, by rw [headers, sound.headers]⟩
  rw [readHeader]
  simp only [parsed, decodedMirror, if_neg enough, read, rendered, bind, Except.bind]
  cases used <;> rfl

end Block

/-- What `finishSection` makes of a section under way. -/
theorem finishSection_spec {ctx : Context} {draft : Section} {given : List Header}
    {lines : List Line} {bytes : Bytes} (coherent : Coherent ctx.enc)
    (base_le : draft.base ≤ ctx.enc.track.inserted)
    (drafted : Drafted ctx.enc.encTable draft given lines)
    (finished : finishSection ctx draft = .ok bytes) :
    Block.Sound ctx.enc ⟨draft.id, bytes, given, draft.refs, draft.sectionPrefix⟩ lines := by
  have inserted := coherent.inserted
  have bytesEq : ∃ head, (draft.sectionPrefix.encode ctx.enc.track.maxCapacity).render = .ok head ∧
      bytes = head ++ lines.flatMap Line.bytes := by
    rw [finishSection] at finished
    split at finished
    · cases finished
    split at finished
    · cases finished
    match rendered : (draft.sectionPrefix.encode ctx.enc.track.maxCapacity).render with
    | .error error => rw [rendered] at finished; cases finished
    | .ok head =>
      rw [rendered] at finished
      cases finished
      exact ⟨head, rfl, by rw [drafted.written]⟩
  have isMax := drafted.isMax
  match maxRef : draft.maxRef with
  | none =>
    rw [maxRef, drafted.refs] at isMax
    have zero : draft.sectionPrefix = ⟨0, 0⟩ := by rw [Section.sectionPrefix, maxRef]
    refine ⟨fun line member => ?_, fun line member => (drafted.sound _ member).entry,
      drafted.headers, drafted.refs, ?_, ?_, bytesEq⟩
    · have unset : line.ref = none := List.filterMap_eq_nil_iff.1 isMax _ member
      exact (drafted.sound _ member).encoded _ (.inl unset)
    · rw [zero]
      exact zero_le _
    · rw [zero]
      exact zero_le _
  | some largest =>
    rw [maxRef] at isMax
    have counted : draft.sectionPrefix = ⟨largest + 1, draft.base⟩ := by
      rw [Section.sectionPrefix, maxRef]
    refine ⟨fun line member => ?_, fun line member => (drafted.sound _ member).entry,
      drafted.headers, drafted.refs, ?_, ?_, bytesEq⟩
    · rw [counted]
      exact (drafted.sound _ member).encoded _ (.inr rfl)
    · rw [counted]
      have member := isMax.1
      rw [drafted.refs] at member
      obtain ⟨line, lineMember, referred⟩ := List.mem_filterMap.1 member
      have entry := (drafted.sound _ lineMember).entry _ referred
      have bound := (List.getElem?_eq_some_iff.1 entry).1
      show largest + 1 ≤ ctx.enc.track.inserted
      omega
    · rw [counted]
      exact base_le

end Futils.Qpack
