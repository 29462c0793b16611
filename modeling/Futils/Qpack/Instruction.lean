import Futils.Qpack.Fields

/-!
# QPACK instructions

The encoder tells the decoder which entries it inserts; the decoder tells the encoder which sections
it has read.
-/

namespace Futils.Qpack

open Hpack FieldDecodeContext List

open Hpack (Header HpackError encodeInteger encodeString decodeInteger decodeString)
open Lib.Incremental

/-- The answer of an HPACK primitive as one of QPACK. -/
def ofHpack {α : Type} (result : Except HpackError α) : Except QpackError α :=
  result.mapError convertHpackError

namespace Encoder

inductive Instruction where
  | undefined
  | dynTableCapacity
  | insertWithNameRef
  | insertWithLiteralName
  | duplicate
  deriving DecidableEq

namespace Instruction

def mask : Instruction → Nat
  | dynTableCapacity | duplicate => 0xE0
  | insertWithNameRef => 0x80
  | insertWithLiteralName => 0xC0
  | undefined => 0

/-- `match` -/
def pattern : Instruction → Nat
  | dynTableCapacity => 0x20
  | duplicate => 0x00
  | insertWithNameRef => 0x80
  | insertWithLiteralName => 0x40
  | undefined => 0xFF

end Instruction

def getIstr (top : UInt8) : Instruction :=
  let is (istr : Instruction) : Bool := istr.mask &&& top.toNat == istr.pattern
  if is .insertWithNameRef then .insertWithNameRef
  else if is .insertWithLiteralName then .insertWithLiteralName
  else if is .dynTableCapacity then .dynTableCapacity
  else if is .duplicate then .duplicate
  else .undefined

def renderCapacity (capacity : Nat) : Except QpackError Bytes :=
  ofHpack (encodeInteger 5 capacity Instruction.dynTableCapacity.pattern)

def renderDuplicate (index : Nat) : Except QpackError Bytes :=
  ofHpack (encodeInteger 5 index Instruction.duplicate.pattern)

def renderInsertIndexLiteral (index : Nat) (isStatic : Bool) (value : Bytes) :
    Except QpackError Bytes := do
  let name ← ofHpack (encodeInteger 6 index
    (Instruction.insertWithNameRef.pattern ||| (if isStatic then 0x40 else 0)))
  let literal ← ofHpack (encodeString 7 value 0 0x80)
  .ok (name ++ literal)

def renderInsertLiteral (head value : Bytes) : Except QpackError Bytes := do
  let name ← ofHpack (encodeString 5 head Instruction.insertWithLiteralName.pattern 0x20)
  let literal ← ofHpack (encodeString 7 value 0 0x80)
  .ok (name ++ literal)

/-- An insertion whose failure `parse_instruction` does not look at. -/
def insertField (dec : FieldDecodeContext) (entry : Header) : FieldDecodeContext :=
  match dec.addField entry.1 entry.2 with
  | .ok dec => dec
  | .error _ => dec

/-- The name an insertion refers to. -/
def referredName (dec : FieldDecodeContext) (isStatic : Bool) (nameIndex : Nat) :
    Except QpackError Bytes :=
  if isStatic then
    match predefinedHeaders[nameIndex]? with
    | none => .error .invalidStaticTableRef
    | some entry => .ok entry.1
  else
    match dec.findRef (dec.toAbs nameIndex) with
    | none => .error .noEntryForIndex
    | some entry => .ok entry.1

/-- `encoder::parse_instruction` once the first byte has told the kind of the instruction. -/
def parseKind (dec : FieldDecodeContext) (istr : Instruction) (input : Bytes) :
    Except QpackError (FieldDecodeContext × Bytes) :=
  match istr with
  | .undefined => .error .undefinedInstruction
  | .dynTableCapacity => do
    let ((capacity, _), rest) ← ofHpack (decodeInteger 5 input)
    match dec.updateCapacity capacity with
    | none => .error .largeCapacity
    | some dec => .ok (dec, rest)
  | .insertWithNameRef => do
    let ((nameIndex, mask), rest) ← ofHpack (decodeInteger 6 input)
    let head ← referredName dec (mask &&& 0x40 != 0) nameIndex
    let ((value, _), rest) ← ofHpack (decodeString 7 0x80 rest)
    .ok (insertField dec (head, value), rest)
  | .insertWithLiteralName => do
    let ((head, _), rest) ← ofHpack (decodeString 5 0x20 input)
    let ((value, _), rest) ← ofHpack (decodeString 7 0x80 rest)
    .ok (insertField dec (head, value), rest)
  | .duplicate => do
    let ((index, _), rest) ← ofHpack (decodeInteger 5 input)
    match dec.findRef (dec.toAbs index) with
    | none => .error .noEntryForIndex
    | some entry => .ok (insertField dec entry, rest)

def parseInstruction (dec : FieldDecodeContext) (input : Bytes) :
    Except QpackError (FieldDecodeContext × Bytes) :=
  match input with
  | [] => .error .inputLength
  | top :: _ => parseKind dec (getIstr top) input

theorem stable_ofHpack {α : Type} {read : Bytes → Except HpackError (α × Bytes)}
    (stable : Stable .inputLength read) :
    Stable QpackError.inputLength fun input => ofHpack (read input) := by
  refine .of_answer fun input more => ?_
  rcases stable.answer input more with early | same
  · exact .inl (by rw [early]; rfl)
  · rw [same]
    cases read input <;> exact .inr rfl

theorem stable_parseKind (dec : FieldDecodeContext) (istr : Instruction) :
    Stable .inputLength (parseKind dec istr) := by
  have integer (n : Nat) := stable_ofHpack (stable_decodeInteger n)
  have string (n flag : Nat) := stable_ofHpack (stable_decodeString n flag)
  have value (head : Bytes) : Stable QpackError.inputLength fun rest =>
      ofHpack (decodeString 7 0x80 rest) >>= fun item =>
        .ok (insertField dec (head, item.1.1), item.2) :=
    .bind (f := fun value rest => .ok (insertField dec (head, value.1), rest)) (string 7 _)
      fun value => .pure _
  cases istr with
  | undefined => exact .fail _
  | dynTableCapacity =>
    refine .bind (f := fun capacity rest =>
      match dec.updateCapacity capacity.1 with
      | none => .error .largeCapacity
      | some dec => .ok (dec, rest)) (integer 5) fun capacity => ?_
    cases dec.updateCapacity capacity.1 with
    | none => exact .fail _
    | some dec => exact .pure dec
  | insertWithNameRef =>
    refine .bind (f := fun name rest =>
      referredName dec (name.2 &&& 0x40 != 0) name.1 >>= fun head =>
        ofHpack (decodeString 7 _ rest) >>= fun item =>
          .ok (insertField dec (head, item.1.1), item.2)) (integer 6) fun name => ?_
    cases referredName dec (name.2 &&& 0x40 != 0) name.1 with
    | error error => exact .fail error
    | ok head => exact value head
  | insertWithLiteralName =>
    exact .bind (f := fun head rest => ofHpack _ >>= fun item =>
      .ok _) (string 5 _) fun head => value _
  | duplicate =>
    refine .bind (f := fun index rest =>
      match dec.findRef (dec.toAbs index.1) with
      | none => .error .noEntryForIndex
      | some entry => .ok (insertField dec entry, rest)) (integer 5) fun index => ?_
    cases dec.findRef (dec.toAbs index.1) with
    | none => exact .fail _
    | some entry => exact .pure _

theorem ofHpack_eq_ok {α : Type} {result : Except HpackError α} {value : α}
    (ok : ofHpack result = .ok value) : result = .ok value := by
  cases result with
  | error => cases ok
  | ok other => cases ok; rfl

theorem length_parseKind {dec after : FieldDecodeContext} {istr : Instruction} {input rest : Bytes}
    (parsed : parseKind dec istr input = .ok (after, rest)) : rest.length < input.length := by
  -- the value of an inserted entry only shortens what the name has left over
  have value {left : Bytes} {head : Bytes}
      (read : (ofHpack (decodeString 7 0x80 left) >>= fun item =>
        .ok (insertField dec (head, item.1.1), item.2)) = .ok (after, rest)) :
      rest.length < left.length := by
    obtain ⟨⟨⟨_, _⟩, _⟩, string, read⟩ := bind_eq_ok.1 read
    cases read
    exact length_decodeString (ofHpack_eq_ok string)
  cases istr with
  | undefined => cases parsed
  | dynTableCapacity =>
    obtain ⟨⟨⟨_, _⟩, _⟩, integer, parsed⟩ := bind_eq_ok.1 parsed
    simp only at parsed
    split at parsed
    · cases parsed
    cases parsed
    exact length_decodeInteger (ofHpack_eq_ok integer)
  | insertWithNameRef =>
    obtain ⟨⟨⟨_, _⟩, _⟩, integer, parsed⟩ := bind_eq_ok.1 parsed
    obtain ⟨_, -, parsed⟩ := bind_eq_ok.1 parsed
    exact (value parsed).trans (length_decodeInteger (ofHpack_eq_ok integer))
  | insertWithLiteralName =>
    obtain ⟨⟨⟨_, _⟩, _⟩, string, parsed⟩ := bind_eq_ok.1 parsed
    exact (value parsed).trans (length_decodeString (ofHpack_eq_ok string))
  | duplicate =>
    obtain ⟨⟨⟨_, _⟩, _⟩, integer, parsed⟩ := bind_eq_ok.1 parsed
    simp only at parsed
    split at parsed
    · cases parsed
    cases parsed
    exact length_decodeInteger (ofHpack_eq_ok integer)

/-- The encoder stream can be read however it is cut into pieces. -/
theorem reader_parseInstruction : Reader .inputLength parseInstruction where
  stable dec := .of_answer fun input more => by
    match input with
    | [] => exact .inl rfl
    | top :: input => exact (stable_parseKind dec (getIstr top)).answer (top :: input) more
  progress {dec input after rest} parsed := by
    match input with
    | [] => cases parsed
    | top :: input => exact length_parseKind parsed

/-- Bytes that make the decoder go from one context to another. -/
def Instructs (dec : FieldDecodeContext) (bytes : Bytes) (after : FieldDecodeContext) : Prop :=
  ∀ rest, parseInstruction dec (bytes ++ rest) = .ok (after, rest)

section Kinds

open Hpack (prefixMask)

theorem getIstr_capacity : ∀ low ≤ prefixMask 5,
    getIstr (UInt8.ofNat (Instruction.dynTableCapacity.pattern ||| low)) = .dynTableCapacity := by
  decide

theorem getIstr_duplicate : ∀ low ≤ prefixMask 5,
    getIstr (UInt8.ofNat (Instruction.duplicate.pattern ||| low)) = .duplicate := by
  decide

theorem getIstr_static : ∀ low ≤ prefixMask 6,
    getIstr (UInt8.ofNat (Instruction.insertWithNameRef.pattern ||| 0x40 ||| low)) =
      .insertWithNameRef := by
  decide

theorem getIstr_literal : ∀ low ≤ prefixMask 5,
    getIstr (UInt8.ofNat (Instruction.insertWithLiteralName.pattern ||| low)) =
        .insertWithLiteralName ∧
      getIstr (UInt8.ofNat ((Instruction.insertWithLiteralName.pattern ||| 0x20) ||| low)) =
        .insertWithLiteralName := by
  decide

end Kinds

variable {dec : FieldDecodeContext}

theorem instructs_capacity {capacity : Nat} (fits : Hpack.Representable 5 capacity)
    (allowed : capacity ≤ dec.track.maxCapacity) (used : dec.track.usage ≤ capacity) :
    ∃ bytes, renderCapacity capacity = .ok bytes ∧
      Instructs dec bytes { dec with track := { dec.track with capacity := capacity } } := by
  obtain ⟨-, encoded, ⟨low, _, small, rfl⟩, decodes⟩ :=
    @encodeInteger_spec 5 _ Instruction.dynTableCapacity.pattern (by decide) fits
  refine ⟨_, by rw [renderCapacity, encoded]; rfl, fun rest => ?_⟩
  have decoded := decodes rest
  have updated : dec.updateCapacity capacity =
      some { dec with track := { dec.track with capacity := capacity } } := by
    rw [updateCapacity, if_neg (not_lt.2 allowed),
      dropUsage_of_fits]
    exact used
  rw [cons_append] at decoded ⊢
  simp only [parseInstruction, getIstr_capacity low small, parseKind, decoded, ofHpack,
    Except.mapError, bind, Except.bind, updated]

theorem instructs_duplicate {entry : Header} (oldest : dec.decQue[0]? = some entry)
    (inserted : dec.track.inserted = dec.decQue.length) (dropped : dec.track.dropped = 0)
    (bounded : dec.track.inserted < 2 ^ 64) :
    ∃ bytes, renderDuplicate 0 = .ok bytes ∧ Instructs dec bytes (insertField dec entry) := by
  obtain ⟨-, encoded, ⟨low, _, small, rfl⟩, decodes⟩ :=
    @encodeInteger_spec 5 0 Instruction.duplicate.pattern (by decide) (by decide)
  refine ⟨_, by rw [renderDuplicate, encoded]; rfl, fun rest => ?_⟩
  have decoded := decodes rest
  have positive : 0 < dec.track.inserted := by
    rw [inserted]
    exact length_pos_iff.2 fun empty => by simp [empty] at oldest
  have abs : dec.toAbs 0 = dec.track.inserted - 1 := by
    rw [toAbs, add64_of_lt (by omega), Nat.zero_add, sub64_of_le (by omega)]
  have found : dec.findRef (dec.toAbs 0) = some entry := by
    rw [abs, findRef, Track.absToRel, if_neg (by omega)]
    simpa using oldest
  rw [cons_append] at decoded ⊢
  simp only [parseInstruction, getIstr_duplicate low small, parseKind, decoded, ofHpack,
    Except.mapError, bind, Except.bind, found]

theorem instructs_insertStatic {index : Nat} {entry : Header} {value : Bytes}
    (static : predefinedHeaders[index]? = some entry)
    (fits : Hpack.Representable 7 (encodedLength value)) :
    ∃ bytes, renderInsertIndexLiteral index true value = .ok bytes ∧
      Instructs dec bytes (insertField dec (entry.1, value)) := by
  have small := lt_of_predefinedHeaders static
  obtain ⟨-, nameEncoded, ⟨low, _, lowSmall, rfl⟩, nameDecodes⟩ :=
    @encodeInteger_spec 6 index (Instruction.insertWithNameRef.pattern ||| 0x40) (by decide)
      (representable_of_lt (by omega))
  obtain ⟨literal, _, encoded, string⟩ := @encodeString_spec 7 0 0x80 _ (by decide) fits
  refine ⟨_ ++ literal, by
    rw [renderInsertIndexLiteral, if_pos rfl, nameEncoded, encoded]; rfl, fun rest => ?_⟩
  have nameDecoded := nameDecodes (literal ++ rest)
  have referred : referredName dec
      ((Instruction.insertWithNameRef.pattern ||| 0x40) &&& 0x40 != 0) index = .ok entry.1 := by
    rw [referredName, if_pos (by decide), static]
  rw [append_assoc]
  rw [cons_append] at nameDecoded ⊢
  simp only [parseInstruction, getIstr_static low lowSmall, parseKind, nameDecoded, ofHpack,
    Except.mapError, bind, Except.bind, referred, string.decodes _]

theorem instructs_insertLiteral {head value : Bytes}
    (headFits : Hpack.Representable 5 (encodedLength head))
    (valueFits : Hpack.Representable 7 (encodedLength value)) :
    ∃ bytes, renderInsertLiteral head value = .ok bytes ∧
      Instructs dec bytes (insertField dec (head, value)) := by
  obtain ⟨name, nameMask, nameEncoded, nameString⟩ := @encodeString_spec 5
    Instruction.insertWithLiteralName.pattern 0x20 _ (by decide) headFits
  obtain ⟨literal, _, encoded, string⟩ := @encodeString_spec 7 0 0x80 _ (by decide) valueFits
  refine ⟨name ++ literal, by rw [renderInsertLiteral, nameEncoded, encoded]; rfl,
    fun rest => ?_⟩
  obtain ⟨low, _, small, rfl⟩ := nameString.first
  have kind : getIstr (UInt8.ofNat (nameMask ||| low)) = .insertWithLiteralName := by
    obtain rfl | rfl := nameString.flagged
    · exact (getIstr_literal low small).1
    · exact (getIstr_literal low small).2
  have nameDecoded := nameString.decodes (literal ++ rest)
  rw [append_assoc]
  rw [cons_append] at nameDecoded ⊢
  simp only [parseInstruction, kind, parseKind, nameDecoded, ofHpack, Except.mapError, bind,
    Except.bind, string.decodes _]

end Encoder

namespace Decoder

inductive Instruction where
  | undefined
  | sectionAck
  | streamCancel
  | increment
  deriving DecidableEq

namespace Instruction

def mask : Instruction → Nat
  | sectionAck => 0x80
  | streamCancel | increment => 0xC0
  | undefined => 0

/-- `match` -/
def pattern : Instruction → Nat
  | sectionAck => 0x80
  | streamCancel => 0x40
  | increment => 0x00
  | undefined => 0xff

end Instruction

def getIstr (top : UInt8) : Instruction :=
  let is (istr : Instruction) : Bool := istr.mask &&& top.toNat == istr.pattern
  if is .sectionAck then .sectionAck
  else if is .streamCancel then .streamCancel
  else if is .increment then .increment
  else .undefined

def renderInstruction (istr : Instruction) (value : Nat) : Except QpackError Bytes :=
  match istr with
  | .undefined => .error .undefinedInstruction
  | .sectionAck => ofHpack (encodeInteger 7 value Instruction.sectionAck.pattern)
  | .streamCancel => ofHpack (encodeInteger 6 value Instruction.streamCancel.pattern)
  | .increment =>
    if value = 0 then .error .invalidIncrement
    else ofHpack (encodeInteger 6 value Instruction.increment.pattern)

/-- What an operation of the encoder context answers, in front of the rest of the stream. -/
def answer (result : FieldEncodeContext × Option QpackError) (rest : Bytes) :
    FieldEncodeContext × Except QpackError Bytes :=
  match result with
  | (enc, none) => (enc, .ok rest)
  | (enc, some error) => (enc, .error error)

/-- `decoder::parse_instruction`; the context can change before an error is found. -/
def parseInstruction (enc : FieldEncodeContext) (input : Bytes) :
    FieldEncodeContext × Except QpackError Bytes :=
  match input with
  | [] => (enc, .error .inputLength)
  | top :: _ =>
    match getIstr top with
    | .undefined => (enc, .error .undefinedInstruction)
    | .sectionAck =>
      match ofHpack (decodeInteger 7 input) with
      | .error error => (enc, .error error)
      | .ok ((id, _), rest) => answer (enc.removeRef id true) rest
    | .streamCancel =>
      match ofHpack (decodeInteger 6 input) with
      | .error error => (enc, .error error)
      | .ok ((id, _), rest) => answer (enc.removeRef id false) rest
    | .increment =>
      match ofHpack (decodeInteger 6 input) with
      | .error error => (enc, .error error)
      | .ok ((incr, _), rest) => answer (enc.increment incr) rest

end Decoder

end Futils.Qpack
