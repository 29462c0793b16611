import Futils.Qpack.FieldLine

/-!
# QPACK contexts

`write_header` hands its callback two functions, `add_entry` and `add_field`; it is modelled by the
section they work on, from `beginSection` to `finishSection`.
-/

namespace Futils.Qpack

open Hpack (Header)
open Lib.Incremental

/-- What a field may be written as, the low byte of `FieldPolicy`. -/
inductive Prior where
  | priorStatic
  | priorDynamic
  | priorIndex
  | forceLiteral
  | noDynamic
  | other
  deriving DecidableEq

structure FieldPolicy where
  prior : Prior
  maybeInsert : Bool
  mustForwardAsLiteral : Bool
  deriving DecidableEq

/-- The part of `Context` that writes. -/
structure Context where
  enc : FieldEncodeContext
  encSendStream : Bytes
  expiresDelta : Nat

/-- How an insertion ends: there is no room, or the entry has been added, or writing it failed. -/
inductive Attempt where
  | blocked
  | added (ref : Nat)
  | failed (error : QpackError)
  deriving DecidableEq

/-- The loop of `drop_until_add`: the index of the entry unless dropping entries made no room. -/
def dropUntilAdd (key value : Bytes) (stopDrop : FieldEncodeContext → Bool) :
    Nat → FieldEncodeContext → FieldEncodeContext × Option Nat
  | 0, enc => (enc, none)
  | rounds + 1, enc =>
    if stopDrop enc then (enc, none)
    else
      match enc.addField key value with
      | some (newRef, enc) => (enc, some newRef)
      | none =>
        match enc.dropField with
        | .ok enc => dropUntilAdd key value stopDrop rounds enc
        | .error _ => (enc, none)

namespace Context

variable (ctx : Context) (key value : Bytes)

def isExpired (index : Nat) : Bool :=
  decide (sub64 index ctx.enc.track.dropped < ctx.expiresDelta)

/-- `drop_until_add` with a callback that first writes to the encoder stream. -/
def tryInsert (stopDrop : FieldEncodeContext → Bool)
    (rendered : Except QpackError Bytes) : Context × Attempt :=
  match dropUntilAdd key value stopDrop (ctx.enc.encTable.length + 1) ctx.enc with
  | (enc, none) => ({ ctx with enc := enc }, .blocked)
  | (enc, some newRef) =>
    match rendered with
    | .error error => ({ ctx with enc := enc }, .failed error)
    | .ok bytes =>
      ({ ctx with enc := enc, encSendStream := ctx.encSendStream ++ bytes }, .added newRef)

/-- The next attempt is made when there was no room for the one before. -/
def orElse (before : Context × Attempt) (next : Context → Context × Attempt) :
    Context × Attempt :=
  match before with
  | (ctx, .blocked) => next ctx
  | (ctx, attempt) => (ctx, attempt)

/-- An insertion that repeats the entry `ref`. -/
def tryDuplicate : Option Nat → Context × Attempt
  | none => (ctx, .blocked)
  | some ref =>
    ctx.tryInsert key value (fun enc => decide (ref < enc.track.dropped))
      (Encoder.renderDuplicate ref)

/-- An insertion that takes its name from the static table. -/
def tryStaticName : Option Nat → Context × Attempt
  | none => (ctx, .blocked)
  | some index =>
    ctx.tryInsert key value (fun _ => false) (Encoder.renderInsertIndexLiteral index true value)

/-- An insertion that takes its name from the dynamic table; the index it writes is the one of
`head_value`. -/
def tryDynamicName (refs : Reference) : Context × Attempt :=
  match refs.head with
  | none => (ctx, .blocked)
  | some ref =>
    ctx.tryInsert key value (fun enc => decide (ref < enc.track.dropped))
      (Encoder.renderInsertIndexLiteral (refs.headValue.getD max64) false value)

/-- An insertion that spells the name and the value out. -/
def tryLiteral : Context × Attempt :=
  ctx.tryInsert key value (fun _ => false) (Encoder.renderInsertLiteral key value)

def updateCapacity (ctx : Context) (capa : Nat) : Context × Option QpackError :=
  match ctx.enc.updateCapacity capa with
  | .error error => (ctx, some error)
  | .ok enc =>
    match Encoder.renderCapacity capa with
    | .error error => ({ ctx with enc := enc }, some error)
    | .ok bytes => ({ ctx with enc := enc, encSendStream := ctx.encSendStream ++ bytes }, none)

def addEntry (head value : Bytes) : Context × Option QpackError :=
  let sRefs := findStaticRef head value
  if sRefs.headValue ≠ none then (ctx, none)
  else
    let dRefs := ctx.enc.findRef head value
    let result :=
      orElse (orElse (orElse (ctx.tryDuplicate head value dRefs.headValue)
        (·.tryStaticName head value sRefs.head))
        (·.tryDynamicName head value dRefs))
        (·.tryLiteral head value)
    match result with
    | (ctx, .blocked) => (ctx, some .dynamicRefExists)
    | (ctx, .added _) => (ctx, none)
    | (ctx, .failed error) => (ctx, some error)

end Context

/-- What `write_header` keeps while its callback runs; `refs` are the indices given to `add_ref`. -/
structure Section where
  id : Nat
  base : Nat
  written : Bytes := []
  maxRef : Option Nat := none
  refs : List Nat := []
  err : Option QpackError := none
  deriving DecidableEq

variable (ctx : Context) (draft : Section) (key value : Bytes)

/-- A field line that refers to no entry of the dynamic table. -/
def put (rendered : Except QpackError Bytes) : Context × Section :=
  match rendered with
  | .error error => (ctx, { draft with err := some error })
  | .ok bytes => (ctx, { draft with written := draft.written ++ bytes })

def setMaxRef (maxRef : Option Nat) (ref : Nat) : Option Nat :=
  match maxRef with
  | none => some ref
  | some largest => if largest < ref then some ref else some largest

/-- A field line that refers to the entry `ref`. -/
def refer (ref : Nat) (rendered : Except QpackError Bytes) : Context × Section :=
  match rendered with
  | .error error => (ctx, { draft with err := some error })
  | .ok bytes =>
    let draft := { draft with
      written := draft.written ++ bytes
      maxRef := setMaxRef draft.maxRef ref }
    match ctx.enc.addRef ref draft.id with
    | .error error => (ctx, { draft with err := some error })
    | .ok enc => ({ ctx with enc := enc }, { draft with refs := draft.refs ++ [ref] })

/-- `write_static`; `none` stands for `no_entry_exists`. -/
def writeStatic (policy : FieldPolicy) : Option (Except QpackError Bytes) :=
  let sRefs := findStaticRef key value
  match sRefs.headValue, sRefs.head with
  | some index, _ => some (renderFieldLineIndex index true)
  | none, some index =>
    some (renderFieldLineIndexLiteral index true value policy.mustForwardAsLiteral)
  | none, none => none

/-- An entry that is still to be used as an index. -/
def Context.unexpired (ref : Option Nat) : Option Nat :=
  ref.filter fun index => !ctx.isExpired index

/-- `write_dynamic`: the entry and the line that refers to it. -/
def writeDynamic (base : Nat) (key value : Bytes) (policy : FieldPolicy) :
    Option (Nat × Except QpackError Bytes) :=
  let dRefs := ctx.enc.findRef key value
  match ctx.unexpired dRefs.headValue, ctx.unexpired dRefs.head with
  | some ref, _ => some (ref, renderFieldLineDynamicIndex base ref)
  | none, some ref =>
    some (ref, renderFieldLineDynamicIndexLiteral base ref value policy.mustForwardAsLiteral)
  | none, none => none

/-- `render_field_line_literal` as the last resort of `write_key_value`. -/
def putLiteral (policy : FieldPolicy) : Context × Section :=
  put ctx draft (renderFieldLineLiteral key value policy.mustForwardAsLiteral)

/-- The part of `write_key_value` after no table has the field. -/
def insertOrLiteral (policy : FieldPolicy) : Context × Section :=
  if policy.maybeInsert then
    let dRefs := ctx.enc.findRef key value
    let result :=
      Context.orElse (Context.orElse (ctx.tryDuplicate key value dRefs.headValue)
        (·.tryDynamicName key value dRefs))
        (·.tryLiteral key value)
    match result with
    | (ctx, .blocked) => putLiteral ctx draft key value policy
    | (ctx, .added newRef) =>
      refer ctx draft newRef (renderFieldLineDynamicIndex draft.base newRef)
    | (ctx, .failed error) => (ctx, { draft with err := some error })
  else putLiteral ctx draft key value policy

def writeKeyValue (policy : FieldPolicy) : Context × Section :=
  match policy.prior with
  | .other => (ctx, { draft with err := some .undefinedInstruction })
  | .priorStatic =>
    match writeStatic key value policy, writeDynamic ctx draft.base key value policy with
    | some line, _ => put ctx draft line
    | none, some (ref, line) => refer ctx draft ref line
    | none, none => insertOrLiteral ctx draft key value policy
  | .priorDynamic =>
    match writeDynamic ctx draft.base key value policy, writeStatic key value policy with
    | some (ref, line), _ => refer ctx draft ref line
    | none, some line => put ctx draft line
    | none, none => insertOrLiteral ctx draft key value policy
  | .priorIndex =>
    let sRefs := findStaticRef key value
    let dRefs := ctx.enc.findRef key value
    match sRefs.headValue, ctx.unexpired dRefs.headValue, sRefs.head,
      ctx.unexpired dRefs.head with
    | some index, _, _, _ => put ctx draft (renderFieldLineIndex index true)
    | none, some ref, _, _ => refer ctx draft ref (renderFieldLineDynamicIndex draft.base ref)
    | none, none, some index, _ =>
      put ctx draft
        (renderFieldLineIndexLiteral index true value policy.mustForwardAsLiteral)
    | none, none, none, some ref =>
      refer ctx draft ref
        (renderFieldLineDynamicIndexLiteral draft.base ref value policy.mustForwardAsLiteral)
    | none, none, none, none => insertOrLiteral ctx draft key value policy
  | .forceLiteral => putLiteral ctx draft key value policy
  | .noDynamic =>
    match writeStatic key value policy with
    | some line => put ctx draft line
    | none => putLiteral ctx draft key value policy

/-- `write_header` up to its callback -/
def beginSection (id : Nat) : Section := { id := id, base := ctx.enc.track.inserted }

/-- The `add_field` a callback is given -/
def Section.addField (policy : FieldPolicy) : Context × Section :=
  if draft.err ≠ none then (ctx, draft) else writeKeyValue ctx draft key value policy

/-- The `add_entry` a callback is given; that there is no room is not an error. -/
def Section.addEntry (ctx : Context) (draft : Section) (head value : Bytes) : Context × Section :=
  if draft.err ≠ none then (ctx, draft)
  else
    match ctx.addEntry head value with
    | (ctx, some .dynamicRefExists) => (ctx, draft)
    | (ctx, err) => (ctx, { draft with err := err })

/-- The prefix of a finished section. -/
def Section.sectionPrefix : SectionPrefix :=
  match draft.maxRef with
  | none => ⟨0, 0⟩
  | some ref => ⟨ref + 1, draft.base⟩

/-- `write_header` after its callback -/
def finishSection : Except QpackError Bytes :=
  match draft.err with
  | some error => .error error
  | none =>
    if draft.written = [] then .error .outputLength
    else do
      let bytes ← (draft.sectionPrefix.encode ctx.enc.track.maxCapacity).render
      .ok (bytes ++ draft.written)

/-- The loop of `read_header`: the fields, and whether the dynamic table was used. -/
def readLines (dec : FieldDecodeContext) (base : Nat) :
    Nat → Bytes → List DecodeField → Bool → Except QpackError (List DecodeField × Bool)
  | _, [], fields, used => .ok (fields, used)
  | 0, _ :: _, _, _ => .error .unexpectedError
  | rounds + 1, input, fields, used => do
    let ((field, lineUsed), rest) ← parseFieldLine dec base input
    readLines dec base rounds rest (fields ++ [field]) (used || lineUsed)

/-- `read_header`: the fields, and what is written to the decoder stream. -/
def readHeader (dec : FieldDecodeContext) (id : Nat) (input : Bytes) :
    Except QpackError (List DecodeField × Bytes) := do
  let (encoded, rest) ← EncodedSectionPrefix.parse input
  let sectionPrefix ← encoded.decode dec.track.inserted dec.track.maxCapacity
  if dec.track.inserted < sectionPrefix.requiredInsertCount then .error .headOfBlocking
  else
    let (fields, used) ← readLines dec sectionPrefix.base rest.length rest [] false
    if used then
      let ack ← Decoder.renderInstruction .sectionAck id
      .ok (fields, ack)
    else .ok (fields, [])

/-- `read_encoder_stream`: after an error nothing of the stream is taken away. -/
def readEncoderStream (dec : FieldDecodeContext) (stream : Bytes) :
    FieldDecodeContext × Bytes × Option QpackError :=
  match drain .inputLength Encoder.parseInstruction dec stream with
  | (dec, rest, none) => (dec, rest, none)
  | (dec, _, some error) => (dec, stream, some error)

/-- The loop of `read_decoder_stream` -/
def decoderStreamLoop : Nat → FieldEncodeContext → Bytes →
    FieldEncodeContext × Bytes × Option QpackError
  | 0, enc, stream => (enc, stream, none)
  | rounds + 1, enc, stream =>
    match Decoder.parseInstruction enc stream with
    | (enc, .ok rest) => decoderStreamLoop rounds enc rest
    | (enc, .error .inputLength) => (enc, stream, none)
    | (enc, .error error) => (enc, stream, some error)

def readDecoderStream (enc : FieldEncodeContext) (stream : Bytes) :
    FieldEncodeContext × Bytes × Option QpackError :=
  match decoderStreamLoop (stream.length + 1) enc stream with
  | (enc, rest, none) => (enc, rest, none)
  | (enc, _, some error) => (enc, stream, some error)

end Futils.Qpack
