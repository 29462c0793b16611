import Futils.Http1.ReadContext
import Futils.Lib.Machine

/-!
# What the header fields say about the body

`scan_header` works on positions of the buffer.  Here its effect on the body type is described by the
letters of the field alone, and the description is connected to the function.  The framing of a
message is then a fold over its fields.
-/

namespace Futils.Http1

open Sequencer Number ReadContext List

structure Field where
  name : Bytes
  value : Bytes
deriving DecidableEq

structure BodyInfo where
  bodyType : BodyType
  contentLength : Nat
deriving DecidableEq

variable (ctx : ReadContext) (buf : Bytes) (range : FieldRange)

def ReadContext.bodyInfo : BodyInfo := ⟨ctx.bodyType, ctx.contentLength⟩

def sameName (left right : Bytes) : Bool := left.map toUpper == right.map toUpper

/-- What is left of a name behind `word`, or the name itself when it does not start with it. -/
def strip (word name : Bytes) : Bytes :=
  if startsWith ignoreCase word name then name.drop word.length else name

/-- The part of a name that `scan_header` still looks at when it asks for `content-length`. -/
def unread (name : Bytes) : Bytes :=
  strip connectionName (strip trailerName (strip hostName name))

/-- `scan_header` takes the field for a `Content-Length` header. -/
def readsLength (type : BodyType) (name : Bytes) : Bool :=
  type.wantsLength && sameName (unread name) contentLengthName

/-- `scan_header` takes the field for a `Transfer-Encoding` header. -/
def readsEncoding (type : BodyType) (name : Bytes) : Bool :=
  type.wantsChunked && sameName
    (if type.wantsLength then strip contentLengthName (unread name) else unread name)
    transferEncodingName

/-- The number `parse_integer` finds in a value, when it ends where the value does. -/
def parsedLength (value : Bytes) : Option Nat :=
  let number := parseInteger .uint64 10 value 0
  if number.1 = .none ∧ number.2.2 = value.length then some (number.2.1.construct .uint64).toNat
  else none

/-- The letters `chunked` occur in a value. -/
def hasLetters : Bytes → Bool
  | [] => false
  | c :: rest => startsWith ignoreCase chunkedName (c :: rest) || hasLetters rest

/-- The effect of `scan_header` on what is known about the body. -/
def scanField (info : BodyInfo) (field : Field) : BodyInfo :=
  if readsLength info.bodyType field.name then
    match parsedLength field.value with
    | some length => ⟨info.bodyType.withLength, length⟩
    | none => info
  else if readsEncoding info.bodyType field.name && hasLetters field.value then
    { info with bodyType := info.bodyType.withChunked }
  else info

/-- A byte that follows a trimmed field value: a blank or no printable character. -/
def EndsValue (c : UInt8) : Prop := isTabOrSpace c = true ∨ isNonSpaceAscii c = false
deriving Decidable

theorem EndsValue.not_digit {c : UInt8} (ends : EndsValue c) : isRadixChar 10 c = false :=
  forall_byte (P := fun c => EndsValue c → isRadixChar 10 c = false) (by decide +kernel) c ends

theorem EndsValue.not_letter {c : UInt8} (ends : EndsValue c) :
    ∀ p ∈ chunkedName, ignoreCase c p = false :=
  forall_byte (P := fun c => EndsValue c → ∀ p ∈ chunkedName, ignoreCase c p = false)
    (by decide +kernel) c ends

section Cursor

/-- The cursor stands in a key of which `rest` has not been looked at; the key ends at `stop` and a
colon follows. -/
def InKey (stop rptr : Nat) (rest : Bytes) : Prop :=
  rptr + rest.length = stop ∧ ∃ after, buf.drop rptr = rest ++ 58 :: after

variable {buf : Bytes} {stop rptr : Nat} {rest word : Bytes}

/-- A word without a colon. -/
def Plain (word : Bytes) : Prop := ∀ p ∈ word, ignoreCase 58 p = false

theorem seekIf_of_inKey (inKey : InKey buf stop rptr rest) (plain : Plain word) :
    seekIf ignoreCase word buf rptr =
      if startsWith ignoreCase word rest then (true, rptr + word.length) else (false, rptr) := by
  obtain ⟨-, _, text⟩ := inKey
  rw [seekIf, text, startsWith_append_cons plain]

/-- Looking for a word strips it from what is left of the key. -/
theorem inKey_seekIf (inKey : InKey buf stop rptr rest) (plain : Plain word) :
    InKey buf stop (seekIf ignoreCase word buf rptr).2 (strip word rest) := by
  rw [seekIf_of_inKey inKey plain, strip]
  obtain ⟨ends, after, text⟩ := inKey
  split
  case isTrue found =>
    have bound := length_le_of_startsWith found
    refine ⟨by rw [length_drop]; omega, after, ?_⟩
    rw [← drop_drop, text, drop_append_of_le_length bound]
  case isFalse => exact ⟨ends, after, text⟩

theorem InKey.at_stop (inKey : InKey buf stop rptr rest) : (rptr == stop) = rest.isEmpty := by
  obtain ⟨ends, -⟩ := inKey
  cases rest with
  | nil => simpa using ends
  | cons c rest =>
    simp only [length_cons, isEmpty_cons, beq_eq_false_iff_ne] at ends ⊢
    omega

theorem seekIf_fst_of_inKey (inKey : InKey buf stop rptr rest) (plain : Plain word) :
    (seekIf ignoreCase word buf rptr).1 = startsWith ignoreCase word rest := by
  rw [seekIf_of_inKey inKey plain]
  split <;> simp_all

/-- A word that is found and ends the key is what was left of the key. -/
theorem startsWith_strip_isEmpty (word rest : Bytes) :
    (startsWith ignoreCase word rest && (strip word rest).isEmpty) = sameName rest word := by
  induction word generalizing rest with
  | nil => cases rest <;> simp [startsWith, strip, sameName]
  | cons p word ih =>
    cases rest with
    | nil => simp [startsWith, sameName]
    | cons c rest =>
      have tail := ih rest
      simp only [strip] at tail
      simp only [startsWith, strip, sameName, map_cons, cons_beq_cons,
        length_cons, drop_succ_cons]
      rw [← sameName, ← tail, show (toUpper c == toUpper p) = ignoreCase c p from rfl]
      cases ignoreCase c p <;> cases startsWith ignoreCase word rest <;> simp

/-- A word is found and ends the key exactly when it is what was left of the key. -/
theorem lookFor_found (inKey : InKey buf stop rptr rest) (plain : Plain word) (wanted : Bool) :
    ((lookFor wanted word buf rptr).1 && (lookFor wanted word buf rptr).2 == stop) =
      (wanted && sameName rest word) := by
  cases wanted with
  | false => rfl
  | true =>
    rw [lookFor, if_pos rfl, (inKey_seekIf inKey plain).at_stop, seekIf_fst_of_inKey inKey plain,
      startsWith_strip_isEmpty, Bool.true_and]

/-- Looking for a word leaves the cursor in the key. -/
theorem inKey_lookFor (inKey : InKey buf stop rptr rest) (plain : Plain word) (wanted : Bool) :
    InKey buf stop (lookFor wanted word buf rptr).2 (if wanted then strip word rest else rest) := by
  cases wanted with
  | false => exact inKey
  | true => exact inKey_seekIf inKey plain

end Cursor

@[simp] theorem strip_nil (word : Bytes) : strip word [] = [] := by
  simp [strip]

theorem strip_of_sameName {word rest : Bytes} (same : sameName rest word) :
    strip word rest = [] := by
  rw [← startsWith_strip_isEmpty, Bool.and_eq_true] at same
  exact isEmpty_iff.1 same.2

variable {info : BodyInfo} {fields : List Field}

/-- A field whose name has been looked at to its end says nothing about the body. -/
theorem scanField_of_unread_nil {field : Field} (read : unread field.name = []) :
    scanField info field = info := by
  have noLength : sameName [] contentLengthName = false := by decide +kernel
  have noEncoding : sameName [] transferEncodingName = false := by decide +kernel
  simp [scanField, readsLength, readsEncoding, read, noLength, noEncoding]

section Value

variable {buf value later : Bytes} {start : Nat} {stop : UInt8}

theorem takeWhile_append_cons {keep : UInt8 → Bool} (stops : keep stop = false) (text : Bytes) :
    (text ++ stop :: later).takeWhile keep = text.takeWhile keep := by
  induction text with
  | nil => simp [stops]
  | cons c text ih => simp [takeWhile_cons, ih]

/-- `parse_integer` sees the value only. -/
theorem parseInteger_of_drop (text : buf.drop start = value ++ stop :: later)
    (ends : EndsValue stop) (filled : value ≠ []) (type : IntType) :
    parseInteger type 10 buf start =
      ((parseInteger type 10 value 0).1, (parseInteger type 10 value 0).2.1,
        start + (parseInteger type 10 value 0).2.2) := by
  have first : buf[start]? = value[0]? := by
    have head : buf[start]? = (buf.drop start)[0]? := by simp
    rw [head, text, getElem?_append_left (length_pos_iff.2 filled)]
  have digits : ∀ count ≤ 1, (buf.drop (start + count)).takeWhile (isRadixChar 10) =
      (value.drop count).takeWhile (isRadixChar 10) := by
    intro count small
    have within : count ≤ value.length := le_trans small (length_pos_iff.2 filled)
    rw [← drop_drop, text, drop_append_of_le_length within,
      takeWhile_append_cons ends.not_digit]
  have whole := digits 0 (Nat.zero_le 1)
  have tail := digits 1 (Nat.le_refl 1)
  rw [Nat.add_zero] at whole
  unfold parseInteger
  simp only [first, show acceptableRadix 10 by decide, Bool.not_true, Bool.false_eq_true,
    if_false]
  split <;> simp [whole, tail, Nat.add_assoc]

/-- The loop over a `Transfer-Encoding` value finds the letters in the value only. -/
theorem scanTransferEncoding_eq (ends : EndsValue stop) {rest : Bytes} {rptr : Nat}
    (text : buf.drop rptr = rest ++ stop :: later) :
    scanTransferEncoding buf (rptr + rest.length) rest.length rptr = hasLetters rest := by
  induction rest generalizing rptr with
  | nil => rfl
  | cons c rest ih =>
    have bound : rptr < buf.length := by
      have length := congrArg length text
      simp only [length_drop, length_append, length_cons] at length
      omega
    have further : buf.drop (rptr + 1) = rest ++ stop :: later := by
      rw [← drop_drop, text]
      rfl
    have shifted : rptr + (rest.length + 1) = rptr + 1 + rest.length := by omega
    simp only [length_cons, scanTransferEncoding, hasLetters]
    rw [if_neg (by omega), seekIf, text, startsWith_append_cons ends.not_letter, consume,
      if_pos bound, shifted, ih further]
    cases startsWith ignoreCase chunkedName (c :: rest) <;> simp

end Value

/-- A context that differs only in what `scan_header` writes. -/
structure SameReading (before after : ReadContext) : Prop where
  startPos : after.startPos = before.startPos
  suspendPos : after.suspendPos = before.suspendPos
  keyStart : after.headerKeyStartOrRemainContent = before.headerKeyStartOrRemainContent
  keyEnd : after.headerKeyEndOrRemainChunkSize = before.headerKeyEndOrRemainChunkSize
  flag : after.flag = before.flag
  resumable : after.resumable = before.resumable
  state : after.state = before.state

theorem le_seekIf (compare : UInt8 → UInt8 → Bool) (pattern buf : Bytes) (rptr : Nat) :
    rptr ≤ (seekIf compare pattern buf rptr).2 := by
  unfold seekIf
  split <;> simp

theorem le_lookFor (wanted : Bool) (word buf : Bytes) (rptr : Nat) :
    rptr ≤ (lookFor wanted word buf rptr).2 := by
  cases wanted with
  | false => exact Nat.le_refl rptr
  | true => exact le_seekIf ignoreCase word buf rptr

theorem le_consume (rptr : Nat) : rptr ≤ consume buf rptr := by
  unfold consume
  split <;> omega

/-- The loop over a `Connection` value only moves forward and only notes what it found. -/
theorem scanConnection_spec (stop rounds : Nat) (ctx : ReadContext) (rptr : Nat) :
    rptr ≤ (scanConnection buf stop rounds ctx rptr).2 ∧
      ∃ close keepAlive, (scanConnection buf stop rounds ctx rptr).1 =
        { ctx with hasClose := close, hasKeepAlive := keepAlive } := by
  induction rounds generalizing ctx rptr with
  | zero => exact ⟨le_rfl, ctx.hasClose, ctx.hasKeepAlive, rfl⟩
  | succ rounds ih =>
    simp only [scanConnection]
    split
    · exact ⟨le_rfl, ctx.hasClose, ctx.hasKeepAlive, rfl⟩
    split
    · obtain ⟨further, close, keepAlive, noted⟩ := ih _ _
      exact ⟨le_trans (le_seekIf _ _ _ _) (le_trans (le_consume _ _) further), close, keepAlive,
        by rw [noted]⟩
    split
    · obtain ⟨further, close, keepAlive, noted⟩ := ih _ _
      exact ⟨le_trans (le_seekIf _ _ _ _) (le_trans (le_consume _ _) further), close, keepAlive,
        by rw [noted]⟩
    · obtain ⟨further, noted⟩ := ih ctx _
      exact ⟨le_trans (le_consume _ _) further, noted⟩

namespace SameReading

variable {before middle after : ReadContext}

theorem refl (ctx : ReadContext) : SameReading ctx ctx := ⟨rfl, rfl, rfl, rfl, rfl, rfl, rfl⟩

theorem trans (first : SameReading before middle) (second : SameReading middle after) :
    SameReading before after :=
  ⟨second.startPos.trans first.startPos, second.suspendPos.trans first.suspendPos,
    second.keyStart.trans first.keyStart, second.keyEnd.trans first.keyEnd,
    second.flag.trans first.flag, second.resumable.trans first.resumable,
    second.state.trans first.state⟩

end SameReading

theorem scanConnectionHeader_same
    (rptr : Nat) : SameReading ctx (scanConnectionHeader ctx buf range rptr).1 := by
  obtain ⟨-, _, _, noted⟩ := scanConnection_spec buf _ _ ctx _
  simp only [scanConnectionHeader]
  split
  · rw [noted]
    exact ⟨rfl, rfl, rfl, rfl, rfl, rfl, rfl⟩
  · exact .refl ctx

theorem scanBodyInfo_same (rptr : Nat) : SameReading ctx (scanBodyInfo ctx buf range rptr) := by
  simp only [scanBodyInfo, scanContentLength, scanEncoding]
  repeat' split
  all_goals exact ⟨rfl, rfl, rfl, rfl, rfl, rfl, rfl⟩

theorem scanHeader_same : SameReading ctx (ctx.scanHeader buf range) := by
  simp only [scanHeader]
  split
  · exact ⟨rfl, rfl, rfl, rfl, rfl, rfl, rfl⟩
  split
  · exact ⟨rfl, rfl, rfl, rfl, rfl, rfl, rfl⟩
  · exact (scanConnectionHeader_same ctx buf _ _).trans (scanBodyInfo_same _ buf _ _)

/-- A range that holds the name and the value of a field. -/
structure Holds (buf : Bytes) (range : FieldRange) (field : Field) : Prop where
  key : InKey buf range.key.stop range.key.start field.name
  behind : range.key.stop < range.value.start
  filled : field.value ≠ []
  value : ∃ stop later, EndsValue stop ∧
    buf.drop range.value.start = field.value ++ stop :: later
  stop : range.value.stop = range.value.start + field.value.length

section Scan

variable {ctx : ReadContext} {buf : Bytes} {range : FieldRange} {field : Field} {rptr : Nat}

theorem scanContentLength_info (holds : Holds buf range field) :
    (scanContentLength ctx buf range).bodyInfo =
      match parsedLength field.value with
      | some length => ⟨ctx.bodyType.withLength, length⟩
      | none => ctx.bodyInfo := by
  obtain ⟨_, _, ends, text⟩ := holds.value
  have ended : ∀ count, range.value.start + count = range.value.stop ↔
      count = field.value.length := by
    rw [holds.stop]
    omega
  simp only [scanContentLength, parsedLength, parseInteger_of_drop text ends holds.filled, ended]
  split <;> rfl

/-- Behind the key no name ends it any more. -/
theorem lookFor_behind (behind : range.key.stop < rptr) (wanted : Bool) (word : Bytes) :
    ((lookFor wanted word buf rptr).1 && (lookFor wanted word buf rptr).2 == range.key.stop) =
      false := by
  have further := le_lookFor wanted word buf rptr
  rw [Bool.and_eq_false_iff]
  exact .inr (beq_eq_false_iff_ne.2 (by omega))

theorem scanBodyInfo_behind (behind : range.key.stop < rptr) :
    scanBodyInfo ctx buf range rptr = ctx := by
  have further := le_lookFor ctx.bodyType.wantsLength contentLengthName buf rptr
  simp only [scanBodyInfo, lookFor_behind behind, scanEncoding,
    lookFor_behind (lt_of_lt_of_le behind further), Bool.false_eq_true, if_false, ite_self]

theorem plain_names : Plain hostName ∧ Plain trailerName ∧ Plain connectionName ∧
    Plain contentLengthName ∧ Plain transferEncodingName := by
  unfold Plain
  decide +kernel

/-- The two framing headers are found by what is left of the name. -/
theorem scanBodyInfo_info (defaults : ctx.flag = {}) (holds : Holds buf range field)
    (inKey : InKey buf range.key.stop rptr (unread field.name)) :
    (scanBodyInfo ctx buf range rptr).bodyInfo = scanField ctx.bodyInfo field := by
  obtain ⟨-, -, -, plainLength, plainEncoding⟩ := plain_names
  obtain ⟨_, _, ends, text⟩ := holds.value
  have letters := scanTransferEncoding_eq ends text
  have next := inKey_lookFor inKey plainLength ctx.bodyType.wantsLength
  simp only [scanBodyInfo, defaults, lookFor_found inKey plainLength]
  by_cases length : readsLength ctx.bodyInfo.bodyType field.name
  · rw [scanField, if_pos length]
    exact (congrArg _ (if_pos length)).trans (scanContentLength_info holds)
  · rw [scanField, if_neg length]
    refine (congrArg _ (if_neg length)).trans ?_
    simp only [scanEncoding, lookFor_found next plainEncoding, holds.stop,
      Nat.add_sub_cancel_left, letters]
    by_cases encoding : readsEncoding ctx.bodyInfo.bodyType field.name
    · rw [encoding]
      refine (congrArg _ (if_pos encoding)).trans ?_
      cases hasLetters field.value <;> rfl
    · rw [Bool.not_eq_true] at encoding
      rw [encoding]
      exact congrArg _ (if_neg (ne_true_of_eq_false encoding))

/-- `scan_header` does to the body what the letters of the field say. -/
theorem scanHeader_info (defaults : ctx.flag = {}) (holds : Holds buf range field) :
    (ctx.scanHeader buf range).bodyInfo = scanField ctx.bodyInfo field := by
  obtain ⟨plainHost, plainTrailer, plainConnection, -, -⟩ := plain_names
  have afterHost := inKey_lookFor holds.key plainHost true
  have afterTrailer := inKey_lookFor afterHost plainTrailer true
  have afterConnection := inKey_lookFor afterTrailer plainConnection true
  simp only [if_true] at afterHost afterTrailer afterConnection
  simp only [scanHeader, defaults, Bool.not_false, lookFor_found holds.key plainHost,
    lookFor_found afterHost plainTrailer]
  split
  case isTrue host =>
    refine (scanField_of_unread_nil ?_).symm
    rw [unread, strip_of_sameName host, strip_nil, strip_nil]
  split
  case isTrue trailer =>
    refine (scanField_of_unread_nil ?_).symm
    rw [unread, strip_of_sameName trailer, strip_nil]
  simp only [scanConnectionHeader, defaults, lookFor_found afterTrailer plainConnection]
  split
  case isTrue connection =>
    obtain ⟨further, _, _, noted⟩ := scanConnection_spec buf _ _ ctx _
    rw [scanBodyInfo_behind (lt_of_lt_of_le holds.behind further), noted]
    refine (scanField_of_unread_nil ?_).symm
    rw [unread, strip_of_sameName connection]
  case isFalse => exact scanBodyInfo_info defaults holds afterConnection

end Scan

/-! ## The framing of a list of fields -/

open Lib.Machine

def scanStep (info : BodyInfo) (field : Field) : BodyInfo × Unit := (scanField info field, ())

/-- What is known about the body after all fields of a message. -/
def framing (info : BodyInfo) (fields : List Field) : BodyInfo := final scanStep info fields

theorem framing_concat (info : BodyInfo) (fields : List Field) (field : Field) :
    framing info (fields ++ [field]) = scanField (framing info fields) field :=
  final_append _ _ _

def Field.isContentLength (field : Field) : Bool := sameName field.name contentLengthName

def Field.isTransferEncoding (field : Field) : Bool := sameName field.name transferEncodingName

def decimal (digits : Bytes) : Nat := digits.foldl (fun value c => value * 10 + (c.toNat - 48)) 0

/-- The value is exactly a decimal numeral for `length`. -/
def Numeral (value : Bytes) (length : Nat) : Prop :=
  value ≠ [] ∧ (∀ c ∈ value, isDigit c = true) ∧ decimal value = length
deriving Decidable

/-- The elements of a comma separated list; commas in quoted strings do not separate. -/
def listElements : Bool → Bytes → Bytes → List Bytes
  | _, element, [] => [element]
  | false, element, c :: rest =>
    if c = 44 then element :: listElements false [] rest
    else listElements (c == 34) (element ++ [c]) rest
  | true, element, c :: rest =>
    if c = 92 then
      match rest with
      | [] => [element ++ [c]]
      | escaped :: rest => listElements true (element ++ [c, escaped]) rest
    else listElements (c != 34) (element ++ [c]) rest

/-- The name of a transfer coding: a token, with nothing or parameters behind it. -/
def codingName (element : Bytes) : Option Bytes :=
  let text := element.dropWhile isTabOrSpace
  let token := text.takeWhile isTokenChar
  match (text.drop token.length).dropWhile isTabOrSpace with
  | [] => some token
  | c :: _ => if c = 59 then some token else none

/-- The list of transfer codings contains `chunked`. -/
def hasChunkedToken (value : Bytes) : Bool :=
  (listElements false [] value).any fun element =>
    (codingName element).any fun name => sameName name chunkedName

/-- The field is read as what its name says, and the letters `chunked` in a transfer coding list
belong to the token. -/
def Unambiguous (info : BodyInfo) (field : Field) : Prop :=
  (readsLength info.bodyType field.name = true → field.isContentLength = true) ∧
  (readsEncoding info.bodyType field.name = true →
    field.isTransferEncoding = true ∧
      (hasLetters field.value = true → hasChunkedToken field.value = true))
deriving Decidable

/-- As soon as one `Content-Length` header has a number that the parser takes, all of them are decimal
numerals for it. -/
def LengthsAgree (fields : List Field) : Prop :=
  ∀ field ∈ fields, field.isContentLength = true → ∀ length ∈ parsedLength field.value,
    ∀ other ∈ fields, other.isContentLength = true → Numeral other.value length
deriving Decidable

/-- What a scanned body type rests on. -/
structure Grounded (info : BodyInfo) (fields : List Field) : Prop where
  chunked : info.bodyType.wantsChunked = false →
    ∃ field ∈ fields, field.isTransferEncoding = true ∧ hasChunkedToken field.value = true
  length : info.bodyType.wantsLength = false →
    ∃ field ∈ fields, field.isContentLength = true ∧
      parsedLength field.value = some info.contentLength

theorem Grounded.mono (grounded : Grounded info fields) (more : List Field) :
    Grounded info (fields ++ more) := by
  refine ⟨fun chunked => ?_, fun length => ?_⟩
  · obtain ⟨field, member, facts⟩ := grounded.chunked chunked
    exact ⟨field, mem_append_left _ member, facts⟩
  · obtain ⟨field, member, facts⟩ := grounded.length length
    exact ⟨field, mem_append_left _ member, facts⟩

theorem BodyType.wantsChunked_withLength {type : BodyType} (wants : type.wantsLength) :
    type.withLength.wantsChunked = type.wantsChunked := by
  cases type <;> first | rfl | cases wants

theorem BodyType.wantsLength_withChunked {type : BodyType} (wants : type.wantsChunked) :
    type.withChunked.wantsLength = type.wantsLength := by
  cases type <;> first | rfl | cases wants

/-- A field that is read as what it is grounds what is learnt from it. -/
theorem Grounded.scanField {field : Field} (grounded : Grounded info fields)
    (unambiguous : Unambiguous info field) :
    Grounded (scanField info field) (fields ++ [field]) := by
  obtain ⟨asLength, asEncoding⟩ := unambiguous
  have kept := grounded.mono [field]
  have last : field ∈ fields ++ [field] := by simp
  unfold Http1.scanField
  split
  case isTrue length =>
    have wants : info.bodyType.wantsLength := by
      simp only [readsLength, Bool.and_eq_true] at length
      exact length.1
    match parsed : parsedLength field.value with
    | none => exact kept
    | some number =>
      refine ⟨fun chunked => kept.chunked ?_, fun _ => ⟨field, last, asLength length, parsed⟩⟩
      rwa [BodyType.wantsChunked_withLength wants] at chunked
  split
  case isTrue encoding =>
    rw [Bool.and_eq_true] at encoding
    obtain ⟨named, token⟩ := asEncoding encoding.1
    refine ⟨fun _ => ⟨field, last, named, token encoding.2⟩, fun length => kept.length ?_⟩
    have wants : info.bodyType.wantsChunked := by
      simp only [readsEncoding, Bool.and_eq_true] at encoding
      exact encoding.1.1
    rwa [BodyType.wantsLength_withChunked wants] at length
  case isFalse => exact kept

/-- The framing of fields that are read as what they are is grounded in them. -/
theorem grounded_framing (length : Nat)
    (unambiguous : Guarded scanStep Unambiguous ⟨.noInfo, length⟩ fields) :
    Grounded (framing ⟨.noInfo, length⟩ fields) fields := by
  have start : Grounded ⟨.noInfo, length⟩ [] := ⟨nofun, nofun⟩
  have run := @invariant_of_guarded _ _ _ _ _ (fun info past => Grounded info (past.map Prod.fst))
    (fun info past field holds allowed => by
      rw [map_append]
      exact Grounded.scanField holds allowed) _ [] _ start unambiguous
  rwa [nil_append, trace_map_fst] at run

/-- Fields with other names do not change the framing. -/
theorem framing_filter (unambiguous : Guarded scanStep Unambiguous info fields) :
    framing info (fields.filter fun field => field.isContentLength || field.isTransferEncoding) =
      framing info fields := by
  induction fields generalizing info with
  | nil => rfl
  | cons field fields ih =>
    have rest := ih unambiguous.2
    obtain ⟨asLength, asEncoding⟩ := unambiguous.1
    rw [filter_cons]
    split
    case isTrue => exact rest
    case isFalse other =>
      rw [Bool.or_eq_true, not_or] at other
      have noLength : ¬ readsLength info.bodyType field.name :=
        fun reads => other.1 (asLength reads)
      have noEncoding : ¬ readsEncoding info.bodyType field.name :=
        fun reads => other.2 (asEncoding reads).1
      have same : scanField info field = info := by
        simp [Http1.scanField, noLength, noEncoding]
      refine Eq.trans ?_ rest
      rw [show (scanStep info field).1 = info from same]

end Futils.Http1
