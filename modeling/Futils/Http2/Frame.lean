import Futils.Binary.Reader
import Futils.Lib.BigEndian

/-!
# HTTP/2 frames

Every frame has a head of nine bytes, and each type reads its payload in a way of its own.  DATA
compares the padding with the length the wrong way round, HEADERS forgets the byte of the padding
length, PUSH_PROMISE and GOAWAY read from behind the frame; what is left over goes round.
-/

namespace Futils.Http2

open Binary Lib.BigEndian Nat Option
open List hiding count

inductive H2Error where
  | none
  | protocol
  | internal
  | flowControl
  | settingsTimeout
  | streamClosed
  | frameSize
  | refused
  | cancel
  | compression
  | connect
  | enhanceYourClam
  | inadequateSecurity
  | http11Required
  | transport
  | other (code : UInt32)
  deriving DecidableEq

/-- `Error`, without the parts of HPACK. -/
structure Error where
  code : H2Error
  stream : Bool := false
  debug : Option String := none
  deriving DecidableEq

inductive FrameType where
  | data
  | header
  | priority
  | rstStream
  | settings
  | pushPromise
  | ping
  | goaway
  | windowUpdate
  | continuation
  deriving DecidableEq

def FrameType.value : FrameType → UInt8
  | data => 0
  | header => 1
  | priority => 2
  | rstStream => 3
  | settings => 4
  | pushPromise => 5
  | ping => 6
  | goaway => 7
  | windowUpdate => 8
  | continuation => 9

/-- The cases of `parse_frame`; `none` stands for its default. -/
def FrameType.ofValue : UInt8 → Option FrameType
  | 0 => some data
  | 1 => some header
  | 2 => some priority
  | 3 => some rstStream
  | 4 => some settings
  | 5 => some pushPromise
  | 6 => some ping
  | 7 => some goaway
  | 8 => some windowUpdate
  | 9 => some continuation
  | _ => none

@[simp] theorem FrameType.ofValue_value (type : FrameType) : ofValue type.value = some type := by
  cases type <;> rfl

structure Priority where
  depend : UInt32 := 0
  weight : UInt8 := 0
  deriving DecidableEq

/-- What the frames have beside their head; signed fields are kept as their bits. -/
inductive Payload where
  | data (padding : UInt8) (data : Bytes)
  | header (padding : UInt8) (priority : Priority) (data : Bytes)
  | priority (priority : Priority)
  | rstStream (code : UInt32)
  | settings (settings : Bytes)
  | pushPromise (padding : UInt8) (promise : UInt32) (data : Bytes)
  | ping (opaqueData : UInt64)
  | goaway (processedId code : UInt32) (debug : Bytes)
  | windowUpdate (increment : UInt32)
  | continuation (data : Bytes)
  deriving DecidableEq

def Payload.type : Payload → FrameType
  | .data .. => .data
  | .header .. => .header
  | .priority .. => .priority
  | .rstStream .. => .rstStream
  | .settings .. => .settings
  | .pushPromise .. => .pushPromise
  | .ping .. => .ping
  | .goaway .. => .goaway
  | .windowUpdate .. => .windowUpdate
  | .continuation .. => .continuation

/-- `Frame` and the frames derived from it. -/
structure Frame where
  len : Nat := 0
  flag : UInt8 := 0
  id : Int := -1
  payload : Payload
  deriving DecidableEq

def Frame.type (frame : Frame) : FrameType := frame.payload.type

/-- `Flag`; `ack` and `end_stream` are one bit. -/
inductive Flag where
  | ack
  | endStream
  | endHeaders
  | padded
  | priority
  deriving DecidableEq

def Flag.bit : Flag → UInt8
  | ack => 0x1
  | endStream => 0x1
  | endHeaders => 0x4
  | padded => 0x8
  | priority => 0x20

def hasFlag (flags : UInt8) (flag : Flag) : Bool := flags &&& flag.bit != 0

def sub32 (left right : Nat) : Nat :=
  if right ≤ left then left - right else left + 2 ^ 32 - right

section Render

/-- The bytes that announce the padding and those that are it. -/
def paddingLen (flag padding : UInt8) : Nat := if hasFlag flag .padded then 1 + padding.toNat else 0

variable (frame : Frame)

def Frame.dataLen : Nat :=
  match frame.payload with
  | .data padding data => data.length + paddingLen frame.flag padding
  | .header padding _ data => data.length + paddingLen frame.flag padding +
      if hasFlag frame.flag .priority then 5 else 0
  | .priority _ => 5
  | .rstStream _ => 4
  | .settings settings => settings.length
  | .pushPromise padding _ data => data.length + paddingLen frame.flag padding + 4
  | .ping _ => 8
  | .goaway _ _ debug => 8 + debug.length
  | .windowUpdate _ => 4
  | .continuation data => data.length

/-- `render_with_len`; the length is a `uint32_t` and must fit in three bytes. -/
def Frame.renderWithLen (id : Int) (len : Nat) : Option Bytes :=
  if 0xffffff < len % 2 ^ 32 then none
  else some (toBytes 3 (len % 2 ^ 32) ++ frame.type.value :: frame.flag ::
    toBytes 4 (id % 2 ^ 32).toNat)

def Priority.render (priority : Priority) : Bytes :=
  toBytes 4 priority.depend.toNat ++ [priority.weight]

/-- What is written behind the head. -/
def Frame.renderPayload : Bytes :=
  let announced (padding : UInt8) := if hasFlag frame.flag .padded then [padding] else []
  let zeros (padding : UInt8) := List.replicate padding.toNat (0 : UInt8)
  match frame.payload with
  -- DATA writes its padding whether it is announced or not.
  | .data padding data => announced padding ++ data ++ zeros padding
  | .header padding priority data =>
    announced padding ++ (if hasFlag frame.flag .priority then priority.render else []) ++ data ++
      if hasFlag frame.flag .padded then zeros padding else []
  | .priority priority => priority.render
  | .rstStream code => toBytes 4 code.toNat
  | .settings settings => settings
  | .pushPromise padding promise data =>
    announced padding ++ toBytes 4 promise.toNat ++ data ++
      if hasFlag frame.flag .padded then zeros padding else []
  | .ping opaqueData => toBytes 8 opaqueData.toNat
  | .goaway processedId code debug =>
    toBytes 4 processedId.toNat ++ toBytes 4 code.toNat ++ debug
  | .windowUpdate increment => toBytes 4 increment.toNat
  | .continuation data => data

/-- The test with which `render` begins. -/
def Frame.refused : Bool :=
  match frame.payload with
  | .data .. | .continuation .. => frame.id = 0 || 0xffffff < frame.dataLen
  | .header .. | .pushPromise .. => frame.id = 0 && 0xffffff < frame.dataLen
  | .priority .. | .rstStream .. => frame.id = 0
  | .settings settings => settings.length % 6 ≠ 0
  | .goaway .. => 0xffffff < frame.dataLen
  | .ping .. | .windowUpdate .. => false

/-- The stream `render` writes into the head. -/
def Frame.renderedId : Int :=
  match frame.payload with
  | .settings .. | .ping .. | .goaway .. => 0
  | _ => frame.id

/-- `render_frame`, into a writer that grows. -/
def Frame.render : Option Bytes :=
  if frame.refused then none
  else (frame.renderWithLen frame.renderedId frame.dataLen).map (· ++ frame.renderPayload)

end Render

section Parse

inductive FrameIDMode where
  | conn
  | stream
  | both
  deriving DecidableEq

/-- The mode in which a type parses its head. -/
def FrameType.idMode : FrameType → FrameIDMode
  | settings | ping | goaway => .conn
  | windowUpdate => .both
  | _ => .stream

def readU8 : Bytes → Option (UInt8 × Bytes)
  | [] => none
  | byte :: rest => some (byte, rest)

/-- `read_num`, big-endian. -/
def readNum (width : Nat) (input : Bytes) : Option (Nat × Bytes) :=
  (Parser.take width input).map fun (bytes, rest) => (ofBytes bytes, rest)

/-- An operation of a reader; a failure is reported as `code`. -/
def orFail {α : Type} (code : H2Error) (result : Option α) : Except Error α :=
  result.elim (.error { code := code }) .ok

def readPadding (flag : UInt8) (sub : Bytes) : Except Error (UInt8 × Bytes) :=
  if hasFlag flag .padded then orFail .frameSize (readU8 sub) else .ok (0, sub)

def Priority.parse (input : Bytes) : Option (Priority × Bytes) := do
  let (depend, rest) ← readNum 4 input
  let (weight, rest) ← readU8 rest
  some (⟨.ofNat depend, weight⟩, rest)

/-- The data and the padding at the end of a frame: `sub.read(data, n) && sub.read(pad, padding) &&
sub.empty()`. -/
def readPadded (count : Nat) (padding : UInt8) (sub : Bytes) : Except Error Bytes :=
  orFail .internal do
    let (data, rest) ← Parser.take count sub
    let (_, rest) ← Parser.take padding.toNat rest
    if rest = [] then some data else none

/-- A number that is the whole payload. -/
def readWhole (width : Nat) (sub : Bytes) : Except Error Nat :=
  orFail .internal do
    let (value, rest) ← readNum width sub
    if rest = [] then some value else none

/-- The part of `parse` behind the head: the payload and what is left of the outer reader. -/
def parsePayload (type : FrameType) (flag : UInt8) (len : Nat) (sub rest : Bytes) :
    Except Error (Payload × Bytes) :=
  match type with
  | .data => do
    let (padding, sub) ← readPadding flag sub
    if padding.toNat ≤ len then .error { code := .protocol }
    else
      let data ← readPadded (sub32 len padding.toNat) padding sub
      .ok (.data padding data, rest)
  | .header => do
    let (padding, sub) ← readPadding flag sub
    let (priority, priorityLen, sub) ←
      if hasFlag flag .priority then
        (orFail .frameSize (Priority.parse sub)).map fun (priority, sub) => (priority, 5, sub)
      else .ok (⟨0, 0⟩, 0, sub)
    let data ← readPadded (sub32 (sub32 len padding.toNat) priorityLen) padding sub
    .ok (.header padding priority data, rest)
  | .priority =>
    if len ≠ 5 then .error { code := .frameSize }
    else do
      let priority ← orFail .internal do
        let (priority, rest) ← Priority.parse sub
        if rest = [] then some priority else none
      .ok (.priority priority, rest)
  | .rstStream =>
    if len ≠ 4 then .error { code := .frameSize }
    else do
      let code ← readWhole 4 sub
      .ok (.rstStream (.ofNat code), rest)
  | .settings =>
    if hasFlag flag .ack then
      if len ≠ 0 then .error { code := .frameSize } else .ok (.settings sub, rest)
    else if len % 6 ≠ 0 then .error { code := .frameSize }
    else .ok (.settings sub, rest)
  | .pushPromise => do
    let (padding, sub) ← readPadding flag sub
    if len < padding.toNat then .error { code := .protocol }
    else
      -- The promised stream is read from the outer reader.
      let (promise, rest) ← orFail .internal (readNum 4 rest)
      let data ← readPadded (sub32 len padding.toNat) padding sub
      .ok (.pushPromise padding (.ofNat promise) data, rest)
  | .ping =>
    if len ≠ 8 then .error { code := .frameSize }
    else do
      let opaqueData ← readWhole 8 sub
      .ok (.ping (.ofNat opaqueData), rest)
  | .goaway =>
    if len < 8 then .error { code := .frameSize }
    else do
      let (processedId, sub) ← orFail .internal (readNum 4 sub)
      let (code, sub) ← orFail .internal (readNum 4 sub)
      -- The debug data is read from the outer reader.
      let (debug, rest) ← orFail .internal (Parser.take (sub32 len 8) rest)
      if sub = [] then .ok (.goaway (.ofNat processedId) (.ofNat code) debug, rest)
      else .error { code := .internal }
  | .windowUpdate =>
    if len ≠ 4 then .error { code := .frameSize }
    else do
      let increment ← readWhole 4 sub
      .ok (.windowUpdate (.ofNat increment), rest)
  | .continuation => .ok (.continuation sub, rest)

/-- The test of `parse_and_subreader` on the stream of a frame. -/
def FrameIDMode.allows (mode : FrameIDMode) (id : Nat) : Bool :=
  match mode with
  | conn => id = 0
  | stream => id ≠ 0
  | both => true

/-- The `parse` of the frame of a type: the head, whose reserved bit is cleared, and the payload. -/
def parseAs (type : FrameType) (input : Bytes) : Except Error (Frame × Bytes) := do
  let (len, tail) ← orFail .protocol (readNum 3 input)
  let (value, tail) ← orFail .protocol (readU8 tail)
  if value ≠ type.value then .error { code := .protocol }
  else
    let (flag, tail) ← orFail .protocol (readU8 tail)
    let (bits, tail) ← orFail .protocol (readNum 4 tail)
    let id := bits % 2 ^ 31
    if !type.idMode.allows id then .error { code := .protocol }
    else
      let (sub, rest) ← orFail .protocol (Parser.take len tail)
      let (payload, rest) ← parsePayload type flag len sub rest
      .ok (⟨len, flag, id, payload⟩, rest)

/-- What `parse_frame` does: wait, refuse, or call the callback with a frame, an error, or a frame
of an unknown type, for which the reader stays. -/
inductive Parsed where
  | wait
  | refused (error : Error)
  | frame (frame : Frame) (rest : Bytes)
  | malformed (error : Error)
  | unknown (type : UInt8)
  deriving DecidableEq

def parseFrame (input : Bytes) (limit : Nat) : Parsed :=
  if input.length < 9 then .wait
  else
    let len := ofBytes (input.take 3)
    if limit < 9 + len then
      .refused { code := .frameSize, debug := some "frame size exceeded limit" }
    else if input.length < 9 + len then .wait
    else
      let type := input.getD 3 0
      match FrameType.ofValue type with
      | none => .unknown type
      | some known =>
        match parseAs known input with
        | .error error => .malformed error
        | .ok (frame, rest) => .frame frame rest

end Parse

/-- The part of a frame that its flags announce, with its length. -/
def Frame.announced (frame : Frame) : Frame :=
  let padding (padding : UInt8) := if hasFlag frame.flag .padded then padding else 0
  { frame with
    len := frame.dataLen
    payload := match frame.payload with
      | .data count data => .data (padding count) data
      | .header count priority data =>
        .header (padding count) (if hasFlag frame.flag .priority then priority else ⟨0, 0⟩) data
      | .pushPromise count promise data => .pushPromise (padding count) promise data
      | payload => payload }

/-- A stream that a frame of the type can be on. -/
def Frame.IdValid (frame : Frame) : Prop :=
  0 ≤ frame.id ∧ frame.id < 2 ^ 31 ∧ frame.type.idMode.allows frame.id.toNat = true
deriving Decidable

/-- No DATA or PUSH_PROMISE, HEADERS without padding, GOAWAY without debug data, and
acknowledgements without settings. -/
def Frame.Readable (frame : Frame) : Prop :=
  match frame.payload with
  | .data .. | .pushPromise .. => False
  | .header .. => hasFlag frame.flag .padded = false
  | .settings settings => hasFlag frame.flag .ack = true → settings = []
  | .goaway _ _ debug => debug = []
  | _ => True

instance (frame : Frame) : Decidable frame.Readable := by
  obtain ⟨_, _, _, payload⟩ := frame
  cases payload <;> dsimp only [Frame.Readable] <;> infer_instance

section RoundTrip

theorem readNum_toBytes (width value : Nat) (rest : Bytes) :
    readNum width (toBytes width value ++ rest) = some (value % 256 ^ width, rest) := by
  have taken := Parser.reads_take (toBytes width value) rest
  rw [length_toBytes] at taken
  simp only [readNum, taken, map_some, ofBytes_toBytes]

theorem readNum_uint32 (value : UInt32) (rest : Bytes) :
    readNum 4 (toBytes 4 value.toNat ++ rest) = some (value.toNat, rest) := by
  rw [readNum_toBytes, mod_eq_of_lt (show value.toNat < 256 ^ 4 from value.toNat_lt)]

theorem readWhole_toBytes {width value : Nat} (fits : value < 256 ^ width) :
    readWhole width (toBytes width value) = .ok value := by
  have read := readNum_toBytes width value []
  rw [append_nil, mod_eq_of_lt fits] at read
  simp [readWhole, read, orFail]

theorem Priority.parse_render (priority : Priority) (rest : Bytes) :
    Priority.parse (priority.render ++ rest) = some (priority, rest) := by
  rw [Priority.render, append_assoc, Priority.parse, readNum_uint32]
  simp [readU8]

@[simp] theorem length_render_priority (priority : Priority) : priority.render.length = 5 := by
  simp [Priority.render]

theorem readPadded_zero (data : Bytes) : readPadded data.length 0 data = .ok data := by
  simp [readPadded, Parser.take, orFail]

theorem sub32_of_le {left right : Nat} (le : right ≤ left) : sub32 left right = left - right :=
  if_pos le

variable {frame : Frame}

theorem length_renderPayload (readable : frame.Readable) :
    frame.renderPayload.length = frame.dataLen := by
  obtain ⟨_, flag, _, payload⟩ := frame
  cases payload <;> simp only [Frame.Readable] at readable
  case header padding priority data =>
    simp only [Frame.renderPayload, Frame.dataLen, paddingLen, readable]
    cases hasFlag flag .priority <;> simp
    omega
  case goaway processedId code debug =>
    simp [Frame.renderPayload, Frame.dataLen, readable]
  all_goals simp [Frame.renderPayload, Frame.dataLen]

/-- Every readable payload is parsed. -/
theorem parsePayload_render (readable : frame.Readable) (accepted : frame.refused = false)
    (rest : Bytes) :
    parsePayload frame.type frame.flag frame.dataLen frame.renderPayload rest =
      .ok (frame.announced.payload, rest) := by
  obtain ⟨_, flag, _, payload⟩ := frame
  cases payload <;> simp only [Frame.Readable] at readable
  case header padding priority data =>
    have whole (count : Nat) : sub32 count 0 = count := sub32_of_le (zero_le)
    simp only [Frame.type, Payload.type, parsePayload, readPadding, readable, Frame.renderPayload,
      Frame.dataLen, paddingLen, Frame.announced, bind, Except.bind]
    cases hasFlag flag .priority
    · simp [whole, readPadded_zero]
    · have behind : sub32 (data.length + 5) 5 = data.length := sub32_of_le (le_add_left _ _)
      simp [Priority.parse_render, orFail, Except.map, whole, behind, readPadded_zero]
  case priority priority =>
    have parsed := Priority.parse_render priority []
    rw [append_nil] at parsed
    simp [Frame.type, Payload.type, parsePayload, Frame.dataLen, Frame.renderPayload,
      Frame.announced, parsed, orFail, bind, Except.bind]
  case rstStream code =>
    have read := @readWhole_toBytes 4 _ code.toNat_lt
    simp [Frame.type, Payload.type, parsePayload, Frame.dataLen, Frame.renderPayload,
      Frame.announced, read, bind, Except.bind]
  case settings settings =>
    have multiple : settings.length % 6 = 0 := by simpa [Frame.refused] using accepted
    simp only [Frame.type, Payload.type, parsePayload, Frame.dataLen, Frame.renderPayload,
      Frame.announced]
    cases acknowledges : hasFlag flag .ack
    · simp [multiple]
    · simp [readable acknowledges]
  case ping opaqueData =>
    have read := @readWhole_toBytes 8 _ opaqueData.toNat_lt
    simp [Frame.type, Payload.type, parsePayload, Frame.dataLen, Frame.renderPayload,
      Frame.announced, read, bind, Except.bind]
  case goaway processedId code debug =>
    have first := readNum_uint32 processedId (toBytes 4 code.toNat)
    have second := readNum_uint32 code []
    rw [append_nil] at second
    have nothing : sub32 8 8 = 0 := sub32_of_le (le_refl 8)
    subst readable
    simp [Frame.type, Payload.type, parsePayload, Frame.dataLen, Frame.renderPayload,
      Frame.announced, first, second, orFail, bind, Except.bind, nothing, Parser.take]
  case windowUpdate increment =>
    have read := @readWhole_toBytes 4 _ increment.toNat_lt
    simp [Frame.type, Payload.type, parsePayload, Frame.dataLen, Frame.renderPayload,
      Frame.announced, read, bind, Except.bind]
  case continuation data => rfl

def Frame.headBytes (frame : Frame) : Bytes :=
  toBytes 3 frame.dataLen ++ frame.type.value :: frame.flag :: toBytes 4 frame.id.toNat

theorem length_headBytes (frame : Frame) : frame.headBytes.length = 9 := by
  simp [Frame.headBytes]

theorem renderedId_eq (idValid : frame.IdValid) : frame.renderedId = frame.id := by
  obtain ⟨nonneg, -, allowed⟩ := idValid
  obtain ⟨_, _, _, payload⟩ := frame
  dsimp only at nonneg
  cases payload <;> simp [Frame.type, Payload.type, FrameType.idMode, FrameIDMode.allows,
    Frame.renderedId] at allowed ⊢ <;> omega

theorem render_eq {bytes : Bytes} (rendered : frame.render = some bytes) (idValid : frame.IdValid)
    (small : frame.dataLen ≤ 0xffffff) :
    frame.refused = false ∧ bytes = frame.headBytes ++ frame.renderPayload := by
  rw [Frame.render, renderedId_eq idValid] at rendered
  obtain ⟨nonneg, bounded, -⟩ := idValid
  cases refused : frame.refused
  · have length_eq : frame.dataLen % 2 ^ 32 = frame.dataLen := mod_eq_of_lt (by omega)
    have id_eq : frame.id % 2 ^ 32 = frame.id := Int.emod_eq_of_lt nonneg (by omega)
    rw [refused, if_neg (by decide), Frame.renderWithLen, length_eq, if_neg (by omega),
      map_some, id_eq, some.injEq] at rendered
    exact ⟨rfl, rendered.symm⟩
  · rw [refused] at rendered
    cases rendered

/-- The head is parsed, and then the payload. -/
theorem parseAs_headBytes (idValid : frame.IdValid) (small : frame.dataLen ≤ 0xffffff)
    {sub : Bytes} (length_eq : sub.length = frame.dataLen) (rest : Bytes) :
    parseAs frame.type (frame.headBytes ++ (sub ++ rest)) =
      (parsePayload frame.type frame.flag frame.dataLen sub rest).map fun (payload, rest) =>
        ({ frame with len := frame.dataLen, payload := payload }, rest) := by
  obtain ⟨nonneg, bounded, allowed⟩ := idValid
  have len_lt : frame.dataLen % 256 ^ 3 = frame.dataLen := mod_eq_of_lt (by omega)
  have id_lt : frame.id.toNat < 2 ^ 31 := by omega
  have id_eq : frame.id.toNat % 256 ^ 4 = frame.id.toNat := mod_eq_of_lt (by omega)
  have taken := Parser.reads_take sub rest
  rw [length_eq] at taken
  have bits := mod_eq_of_lt id_lt
  have cast := Int.toNat_of_nonneg nonneg
  rw [parseAs, Frame.headBytes, append_assoc, readNum_toBytes, len_lt]
  simp only [orFail, elim_some, cons_append, readU8, bind, Except.bind, ne_eq,
    readNum_toBytes, id_eq, bits, allowed, taken, cast]
  cases parsePayload frame.type frame.flag frame.dataLen sub rest <;> rfl

theorem length_of_readPadded {count : Nat} {padding : UInt8} {sub data : Bytes}
    (read : readPadded count padding sub = .ok data) : count + padding.toNat = sub.length := by
  simp only [readPadded, orFail, Parser.take] at read
  grind [drop_eq_nil_iff]

/-- Only a readable payload is parsed without touching what follows the frame. -/
theorem readable_of_parsePayload {rest : Bytes} {payload : Payload}
    (parsed : parsePayload frame.type frame.flag frame.dataLen frame.renderPayload rest =
      .ok (payload, rest)) : frame.Readable := by
  obtain ⟨_, flag, _, content⟩ := frame
  cases content <;> simp only [Frame.Readable]
  all_goals simp only [Frame.type, Payload.type, parsePayload] at parsed
  case data padding data =>
    have covered : padding.toNat ≤ data.length + (1 + padding.toNat) := by omega
    cases padded : hasFlag flag .padded <;> simp [padded, covered, readPadding, readU8, orFail, bind,
      Except.bind, Frame.dataLen, Frame.renderPayload, paddingLen] at parsed
  case header padding priority data =>
    by_contra unpadded
    have padded : hasFlag flag .padded = true := by simpa using unpadded
    simp only [padded, readPadding, Frame.dataLen, Frame.renderPayload,
      paddingLen, if_true, cons_append, nil_append, readU8, orFail, Option.elim] at parsed
    -- The count of the data has the byte for the length of the padding in it.
    cases prior : hasFlag flag .priority <;>
      simp [prior, Priority.parse_render, Except.map, bind, Except.bind] at parsed
    all_goals
      split at parsed
      · cases parsed
      rename_i read
      have length_eq := length_of_readPadded read
      rw [sub32_of_le (by rw [sub32_of_le (by omega)]; omega), sub32_of_le (by omega)] at length_eq
      simp at length_eq
      omega
  case settings settings =>
    intro acknowledges
    by_contra some
    simp [acknowledges, Frame.dataLen, some] at parsed
  case pushPromise padding promise data =>
    obtain ⟨_, -, parsed⟩ := bind_eq_ok.1 parsed
    split at parsed
    · cases parsed
    obtain ⟨_, read, parsed⟩ := bind_eq_ok.1 parsed
    obtain ⟨_, -, parsed⟩ := bind_eq_ok.1 parsed
    cases parsed
    -- The promised stream was read from what follows the frame.
    simp only [readNum, Parser.take, orFail] at read
    grind
  case goaway processedId code debug =>
    by_contra some
    simp [Frame.dataLen, Frame.renderPayload, readNum_uint32, orFail, bind, Except.bind, some]
      at parsed
    split at parsed <;> cases parsed

section Rendered

variable {limit : Nat} (idValid : frame.IdValid) (small : frame.dataLen ≤ 0xffffff)
  (enough : 9 + frame.dataLen ≤ limit)
include idValid small enough

/-- What `parse_frame` makes of a rendered frame is decided by its payload. -/
theorem parseFrame_headBytes (length_eq : frame.renderPayload.length = frame.dataLen)
    (rest : Bytes) :
    parseFrame (frame.headBytes ++ frame.renderPayload ++ rest) limit =
      match parsePayload frame.type frame.flag frame.dataLen frame.renderPayload rest with
      | .error error => .malformed error
      | .ok (payload, rest) => .frame { frame with len := frame.dataLen, payload := payload } rest := by
  have announcedLen : ofBytes ((frame.headBytes ++ frame.renderPayload ++ rest).take 3) =
      frame.dataLen := by
    rw [Frame.headBytes, append_assoc, append_assoc,
      take_left' (length_toBytes 3 _), ofBytes_toBytes]
    exact mod_eq_of_lt (by omega)
  have typeByte : (frame.headBytes ++ frame.renderPayload ++ rest).getD 3 0 = frame.type.value := by
    simp [Frame.headBytes]
  have whole : (frame.headBytes ++ frame.renderPayload ++ rest).length =
      9 + frame.dataLen + rest.length := by
    rw [length_append, length_append, length_headBytes, length_eq]
  rw [parseFrame, if_neg (by omega)]
  simp only [announcedLen, if_neg (not_lt.2 enough), typeByte, FrameType.ofValue_value]
  rw [if_neg (by omega), append_assoc, parseAs_headBytes idValid small length_eq]
  cases parsePayload frame.type frame.flag frame.dataLen frame.renderPayload rest <;> rfl

variable {bytes : Bytes} (rendered : frame.render = some bytes)
include rendered

theorem parseFrame_render (readable : frame.Readable) (rest : Bytes) :
    parseFrame (bytes ++ rest) limit = .frame frame.announced rest ∧
      bytes.length = 9 + frame.dataLen := by
  obtain ⟨accepted, rfl⟩ := render_eq rendered idValid small
  have length_eq := length_renderPayload readable
  rw [parseFrame_headBytes idValid small enough length_eq, parsePayload_render readable accepted,
    length_append, length_headBytes, length_eq]
  exact ⟨rfl, rfl⟩

/-- A frame is read back, whatever follows it, exactly if a parser can read it back. -/
theorem frame_round_trip (rest : Bytes) :
    (parseFrame (bytes ++ rest) limit = .frame frame.announced rest ∧
      bytes.length = 9 + frame.dataLen) ↔ frame.Readable := by
  refine ⟨fun ⟨parsed, length_eq⟩ => ?_,
    fun readable => parseFrame_render idValid small enough rendered readable rest⟩
  obtain ⟨-, rfl⟩ := render_eq rendered idValid small
  rw [length_append, length_headBytes] at length_eq
  rw [parseFrame_headBytes idValid small enough (by omega)] at parsed
  split at parsed
  · cases parsed
  · rename_i payload_parsed
    cases parsed
    exact readable_of_parsePayload payload_parsed

end Rendered

/-- HEADERS with a priority, followed by other bytes. -/
theorem frame_round_trip_headers :
    let frame : Frame := { flag := 0x25, id := 1, payload := .header 0 ⟨3, 200⟩ [0x82, 0x86] }
    let bytes : Bytes := [0, 0, 7, 1, 0x25, 0, 0, 0, 1, 0, 0, 0, 3, 200, 0x82, 0x86]
    parseFrame (bytes ++ [9, 9]) 16384 = .frame frame.announced [9, 9] ∧
      bytes.length = 9 + frame.dataLen :=
  (frame_round_trip (by decide) (by decide) (by decide) (by decide) _).2 (by decide)

/-- DATA, padded HEADERS, GOAWAY with debug data and an acknowledgement with settings are refused;
PUSH_PROMISE reads what follows it. -/
theorem frame_round_trip_fails :
    let parsed (frame : Frame) :=
      (frame.render.map fun bytes => parseFrame (bytes ++ [0, 0, 0, 7]) 16384)
    parsed { id := 1, payload := .data 0 [1, 2] } = some (.malformed { code := .protocol }) ∧
      parsed { flag := 0x8, id := 1, payload := .header 3 ⟨0, 0⟩ [1] } =
        some (.malformed { code := .internal }) ∧
      parsed { id := 0, payload := .goaway 1 2 [3] } = some (.malformed { code := .internal }) ∧
      parsed { flag := 0x1, id := 0, payload := .settings [0, 4, 0, 0, 0, 9] } =
        some (.malformed { code := .frameSize }) ∧
      parsed { id := 1, payload := .pushPromise 0 2 [1] } =
        some (.frame ⟨5, 0, 1, .pushPromise 0 7 [0, 0, 0, 2, 1]⟩ []) := by
  decide

end RoundTrip

end Futils.Http2
