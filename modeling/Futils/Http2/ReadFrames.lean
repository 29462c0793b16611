import Futils.Http2.Frame
import Futils.Lib.Incremental
import Mathlib.Data.List.Forall2

/-!
# Reading frames from a connection

`read_frames` takes frames off the front of the receive buffer until one is incomplete or wrong.
For a frame of an unknown type the reader does not move, and the loop goes round for ever; and
PUSH_PROMISE reads four bytes behind its end, which may not have arrived.  On every other stream the
frames are those of the lengths in the heads, however the stream is cut.
-/

namespace Futils.Http2

open Binary Lib.BigEndian Lib.Incremental List Option

def connectionPreface : Bytes := "PRI * HTTP/2.0\r\n\r\nSM\r\n\r\n".toUTF8.data.toList

/-- `FrameHandler`, with the frames that were handed to `recv_frame`. -/
structure FrameHandler where
  isServer : Bool
  preface : Bool := false
  recvBuffer : Bytes := []
  received : List Frame := []
  deriving DecidableEq

namespace FrameHandler

/-- The loop of `read_frames`; `none` when it has not returned after `fuel` rounds.  What `recv_frame`
answers is not looked at. -/
def readFrames (limit : Nat) : Nat → FrameHandler → Option (FrameHandler × Option Error)
  | 0, _ => none
  | fuel + 1, handler =>
    if handler.isServer && !handler.preface then
      if handler.recvBuffer.length < connectionPreface.length then some (handler, none)
      else if handler.recvBuffer.take connectionPreface.length ≠ connectionPreface then
        some (handler, some { code := .protocol, debug := some "invalid preface" })
      else
        readFrames limit fuel { handler with
          preface := true
          recvBuffer := handler.recvBuffer.drop connectionPreface.length }
    else
      match parseFrame handler.recvBuffer limit with
      | .wait => some (handler, none)
      | .refused error => some (handler, some error)
      | .malformed error => some (handler, some error)
      | .frame frame rest =>
        readFrames limit fuel { handler with
          recvBuffer := rest
          received := handler.received ++ [frame] }
      | .unknown _ => readFrames limit fuel handler

def addDataAndReadFrames (limit fuel : Nat) (handler : FrameHandler) (data : Bytes) :
    Option (FrameHandler × Option Error) :=
  readFrames limit fuel { handler with recvBuffer := handler.recvBuffer ++ data }

/-- Successive calls of `add_data_and_read_frames` with their answers; `none` when one of them does
not return. -/
def feed (limit fuel : Nat) : FrameHandler → List Bytes →
    Option (FrameHandler × List (Option Error))
  | handler, [] => some (handler, [])
  | handler, data :: chunks => do
    let (handler, answer) ← handler.addDataAndReadFrames limit fuel data
    let (handler, answers) ← feed limit fuel handler chunks
    some (handler, answer :: answers)

end FrameHandler

open FrameHandler

/-- Why no more is taken off a stream. -/
inductive Stop where
  | short
  | failed (error : Error)
  deriving DecidableEq

/-- What has been taken off a stream: the preface and complete frames. -/
structure Framing where
  preface : Bool := false
  blocks : List Bytes := []

def blockSize (input : Bytes) : Nat := 9 + ofBytes (input.take 3)

/-- The type of a frame that is read in the frame alone; PUSH_PROMISE is only where it is refused
early. -/
def ownType (block : Bytes) : Option FrameType :=
  match FrameType.ofValue (block.getD 3 0) with
  | some .pushPromise =>
    if hasFlag (block.getD 4 0) .padded || ofBytes ((block.drop 5).take 4) % 2 ^ 31 = 0 then
      some .pushPromise
    else none
  | type => type

/-- A frame that is read in the frame alone. -/
def Legible (block : Bytes) : Prop := (ownType block).isSome = true
deriving Decidable

/-- The error of a complete frame that is read in the frame alone. -/
def blockError (block : Bytes) : Option Error :=
  match ownType block with
  | none => none
  | some type =>
    match parseAs type block with
    | .error error => some error
    | .ok _ => none

/-- The frame that a complete frame is handed over as. -/
def frameOf (block : Bytes) : Option Frame :=
  match ownType block with
  | none => none
  | some type =>
    match parseAs type block with
    | .error _ => none
    | .ok (frame, _) => some frame

/-- The next item of a stream: the preface at the beginning of what a server reads, then frames of the
lengths in their heads. -/
def nextItem (isServer : Bool) (limit : Nat) (framing : Framing) (input : Bytes) :
    Except Stop (Framing × Bytes) :=
  if isServer && !framing.preface then
    if input.length < connectionPreface.length then .error .short
    else if input.take connectionPreface.length ≠ connectionPreface then
      .error (.failed { code := .protocol, debug := some "invalid preface" })
    else .ok ({ framing with preface := true }, input.drop connectionPreface.length)
  else if input.length < 9 then .error .short
  else if limit < blockSize input then
    .error (.failed { code := .frameSize, debug := some "frame size exceeded limit" })
  else if input.length < blockSize input then .error .short
  else
    match blockError (input.take (blockSize input)) with
    | some error => .error (.failed error)
    | none =>
      .ok ({ framing with blocks := framing.blocks ++ [input.take (blockSize input)] },
        input.drop (blockSize input))

section Reader

variable {isServer : Bool} {limit : Nat} {framing : Framing}

theorem blockSize_append {input : Bytes} (enough : ¬ input.length < 9) (more : Bytes) :
    blockSize (input ++ more) = blockSize input := by
  rw [blockSize, blockSize, take_append_of_le_length (by omega)]

theorem stable_nextItem (framing : Framing) : Stable .short (nextItem isServer limit framing) := by
  refine .of_answer fun input more => ?_
  have longer {size : Nat} (enough : ¬ input.length < size) : ¬ (input ++ more).length < size := by
    rw [length_append]
    omega
  simp only [nextItem]
  split
  · split
    · exact .inl rfl
    rename_i enough
    rw [if_neg (longer enough), take_append_of_le_length (not_lt.1 enough),
      drop_append_of_le_length (not_lt.1 enough)]
    split <;> exact .inr rfl
  · split
    · exact .inl rfl
    rename_i enough
    rw [if_neg (longer enough), blockSize_append enough]
    split
    · exact .inr rfl
    split
    · exact .inl rfl
    rename_i complete
    rw [if_neg (longer complete), take_append_of_le_length (not_lt.1 complete),
      drop_append_of_le_length (not_lt.1 complete)]
    cases blockError (input.take (blockSize input)) <;> exact .inr rfl

/-- What taking an item does: a server takes the preface first, and then everyone takes complete
frames. -/
theorem nextItem_cases {input rest : Bytes} {after : Framing}
    (read : nextItem isServer limit framing input = .ok (after, rest)) :
    ((isServer && !framing.preface) ∧ input = connectionPreface ++ rest ∧
      after = { framing with preface := true }) ∨
    ((isServer && !framing.preface) = false ∧ ¬ input.length < 9 ∧ ¬ limit < blockSize input ∧
      ¬ input.length < blockSize input ∧ blockError (input.take (blockSize input)) = none ∧
      after = { framing with blocks := framing.blocks ++ [input.take (blockSize input)] } ∧
      rest = input.drop (blockSize input)) := by
  rw [nextItem] at read
  split at read
  case isTrue opening =>
    split at read
    · cases read
    split at read
    · cases read
    rename_i same
    cases read
    refine .inl ⟨opening, ?_, rfl⟩
    conv_lhs => rw [← take_append_drop _ input, not_not.1 same]
  case isFalse opened =>
    split at read
    · cases read
    rename_i enough
    split at read
    · cases read
    rename_i allowed
    split at read
    · cases read
    rename_i complete
    split at read
    · cases read
    rename_i fine
    cases read
    exact .inr ⟨Bool.eq_false_iff.2 opened, enough, allowed, complete, fine, rfl, rfl⟩

theorem reader_nextItem : Reader .short (nextItem isServer limit) := by
  refine ⟨stable_nextItem, fun {framing input after rest} read => ?_⟩
  obtain ⟨-, rfl, -⟩ | ⟨-, -, -, complete, -, -, rfl⟩ := nextItem_cases read
  · have preface_length : connectionPreface.length = 24 := by decide
    rw [length_append]
    omega
  · have positive : 0 < blockSize input := by rw [blockSize]; omega
    rw [length_drop]
    omega

end Reader

section Blocks

theorem length_of_readNum {width value : Nat} {input rest : Bytes}
    (read : readNum width input = some (value, rest)) : rest.length + width = input.length := by
  rw [readNum, Parser.take] at read
  split at read
  · cases read
  cases read
  rw [length_drop]
  omega

/-- A padded PUSH_PROMISE is always refused. -/
theorem parsePayload_pushPromise {flag : UInt8} (padded : hasFlag flag .padded) (sub : Bytes) :
    ∃ error, ∀ rest, parsePayload .pushPromise flag sub.length sub rest = .error error := by
  cases sub with
  | nil =>
    refine ⟨{ code := .frameSize }, fun rest => ?_⟩
    simp only [parsePayload, readPadding, padded]
    rfl
  | cons padding sub =>
    by_cases large : (padding :: sub).length < padding.toNat
    · refine ⟨{ code := .protocol }, fun rest => ?_⟩
      simp only [parsePayload, readPadding, padded]
      exact if_pos large
    · refine ⟨{ code := .internal }, fun rest => ?_⟩
      -- The byte that gives the padding is counted once more.
      have exceeded : readPadded (sub32 (padding :: sub).length padding.toNat) padding sub =
          .error { code := .internal } := by
        rw [sub32_of_le (not_lt.1 large), readPadded, Parser.take]
        split
        case isTrue => rfl
        case isFalse enough =>
          have few : (sub.drop ((padding :: sub).length - padding.toNat)).length <
              padding.toNat := by
            rw [length_drop]
            rw [length_cons] at large enough ⊢
            omega
          simp only [bind_eq_bind, bind_some, Parser.take, if_pos few]
          rfl
      simp only [parsePayload, readPadding, padded]
      refine (if_neg large).trans ?_
      simp only [exceeded]
      cases readNum 4 rest <;> rfl

variable {type : FrameType} {block : Bytes}

/-- What is read in the frame alone does not depend on what follows the frame. -/
theorem parsePayload_rest {flag : UInt8} (own : type = .pushPromise → hasFlag flag .padded)
    (sub rest : Bytes) :
    parsePayload type flag sub.length sub rest =
      (parsePayload type flag sub.length sub []).map fun item => (item.1, rest) := by
  cases type with
  | pushPromise =>
    obtain ⟨_, refused⟩ := parsePayload_pushPromise (own rfl) sub
    rw [refused, refused]
    rfl
  | continuation => rfl
  | goaway =>
    simp only [parsePayload, bind, Except.bind]
    split
    case isTrue => rfl
    case isFalse enough =>
      rcases first : readNum 4 sub with _ | ⟨_, middle⟩
      case none => rfl
      case some =>
        rcases second : readNum 4 middle with _ | ⟨_, left⟩
        case none =>
          simp only [orFail, Option.elim, second]
          rfl
        case some =>
          have firstLength := length_of_readNum first
          have secondLength := length_of_readNum second
          have wrapped : sub32 sub.length 8 = left.length := by
            rw [sub32_of_le (not_lt.1 enough)]
            omega
          simp only [orFail, Option.elim, second, wrapped]
          by_cases done : left = []
          · subst done
            rfl
          · -- Debug data is left unread in the frame, so that the parser fails at the latest
            -- after it has read as much behind the frame.
            simp only [if_neg done]
            cases Parser.take left.length rest <;> cases Parser.take left.length [] <;> rfl
  | data | header | settings | priority | rstStream | ping | windowUpdate =>
    simp only [parsePayload, bind, Except.bind]
    repeat' split
    all_goals rfl

theorem readNum_front {width : Nat} {bytes : Bytes} (length_eq : bytes.length = width)
    (rest : Bytes) : readNum width (bytes ++ rest) = some (ofBytes bytes, rest) := by
  have taken := Parser.reads_take bytes rest
  rw [length_eq] at taken
  simp only [readNum, taken, map_some]

/-- The parts of a complete frame. -/
theorem exists_parts (complete : block.length = blockSize block) :
    ∃ size value flag id payload, block = size ++ value :: flag :: (id ++ payload) ∧
      size.length = 3 ∧ id.length = 4 ∧ payload.length = ofBytes size := by
  rw [blockSize] at complete
  refine ⟨block.take 3, block.get ⟨3, by omega⟩, block.get ⟨4, by omega⟩, (block.drop 5).take 4,
    block.drop 9, ?_, by rw [length_take]; omega,
    by rw [length_take, length_drop]; omega, by rw [length_drop]; omega⟩
  have tail : (block.drop 5).take 4 ++ block.drop 9 = block.drop 5 := by
    rw [show block.drop 9 = (block.drop 5).drop 4 by rw [drop_drop], take_append_drop]
  rw [tail, get_eq_getElem, get_eq_getElem, ← drop_eq_getElem_cons,
    ← drop_eq_getElem_cons, take_append_drop]

theorem ownType_cases (own : ownType block = some type) :
    FrameType.ofValue (block.getD 3 0) = some type ∧ (type = .pushPromise →
      hasFlag (block.getD 4 0) .padded ∨ ofBytes ((block.drop 5).take 4) % 2 ^ 31 = 0) := by
  rw [ownType] at own
  split at own
  case h_1 known =>
    split at own
    case isTrue early =>
      cases own
      exact ⟨known, fun _ => by simpa using early⟩
    case isFalse => cases own
  case h_2 other => exact ⟨own, fun push => absurd (push ▸ own) other⟩

/-- A complete frame that is read in the frame alone is parsed as it is parsed alone. -/
theorem parseAs_block (own : ownType block = some type)
    (complete : block.length = blockSize block) (rest : Bytes) :
    parseAs type (block ++ rest) = (parseAs type block).map fun item => (item.1, rest) := by
  have early := (ownType_cases own).2
  obtain ⟨size, value, flag, id, payload, rfl, sizeLength, idLength, payloadLength⟩ :=
    exists_parts complete
  have flagByte : (size ++ value :: flag :: (id ++ payload)).getD 4 0 = flag := by
    rw [List.getD_eq_getElem?_getD, List.getElem?_append_right (by omega), sizeLength]
    rfl
  have idBytes : ((size ++ value :: flag :: (id ++ payload)).drop 5).take 4 = id := by
    rw [List.drop_append, sizeLength, List.drop_of_length_le (by omega)]
    exact List.take_left' idLength
  rw [flagByte, idBytes] at early
  have taken := Parser.reads_take payload rest
  have alone := Parser.reads_take payload []
  rw [List.append_nil] at alone
  rw [payloadLength] at taken alone
  rw [parseAs, parseAs, List.append_assoc, readNum_front sizeLength, readNum_front sizeLength]
  simp only [List.cons_append, List.append_assoc, orFail, Option.elim, readU8, bind, Except.bind,
    readNum_front idLength]
  split
  case isTrue => rfl
  case isFalse =>
    split
    case isTrue => rfl
    case isFalse allowed =>
      have padded : type = .pushPromise → hasFlag flag .padded := by
        rintro rfl
        refine (early rfl).resolve_right fun zero => allowed ?_
        rw [zero]
        rfl
      have payload_rest := parsePayload_rest padded payload rest
      rw [payloadLength] at payload_rest
      simp only [taken, alone, payload_rest]
      cases parsePayload type flag (ofBytes size) payload [] <;> rfl

variable {input : Bytes} {limit : Nat}

theorem length_block (complete : ¬ input.length < blockSize input) :
    (input.take (blockSize input)).length = blockSize (input.take (blockSize input)) := by
  have least : 3 ≤ blockSize input := by rw [blockSize]; omega
  have same : blockSize (input.take (blockSize input)) = blockSize input := by
    conv_lhs => rw [blockSize, take_take, Nat.min_eq_left least]
    rfl
  rw [length_take]
  omega

/-- `parse_frame` on a complete frame that is read in the frame alone. -/
theorem parseFrame_block (enough : ¬ input.length < 9) (allowed : ¬ limit < blockSize input)
    (complete : ¬ input.length < blockSize input)
    (legible : Legible (input.take (blockSize input))) :
    (∃ error, blockError (input.take (blockSize input)) = some error ∧
      parseFrame input limit = .malformed error) ∨
    ∃ frame, blockError (input.take (blockSize input)) = none ∧
      frameOf (input.take (blockSize input)) = some frame ∧
      parseFrame input limit = .frame frame (input.drop (blockSize input)) := by
  obtain ⟨type, own⟩ := isSome_iff_exists.1 legible
  have known := (ownType_cases own).1
  have least : 9 ≤ blockSize input := by rw [blockSize]; omega
  have typeByte : input.getD 3 0 = (input.take (blockSize input)).getD 3 0 := by
    rw [getD_eq_getElem?_getD, getD_eq_getElem?_getD, getElem?_take_of_lt (by omega)]
  have parsed := parseAs_block own (length_block complete) (input.drop (blockSize input))
  rw [take_append_drop] at parsed
  have frameEq : parseFrame input limit =
      match parseAs type input with
      | .error error => .malformed error
      | .ok (frame, rest) => .frame frame rest := by
    rw [parseFrame, if_neg enough]
    simp only [typeByte, known]
    exact (if_neg allowed).trans (if_neg complete)
  have errorEq : blockError (input.take (blockSize input)) =
      match parseAs type (input.take (blockSize input)) with
      | .error error => some error
      | .ok _ => none := by
    rw [blockError, own]
  have ofEq : frameOf (input.take (blockSize input)) =
      match parseAs type (input.take (blockSize input)) with
      | .error _ => none
      | .ok (frame, _) => some frame := by
    rw [frameOf, own]
  rw [frameEq, errorEq, ofEq, parsed]
  match parseAs type (input.take (blockSize input)) with
  | .error error => exact .inl ⟨error, rfl, rfl⟩
  | .ok (frame, rest) => exact .inr ⟨frame, rfl, rfl, rfl⟩

theorem legible_of_blockError {error : Error} (wrong : blockError block = some error) :
    Legible block := by
  rw [blockError] at wrong
  rw [Legible]
  cases known : ownType block with
  | none =>
    rw [known] at wrong
    cases wrong
  | some type => rfl

end Blocks

section Run

variable {isServer : Bool} {limit : Nat} {framing : Framing} {input : Bytes}

/-- Everything that can be taken off a stream. -/
def taken (isServer : Bool) (limit : Nat) (framing : Framing) (input : Bytes) :
    Framing × Bytes × Option Stop :=
  drain .short (nextItem isServer limit) framing input

/-- The handler that has read what has been taken off. -/
def Framing.handler (isServer : Bool) (framing : Framing) (buffer : Bytes) : FrameHandler where
  isServer := isServer
  preface := framing.preface
  recvBuffer := buffer
  received := framing.blocks.filterMap frameOf

def Stop.error : Stop → Option Error
  | short => none
  | failed error => some error

theorem mem_blocks_taken {block : Bytes} (member : block ∈ framing.blocks) :
    block ∈ (taken isServer limit framing input).1.blocks := by
  refine drain_preserves (P := fun (framing : Framing) _ => block ∈ framing.blocks)
    (fun before read => ?_) member
  obtain ⟨-, -, rfl⟩ | ⟨-, -, -, -, -, rfl, -⟩ := nextItem_cases read
  · exact before
  · exact mem_append_left _ before

theorem parseFrame_short (short : input.length < 9 ∨
    ¬ limit < blockSize input ∧ input.length < blockSize input) :
    parseFrame input limit = .wait := by
  rw [parseFrame]
  split
  case isTrue => rfl
  case isFalse enough =>
    obtain few | ⟨allowed, incomplete⟩ := short
    · exact absurd few enough
    · exact (if_neg allowed).trans (if_pos incomplete)

/-- The loop returns where nothing more can be taken off. -/
theorem readFrames_of_stop {stop : Stop} (item : nextItem isServer limit framing input = .error stop)
    (fuel : Nat) :
    readFrames limit (fuel + 1) (framing.handler isServer input) =
      some (framing.handler isServer input, stop.error) := by
  rw [nextItem] at item
  rw [readFrames]
  split at item
  case isTrue opening =>
    rw [if_pos (show ((framing.handler isServer input).isServer &&
      !(framing.handler isServer input).preface) from opening)]
    split at item
    case isTrue few =>
      cases item
      exact if_pos few
    case isFalse enough =>
      split at item
      case isTrue different =>
        cases item
        exact (if_neg enough).trans (if_pos different)
      case isFalse => cases item
  case isFalse opened =>
    rw [if_neg (show ¬ ((framing.handler isServer input).isServer &&
      !(framing.handler isServer input).preface) from opened)]
    have parsed : parseFrame input limit = .wait ∧ stop = .short ∨ ∃ error,
        stop = .failed error ∧
          (parseFrame input limit = .refused error ∨ parseFrame input limit = .malformed error) := by
      split at item
      case isTrue few =>
        cases item
        exact .inl ⟨parseFrame_short (.inl few), rfl⟩
      case isFalse enough =>
        split at item
        case isTrue large =>
          cases item
          refine .inr ⟨_, rfl, .inl ?_⟩
          rw [parseFrame, if_neg enough]
          exact if_pos large
        case isFalse allowed =>
          split at item
          case isTrue incomplete =>
            cases item
            exact .inl ⟨parseFrame_short (.inr ⟨allowed, incomplete⟩), rfl⟩
          case isFalse complete =>
            split at item
            case h_1 error wrong =>
              cases item
              obtain ⟨_, wrong', parsed⟩ | ⟨-, fine, -⟩ :=
                parseFrame_block enough allowed complete (legible_of_blockError wrong)
              · rw [wrong] at wrong'
                cases wrong'
                exact .inr ⟨error, rfl, .inr parsed⟩
              · rw [wrong] at fine
                cases fine
            case h_2 => cases item
    show (match parseFrame input limit with
      | .wait => some (framing.handler isServer input, none)
      | .refused error => some (framing.handler isServer input, some error)
      | .malformed error => some (framing.handler isServer input, some error)
      | .frame frame rest => _
      | .unknown _ => _) = _
    obtain ⟨waits, rfl⟩ | ⟨_, rfl, refused | malformed⟩ := parsed
    · rw [waits]; rfl
    · rw [refused]; rfl
    · rw [malformed]; rfl

/-- The loop takes off what can be taken off, and it returns. -/
theorem readFrames_eq :
    ∀ {fuel : Nat} {framing : Framing} {input : Bytes}, input.length < fuel →
      (∀ block ∈ (taken isServer limit framing input).1.blocks, Legible block) →
      readFrames limit fuel (framing.handler isServer input) =
        some ((taken isServer limit framing input).1.handler isServer
          (taken isServer limit framing input).2.1,
          (taken isServer limit framing input).2.2.bind Stop.error) := by
  intro fuel
  induction fuel with
  | zero => exact fun short => absurd short (Nat.not_lt_zero _)
  | succ fuel ih =>
    intro framing input enoughFuel legible
    match item : nextItem isServer limit framing input with
    | .ok (after, rest) =>
      have shorter := reader_nextItem.progress item
      have same : taken isServer limit framing input = taken isServer limit after rest :=
        drain_of_ok reader_nextItem item
      rw [same] at legible ⊢
      rw [← ih (by omega) legible]
      obtain ⟨opening, rfl, rfl⟩ | ⟨opened, enough, allowed, complete, fine, rfl, rfl⟩ :=
        nextItem_cases item
      · simp [readFrames, Framing.handler, opening]
      · have member := legible _ (mem_blocks_taken (mem_append_right _ (mem_singleton_self _)))
        obtain ⟨_, wrong, -⟩ | ⟨_, -, frameEq, parsed⟩ :=
          parseFrame_block enough allowed complete member
        · rw [fine] at wrong
          cases wrong
        · simp [readFrames, Framing.handler, opened, parsed, frameEq]
    | .error stop =>
      have stays : taken isServer limit framing input =
          (framing, input, if stop = .short then none else some stop) := drain_of_error item
      rw [readFrames_of_stop item, stays]
      cases stop <;> rfl

theorem length_taken_le : (taken isServer limit framing input).2.1.length ≤ input.length :=
  drain_preserves (P := fun _ (rest : Bytes) => rest.length ≤ input.length)
    (fun before read => le_trans (le_of_lt (reader_nextItem.progress read)) before)
    (le_rfl)

/-- Resumed after more data has come in, the calls take off what can be taken off at once. -/
theorem feed_eq {fuel : Nat} :
    ∀ {chunks : List Bytes} {past : Bytes}, (past ++ chunks.flatten).length < fuel →
      (∀ block ∈ (taken isServer limit {} (past ++ chunks.flatten)).1.blocks, Legible block) →
      ∃ answers, feed limit fuel ((taken isServer limit {} past).1.handler isServer
          (taken isServer limit {} past).2.1) chunks =
        some ((taken isServer limit {} (past ++ chunks.flatten)).1.handler isServer
          (taken isServer limit {} (past ++ chunks.flatten)).2.1, answers) ∧
        answers.length = chunks.length ∧ (chunks ≠ [] →
          (taken isServer limit {} (past ++ chunks.flatten)).2.2.bind Stop.error ∈ answers) := by
  intro chunks
  induction chunks with
  | nil =>
    intro past _ _
    rw [flatten_nil, append_nil]
    exact ⟨[], rfl, rfl, fun nonempty => absurd rfl nonempty⟩
  | cons data chunks ih =>
    intro past enough legible
    rw [flatten_cons, ← append_assoc] at enough legible ⊢
    have resumed : taken isServer limit (taken isServer limit {} past).1
        ((taken isServer limit {} past).2.1 ++ data) = taken isServer limit {} (past ++ data) :=
      drain_resume reader_nextItem _ {} _
    have later : taken isServer limit (taken isServer limit {} (past ++ data)).1
        ((taken isServer limit {} (past ++ data)).2.1 ++ chunks.flatten) =
          taken isServer limit {} (past ++ data ++ chunks.flatten) :=
      drain_resume reader_nextItem _ {} _
    have shorter := @length_taken_le isServer limit {} past
    rw [length_append, length_append] at enough
    have call := @readFrames_eq _ _ fuel _
      ((taken isServer limit {} past).2.1 ++ data) (by rw [length_append]; omega)
      (fun block member => legible _ (by
        rw [resumed] at member
        rw [← later]
        exact mem_blocks_taken member))
    rw [resumed] at call
    obtain ⟨answers, fed, count, last⟩ := @ih _
      (by rw [length_append, length_append]; omega) legible
    refine ⟨(taken isServer limit {} (past ++ data)).2.2.bind Stop.error :: answers, ?_,
      by rw [length_cons, length_cons, count], fun _ => ?_⟩
    · change (readFrames limit fuel ((taken isServer limit {} past).1.handler isServer
        ((taken isServer limit {} past).2.1 ++ data)) >>= _) = _
      rw [call]
      simp only [bind_eq_bind, bind_some, fed]
    · cases chunks with
      | nil =>
        rw [flatten_nil, append_nil]
        exact mem_cons_self
      | cons => exact mem_cons_of_mem _ (last (cons_ne_nil _ _))

/-- A complete frame that passes. -/
def Passes (limit : Nat) (block : Bytes) : Prop :=
  block.length = blockSize block ∧ block.length ≤ limit ∧ blockError block = none

theorem passes_taken :
    ∀ block ∈ (taken isServer limit {} input).1.blocks, Passes limit block := by
  refine drain_preserves (P := fun (framing : Framing) (_ : Bytes) =>
    ∀ block ∈ framing.blocks, Passes _ block) (fun {_ input _ _} before read => ?_)
    (fun _ none => nomatch none)
  obtain ⟨-, -, rfl⟩ | ⟨-, -, allowed, complete, fine, rfl, -⟩ := nextItem_cases read
  · exact before
  · intro block member
    obtain earlier | rfl := mem_snoc.1 member
    · exact before _ earlier
    · refine ⟨length_block complete, ?_, fine⟩
      rw [length_take]
      omega

theorem Passes.parseFrame {block : Bytes} (passes : Passes limit block) (legible : Legible block) :
    ∃ frame, frameOf block = some frame ∧ parseFrame block limit = .frame frame [] := by
  obtain ⟨complete, allowed, fine⟩ := passes
  have least : 9 ≤ blockSize block := by rw [blockSize]; omega
  have whole : block.take (blockSize block) = block := take_of_length_le (by omega)
  have none_left : block.drop (blockSize block) = [] := drop_of_length_le (by omega)
  have parsed := @parseFrame_block block limit (by omega) (by omega) (by omega) (by rwa [whole])
  rw [whole, none_left] at parsed
  obtain ⟨_, wrong, -⟩ | ⟨frame, -, frameEq, parsed⟩ := parsed
  · rw [fine] at wrong
    cases wrong
  · exact ⟨frame, frameEq, parsed⟩

theorem forall₂_filterMap {blocks : List Bytes} (passes : ∀ block ∈ blocks, Passes limit block)
    (legible : ∀ block ∈ blocks, Legible block) :
    List.Forall₂ (fun block frame => parseFrame block limit = .frame frame []) blocks
      (blocks.filterMap frameOf) := by
  induction blocks with
  | nil => exact .nil
  | cons block blocks ih =>
    obtain ⟨_, frameEq, parsed⟩ := (passes _ mem_cons_self).parseFrame (legible _ mem_cons_self)
    rw [filterMap_cons, frameEq]
    exact .cons parsed (ih (forall_mem_cons.1 passes).2
      (forall_mem_cons.1 legible).2)

/-- Where a stream has been cut: before the preface of what a server reads, or behind it and some
frames. -/
def Cut (isServer : Bool) (stream : Bytes) (framing : Framing) (rest : Bytes) : Prop :=
  if isServer && !framing.preface then rest = stream ∧ framing.blocks = []
  else stream = (if isServer then connectionPreface else []) ++ framing.blocks.flatten ++ rest

theorem Cut.nextItem {stream rest : Bytes} {after : Framing} (cut : Cut isServer stream framing input)
    (read : nextItem isServer limit framing input = .ok (after, rest)) :
    Cut isServer stream after rest := by
  obtain ⟨opening, rfl, rfl⟩ | ⟨opened, -, -, -, -, rfl, rfl⟩ := nextItem_cases read
  · rw [Cut, if_pos opening] at cut
    obtain ⟨rfl, empty⟩ := cut
    have server : isServer := (Bool.and_eq_true_iff.1 opening).1
    simp [Cut, server, empty]
  · rw [Cut, if_neg (by rw [opened]; decide)] at cut
    rw [Cut, if_neg (by simpa using opened), cut]
    simp

theorem cut_taken (stream : Bytes) :
    Cut isServer stream (taken isServer limit {} stream).1 (taken isServer limit {} stream).2.1 :=
  drain_preserves (P := Cut _ _) (fun cut read => cut.nextItem read)
    (by cases isServer <;> simp [Cut])

/-- Where nothing failed, the stream has been cut behind complete frames and what is left is not a
complete frame. -/
theorem taken_quiet {stream rest : Bytes} {framing : Framing} {status : Option Stop}
    (opens : isServer → connectionPreface <+: stream)
    (drained : taken isServer limit {} stream = (framing, rest, status))
    (quiet : status.bind Stop.error = none) :
    stream = (if isServer then connectionPreface else []) ++ framing.blocks.flatten ++ rest ∧
      parseFrame rest limit = .wait := by
  have cut := @cut_taken isServer limit stream
  have never : (taken isServer limit {} stream).2.2 ≠ some .short := drain_ne_short _ stream
  simp only [drained] at cut never
  match status with
  | some (.failed error) => cases quiet
  | some .short => exact absurd rfl never
  | none =>
    have item := read_rest_of_drain reader_nextItem drained
    rw [nextItem] at item
    rw [Cut] at cut
    split at cut
    case isTrue opening =>
      obtain ⟨_, rfl⟩ := opens (Bool.and_eq_true_iff.1 opening).1
      rw [if_pos opening, cut.1] at item
      cases item
    case isFalse opened =>
      refine ⟨cut, parseFrame_short ?_⟩
      rw [if_neg opened] at item
      split at item
      case isTrue few => exact .inl few
      case isFalse =>
        split at item
        · cases item
        rename_i allowed
        split at item
        case isTrue incomplete => exact .inr ⟨allowed, incomplete⟩
        case isFalse =>
          split at item
          · cases item
          cases item

theorem taken_nil : taken isServer limit {} [] = ({}, [], none) := by
  cases isServer <;> rfl

/-- However a stream is cut, every call returns, and the handler ends as when the stream is added at
once; without an error it has handed over the complete frames and keeps the rest. -/
theorem read_frames_chunked (isServer : Bool) (limit fuel : Nat) (stream : Bytes)
    (chunks : List Bytes) (opens : isServer = true → connectionPreface <+: stream)
    (legible : ∀ block ∈ (taken isServer limit {} stream).1.blocks, Legible block)
    (cuts : chunks.flatten = stream) (enough : stream.length < fuel) :
    ∃ after answers answer,
      feed limit fuel { isServer := isServer } chunks = some (after, answers) ∧
      feed limit fuel { isServer := isServer } [stream] = some (after, [answer]) ∧
      ((∀ answer ∈ answers, answer = none) → ∃ blocks,
        stream = (if isServer then connectionPreface else []) ++ blocks.flatten ++
          after.recvBuffer ∧
        List.Forall₂ (fun block frame => parseFrame block limit = .frame frame []) blocks
          after.received ∧
        parseFrame after.recvBuffer limit = .wait) := by
  subst cuts
  have started : (taken isServer limit {} []).1.handler isServer (taken isServer limit {} []).2.1 =
      { isServer := isServer } := by rw [taken_nil]; rfl
  obtain ⟨answers, fed, -, last⟩ := @feed_eq _ _ _ _ [] enough legible
  obtain ⟨_, once, count, -⟩ := @feed_eq _ _ _ _ []
    (by rwa [flatten_singleton]) (by rwa [flatten_singleton])
  obtain ⟨answer, rfl⟩ := length_eq_one_iff.1 count
  rw [started] at fed once
  rw [flatten_singleton] at once
  refine ⟨_, answers, answer, fed, once, fun quiet => ?_⟩
  have settled : (taken isServer limit {} chunks.flatten).2.2.bind Stop.error = none := by
    cases chunks with
    | nil => rw [flatten_nil, taken_nil]; rfl
    | cons => exact quiet _ (last (cons_ne_nil _ _))
  obtain ⟨stream_eq, waits⟩ := taken_quiet opens rfl settled
  exact ⟨_, stream_eq, forall₂_filterMap passes_taken legible, waits⟩

/-- The preface, a SETTINGS frame and the head of a PING frame, cut in the preface and in a head. -/
theorem read_frames_chunked_server :
    let stream := connectionPreface ++ [0, 0, 0, 4, 0, 0, 0, 0, 0] ++ [0, 0, 8, 6, 0, 0, 0, 0, 0]
    let chunks := [stream.take 10, (stream.drop 10).take 19, stream.drop 29]
    ∃ after answers answer,
      feed 16384 43 { isServer := true } chunks = some (after, answers) ∧
      feed 16384 43 { isServer := true } [stream] = some (after, [answer]) ∧
      ((∀ answer ∈ answers, answer = none) → ∃ blocks,
        stream = connectionPreface ++ blocks.flatten ++ after.recvBuffer ∧
        Forall₂ (fun block frame => parseFrame block 16384 = .frame frame []) blocks
          after.received ∧
        parseFrame after.recvBuffer 16384 = .wait) :=
  read_frames_chunked _ _ 43 _ _ (fun _ => ⟨_, (append_assoc ..).symm⟩)
    (by decide +kernel) (by decide +kernel) (by decide +kernel)

/-- At a frame of an unknown type the loop stays for ever. -/
theorem readFrames_unknown {handler : FrameHandler} {type : UInt8}
    (opened : (handler.isServer && !handler.preface) = false)
    (parsed : parseFrame handler.recvBuffer limit = .unknown type) (fuel : Nat) :
    handler.readFrames limit fuel = none := by
  induction fuel with
  | zero => rfl
  | succ fuel ih =>
    rw [readFrames, if_neg (by rw [opened]; decide), parsed]
    exact ih

/-- An empty frame of type 10 keeps `read_frames` in its loop, and PUSH_PROMISE takes four bytes off
the frame behind it. -/
theorem read_frames_stuck :
    (∀ fuel, feed 16384 fuel { isServer := false } [[0, 0, 0, 10, 0, 0, 0, 0, 1]] =
      none) ∧
    feed 16384 3 { isServer := false }
        [[0, 0, 1, 5, 4, 0, 0, 0, 1, 0x82] ++ [0, 0, 0, 4, 1, 0, 0, 0, 0]] =
      some ({ isServer := false
              recvBuffer := [1, 0, 0, 0, 0]
              received := [⟨1, 4, 1, .pushPromise 0 4 [0x82]⟩] }, [none]) := by
  refine ⟨fun fuel => ?_, by decide +kernel⟩
  rw [feed, addDataAndReadFrames, @readFrames_unknown _ _ 10 rfl (by decide +kernel)]
  rfl

end Run

end Futils.Http2
