import Futils.Http1.ReadContext
import Futils.Lib.Loop
import Futils.Lib.Machine

/-!
# Reading the body of a message

`read_body` reads a body by its length or in chunks.  Like the header reader it is a state machine
that stops where the input ends.  A chunked body that has been read in full is a chunked body in the
sense of the grammar below, as long as its sizes have a digit and fit into 64 bits.
-/

namespace Futils.Http1

open Sequencer Number Lib.Loop Lib.Machine

inductive BodyResult
  | full | bestEffort | incomplete | invalidState | lengthMismatch | badSpace | badLine
  | invalidHeader
deriving DecidableEq

/-- A call of `read_body` in progress, with the bytes that the callbacks for the body and for chunk
extensions have received. -/
structure BodyReading where
  ctx : ReadContext
  rptr : Nat
  pieces : List Bytes := []
  extensions : List Bytes := []
deriving DecidableEq

namespace BodyReading

variable (p : BodyReading)

/-- `save_pos` followed by `return`. -/
def suspend (pos : Nat) : BodyReading × BodyResult :=
  ({ p with ctx := p.ctx.savePos pos, rptr := pos }, .incomplete)

/-- `change_state` at the position of the sequencer. -/
def goto (state : ReadState) (pos : Nat) : BodyReading :=
  { p with ctx := p.ctx.changeState state pos, rptr := pos }

/-- `range_to_string_or_call` with the callback for the body. -/
def report (buf : Bytes) (start stop : Nat) : BodyReading :=
  { p with pieces := p.pieces ++ [slice buf start stop] }

def saveRemainContent (remain : Nat) : BodyReading :=
  { p with ctx := { p.ctx with headerKeyStartOrRemainContent := remain } }

def saveRemainChunk (remain : Nat) : BodyReading :=
  { p with ctx := { p.ctx with headerKeyEndOrRemainChunkSize := remain } }

/-- The chunks are checked against a content length as well. -/
def consistent : Bool :=
  p.ctx.bodyType == .chunkedContentLength && p.ctx.flag.consistentChunkedContentLength

/-- A part of the chunk data counts against the content length. -/
def countContent (count : Nat) : BodyReading :=
  if p.ctx.bodyType = .chunkedContentLength then
    p.saveRemainContent (sub64 p.ctx.headerKeyStartOrRemainContent count)
  else p

end BodyReading

/-- One hexadecimal digit pushed into a `size_t`. -/
def pushHex (size : Nat) (c : UInt8) : Nat := (size * 16 + (numberTransform c).getD 0) % 2 ^ 64

variable (buf : Bytes) (p : BodyReading)

/-- The case of `read_body` in which the body type decides how to go on. -/
def readBodyInit : BodyReading ⊕ (BodyReading × BodyResult) :=
  match p.ctx.bodyType with
  | .noInfo => .inr ({ p.report buf p.rptr buf.length with rptr := buf.length }, .bestEffort)
  | .contentLength => .inl (p.goto .bodyContentLengthInit p.rptr)
  | .chunked => .inl (p.goto .bodyChunkedInit p.rptr)
  | .chunkedContentLength =>
    if p.ctx.flag.chunkedContentLengthAsChunked ∨ p.ctx.flag.consistentChunkedContentLength then
      if p.ctx.flag.chunkedContentLengthAsChunked ∧ p.ctx.flag.consistentChunkedContentLength then
        .inr (p, .invalidState)
      else .inl (p.goto .bodyChunkedInit p.rptr)
    else .inr (p, .invalidHeader)

/-- The case of `read_body` for a body with a length. -/
def readContentLength : BodyReading × BodyResult :=
  if eos buf p.rptr then p.suspend p.rptr
  else
    let remain := p.ctx.headerKeyStartOrRemainContent
    let input := buf.length - p.rptr
    if input < remain then
      ((p.report buf p.rptr (p.rptr + input)).saveRemainContent (remain - input)).suspend
        (p.rptr + input)
    else
      (((p.report buf p.rptr (p.rptr + remain)).saveRemainContent 0).goto .bodyEnd
        (p.rptr + remain), .full)

/-- The case of `read_body` for the digits of a chunk size. -/
def readChunkSize : BodyReading ⊕ (BodyReading × BodyResult) :=
  let pos := consumeWhile isHex buf p.rptr
  let size := (slice buf p.rptr pos).foldl pushHex p.ctx.headerKeyEndOrRemainChunkSize
  let saved := p.saveRemainChunk size
  if eos buf pos then .inr (saved.suspend pos)
  else if p.consistent ∧ p.ctx.headerKeyStartOrRemainContent < size then
    .inr ({ saved with rptr := pos }, .lengthMismatch)
  else .inl (saved.goto .bodyChunkedExtensionInit pos)

/-- The case of `read_body` for what follows a chunk size.  The difference of two positions is zero
exactly when they are equal. -/
def readExtensionInit : BodyReading ⊕ (BodyReading × BodyResult) :=
  let pos := consumeWhile isTabOrSpace buf p.rptr
  if eos buf pos then .inr (p.suspend pos)
  else if current buf pos = 59 then .inl (p.goto .bodyChunkedExtension (pos + 1))
  else if p.ctx.startPos ≠ pos then .inr ({ p with rptr := pos }, .badSpace)
  else .inl (p.goto .bodyChunkedSizeEolOneByte pos)

/-- The case of `read_body` for a chunk extension. -/
def readExtension : BodyReading ⊕ (BodyReading × BodyResult) :=
  let pos := consumeWhile (fun c => !isLine c) buf p.rptr
  if eos buf pos then .inr (p.suspend pos)
  else
    .inl ({ p with extensions := p.extensions ++ [slice buf p.ctx.startPos pos] }.goto
      .bodyChunkedSizeEolOneByte pos)

/-- A case of `read_body` that ends a line and goes on in `next`. -/
def readBodyEol (oneByte twoByte next : ReadState) (p : BodyReading) :
    BodyReading ⊕ (BodyReading × BodyResult) :=
  let line := readEolWithFlag buf oneByte twoByte next p.ctx p.rptr
  let left : BodyReading := { p with ctx := line.2.1, rptr := line.2.2 }
  if line.1 then .inl left
  else .inr (left, if left.ctx.resumable then .incomplete else .badLine)

/-- The case of `read_body` behind the size line of a chunk. -/
def readDataInit : BodyReading ⊕ (BodyReading × BodyResult) :=
  if p.ctx.headerKeyEndOrRemainChunkSize = 0 then
    if p.consistent ∧ p.ctx.headerKeyStartOrRemainContent ≠ 0 then .inr (p, .lengthMismatch)
    else if p.ctx.flag.notStrictTrailer ∨ p.ctx.hasTrailer then
      .inr (p.goto (.init .trailer) p.rptr, .full)
    else .inl (p.goto (.lastEolOneByte .trailer) p.rptr)
  else .inl (p.goto .bodyChunkedData p.rptr)

/-- The case of `read_body` for the data of a chunk. -/
def readData : BodyReading ⊕ (BodyReading × BodyResult) :=
  if eos buf p.rptr then .inr (p.suspend p.rptr)
  else
    let remain := p.ctx.headerKeyEndOrRemainChunkSize
    let input := buf.length - p.rptr
    if input < remain then
      .inr ((((p.report buf p.rptr (p.rptr + input)).saveRemainChunk (remain - input)).countContent
        input).suspend (p.rptr + input))
    else
      let read := (((p.report buf p.rptr (p.rptr + remain)).saveRemainChunk 0).countContent
        remain).goto .bodyChunkedDataEolOneByte (p.rptr + remain)
      if p.ctx.flag.suspendOnChunked then .inr (read.suspend (p.rptr + remain)) else .inl read

/-- The case of `read_body` for the line end behind the last chunk. -/
def readLastEol : BodyReading × BodyResult :=
  let line := readEolWithFlag buf (.lastEolOneByte .trailer) (.lastEolTwoByte .trailer)
    (.init .trailer) p.ctx p.rptr
  let left : BodyReading := { p with ctx := line.2.1, rptr := line.2.2 }
  if line.1 then (left.goto .bodyEnd left.rptr, .full)
  else (left, if left.ctx.resumable then .incomplete else .badLine)

/-- One round of the loop of `read_body`; a case that falls through ends the round. -/
def readRound : BodyReading ⊕ (BodyReading × BodyResult) :=
  match p.ctx.state with
  | .bodyInit => readBodyInit buf p
  | .bodyContentLengthInit =>
    if p.ctx.contentLength = 0 then .inr (p.goto .bodyEnd p.rptr, .full)
    else .inl ((p.saveRemainContent p.ctx.contentLength).goto .bodyContentLength p.rptr)
  | .bodyContentLength => .inr (readContentLength buf p)
  | .bodyChunkedInit =>
    let started := p.saveRemainChunk 0
    let started := if p.consistent then started.saveRemainContent p.ctx.contentLength else started
    .inl (started.goto .bodyChunkedSize p.rptr)
  | .bodyChunkedSize => readChunkSize buf p
  | .bodyChunkedExtensionInit => readExtensionInit buf p
  | .bodyChunkedExtension => readExtension buf p
  | .bodyChunkedSizeEolOneByte | .bodyChunkedSizeEolTwoByte =>
    readBodyEol buf .bodyChunkedSizeEolOneByte .bodyChunkedSizeEolTwoByte .bodyChunkedDataInit p
  | .bodyChunkedDataInit => readDataInit p
  | .bodyChunkedData => readData buf p
  | .bodyChunkedDataEolOneByte | .bodyChunkedDataEolTwoByte =>
    readBodyEol buf .bodyChunkedDataEolOneByte .bodyChunkedDataEolTwoByte .bodyChunkedSize p
  | .lastEolOneByte .trailer | .lastEolTwoByte .trailer => .inr (readLastEol buf p)
  | .bodyEnd => .inr (p, .full)
  | _ => .inr (p, .invalidState)

def bodyRounds : Nat := 16 * buf.length + 16

/-- The reading that the loop of a call starts from. -/
def BodyReading.prepared : BodyReading :=
  { p with
    ctx := (p.ctx.prepareRead p.rptr .bodyInit).1
    rptr := (p.ctx.prepareRead p.rptr .bodyInit).2 }

def readBody : Option (BodyReading × BodyResult) :=
  iterate (readRound buf) (bodyRounds buf) p.prepared

/-- A reader of a body and the input it has been given so far. -/
structure Session where
  buf : Bytes := []
  body : BodyReading
  result : BodyResult := .incomplete
deriving DecidableEq

/-- More input arrives, and `read_body` is called again if it has been waiting for it. -/
def feed (session : Session) (chunk : Bytes) : Session × Unit :=
  if session.result = .incomplete then
    match readBody (session.buf ++ chunk) session.body with
    | some (body, result) => ({ buf := session.buf ++ chunk, body, result }, ())
    | none => (session, ())
  else (session, ())

/-! ## Every call ends -/

/-- The states in the order in which they follow without a byte being read. -/
def ReadState.bodyRank : ReadState → Nat
  | .bodyInit => 11
  | .bodyChunkedInit | .bodyContentLengthInit | .bodyChunkedDataEolTwoByte => 10
  | .bodyChunkedSize => 9
  | .bodyChunkedExtensionInit => 8
  | .bodyChunkedExtension => 7
  | .bodyChunkedSizeEolOneByte | .bodyChunkedSizeEolTwoByte => 6
  | .bodyChunkedDataInit => 5
  | .bodyChunkedData => 4
  | .bodyChunkedDataEolOneByte => 3
  | _ => 0

def BodyReading.measure : Nat :=
  16 * (buf.length - p.rptr) + p.ctx.state.bodyRank

theorem measure_goto (state : ReadState) (pos : Nat) :
    (p.goto state pos).measure buf = 16 * (buf.length - pos) + state.bodyRank := rfl

theorem readBodyEol_lowers {buf : Bytes} {oneByte twoByte next : ReadState} {p left : BodyReading}
    (distinct : twoByte ≠ oneByte) (state : p.ctx.state = oneByte ∨ p.ctx.state = twoByte)
    (small : next.bodyRank < 16) (ordered : next.bodyRank < twoByte.bodyRank)
    (step : readBodyEol buf oneByte twoByte next p = .inl left) :
    left.measure buf < p.measure buf := by
  simp only [readBodyEol] at step
  split at step
  case isTrue ended =>
    obtain ⟨reached, further, strictly, inside⟩ := readEolWithFlag_progress distinct state ended
    cases step
    simp only [BodyReading.measure, reached]
    rcases state with state | state
    · have strict := strictly state
      omega
    · rw [state]
      omega
  case isFalse => cases step

theorem readRound_lowers (p next : BodyReading) (step : readRound buf p = .inl next) :
    next.measure buf < p.measure buf := by
  have here : p.measure buf = 16 * (buf.length - p.rptr) + p.ctx.state.bodyRank := rfl
  have digits := le_consumeWhile isHex buf p.rptr
  have blanks := le_consumeWhile isTabOrSpace buf p.rptr
  have texts := le_consumeWhile (fun c => !isLine c) buf p.rptr
  simp only [readRound] at step
  split at step
  case h_8 state => exact readBodyEol_lowers (by simp) (.inl state) (by decide) (by decide) step
  case h_9 state => exact readBodyEol_lowers (by simp) (.inr state) (by decide) (by decide) step
  case h_12 state => exact readBodyEol_lowers (by simp) (.inl state) (by decide) (by decide) step
  case h_13 state => exact readBodyEol_lowers (by simp) (.inr state) (by decide) (by decide) step
  -- the other rounds that go on change to a state of a lower rank
  all_goals
    rename_i state
    try simp only [readBodyInit, readChunkSize, readExtensionInit, readExtension, readDataInit,
      readData] at step
    repeat' split at step
    all_goals cases step
    all_goals
      simp only [measure_goto, here, state, ReadState.bodyRank]
      omega

/-- A call of `read_body` always returns. -/
theorem readBody_isSome : (readBody buf p).isSome := by
  refine iterate_isSome (readRound_lowers buf) ?_
  have small : ∀ state : ReadState, state.bodyRank < 16 := by
    intro state
    cases state <;> simp [ReadState.bodyRank]
  have rank := small p.prepared.ctx.state
  simp only [BodyReading.measure, bodyRounds]
  omega

end Futils.Http1
