import Futils.Number.Parse

/-!
# The read context of an HTTP/1 message

`ReadContext` keeps what the header and body readers need to go on after running out of input: the
state of the reader, positions in the buffer, and what the header fields said about the body.
-/

namespace Futils.Http1

open Sequencer Number

/-- The two sections of a message that hold field lines. -/
inductive Part
  | header | trailer
deriving DecidableEq

/-- `ReadState`.  The `header_` and `trailer_` states are one family, told apart by the section they
belong to. -/
inductive ReadState
  | uninit
  | methodInit
  | method
  | methodSpace
  | path
  | pathSpace
  | requestVersion
  | requestVersionLineOneByte
  | requestVersionLineTwoByte
  | responseVersionInit
  | responseVersion
  | responseVersionSpace
  | statusCode
  | statusCodeSpace
  | reasonPhrase
  | reasonPhraseLineOneByte
  | reasonPhraseLineTwoByte
  | init (part : Part)
  | key (part : Part)
  | colon (part : Part)
  | preSpace (part : Part)
  | value (part : Part)
  | eolOneByte (part : Part)
  | eolTwoByte (part : Part)
  | lastEolOneByte (part : Part)
  | lastEolTwoByte (part : Part)
  | bodyInit
  | bodyContentLengthInit
  | bodyContentLength
  | bodyChunkedInit
  | bodyChunkedSize
  | bodyChunkedExtensionInit
  | bodyChunkedExtension
  | bodyChunkedSizeEolOneByte
  | bodyChunkedSizeEolTwoByte
  | bodyChunkedDataInit
  | bodyChunkedData
  | bodyChunkedDataEolOneByte
  | bodyChunkedDataEolTwoByte
  | bodyEnd
deriving DecidableEq

/-- `ReadFlag`.  Three flags of the first line have one name for requests and one for responses. -/
structure ReadFlag where
  allowOnlyN : Bool := false
  allowOnlyR : Bool := false
  roughMethod : Bool := false
  roughPath : Bool := false
  roughRequestVersion : Bool := false
  roughHeaderKey : Bool := false
  roughHeaderValue : Bool := false
  allowObsText : Bool := false
  notTrimPreSpace : Bool := false
  notTrimPostSpace : Bool := false
  notScanBodyInfo : Bool := false
  suspendOnChunked : Bool := false
  consistentChunkedContentLength : Bool := false
  chunkedContentLengthAsChunked : Bool := false
  notScanConnectionHeader : Bool := false
  legacyHttp09 : Bool := false
  notScanTrailerHeader : Bool := false
  notStrictTrailer : Bool := false
  deleteMethodHasBody : Bool := false
  allowNoHost : Bool := false
deriving DecidableEq

namespace ReadFlag

/-- `rough_status_code`, the same bit as `rough_method`. -/
def roughStatusCode (flag : ReadFlag) : Bool := flag.roughMethod

/-- `rough_status_code_length`, the same bit as `rough_path`. -/
def roughStatusCodeLength (flag : ReadFlag) : Bool := flag.roughPath

/-- `rough_response_version`, the same bit as `rough_request_version`. -/
def roughResponseVersion (flag : ReadFlag) : Bool := flag.roughRequestVersion

end ReadFlag

inductive BodyType
  | noInfo | chunked | contentLength | chunkedContentLength
deriving DecidableEq

/-- The body type with the length of a `Content-Length` header. -/
def BodyType.withLength : BodyType → BodyType
  | .chunked => .chunkedContentLength
  | _ => .contentLength

/-- The body type with a `chunked` transfer coding. -/
def BodyType.withChunked : BodyType → BodyType
  | .contentLength => .chunkedContentLength
  | _ => .chunked

/-- `scan_header` still looks for a `Content-Length` header. -/
def BodyType.wantsLength (type : BodyType) : Bool :=
  type != .chunkedContentLength && type != .contentLength

/-- `scan_header` still looks for a `chunked` transfer coding. -/
def BodyType.wantsChunked (type : BodyType) : Bool :=
  type != .chunkedContentLength && type != .chunked

structure ReadContext where
  startPos : Nat := 0
  suspendPos : Nat := 0
  headerKeyStartOrRemainContent : Nat := 0
  headerKeyEndOrRemainChunkSize : Nat := 0
  contentLength : Nat := 0
  flag : ReadFlag := {}
  resumable : Bool := false
  hasKeepAlive : Bool := false
  hasClose : Bool := false
  httpMajorVersion : Nat := 0
  httpMinorVersion : Nat := 0
  hasHost : Bool := false
  requireNoBody : Bool := false
  hasTrailer : Bool := false
  scanRequest : Bool := false
  state : ReadState := .uninit
  bodyType : BodyType := .noInfo
deriving DecidableEq

/-- `Range`, the positions `start` to `end` of the buffer. -/
structure Range where
  start : Nat
  stop : Nat
deriving DecidableEq

structure FieldRange where
  key : Range
  value : Range
deriving DecidableEq

namespace ReadContext

variable (ctx : ReadContext) (buf : Bytes) (range : FieldRange)

def prepareRead (pos : Nat) (initialState : ReadState) : ReadContext × Nat :=
  let ctx := if ctx.state = .uninit then
    { ctx with state := initialState, startPos := pos, suspendPos := pos } else ctx
  ({ ctx with resumable := false }, ctx.suspendPos)

def saveHeaderKey (start stop : Nat) : ReadContext :=
  { ctx with headerKeyStartOrRemainContent := start, headerKeyEndOrRemainChunkSize := stop }

def changeState (state : ReadState) (pos : Nat) : ReadContext :=
  { ctx with state, startPos := pos, suspendPos := pos }

def savePos (pos : Nat) : ReadContext :=
  { ctx with suspendPos := pos, resumable := true }

def failPos (pos : Nat) : ReadContext :=
  { ctx with suspendPos := pos, resumable := false }

def requireHost : Bool :=
  ctx.httpMajorVersion == 1 && ctx.httpMinorVersion == 1 && ctx.scanRequest

def hostName : Bytes := ascii "host"

def trailerName : Bytes := ascii "trailer"

def connectionName : Bytes := ascii "connection"

def closeName : Bytes := ascii "close"

def keepAliveName : Bytes := ascii "keep-alive"

def contentLengthName : Bytes := ascii "content-length"

def transferEncodingName : Bytes := ascii "transfer-encoding"

def chunkedName : Bytes := ascii "chunked"

/-- The loop of `scan_header` over the value of a `Connection` header. -/
def scanConnection (buf : Bytes) (stop : Nat) : Nat → ReadContext → Nat → ReadContext × Nat
  | 0, ctx, rptr => (ctx, rptr)
  | rounds + 1, ctx, rptr =>
    if stop ≤ rptr then (ctx, rptr)
    else
      let close := seekIf ignoreCase closeName buf rptr
      let keepAlive := seekIf ignoreCase keepAliveName buf rptr
      if close.1 then
        scanConnection buf stop rounds { ctx with hasClose := true } (consume buf close.2)
      else if keepAlive.1 then
        scanConnection buf stop rounds { ctx with hasKeepAlive := true } (consume buf keepAlive.2)
      else scanConnection buf stop rounds ctx (consume buf rptr)

/-- The loop of `scan_header` over a `Transfer-Encoding` value: whether `chunked` starts somewhere
in it. -/
def scanTransferEncoding (buf : Bytes) (stop : Nat) : Nat → Nat → Bool
  | 0, _ => false
  | rounds + 1, rptr =>
    if stop ≤ rptr then false
    else if (seekIf ignoreCase chunkedName buf rptr).1 then true
    else scanTransferEncoding buf stop rounds (consume buf rptr)

/-- A name that `scan_header` looks for at `rptr` under a condition. -/
def lookFor (wanted : Bool) (word buf : Bytes) (rptr : Nat) : Bool × Nat :=
  if wanted then seekIf ignoreCase word buf rptr else (false, rptr)

/-- The part of `scan_header` that reads the value of a `Content-Length` header. -/
def scanContentLength : ReadContext :=
  let number := parseInteger .uint64 10 buf range.value.start
  if number.1 = .none ∧ number.2.2 = range.value.stop then
    { ctx with
      bodyType := ctx.bodyType.withLength, contentLength := (number.2.1.construct .uint64).toNat }
  else ctx

/-- The part of `scan_header` that looks for `transfer-encoding` at `rptr`. -/
def scanEncoding (rptr : Nat) : ReadContext :=
  let encoding := lookFor ctx.bodyType.wantsChunked transferEncodingName buf rptr
  if encoding.1 && encoding.2 == range.key.stop then
    if scanTransferEncoding buf range.value.stop (range.value.stop - range.value.start)
        range.value.start then
      { ctx with bodyType := ctx.bodyType.withChunked }
    else ctx
  else ctx

/-- The part of `scan_header` that looks for `content-length` and then `transfer-encoding`. -/
def scanBodyInfo (rptr : Nat) : ReadContext :=
  if ctx.flag.notScanBodyInfo then ctx
  else
    let length := lookFor ctx.bodyType.wantsLength contentLengthName buf rptr
    if length.1 && length.2 == range.key.stop then scanContentLength ctx buf range
    else scanEncoding ctx buf range length.2

/-- The part of `scan_header` that looks for `connection` at `rptr`. -/
def scanConnectionHeader (rptr : Nat) : ReadContext × Nat :=
  let connection := lookFor (!ctx.flag.notScanConnectionHeader) connectionName buf rptr
  if connection.1 && connection.2 == range.key.stop then
    scanConnection buf range.value.stop (range.value.stop - range.value.start) ctx
      range.value.start
  else (ctx, connection.2)

/-- `scan_header`.  One read position serves all names; it stays behind a name that did not end the
key. -/
def scanHeader : ReadContext :=
  let host := lookFor true hostName buf range.key.start
  if host.1 && host.2 == range.key.stop then { ctx with hasHost := true }
  else
    let trailer := lookFor (!ctx.flag.notScanTrailerHeader) trailerName buf host.2
    if trailer.1 && trailer.2 == range.key.stop then { ctx with hasTrailer := true }
    else
      let scanned := scanConnectionHeader ctx buf range trailer.2
      scanBodyInfo scanned.1 buf range scanned.2

end ReadContext

/-- `read_eol_with_flag`: whether the line has ended, with the context and the position left. -/
def readEolWithFlag (buf : Bytes) (oneByte twoByte next : ReadState) (ctx : ReadContext)
    (rptr : Nat) : Bool × ReadContext × Nat :=
  let first : Option Bool × ReadContext × Nat :=
    if ctx.state = oneByte then
      if eos buf rptr then (some false, ctx.savePos rptr, rptr)
      else if ctx.flag.allowOnlyN ∧ current buf rptr = 10 then
        (some true, ctx.changeState next (rptr + 1), rptr + 1)
      else if current buf rptr = 13 then (none, ctx.changeState twoByte (rptr + 1), rptr + 1)
      else (some false, ctx.failPos rptr, rptr)
    else (none, ctx, rptr)
  match first with
  | (some answer, ctx, rptr) => (answer, ctx, rptr)
  | (none, ctx, rptr) =>
    if ctx.state = twoByte then
      if eos buf rptr then (false, ctx.savePos rptr, rptr)
      else if current buf rptr = 10 then (true, ctx.changeState next (rptr + 1), rptr + 1)
      else if ctx.flag.allowOnlyR then (true, ctx.changeState next rptr, rptr)
      else (false, ctx.failPos rptr, rptr)
    else (true, ctx, rptr)

/-- What `read_eol_with_flag` can do with the default flags. -/
inductive LineEnd (buf : Bytes) (oneByte twoByte next : ReadState) (ctx : ReadContext) (rptr : Nat) :
    Bool × ReadContext × Nat → Prop
  | both (state : ctx.state = oneByte) (first : buf[rptr]? = some 13)
      (second : buf[rptr + 1]? = some 10) :
      LineEnd buf oneByte twoByte next ctx rptr (true, ctx.changeState next (rptr + 2), rptr + 2)
  | second (state : ctx.state = twoByte) (second : buf[rptr]? = some 10) :
      LineEnd buf oneByte twoByte next ctx rptr (true, ctx.changeState next (rptr + 1), rptr + 1)
  | wait (ended : eos buf rptr = true) :
      LineEnd buf oneByte twoByte next ctx rptr (false, ctx.savePos rptr, rptr)
  | half (state : ctx.state = oneByte) (first : buf[rptr]? = some 13)
      (ended : eos buf (rptr + 1) = true) :
      LineEnd buf oneByte twoByte next ctx rptr
        (false, (ctx.changeState twoByte (rptr + 1)).savePos (rptr + 1), rptr + 1)
  | bad (left : ReadContext) (pos : Nat) (fatal : left.resumable = false) :
      LineEnd buf oneByte twoByte next ctx rptr (false, left, pos)

theorem readEolWithFlag_lineEnd {buf : Bytes} {oneByte twoByte next : ReadState} {ctx : ReadContext}
    {rptr : Nat} (defaults : ctx.flag = {}) (distinct : twoByte ≠ oneByte)
    (state : ctx.state = oneByte ∨ ctx.state = twoByte) :
    LineEnd buf oneByte twoByte next ctx rptr
      (readEolWithFlag buf oneByte twoByte next ctx rptr) := by
  have noN : ctx.flag.allowOnlyN = false := by rw [defaults]
  have noR : ctx.flag.allowOnlyR = false := by rw [defaults]
  rcases state with state | state
  · simp only [readEolWithFlag, state, noN, Bool.false_eq_true, false_and]
    by_cases ended : eos buf rptr
    · simpa only [ended] using .wait ended
    rw [Bool.not_eq_true] at ended
    have here := getElem?_of_not_eos ended
    simp only [ended, Bool.false_eq_true, if_false]
    by_cases first : current buf rptr = 13
    · rw [first] at here
      simp only [first, if_true, ReadContext.changeState, noR]
      by_cases ended : eos buf (rptr + 1)
      · simpa only [ended] using .half state here ended
      rw [Bool.not_eq_true] at ended
      have there := getElem?_of_not_eos ended
      simp only [ended]
      by_cases second : current buf (rptr + 1) = 10
      · rw [second] at there
        simpa only [second] using .both state here there
      · simpa only [second] using .bad _ _ rfl
    · simpa only [first] using .bad _ _ rfl
  · simp only [readEolWithFlag, state, if_neg distinct, noR]
    by_cases ended : eos buf rptr
    · simpa only [ended] using .wait ended
    rw [Bool.not_eq_true] at ended
    have here := getElem?_of_not_eos ended
    simp only [ended]
    by_cases second : current buf rptr = 10
    · rw [second] at here
      simpa only [second] using .second state here
    · simpa only [second] using .bad _ _ rfl

/-- With any flags, a line end that is not half read already takes a byte. -/
theorem readEolWithFlag_progress {buf : Bytes} {oneByte twoByte next : ReadState}
    {ctx : ReadContext} {rptr : Nat} (distinct : twoByte ≠ oneByte)
    (state : ctx.state = oneByte ∨ ctx.state = twoByte)
    (ended : (readEolWithFlag buf oneByte twoByte next ctx rptr).1) :
    (readEolWithFlag buf oneByte twoByte next ctx rptr).2.1.state = next ∧
      rptr ≤ (readEolWithFlag buf oneByte twoByte next ctx rptr).2.2 ∧
      (ctx.state = oneByte → rptr < (readEolWithFlag buf oneByte twoByte next ctx rptr).2.2) ∧
      rptr < buf.length := by
  revert ended
  by_cases more : eos buf rptr
  · rcases state with state | state
    · simp only [readEolWithFlag, state, if_true, more, Bool.false_eq_true, false_implies]
    · simp only [readEolWithFlag, state, if_neg distinct, if_true, more, Bool.false_eq_true,
        false_implies]
  have inside := lt_of_not_eos (Bool.not_eq_true _ ▸ more)
  rcases state with state | state
  · simp only [readEolWithFlag, state, more, Bool.false_eq_true, if_false]
    by_cases onlyN : ctx.flag.allowOnlyN ∧ current buf rptr = 10
    · simp [onlyN, ReadContext.changeState, inside]
    by_cases first : current buf rptr = 13
    · simp only [if_neg onlyN, if_pos first, ReadContext.changeState, if_true]
      split
      · simp
      split
      · intro _
        exact ⟨rfl, Nat.le_add_right _ 2, fun _ => show rptr < rptr + 2 by omega, inside⟩
      split <;> simp [inside]
    · simp [if_neg onlyN, first]
  · simp only [readEolWithFlag, state, if_neg distinct, if_true, more, Bool.false_eq_true, if_false]
    split
    · simp [ReadContext.changeState, inside]
    split <;> simp [ReadContext.changeState, inside, distinct]

def isTabOrSpace (c : UInt8) : Bool := c == 32 || c == 9

def Blank (text : Bytes) : Prop := ∀ c ∈ text, isTabOrSpace c = true

def isTokenChar (c : UInt8) : Bool :=
  isAlnum c || [33, 35, 36, 37, 38, 39, 42, 43, 45, 46, 94, 95, 96, 124, 126].contains c

def isLine (c : UInt8) : Bool := c == 13 || c == 10

end Futils.Http1
