import Futils.Http1.FirstLine

/-!
# Rendering the head of a message

`render_request` and `render_response` append a first line and field lines to an output string.
`WriteContext` notes what the fields say about the body, and the head is refused when that does not
fit together.
-/

namespace Futils.Http1

open Sequencer Number

/-- `WriteFlag`, without the two flags that nothing looks at. -/
structure WriteFlag where
  roughMethod : Bool := false
  roughPath : Bool := false
  trustVersion : Bool := false
  legacyHttp09 : Bool := false
  trustPhrase : Bool := false
  allowInvalidContentLength : Bool := false
  allowUnexpectedContentLengthOrChunkedWithNoBody : Bool := false
  allowBothChunkedAndContentLength : Bool := false
  allowNoLengthInfoBody : Bool := false
  allowNoLengthEvenIfKeepAlive : Bool := false
  deleteMethodHasBody : Bool := false
  allowNoHost : Bool := false
deriving DecidableEq

inductive WriteState
  | uninit | header | contentLengthBody | chunkedBody | contentLengthChunkedBody | trailer
  | bestEffortBody | ended
deriving DecidableEq

structure WriteContext where
  contentLength : Nat := 0
  writeFlag : WriteFlag := {}
  state : WriteState := .uninit
  hasChunked : Bool := false
  hasContentLength : Bool := false
  hasTrailer : Bool := false
  requireNoBody : Bool := false
  invalidContentLength : Bool := false
  isServer : Bool := false
  hasClose : Bool := false
  hasKeepAlive : Bool := false
  httpMajorVersion : Nat := 0
  httpMinorVersion : Nat := 0
  hasHost : Bool := false
deriving DecidableEq

def isKeepAlive (isEnd hasClose hasKeepAlive : Bool) (major minor : Nat) : Bool :=
  if !isEnd || hasClose then false
  else if major == 1 && minor == 0 then hasKeepAlive
  else decide (1 < major) || (major == 1 && decide (1 ≤ minor)) || hasKeepAlive

/-- A key is `word` up to the case of its letters: `seek_if` from its beginning reaches its end. -/
def isNamed (word key : Bytes) : Bool :=
  let found := seekIf ignoreCase word key 0
  found.1 && eos key found.2

namespace WriteContext

variable (ctx : WriteContext)

def requireHost : Bool :=
  !ctx.isServer && ctx.httpMajorVersion == 1 && ctx.httpMinorVersion == 1

def isKeepAlive (ctx : WriteContext) : Bool :=
  Http1.isKeepAlive true ctx.hasClose ctx.hasKeepAlive ctx.httpMajorVersion ctx.httpMinorVersion

/-- The methods that `scan_method` looks for one after another. -/
def bodylessMethods : List Bytes := [ascii "GET", ascii "HEAD", ascii "OPTIONS", ascii "TRACE"]

/-- `scan_method`.  The first method that the text starts with decides. -/
def scanMethod (method : Bytes) : WriteContext :=
  let starts (word : Bytes) : Bool := (seekIf (· == ·) word method 0).1
  let bodyless := (bodylessMethods.find? starts).any fun word => eos method word.length
  let delete := !ctx.writeFlag.deleteMethodHasBody && starts (ascii "DELETE") &&
    eos method (ascii "DELETE").length
  { ctx with requireNoBody := ctx.requireNoBody || bodyless || delete }

def scanStatusCode (code : Nat) : WriteContext :=
  { ctx with requireNoBody := ctx.requireNoBody || ReadContext.isNoBodyStatus code }

def scanHttpVersion (major minor : Nat) : WriteContext :=
  { ctx with httpMajorVersion := major, httpMinorVersion := minor }

/-- The part of `scan_header` that reads the value of a `Content-Length` header. -/
def scanContentLength (value : Bytes) : WriteContext :=
  let number := parseInteger .uint64 10 value 0
  let ctx := { ctx with
    invalidContentLength := ctx.invalidContentLength || ctx.hasContentLength
    hasContentLength := true }
  if number.1 = .none then
    { ctx with
      contentLength := (number.2.1.construct .uint64).toNat
      invalidContentLength := ctx.invalidContentLength ||
        !eos value (consumeWhile isTabOrSpace value number.2.2) }
  else { ctx with contentLength := 0, invalidContentLength := true }

/-- The loop of `scan_header` over the value of a `Connection` header. -/
def scanConnection (value : Bytes) : Nat → WriteContext → Nat → WriteContext
  | 0, ctx, _ => ctx
  | rounds + 1, ctx, rptr =>
    if eos value rptr then ctx
    else
      let close := seekIf ignoreCase (ascii "close") value rptr
      let keepAlive := seekIf ignoreCase (ascii "keep-alive") value close.2
      scanConnection value rounds
        { ctx with
          hasClose := ctx.hasClose || close.1
          hasKeepAlive := ctx.hasKeepAlive || keepAlive.1 } (consume value keepAlive.2)

def scanHeader (key value : Bytes) : WriteContext :=
  if isNamed (ascii "Transfer-Encoding") key then
    { ctx with hasChunked := ctx.hasChunked ||
        ReadContext.scanTransferEncoding value value.length value.length 0 }
  else if isNamed (ascii "Content-Length") key then ctx.scanContentLength value
  else if isNamed (ascii "Trailer") key then { ctx with hasTrailer := true }
  else if isNamed (ascii "Connection") key then scanConnection value value.length ctx 0
  else if isNamed (ascii "Host") key then { ctx with hasHost := true }
  else ctx

end WriteContext

def validate (text : Bytes) (allowEmpty : Bool) (validator : UInt8 → Bool) : Bool :=
  text.all validator && (allowEmpty || !text.isEmpty)

def isValidKey (key : Bytes) (allowEmpty : Bool) : Bool :=
  validate key allowEmpty fun c => isNonSpaceAscii c && isTokenChar c

def isValidValue (value : Bytes) (allowEmpty : Bool) : Bool :=
  validate value allowEmpty fun c => isNonSpaceAscii c || isTabOrSpace c

/-- `default_validator` with its default arguments. -/
def defaultValidator (key value : Bytes) : Bool := isValidKey key false && isValidValue value false

/-- What `render_header_common` leaves behind: the context, the output and the error. -/
structure Rendering where
  ctx : WriteContext
  out : Bytes
  error : HeaderError := .none
deriving DecidableEq

def fieldLine (field : Field) : Bytes := field.name ++ [58, 32] ++ field.value ++ [13, 10]

/-- `header_add` for every field of a container, up to the first that the validator refuses. -/
def addHeaders (validator : Bytes → Bytes → Bool) (ctx : WriteContext) (out : Bytes) :
    List Field → Rendering
  | [] => { ctx, out }
  | field :: fields =>
    if !validator field.name field.value then { ctx, out, error := .validationError }
    else
      addHeaders validator (ctx.scanHeader field.name field.value) (out ++ fieldLine field) fields

variable (ctx : WriteContext) (out : Bytes)

/-- The end of `render_header_common`: whether what the fields say fits together, and the state in
which the body is written. -/
def WriteContext.enterBody : WriteContext × HeaderError :=
  if ctx.requireHost && !ctx.hasHost && !ctx.writeFlag.allowNoHost then (ctx, .noHost)
  else if ctx.invalidContentLength && !ctx.writeFlag.allowInvalidContentLength then
    (ctx, .invalidContentLength)
  else if ctx.state = .trailer then ({ ctx with state := .ended }, .none)
  else if ctx.requireNoBody then
    if (ctx.hasChunked || ctx.hasContentLength && ctx.contentLength != 0) &&
        !ctx.writeFlag.allowUnexpectedContentLengthOrChunkedWithNoBody then
      (ctx, .invalidContentLength)
    else ({ ctx with state := .ended }, .none)
  else if ctx.hasChunked then
    if ctx.hasContentLength then
      if !ctx.writeFlag.allowBothChunkedAndContentLength then (ctx, .invalidContentLength)
      else ({ ctx with state := .contentLengthChunkedBody }, .none)
    else ({ ctx with state := .chunkedBody }, .none)
  else if ctx.hasContentLength then
    ({ ctx with state := if ctx.contentLength = 0 then .ended else .contentLengthBody }, .none)
  else if !ctx.writeFlag.allowNoLengthInfoBody then (ctx, .invalidContentLength)
  else if ctx.isKeepAlive && !ctx.writeFlag.allowNoLengthEvenIfKeepAlive then
    (ctx, .invalidContentLength)
  else ({ ctx with state := .bestEffortBody }, .none)

/-- `render_header_common` for a container, which is left at the first refused field,
`ignore_invalid` or not. -/
def renderHeaderCommon (fields : List Field) (validator : Bytes → Bytes → Bool) : Rendering :=
  if ctx.state ≠ .header ∧ ctx.state ≠ .trailer then { ctx, out, error := .invalidState }
  else
    let added := addHeaders validator ctx out fields
    if added.error ≠ .none then added
    else
      let entered := added.ctx.enterBody
      { ctx := entered.1, out := added.out ++ [13, 10], error := entered.2 }

/-- A part of the first line that must not be empty or, when `rough`, only has to be one word. -/
def refusesWord (rough : Bool) (text : Bytes) (validator : UInt8 → Bool) : Bool :=
  if rough then text.contains 32 || text.contains 13 || text.contains 10
  else !validate text false validator

/-- The version of a first line as the writer checks it: `HTTP/x.x` and nothing else. -/
def exactVersion (version : Bytes) : Option (Nat × Nat) :=
  let read := readHttpVersion version 0
  if eos version read.2 then read.1 else none

/-- `render_request_line`.  A missing version is a null pointer. -/
def renderRequestLine (out method path : Bytes) (version : Option Bytes) : Rendering :=
  if ctx.state ≠ .uninit then { ctx, out, error := .invalidState }
  else
    let ctx := { ctx with isServer := false }
    if refusesWord ctx.writeFlag.roughMethod method fun c => isNonSpaceAscii c && isTokenChar c then
      { ctx, out, error := .invalidMethod }
    else if refusesWord ctx.writeFlag.roughPath path isUriUsable then
      { ctx, out, error := .invalidPath }
    else
      let line (ctx : WriteContext) : Rendering := {
        ctx := { ctx.scanMethod method with state := .header }
        out := out ++ method ++ [32] ++ path ++ (version.map ([32] ++ ·)).getD [] ++ [13, 10] }
      match version with
      | none =>
        if ctx.writeFlag.legacyHttp09 then line ctx else { ctx, out, error := .invalidVersion }
      | some version =>
        if ctx.writeFlag.trustVersion then line ctx
        else
          match exactVersion version with
          | none => { ctx, out, error := .invalidVersion }
          | some (major, minor) => line (ctx.scanHttpVersion major minor)

def statusDigits (status : Nat) : Bytes :=
  [48 + UInt8.ofNat (status / 100), 48 + UInt8.ofNat (status % 100 / 10),
    48 + UInt8.ofNat (status % 10)]

/-- `render_status_line`.  The version is only looked at when it is not trusted. -/
def renderStatusLine (status : Int) (phrase : Bytes) (version : Option Bytes) : Rendering :=
  if ctx.state ≠ .uninit then { ctx, out, error := .invalidState }
  else
    let ctx := { ctx with isServer := true }
    if status < 100 ∨ 599 < status then { ctx, out, error := .invalidStatusCode }
    else
      let ctx := ctx.scanStatusCode status.toNat
      let line (ctx : WriteContext) : Rendering :=
        if !ctx.writeFlag.trustPhrase && (phrase.contains 13 || phrase.contains 10) then
          { ctx, out, error := .invalidReasonPhrase }
        else {
          ctx := { ctx with state := .header }
          out := out ++ version.getD [] ++ [32] ++ statusDigits status.toNat ++ [32] ++ phrase ++
            [13, 10] }
      if ctx.writeFlag.trustVersion then line ctx
      else
        match version.bind exactVersion with
        | none => { ctx, out, error := .invalidVersion }
        | some (major, minor) => line (ctx.scanHttpVersion major minor)

/-- A rendered first line and then the field lines behind it. -/
def Rendering.withFields (line : Rendering) (fields : List Field)
    (validator : Bytes → Bytes → Bool) : Rendering :=
  if line.error ≠ .none then line else renderHeaderCommon line.ctx line.out fields validator

def renderRequest (out method path : Bytes) (fields : List Field)
    (validator : Bytes → Bytes → Bool) (version : Option Bytes) : Rendering :=
  (renderRequestLine ctx out method path version).withFields fields validator

def renderResponse (status : Int) (phrase : Bytes)
    (fields : List Field) (validator : Bytes → Bytes → Bool) (version : Option Bytes) : Rendering :=
  (renderStatusLine ctx out status phrase version).withFields fields validator

end Futils.Http1
