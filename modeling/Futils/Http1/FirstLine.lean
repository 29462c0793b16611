import Futils.Http1.Header

/-!
# Reading the first line of a message

`parse_request_line` and `parse_status_line` read the first line with the states in front of those
of the field lines.  Both are a `switch` whose cases fall through, so that a call goes on from the
state in which the last one ran out of input.  `parse_request` and `parse_response` read the field
lines behind it.
-/

namespace Futils.Http1

open Sequencer Number Lib.Loop ReadState

/-- A call of `parse_request_line` or `parse_status_line` in progress, with what the callbacks have
received. -/
structure FirstLine where
  ctx : ReadContext := {}
  rptr : Nat := 0
  method : Bytes := []
  path : Bytes := []
  version : Bytes := []
  status : Bytes := []
  phrase : Bytes := []
deriving DecidableEq

namespace FirstLine

/-- `save_pos` followed by `return`. -/
def suspend (p : FirstLine) (pos : Nat) (error : HeaderError) : FirstLine × HeaderError :=
  ({ p with ctx := p.ctx.savePos pos, rptr := pos }, error)

/-- `fail_pos` followed by `return`. -/
def fail (p : FirstLine) (pos : Nat) (error : HeaderError) : FirstLine × HeaderError :=
  ({ p with ctx := p.ctx.failPos pos, rptr := pos }, error)

/-- `change_state` at the position of the sequencer. -/
def goto (p : FirstLine) (state : ReadState) (pos : Nat) : FirstLine :=
  { p with ctx := p.ctx.changeState state pos, rptr := pos }

def prepared (p : FirstLine) (initialState : ReadState) : FirstLine :=
  { p with
    ctx := (p.ctx.prepareRead p.rptr initialState).1
    rptr := (p.ctx.prepareRead p.rptr initialState).2 }

end FirstLine

/-- The letters in front of the numbers of a version. -/
def versionName : Bytes := ascii "HTTP/"

def httpVersionLen : Nat := 8

variable (buf : Bytes) (p : FirstLine) (c : UInt8)

/-- The value of a digit, as `number_transform` has it. -/
def digitValue : Nat := (numberTransform c).getD 0

/-- `read_http_version` on a sequencer: the major and minor version if there are any, and the
position it leaves. -/
def readHttpVersion (rptr : Nat) : Option (Nat × Nat) × Nat :=
  let name := seekIf (· == ·) versionName buf rptr
  if !name.1 then (none, name.2)
  else if !isDigit (current buf name.2) then (none, name.2)
  else
    let dot := consumeIf 46 buf (consume buf name.2)
    if !dot.1 then (none, dot.2)
    else if !isDigit (current buf dot.2) then (none, dot.2)
    else
      (some (digitValue (current buf name.2), digitValue (current buf dot.2)), consume buf dot.2)

namespace ReadContext

/-- The methods that `scan_method` looks for one after another. -/
def bodylessMethods : List Bytes := [ascii "GET", ascii "HEAD", ascii "TRACE", ascii "OPTIONS"]

def deleteName : Bytes := ascii "DELETE"

/-- `scan_method`.  The first method that the range starts with decides. -/
def scanMethod (ctx : ReadContext) (buf : Bytes) (range : Range) : ReadContext :=
  let starts (word : Bytes) : Bool := (seekIf (· == ·) word buf range.start).1
  let bodyless := (bodylessMethods.find? starts).any fun word =>
    range.start + word.length == range.stop
  let delete := !ctx.flag.deleteMethodHasBody && starts deleteName &&
    range.start + deleteName.length == range.stop
  { ctx with requireNoBody := ctx.requireNoBody || bodyless || delete, scanRequest := true }

def isNoBodyStatus (code : Nat) : Bool :=
  decide (100 ≤ code) && decide (code < 200) || code == 204 || code == 304

def scanStatusCode (ctx : ReadContext) (code : Nat) : ReadContext :=
  { ctx with requireNoBody := ctx.requireNoBody || isNoBodyStatus code, scanRequest := false }

def scanHttpVersion (ctx : ReadContext) (major minor : Nat) : ReadContext :=
  { ctx with httpMajorVersion := major, httpMinorVersion := minor }

end ReadContext

def isUriUnreserved : Bool := isAlnum c || [45, 46, 95, 126].contains c

def isUriGenDelims : Bool := [58, 47, 63, 35, 91, 93, 64].contains c

def isUriSubDelims : Bool := [33, 36, 38, 39, 40, 41, 42, 43, 44, 59, 61].contains c

def isUriPchar : Bool :=
  isUriUnreserved c || c == 37 || isUriSubDelims c || c == 58 || c == 64

def isUriUsable : Bool := isUriPchar c || isUriGenDelims c

def keepsMethod (flag : ReadFlag) (c : UInt8) : Bool :=
  if flag.roughMethod then c != 32 else isTokenChar c

def keepsPath (flag : ReadFlag) (c : UInt8) : Bool :=
  if flag.roughPath then c != 32 else isUriUsable c

/-- A case that reads a text which must not be empty; `took` is the reading with the text passed to
its callback. -/
def readText (keep : UInt8 → Bool) (error : HeaderError) (next : ReadState)
    (took : Nat → FirstLine) (p : FirstLine) : FirstLine ⊕ (FirstLine × HeaderError) :=
  let pos := consumeWhile keep buf p.rptr
  if eos buf pos then .inr (p.suspend pos error)
  else if pos = p.ctx.startPos then .inr (p.fail pos error)
  else .inl ((took pos).goto next pos)

/-- The case of `parse_request_line` for the method. -/
def readMethod : FirstLine ⊕ (FirstLine × HeaderError) :=
  readText buf (keepsMethod p.ctx.flag) .invalidMethod .methodSpace
    (fun pos => { p with
      ctx := p.ctx.scanMethod buf ⟨p.ctx.startPos, pos⟩
      method := slice buf p.ctx.startPos pos }) p

/-- The case of `parse_request_line` for the path. -/
def readPath : FirstLine ⊕ (FirstLine × HeaderError) :=
  readText buf (keepsPath p.ctx.flag) .invalidPath .pathSpace
    (fun pos => { p with path := slice buf p.ctx.startPos pos }) p

def readSpace (next : ReadState) (p : FirstLine) : FirstLine ⊕ (FirstLine × HeaderError) :=
  if eos buf p.rptr then .inr (p.suspend p.rptr .notSpace)
  else if current buf p.rptr = 32 then .inl (p.goto next (p.rptr + 1))
  else .inr (p.fail p.rptr .notSpace)

/-- The case of `parse_request_line` for the space behind the path.  Without a version the line end
is left to a later call. -/
def readPathSpace : FirstLine ⊕ (FirstLine × HeaderError) :=
  if p.ctx.flag.legacyHttp09 && !eos buf p.rptr && isLine (current buf p.rptr) then
    .inr ({ p with ctx := p.ctx.scanHttpVersion 0 9 }.goto .requestVersionLineOneByte p.rptr, .none)
  else readSpace buf .requestVersion p

/-- A case that reads a version, roughly up to a character that `stops` or as `HTTP/x.x`. -/
def readVersion (rough : Bool) (stops : UInt8 → Bool) (next : ReadState)
    (p : FirstLine) : FirstLine ⊕ (FirstLine × HeaderError) :=
  if rough then
    let pos := consumeWhile (fun c => !stops c) buf p.rptr
    if eos buf pos then .inr (p.suspend pos .invalidVersion)
    else .inl ({ p with version := slice buf p.ctx.startPos pos }.goto next pos)
  else if buf.length - p.rptr < httpVersionLen then .inr (p.suspend p.rptr .invalidVersion)
  else
    match readHttpVersion buf p.rptr with
    | (none, pos) => .inr (p.fail pos .invalidVersion)
    | (some (major, minor), pos) =>
      .inl ({ p with
        ctx := p.ctx.scanHttpVersion major minor
        version := slice buf p.ctx.startPos pos }.goto next pos)

def StatusCode.pushBack (code : Nat) (c : UInt8) : Nat :=
  let tmp := PushBackParserInt.pushBack .uint16 10 { result := code } c
  if 1000 ≤ tmp.result.toNat then tmp.result.toNat / 10 else tmp.result.toNat

/-- The `StatusCode` that has taken the bytes of a text. -/
def statusCode (text : Bytes) : Nat := text.foldl StatusCode.pushBack 0

/-- The case of `parse_status_line` for a status code that is read up to the next space. -/
def readRoughStatusCode : FirstLine ⊕ (FirstLine × HeaderError) :=
  let pos := consumeWhile (· != 32) buf p.rptr
  let length := pos - p.ctx.startPos
  if eos buf pos then
    if !p.ctx.flag.roughStatusCodeLength ∧ 3 < length then .inr (p.fail pos .invalidStatusCode)
    else .inr (p.suspend pos .invalidStatusCode)
  else if !p.ctx.flag.roughStatusCodeLength ∧ length ≠ 3 then
    .inr (p.fail pos .invalidStatusCode)
  else .inl ({ p with status := slice buf p.ctx.startPos pos }.goto .statusCodeSpace pos)

/-- The case of `parse_status_line` for the status code. -/
def readStatusCode : FirstLine ⊕ (FirstLine × HeaderError) :=
  if p.ctx.flag.roughStatusCode then readRoughStatusCode buf p
  else if buf.length - p.rptr < 3 then .inr (p.suspend p.rptr .invalidStatusCode)
  else
    let x1 := current buf p.rptr
    let x2 := current buf (p.rptr + 1)
    let x3 := current buf (p.rptr + 2)
    if !isDigit x1 then .inr (p.fail p.rptr .invalidStatusCode)
    else if !isDigit x2 then .inr (p.fail (p.rptr + 1) .invalidStatusCode)
    else if !isDigit x3 then .inr (p.fail (p.rptr + 2) .invalidStatusCode)
    else
      .inl ({ p with
        ctx := p.ctx.scanStatusCode (digitValue x1 * 100 + digitValue x2 * 10 + digitValue x3)
        status := slice buf p.ctx.startPos (p.rptr + 3) }.goto .statusCodeSpace (p.rptr + 3))

/-- The case of `parse_status_line` for the reason phrase, which may be empty. -/
def readPhrase : FirstLine ⊕ (FirstLine × HeaderError) :=
  let pos := consumeWhile (fun c => !isLine c) buf p.rptr
  if eos buf pos then .inr (p.suspend pos .invalidReasonPhrase)
  else .inl ({ p with phrase := slice buf p.ctx.startPos pos }.goto .reasonPhraseLineOneByte pos)

def readFirstLineEol (oneByte twoByte : ReadState) (p : FirstLine) : FirstLine × HeaderError :=
  let line := readEolWithFlag buf oneByte twoByte (.init .header) p.ctx p.rptr
  ({ p with ctx := line.2.1, rptr := line.2.2 }, if line.1 then .none else .notEndOfLine)

/-- The case of `parse_request_line` for the line end.  A request without a version ends there. -/
def readRequestEol : FirstLine × HeaderError :=
  let left := readFirstLineEol buf .requestVersionLineOneByte .requestVersionLineTwoByte p
  if left.2 = .none ∧ left.1.ctx.flag.legacyHttp09 ∧ left.1.ctx.httpMajorVersion = 0 ∧
      left.1.ctx.httpMinorVersion = 9 then
    (left.1.goto .bodyEnd left.1.rptr, .none)
  else left

/-- One case of `parse_request_line`; a case that falls through has changed the state to the one of
the next case. -/
def requestRound : FirstLine ⊕ (FirstLine × HeaderError) :=
  match p.ctx.state with
  | .methodInit => .inl (p.goto .method p.rptr)
  | .method => readMethod buf p
  | .methodSpace => readSpace buf .path p
  | .path => readPath buf p
  | .pathSpace => readPathSpace buf p
  | .requestVersion =>
    readVersion buf p.ctx.flag.roughRequestVersion isLine .requestVersionLineOneByte p
  | .requestVersionLineOneByte | .requestVersionLineTwoByte => .inr (readRequestEol buf p)
  | _ => .inr (p, .none)

def statusRound : FirstLine ⊕ (FirstLine × HeaderError) :=
  match p.ctx.state with
  | .responseVersionInit => .inl (p.goto .responseVersion p.rptr)
  | .responseVersion =>
    readVersion buf p.ctx.flag.roughResponseVersion (· == 32) .responseVersionSpace p
  | .responseVersionSpace => readSpace buf .statusCode p
  | .statusCode => readStatusCode buf p
  | .statusCodeSpace => readSpace buf .reasonPhrase p
  | .reasonPhrase => readPhrase buf p
  | .reasonPhraseLineOneByte | .reasonPhraseLineTwoByte =>
    .inr (readFirstLineEol buf .reasonPhraseLineOneByte .reasonPhraseLineTwoByte p)
  | _ => .inr (p, .none)

/-- The number of cases a call can go through. -/
def firstLineRounds : Nat := 8

def parseRequestLine : Option (FirstLine × HeaderError) :=
  iterate (requestRound buf) firstLineRounds (p.prepared .methodInit)

def parseStatusLine : Option (FirstLine × HeaderError) :=
  iterate (statusRound buf) firstLineRounds (p.prepared .responseVersionInit)

structure Head extends FirstLine where
  fields : List Field := []
deriving DecidableEq

/-- The field lines of a head are read where its first line has ended. -/
def Head.parsing (head : Head) : Parsing := ⟨head.ctx, head.rptr, head.fields⟩

/-- A first line and then the field lines behind it. -/
def parseHead (firstLine : Bytes → FirstLine → Option (FirstLine × HeaderError)) (buf : Bytes)
    (result : FieldRange → HeaderError) (head : Head) : Option (Head × HeaderError) :=
  match firstLine buf head.toFirstLine with
  | none => none
  | some (line, error) =>
    let read : Head := { line with fields := head.fields }
    if error = .none then
      (parseCommon buf result read.parsing).map fun left =>
        ({ read with ctx := left.1.ctx, rptr := left.1.rptr, fields := left.1.fields }, left.2)
    else some (read, error)

def parseRequest (result : FieldRange → HeaderError) (head : Head) : Option (Head × HeaderError) :=
  parseHead parseRequestLine buf result head

def parseResponse (result : FieldRange → HeaderError) (head : Head) : Option (Head × HeaderError) :=
  parseHead parseStatusLine buf result head

/-! ## Every call ends -/

/-- The cases of a first line that are still ahead. -/
def ReadState.firstLineRank : ReadState → Nat
  | .methodInit | .responseVersionInit => 7
  | .method | .responseVersion => 6
  | .methodSpace | .responseVersionSpace => 5
  | .path | .statusCode => 4
  | .pathSpace | .statusCodeSpace => 3
  | .requestVersion | .reasonPhrase => 2
  | .requestVersionLineOneByte | .reasonPhraseLineOneByte => 1
  | _ => 0

theorem firstLineRank_lt (state : ReadState) : state.firstLineRank < firstLineRounds := by
  cases state <;> simp [firstLineRank, firstLineRounds]

section Lowers

variable {buf : Bytes} {p after : FirstLine}

theorem state_of_readText {keep : UInt8 → Bool} {error : HeaderError} {next : ReadState}
    {took : Nat → FirstLine} (step : readText buf keep error next took p = .inl after) :
    after.ctx.state = next := by
  simp only [readText] at step
  repeat' split at step
  all_goals cases step <;> rfl

theorem state_of_readSpace {next : ReadState} (step : readSpace buf next p = .inl after) :
    after.ctx.state = next := by
  simp only [readSpace] at step
  repeat' split at step
  all_goals cases step <;> rfl

theorem state_of_readPathSpace (step : readPathSpace buf p = .inl after) :
    after.ctx.state = .requestVersion := by
  simp only [readPathSpace] at step
  split at step
  · cases step
  exact state_of_readSpace step

theorem state_of_readVersion {rough : Bool} {stops : UInt8 → Bool} {next : ReadState}
    (step : readVersion buf rough stops next p = .inl after) : after.ctx.state = next := by
  simp only [readVersion] at step
  repeat' split at step
  all_goals cases step <;> rfl

theorem state_of_readStatusCode (step : readStatusCode buf p = .inl after) :
    after.ctx.state = .statusCodeSpace := by
  simp only [readStatusCode, readRoughStatusCode] at step
  repeat' split at step
  all_goals cases step <;> rfl

theorem state_of_readPhrase (step : readPhrase buf p = .inl after) :
    after.ctx.state = .reasonPhraseLineOneByte := by
  simp only [readPhrase] at step
  split at step <;> cases step
  rfl

theorem requestRound_lowers (p after : FirstLine) (step : requestRound buf p = .inl after) :
    after.ctx.state.firstLineRank < p.ctx.state.firstLineRank := by
  unfold requestRound at step
  split at step
  case h_1 state =>
    cases step
    rw [state]
    exact show firstLineRank .method < firstLineRank .methodInit by decide
  case h_2 state => rw [state_of_readText step, state]; decide
  case h_3 state => rw [state_of_readSpace step, state]; decide
  case h_4 state => rw [state_of_readText step, state]; decide
  case h_5 state => rw [state_of_readPathSpace step, state]; decide
  case h_6 state => rw [state_of_readVersion step, state]; decide
  all_goals cases step

theorem statusRound_lowers (p after : FirstLine) (step : statusRound buf p = .inl after) :
    after.ctx.state.firstLineRank < p.ctx.state.firstLineRank := by
  unfold statusRound at step
  split at step
  case h_1 state =>
    cases step
    rw [state]
    exact show firstLineRank .responseVersion <
      firstLineRank .responseVersionInit by decide
  case h_2 state => rw [state_of_readVersion step, state]; decide
  case h_3 state => rw [state_of_readSpace step, state]; decide
  case h_4 state => rw [state_of_readStatusCode step, state]; decide
  case h_5 state => rw [state_of_readSpace step, state]; decide
  case h_6 state => rw [state_of_readPhrase step, state]; decide
  all_goals cases step

end Lowers

theorem parseRequestLine_isSome : (parseRequestLine buf p).isSome :=
  iterate_isSome requestRound_lowers (firstLineRank_lt _)

theorem parseStatusLine_isSome : (parseStatusLine buf p).isSome :=
  iterate_isSome statusRound_lowers (firstLineRank_lt _)

end Futils.Http1
