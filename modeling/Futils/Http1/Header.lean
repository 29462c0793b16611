import Futils.Http1.Framing
import Futils.Lib.Loop

/-!
# Reading the field lines of a message

`parse_common` reads the field lines of a header or trailer with a state machine that can stop
wherever the input ends and go on when more has arrived.  It passes every field to `scan_header` and
to the callback of its caller.  The body type it leaves behind is the framing of the fields that the
text spells.
-/

namespace Futils.Http1

open Sequencer Number Lib.Loop Lib.Machine ReadContext Nat List ReadState

inductive HeaderError
  | none | invalidHeader | invalidHeaderKey | notColon | invalidHeaderValue | validationError
  | notEndOfLine | invalidMethod | invalidPath | invalidVersion | invalidStatusCode
  | invalidReasonPhrase | notSpace | invalidState | noData | invalidContentLength | noHost
deriving DecidableEq

/-- A call of `parse_common` in progress, with the fields passed to the callback. -/
structure Parsing where
  ctx : ReadContext
  rptr : Nat
  fields : List Field := []
deriving DecidableEq

namespace Parsing

/-- `save_pos` followed by `return`. -/
def suspend (p : Parsing) (pos : Nat) (error : HeaderError) : Parsing × HeaderError :=
  ({ p with ctx := p.ctx.savePos pos, rptr := pos }, error)

/-- `fail_pos` followed by `return`. -/
def fail (p : Parsing) (pos : Nat) (error : HeaderError) : Parsing × HeaderError :=
  ({ p with ctx := p.ctx.failPos pos, rptr := pos }, error)

/-- `change_state` at the position of the sequencer. -/
def goto (p : Parsing) (state : ReadState) (pos : Nat) : Parsing :=
  { p with ctx := p.ctx.changeState state pos, rptr := pos }

end Parsing

def keepsKey (flag : ReadFlag) (c : UInt8) : Bool :=
  if flag.roughHeaderKey then c != 58 else isTokenChar c

def keepsValue (flag : ReadFlag) (c : UInt8) : Bool :=
  if flag.roughHeaderValue then !isLine c
  else isNonSpaceAscii c || isTabOrSpace c || (flag.allowObsText && decide (0x80 ≤ c))

/-- The position behind the last character before `pos` that is no blank. -/
def trimEnd (buf : Bytes) : Nat → Nat
  | 0 => 0
  | pos + 1 => if isTabOrSpace (current buf pos) then trimEnd buf pos else pos + 1

variable (buf : Bytes) (result : FieldRange → HeaderError) (p : Parsing)

/-- The end of a field value that is followed by the end of its line at `save`. -/
def valueStop (ctx : ReadContext) (save : Nat) : Nat :=
  if ctx.flag.notTrimPostSpace ∨ ctx.startPos = save then save else trimEnd buf save

/-- The case of `parse_common` for a field value. -/
def parseValue (part : Part) (p : Parsing) : Parsing ⊕ (Parsing × HeaderError) :=
  let save := consumeWhile (keepsValue p.ctx.flag) buf p.rptr
  if eos buf save then .inr (p.suspend save .invalidHeaderValue)
  else
    let stop := valueStop buf p.ctx save
    if stop = p.ctx.startPos then .inr (p.fail stop .invalidHeaderValue)
    else
      let key : Range :=
        ⟨p.ctx.headerKeyStartOrRemainContent, p.ctx.headerKeyEndOrRemainChunkSize⟩
      let value : Range := ⟨p.ctx.startPos, stop⟩
      let scanned : Parsing := {
        ctx := p.ctx.scanHeader buf ⟨key, value⟩
        rptr := save
        fields := p.fields ++ [⟨slice buf key.start key.stop, slice buf value.start value.stop⟩] }
      let error := result ⟨key, value⟩
      if error = .none then .inl (scanned.goto (.eolOneByte part) save)
      else .inr (scanned.fail save error)

/-- The case of `parse_common` for the end of a field line. -/
def parseEol (part : Part) (p : Parsing) : Parsing ⊕ (Parsing × HeaderError) :=
  let line := readEolWithFlag buf (.eolOneByte part) (.eolTwoByte part) (.init part) p.ctx p.rptr
  let left : Parsing := { p with ctx := line.2.1, rptr := line.2.2 }
  if line.1 then .inl left else .inr (left, .notEndOfLine)

/-- The case of `parse_common` for the empty line behind the fields. -/
def parseLastEol (part : Part) (p : Parsing) : Parsing × HeaderError :=
  let next := match part with
    | .header => .bodyInit
    | .trailer => .bodyEnd
  let line := readEolWithFlag buf (.lastEolOneByte part) (.lastEolTwoByte part) next p.ctx p.rptr
  let left : Parsing := { p with ctx := line.2.1, rptr := line.2.2 }
  let hostMissing := part == .header && left.ctx.state == .bodyInit && left.ctx.requireHost &&
    !left.ctx.hasHost && !left.ctx.flag.allowNoHost
  (left, if line.1 then if hostMissing then .noHost else .none else .notEndOfLine)

/-- One round of the loop of `parse_common`; a case that falls through ends the round. -/
def parseRound : Parsing ⊕ (Parsing × HeaderError) :=
  match p.ctx.state with
  | .init part =>
    if eos buf p.rptr then .inr (p.suspend p.rptr .invalidHeader)
    else if isLine (current buf p.rptr) then .inl (p.goto (.lastEolOneByte part) p.rptr)
    else .inl (p.goto (.key part) p.rptr)
  | .key part =>
    let pos := consumeWhile (keepsKey p.ctx.flag) buf p.rptr
    if eos buf pos then .inr (p.suspend pos .invalidHeaderKey)
    else if pos = p.ctx.startPos then .inr (p.fail pos .invalidHeaderKey)
    else .inl ({ p with ctx := p.ctx.saveHeaderKey p.ctx.startPos pos }.goto (.colon part) pos)
  | .colon part =>
    if eos buf p.rptr then .inr (p.suspend p.rptr .notColon)
    else if current buf p.rptr = 58 then .inl (p.goto (.preSpace part) (p.rptr + 1))
    else .inr (p.fail p.rptr .notColon)
  | .preSpace part =>
    if p.ctx.flag.notTrimPreSpace then .inl (p.goto (.value part) p.rptr)
    else
      let pos := consumeWhile isTabOrSpace buf p.rptr
      if eos buf pos then .inr (p.suspend pos .invalidHeaderValue)
      else .inl (p.goto (.value part) pos)
  | .value part => parseValue buf result part p
  | .eolOneByte part | .eolTwoByte part => parseEol buf part p
  | .lastEolOneByte part | .lastEolTwoByte part => .inr (parseLastEol buf part p)
  | _ => .inr (p, .none)

def headerRounds : Nat := 8 * buf.length + 8

def parseCommon : Option (Parsing × HeaderError) :=
  let prepared := p.ctx.prepareRead p.rptr (.init .header)
  iterate (parseRound buf result) (headerRounds buf) { p with ctx := prepared.1, rptr := prepared.2 }

/-- Calls of `parse_common` on a growing buffer until one accepts. -/
def parseChunks (result : FieldRange → HeaderError) :
    Bytes → Parsing → List Bytes → Option (Bytes × Parsing)
  | _, _, [] => none
  | buf, p, chunk :: chunks =>
    match parseCommon (buf ++ chunk) result p with
    | some (left, error) =>
      if error = .none then some (buf ++ chunk, left)
      else if left.ctx.resumable then parseChunks result (buf ++ chunk) left chunks
      else none
    | none => none

/-! ## Every call ends -/

/-- The states in the order in which they follow without a byte being read. -/
def ReadState.rank : ReadState → Nat
  | .eolTwoByte _ => 7
  | .init _ => 6
  | .key _ => 5
  | .colon _ => 4
  | .preSpace _ => 3
  | .value _ => 2
  | .eolOneByte _ => 1
  | _ => 0

def Parsing.measure : Nat := 8 * (buf.length - p.rptr) + p.ctx.state.rank

theorem parseEol_lowers {buf : Bytes} {part : Part} {p next : Parsing}
    (state : p.ctx.state = .eolOneByte part ∨ p.ctx.state = .eolTwoByte part)
    (step : parseEol buf part p = .inl next) : next.measure buf < p.measure buf := by
  simp only [parseEol] at step
  split at step
  case isTrue ended =>
    obtain ⟨reached, further, strictly, inside⟩ :=
      readEolWithFlag_progress (by simp) state ended
    cases step
    simp only [Parsing.measure, reached, rank]
    rcases state with state | state
    · have strict := strictly state
      omega
    · simp only [state]
      omega
  case isFalse => cases step

theorem Parsing.measure_goto (state : ReadState) (pos : Nat) :
    (p.goto state pos).measure buf = 8 * (buf.length - pos) + state.rank := rfl

theorem parseRound_lowers (p next : Parsing)
    (step : parseRound buf result p = .inl next) : next.measure buf < p.measure buf := by
  have here : p.measure buf = 8 * (buf.length - p.rptr) + p.ctx.state.rank := rfl
  have keys := le_consumeWhile (keepsKey p.ctx.flag) buf p.rptr
  have blanks := le_consumeWhile isTabOrSpace buf p.rptr
  have values := le_consumeWhile (keepsValue p.ctx.flag) buf p.rptr
  simp only [parseRound, parseValue] at step
  split at step
  case h_6 part state => exact parseEol_lowers (.inl state) step
  case h_7 part state => exact parseEol_lowers (.inr state) step
  -- the other rounds that go on change to a state of a lower rank
  all_goals
    rename_i state
    repeat' split at step
    all_goals cases step
    all_goals
      simp only [Parsing.measure_goto, here, state, rank]
      omega

theorem parseCommon_isSome : (parseCommon buf result p).isSome := by
  refine iterate_isSome (parseRound_lowers buf _) ?_
  have small : ∀ state : ReadState, state.rank < 8 := by
    intro state
    cases state <;> simp [rank]
  have rank := small (p.ctx.prepareRead p.rptr (.init .header)).1.state
  simp only [Parsing.measure, headerRounds]
  omega

/-! ## The fields a text spells -/

/-- A field as a field line can spell it. -/
structure Field.WellFormed (field : Field) : Prop where
  named : field.name ≠ []
  token : ∀ c ∈ field.name, isTokenChar c = true
  text : ∀ c ∈ field.value, (isNonSpaceAscii c || isTabOrSpace c) = true
  first : ∃ c ∈ field.value.head?, isTabOrSpace c = false
  last : ∃ c ∈ field.value.getLast?, isTabOrSpace c = false

/-- A field line without its end. -/
def Line (text : Bytes) (field : Field) : Prop :=
  field.WellFormed ∧ ∃ pre post, Blank pre ∧ Blank post ∧
    text = field.name ++ 58 :: pre ++ field.value ++ post

/-- Field lines and the fields they spell. -/
inductive Block : Bytes → List Field → Prop
  | nil : Block [] []
  | line {text fields line field} (block : Block text fields) (spelled : Line line field) :
      Block (text ++ line ++ [13, 10]) (fields ++ [field])

/-- A key has been read behind complete field lines. -/
structure Keyed (buf : Bytes) (origin keyStart keyStop : Nat) (fields : List Field) : Prop where
  start : origin ≤ keyStart
  named : keyStart < keyStop
  within : keyStop ≤ buf.length
  token : ∀ c ∈ slice buf keyStart keyStop, isTokenChar c = true
  block : Block (slice buf origin keyStart) fields

/-- A key and its colon have been read, and the reader has reached `rptr` behind `startPos`. -/
structure Coloned (buf : Bytes) (origin keyStart keyStop : Nat) (fields : List Field)
    (startPos rptr : Nat) : Prop extends Keyed buf origin keyStart keyStop fields where
  colon : buf[keyStop]? = some 58
  behind : keyStop < startPos
  reached : startPos ≤ rptr
  inside : rptr ≤ buf.length

/-- What the text read so far spells, by the state of the reader. -/
def Place (origin : Nat) (p : Parsing) : Prop :=
  match p.ctx.state with
  | .init .header | .lastEolOneByte .header =>
    origin ≤ p.rptr ∧ p.rptr ≤ buf.length ∧ Block (slice buf origin p.rptr) p.fields
  | .key .header =>
    origin ≤ p.ctx.startPos ∧ p.ctx.startPos ≤ p.rptr ∧ p.rptr ≤ buf.length ∧
      (∀ c ∈ slice buf p.ctx.startPos p.rptr, isTokenChar c = true) ∧
      Block (slice buf origin p.ctx.startPos) p.fields
  | .colon .header =>
    Keyed buf origin p.ctx.headerKeyStartOrRemainContent p.ctx.headerKeyEndOrRemainChunkSize
      p.fields ∧ p.rptr = p.ctx.headerKeyEndOrRemainChunkSize
  | .preSpace .header =>
    Coloned buf origin p.ctx.headerKeyStartOrRemainContent p.ctx.headerKeyEndOrRemainChunkSize
      p.fields p.ctx.startPos p.rptr ∧ p.ctx.startPos = p.ctx.headerKeyEndOrRemainChunkSize + 1 ∧
      Blank (slice buf p.ctx.startPos p.rptr)
  | .value .header =>
    Coloned buf origin p.ctx.headerKeyStartOrRemainContent p.ctx.headerKeyEndOrRemainChunkSize
      p.fields p.ctx.startPos p.rptr ∧
      Blank (slice buf (p.ctx.headerKeyEndOrRemainChunkSize + 1) p.ctx.startPos) ∧
      (∃ c, buf[p.ctx.startPos]? = some c ∧ isTabOrSpace c = false) ∧
      ∀ c ∈ slice buf p.ctx.startPos p.rptr, (isNonSpaceAscii c || isTabOrSpace c) = true
  | .eolOneByte .header =>
    origin ≤ p.rptr ∧ p.rptr ≤ buf.length ∧ ∃ text fields line field,
      Block text fields ∧ Line line field ∧ p.fields = fields ++ [field] ∧
        slice buf origin p.rptr = text ++ line
  | .eolTwoByte .header =>
    origin ≤ p.rptr ∧ p.rptr ≤ buf.length ∧ ∃ text fields line field,
      Block text fields ∧ Line line field ∧ p.fields = fields ++ [field] ∧
        slice buf origin p.rptr = text ++ line ++ [13]
  | .lastEolTwoByte .header =>
    origin ≤ p.rptr ∧ p.rptr ≤ buf.length ∧ ∃ text, Block text p.fields ∧
      slice buf origin p.rptr = text ++ [13]
  | .bodyInit =>
    origin ≤ p.rptr ∧ p.rptr ≤ buf.length ∧ ∃ text, Block text p.fields ∧
      slice buf origin p.rptr = text ++ [13, 10]
  | _ => False

/-- The reader has spelled its fields and knows what they say about the body. -/
structure Reading (buf : Bytes) (origin length : Nat) (p : Parsing) : Prop where
  defaults : p.ctx.flag = {}
  info : p.ctx.bodyInfo = framing ⟨.noInfo, length⟩ p.fields
  place : Place buf origin p

structure Going (buf : Bytes) (origin length : Nat) (p : Parsing) : Prop
    extends Reading buf origin length p where
  fresh : p.ctx.resumable = false

section Trim

variable {buf : Bytes}

theorem trimEnd_le (pos : Nat) : trimEnd buf pos ≤ pos := by
  induction pos with
  | zero => exact le_refl 0
  | succ pos ih =>
    simp only [trimEnd]
    split <;> omega

theorem blank_trimEnd {pos : Nat} (within : pos ≤ buf.length) :
    Blank (slice buf (trimEnd buf pos) pos) := by
  induction pos with
  | zero => simp [Blank, trimEnd]
  | succ pos ih =>
    simp only [trimEnd]
    split
    case isTrue blank =>
      rw [slice_succ (trimEnd_le pos) (getElem?_current (by omega))]
      intro c member
      rw [mem_append, mem_singleton] at member
      rcases member with member | rfl
      · exact ih (by omega) c member
      · exact blank
    case isFalse => simp [Blank]

theorem trimEnd_last {start pos : Nat} (ordered : start < pos)
    (solid : isTabOrSpace (current buf start) = false) :
    start < trimEnd buf pos ∧ isTabOrSpace (current buf (trimEnd buf pos - 1)) = false := by
  induction pos with
  | zero => omega
  | succ pos ih =>
    simp only [trimEnd]
    split
    case isTrue blank =>
      refine ih (lt_of_le_of_ne (le_of_lt_succ ordered) fun same => ?_)
      rw [same, blank] at solid
      cases solid
    case isFalse notBlank => exact ⟨ordered, Bool.not_eq_true _ ▸ notBlank⟩

end Trim

/-! ## One round -/

/-- What a call of `parse_common` may leave behind. -/
def Outcome (origin length : Nat) (out : Parsing × HeaderError) : Prop :=
  (out.2 = .none → Reading buf origin length out.1 ∧ out.1.ctx.state = .bodyInit) ∧
    (out.2 ≠ .none → out.1.ctx.resumable = true →
      Reading buf origin length out.1 ∧ out.1.ctx.suspendPos = out.1.rptr)

section Round

variable {buf : Bytes} {origin length : Nat} {p : Parsing}

theorem outcome_suspend (reading : Reading buf origin length p) {pos : Nat} {error : HeaderError}
    (bad : error ≠ .none) (place : Place buf origin (p.suspend pos error).1) :
    Outcome buf origin length (p.suspend pos error) :=
  ⟨fun good => absurd good bad, fun _ _ => ⟨⟨reading.defaults, reading.info, place⟩, rfl⟩⟩

theorem outcome_fatal {error : HeaderError} (bad : error ≠ .none)
    (fatal : p.ctx.resumable = false) : Outcome buf origin length (p, error) :=
  ⟨fun good => absurd good bad, fun _ resumable => by rw [fatal] at resumable; cases resumable⟩

theorem outcome_fail {pos : Nat} {error : HeaderError} (bad : error ≠ .none) :
    Outcome buf origin length (p.fail pos error) :=
  outcome_fatal bad rfl

theorem going_goto (going : Going buf origin length p) {state : ReadState} {pos : Nat}
    (place : Place buf origin (p.goto state pos)) : Going buf origin length (p.goto state pos) :=
  ⟨⟨going.defaults, going.info, place⟩, going.fresh⟩

variable (buf origin length) in
/-- What a round of `parse_common` may leave behind. -/
abbrev Kept : Parsing ⊕ (Parsing × HeaderError) → Prop :=
  Round (Going buf origin length) (Outcome buf origin length)

/-- The text of a field line put together from its parts. -/
theorem slice_line {ks ke vs stop save : Nat} (named : ks ≤ ke) (colon : buf[ke]? = some 58)
    (behind : ke < vs) (valued : vs ≤ stop) (ended : stop ≤ save) :
    slice buf ks save = slice buf ks ke ++ 58 :: slice buf (ke + 1) vs ++ slice buf vs stop ++
      slice buf stop save := by
  rw [slice_append_slice (le_trans (le_trans named (le_of_lt behind)) valued) ended,
    slice_append_slice (le_trans named (le_of_lt behind)) valued,
    slice_append_slice (le_succ_of_le named) behind, slice_succ named colon]
  simp

/-- The value of a field lies between `startPos` and `stop`, blanks follow up to `save`, and the
line ends. -/
structure Delimited (buf : Bytes) (origin stop save : Nat) (p : Parsing) : Prop
    extends Coloned buf origin p.ctx.headerKeyStartOrRemainContent
      p.ctx.headerKeyEndOrRemainChunkSize p.fields p.ctx.startPos p.rptr where
  pre : Blank (slice buf (p.ctx.headerKeyEndOrRemainChunkSize + 1) p.ctx.startPos)
  filled : p.ctx.startPos < stop
  trimmed : stop ≤ save
  saved : save < buf.length
  post : Blank (slice buf stop save)
  text : ∀ c ∈ slice buf p.ctx.startPos save, (isNonSpaceAscii c || isTabOrSpace c) = true
  first : isTabOrSpace (current buf p.ctx.startPos) = false
  last : isTabOrSpace (current buf (stop - 1)) = false
  ended : isNonSpaceAscii (current buf save) = false

def Parsing.range (p : Parsing) (stop : Nat) : FieldRange :=
  ⟨⟨p.ctx.headerKeyStartOrRemainContent, p.ctx.headerKeyEndOrRemainChunkSize⟩,
    ⟨p.ctx.startPos, stop⟩⟩

def Parsing.field (buf : Bytes) (p : Parsing) (stop : Nat) : Field :=
  ⟨slice buf p.ctx.headerKeyStartOrRemainContent p.ctx.headerKeyEndOrRemainChunkSize,
    slice buf p.ctx.startPos stop⟩

namespace Delimited

variable {stop save : Nat}

theorem endsValue (delimited : Delimited buf origin stop save p) :
    EndsValue (current buf stop) := by
  have trimmed := delimited.trimmed
  have saved := delimited.saved
  rcases lt_or_eq_of_le trimmed with shorter | same
  · refine .inl (delimited.post _ ?_)
    rw [slice_append_slice (le_succ _) shorter,
      slice_succ (le_rfl) (getElem?_current (by omega))]
    simp
  · exact .inr (same ▸ delimited.ended)

theorem holds (delimited : Delimited buf origin stop save p) :
    Holds buf (p.range stop) (p.field buf stop) := by
  have named := delimited.named
  have within := delimited.within
  have filled := delimited.filled
  have trimmed := delimited.trimmed
  have saved := delimited.saved
  have stopped : stop < buf.length := by omega
  refine ⟨⟨?_, _, drop_eq_slice_cons (le_of_lt named) delimited.colon⟩, delimited.behind, ?_,
    ⟨current buf _, _, delimited.endsValue,
      drop_eq_slice_cons (le_of_lt filled) (getElem?_current stopped)⟩, ?_⟩
  · simp only [Parsing.range, Parsing.field, length_slice within]
    omega
  · intro empty
    have size := congrArg length empty
    simp only [Parsing.field, length_slice (le_of_lt stopped), length_nil] at size
    omega
  · simp only [Parsing.range, Parsing.field, length_slice (le_of_lt stopped)]
    omega

theorem wellFormed (delimited : Delimited buf origin stop save p) :
    (p.field buf stop).WellFormed := by
  have filled := delimited.filled
  have trimmed := delimited.trimmed
  have saved := delimited.saved
  refine ⟨?_, delimited.token, ?_, ⟨current buf _, ?_, delimited.first⟩,
    ⟨current buf _, ?_, delimited.last⟩⟩
  · intro empty
    have size := congrArg length empty
    simp only [Parsing.field, length_slice delimited.within, length_nil] at size
    have named := delimited.named
    omega
  · intro c member
    refine delimited.text c ?_
    rw [slice_append_slice (le_of_lt filled) trimmed]
    exact mem_append_left _ member
  · simp only [Parsing.field]
    rw [slice_append_slice (le_succ _) filled,
      slice_succ (le_rfl) (getElem?_current (by omega))]
    simp
  · obtain ⟨_, rfl⟩ : ∃ before, stop = before + 1 := ⟨stop - 1, by omega⟩
    simp only [Parsing.field]
    rw [slice_succ (by omega) (getElem?_current (by omega))]
    simp

theorem line (delimited : Delimited buf origin stop save p) :
    Line (slice buf p.ctx.headerKeyStartOrRemainContent save) (p.field buf stop) :=
  ⟨delimited.wellFormed, _, _, delimited.pre, delimited.post,
    slice_line (le_of_lt delimited.named) delimited.colon delimited.behind
      (le_of_lt delimited.filled) delimited.trimmed⟩

end Delimited

theorem keepsValue_slice {start : Nat} (defaults : p.ctx.flag = {}) (reached : start ≤ p.rptr)
    (text : ∀ c ∈ slice buf start p.rptr, (isNonSpaceAscii c || isTabOrSpace c)) :
    ∀ c ∈ slice buf start (consumeWhile (keepsValue p.ctx.flag) buf p.rptr),
      (isNonSpaceAscii c || isTabOrSpace c) :=
  forall_mem_consumeWhile _ buf _ reached text fun c keeps => by
    simpa [keepsValue, defaults] using keeps

theorem delimited_of_place (defaults : p.ctx.flag = {}) (place : Place buf origin p)
    (state : p.ctx.state = .value .header) {save : Nat}
    (saved : save = consumeWhile (keepsValue p.ctx.flag) buf p.rptr)
    (more : eos buf save = false) (filled : valueStop buf p.ctx save ≠ p.ctx.startPos) :
    Delimited buf origin (valueStop buf p.ctx save) save p := by
  simp only [Place, state] at place
  obtain ⟨coloned, pre, ⟨c, here, solid⟩, text⟩ := place
  have reached := coloned.reached
  have inside := lt_of_not_eos more
  have further := le_consumeWhile (keepsValue p.ctx.flag) buf p.rptr
  rw [← saved] at further
  have keeps : ∀ c, keepsValue p.ctx.flag c = (isNonSpaceAscii c || isTabOrSpace c) := by
    simp [keepsValue, defaults]
  have started : c = current buf p.ctx.startPos := by
    rw [getElem?_current (by omega)] at here
    exact (Option.some.inj here).symm
  have notTrim : p.ctx.flag.notTrimPostSpace = false := by rw [defaults]
  have longer : p.ctx.startPos ≠ save := by
    intro same
    simp [valueStop, same] at filled
  have stops : valueStop buf p.ctx save = trimEnd buf save := by
    simp [valueStop, notTrim, longer]
  rw [started] at solid
  have trim := trimEnd_last (lt_of_le_of_ne (le_trans reached further) longer) solid
  have ended := not_keep_consumeWhile _ buf _ (saved ▸ more)
  rw [← saved, keeps, Bool.or_eq_false_iff] at ended
  rw [stops]
  refine ⟨coloned, pre, trim.1, trimEnd_le _, inside, blank_trimEnd (le_of_lt inside), ?_,
    solid, trim.2, ended.1⟩
  exact saved ▸ keepsValue_slice defaults reached text

section

variable (going : Going buf origin length p)
include going

/-- The step of a value: the field is scanned and passed on, and its line is complete. -/
theorem parseValue_keeps
    (state : p.ctx.state = .value .header) (result : FieldRange → HeaderError) :
    Kept buf origin length (parseValue buf result .header p) := by
  have place := going.place
  simp only [parseValue]
  generalize saved : consumeWhile (keepsValue p.ctx.flag) buf p.rptr = save
  split
  · refine .leaves (outcome_suspend going.toReading (by simp) ?_)
    simp only [Place, state] at place
    simp only [Parsing.suspend, savePos, state]
    obtain ⟨coloned, pre, solid, text⟩ := place
    have further := le_consumeWhile (keepsValue p.ctx.flag) buf p.rptr
    refine ⟨{ coloned with reached := ?_, inside := ?_ }, pre, solid, ?_⟩
    · exact saved ▸ le_trans coloned.reached further
    · exact saved ▸ consumeWhile_le_length _ buf _ coloned.inside
    · exact saved ▸ keepsValue_slice going.defaults coloned.reached text
  split
  · exact .leaves (outcome_fail (by simp))
  rename_i more filled
  have delimited := delimited_of_place going.defaults place state saved.symm
    (eq_false_of_ne_true more) filled
  have same := scanHeader_same p.ctx buf (p.range (valueStop buf p.ctx save))
  have info := scanHeader_info going.defaults delimited.holds
  split
  · have named := delimited.named
    have behind := delimited.behind
    have valued := delimited.filled
    have trimmed := delimited.trimmed
    have reached : p.ctx.headerKeyStartOrRemainContent ≤ save := by omega
    refine .goes ⟨⟨same.flag.trans going.defaults, ?_, ?_⟩, same.resumable.trans going.fresh⟩
    · refine info.trans ?_
      rw [going.info]
      exact (framing_concat _ _ _).symm
    · exact ⟨le_trans delimited.start reached, le_of_lt delimited.saved, _, _, _, _,
        delimited.block, delimited.line, rfl, slice_append_slice delimited.start reached⟩
  · exact .leaves (outcome_fail ‹_›)

theorem parseEol_keeps
    (state : p.ctx.state = .eolOneByte .header ∨ p.ctx.state = .eolTwoByte .header) :
    Kept buf origin length (parseEol buf .header p) := by
  have place := going.place
  have ends := @readEolWithFlag_lineEnd buf _ _
    (.init .header) _ p.rptr going.defaults (by simp) state
  simp only [parseEol]
  generalize readEolWithFlag buf (.eolOneByte .header) (.eolTwoByte .header) (.init .header) p.ctx
    p.rptr = line at ends
  cases ends with
  | both state first second =>
    simp only [Place, state] at place
    obtain ⟨start, -, _, _, _, _, block, spelled, split, before⟩ := place
    obtain ⟨begun, within, read⟩ := slice_lineEnd start first second
    refine .goes (going_goto going ⟨begun, within, ?_⟩)
    show Block (slice buf origin (p.rptr + 2)) p.fields
    rw [read, before, split]
    exact block.line spelled
  | second state second =>
    simp only [Place, state] at place
    obtain ⟨start, -, _, _, _, _, block, spelled, split, read⟩ := place
    refine .goes (going_goto going ⟨le_succ_of_le start,
      (List.getElem?_eq_some_iff.1 second).1, ?_⟩)
    show Block (slice buf origin (p.rptr + 1)) p.fields
    rw [slice_succ start second, read, split]
    simpa using block.line spelled
  | wait => exact .leaves (outcome_suspend going.toReading (by simp) place)
  | half state first =>
    simp only [Place, state] at place
    obtain ⟨start, -, text, fields, line, field, block, spelled, split, read⟩ := place
    refine .leaves (@outcome_suspend buf _ _ _ (going_goto going ?_).toReading _ _ (by simp) ?_)
    all_goals
      refine ⟨Nat.le_succ_of_le start, (List.getElem?_eq_some_iff.1 first).1, text, fields, line,
        field, block, spelled, split, ?_⟩
      show slice buf origin (p.rptr + 1) = _
      rw [slice_succ start first, read]
  | bad left pos fatal => exact .leaves (outcome_fatal (by simp) fatal)

theorem parseLastEol_outcome
    (state : p.ctx.state = .lastEolOneByte .header ∨ p.ctx.state = .lastEolTwoByte .header) :
    Outcome buf origin length (parseLastEol buf .header p) := by
  have place := going.place
  have ends := @readEolWithFlag_lineEnd buf _ _ .bodyInit _ p.rptr going.defaults (by simp) state
  simp only [parseLastEol]
  generalize readEolWithFlag buf (.lastEolOneByte .header) (.lastEolTwoByte .header) .bodyInit p.ctx
    p.rptr = line at ends
  have accepts : ∀ pos hostMissing, Place buf origin (p.goto .bodyInit pos) →
      Outcome buf origin length
        (p.goto .bodyInit pos, if hostMissing = true then .noHost else .none) := by
    intro pos hostMissing done
    split
    · exact outcome_fatal (by simp) going.fresh
    · exact ⟨fun _ => ⟨(going_goto going done).toReading, rfl⟩, by simp⟩
  cases ends with
  | both state first second =>
    simp only [Place, state] at place
    obtain ⟨start, -, block⟩ := place
    obtain ⟨begun, within, read⟩ := slice_lineEnd start first second
    exact accepts _ _ ⟨begun, within, _, block, read⟩
  | second state second =>
    simp only [Place, state] at place
    obtain ⟨start, -, text, block, read⟩ := place
    refine accepts _ _ ⟨Nat.le_succ_of_le start, (List.getElem?_eq_some_iff.1 second).1,
      text, block, ?_⟩
    show slice buf origin (p.rptr + 1) = _
    rw [slice_succ start second, read]
    simp
  | wait => exact outcome_suspend going.toReading (by simp) place
  | half state first =>
    simp only [Place, state] at place
    obtain ⟨start, -, block⟩ := place
    exact ⟨by simp, fun _ _ => ⟨⟨going.defaults, going.info, le_succ_of_le start,
      (List.getElem?_eq_some_iff.1 first).1, _, block, slice_succ start first⟩, rfl⟩⟩
  | bad left pos fatal => exact outcome_fatal (by simp) fatal

/-- The rounds for a key and for the blanks before a value. -/
theorem parseKey_keeps (state : p.ctx.state = .key .header)
    (result : FieldRange → HeaderError) : Kept buf origin length (parseRound buf result p) := by
  have place := going.place
  simp only [Place, state] at place
  obtain ⟨start, reached, within, token, block⟩ := place
  have behind := le_trans reached (le_consumeWhile (keepsKey p.ctx.flag) buf _)
  have inside := consumeWhile_le_length (keepsKey p.ctx.flag) buf _ within
  have tokens := forall_mem_consumeWhile (keepsKey p.ctx.flag) buf _ reached token fun c keeps =>
    by simpa [keepsKey, going.defaults] using keeps
  simp only [parseRound, state]
  split
  · refine .leaves (outcome_suspend going.toReading (by simp) ?_)
    simp only [Parsing.suspend, savePos, state]
    exact ⟨start, behind, inside, tokens, block⟩
  split
  · exact .leaves (outcome_fail (by simp))
  rename_i named
  exact .goes ⟨⟨going.defaults, going.info,
    ⟨start, lt_of_le_of_ne behind (Ne.symm named), inside, tokens, block⟩, rfl⟩, going.fresh⟩

theorem parseColon_keeps
    (state : p.ctx.state = .colon .header) (result : FieldRange → HeaderError) :
    Kept buf origin length (parseRound buf result p) := by
  have place := going.place
  simp only [Place, state] at place
  obtain ⟨keyed, reached⟩ := place
  simp only [parseRound, state]
  split
  · exact .leaves (outcome_suspend going.toReading (by simp) going.place)
  rename_i more
  have more := eq_false_of_ne_true more
  have here := getElem?_of_not_eos more
  split
  case isTrue colon =>
    rw [colon] at here
    refine .goes (going_goto going ⟨⟨keyed, reached ▸ here, ?_, le_rfl, lt_of_not_eos more⟩,
      congrArg _ reached, ?_⟩)
    · exact lt_succ_of_le (le_of_eq reached.symm)
    · simp [Parsing.goto, changeState, Blank]
  case isFalse => exact .leaves (outcome_fail (by simp))

theorem parsePreSpace_keeps
    (state : p.ctx.state = .preSpace .header) (result : FieldRange → HeaderError) :
    Kept buf origin length (parseRound buf result p) := by
  have place := going.place
  simp only [Place, state] at place
  obtain ⟨coloned, begins, blank⟩ := place
  have trims : p.ctx.flag.notTrimPreSpace = false := by rw [going.defaults]
  have further := le_trans coloned.reached (le_consumeWhile isTabOrSpace buf _)
  have inside := consumeWhile_le_length isTabOrSpace buf _ coloned.inside
  have blanks := forall_mem_consumeWhile _ buf _ coloned.reached blank fun _ => id
  have stops := not_keep_consumeWhile isTabOrSpace buf p.rptr
  simp only [parseRound, state, trims, Bool.false_eq_true, if_false]
  split
  · refine .leaves (outcome_suspend going.toReading (by simp) ?_)
    simp only [Parsing.suspend, savePos, state]
    exact ⟨{ coloned with reached := further, inside := inside }, begins, blanks⟩
  rename_i more
  have more := eq_false_of_ne_true more
  refine .goes (going_goto going ⟨{ coloned with
    behind := lt_of_lt_of_le coloned.behind further, reached := le_rfl,
    inside := inside }, begins ▸ blanks, ⟨_, getElem?_of_not_eos more, stops more⟩, ?_⟩)
  simp [Parsing.goto, changeState]

theorem parseRound_keeps (result : FieldRange → HeaderError) :
    Kept buf origin length (parseRound buf result p) := by
  have place := going.place
  unfold Place at place
  split at place
  case h_1 state =>
    obtain ⟨start, within, block⟩ := place
    simp only [parseRound, state]
    split
    · exact .leaves (outcome_suspend going.toReading (by simp) going.place)
    split
    · exact .goes (going_goto going ⟨start, within, block⟩)
    · refine .goes (going_goto going ⟨start, le_rfl, within, ?_, block⟩)
      simp [Parsing.goto, changeState]
  case h_3 state => exact parseKey_keeps going state _
  case h_4 state => exact parseColon_keeps going state _
  case h_5 state => exact parsePreSpace_keeps going state _
  all_goals (try rename_i state; simp only [parseRound, state])
  · exact .leaves (parseLastEol_outcome going (.inl state))
  · exact parseValue_keeps going state _
  · exact parseEol_keeps going (.inl state)
  · exact parseEol_keeps going (.inr state)
  · exact .leaves (parseLastEol_outcome going (.inr state))
  · exact .leaves ⟨fun _ => ⟨going.toReading, state⟩, fun bad => absurd rfl bad⟩
  · exact place.elim

end

/-! ## Calls on a growing buffer -/

theorem Keyed.append {keyStart keyStop : Nat} {fields : List Field}
    (keyed : Keyed buf origin keyStart keyStop fields) (more : Bytes) :
    Keyed (buf ++ more) origin keyStart keyStop fields := by
  have within := keyed.within
  have named := keyed.named
  refine ⟨keyed.start, named, by rw [length_append]; omega, ?_, ?_⟩
  · rw [slice_append_right within]
    exact keyed.token
  · rw [slice_append_right (by omega)]
    exact keyed.block

theorem Coloned.append {keyStart keyStop startPos rptr : Nat} {fields : List Field}
    (coloned : Coloned buf origin keyStart keyStop fields startPos rptr) (more : Bytes) :
    Coloned (buf ++ more) origin keyStart keyStop fields startPos rptr :=
  ⟨coloned.toKeyed.append _, getElem?_append_of_some coloned.colon _, coloned.behind,
    coloned.reached, by rw [length_append]; exact le_add_right_of_le coloned.inside⟩

/-- What has been read stays read when more input arrives. -/
theorem Place.append (place : Place buf origin p) (more : Bytes) : Place (buf ++ more) origin p := by
  have longer : ∀ {pos}, pos ≤ buf.length → pos ≤ (buf ++ more).length := by
    intro pos within
    rw [length_append]
    exact le_add_right_of_le within
  unfold Place at place ⊢
  split at place
  case h_1 | h_2 =>
    obtain ⟨start, within, block⟩ := place
    exact ⟨start, longer within, slice_append_right within _ ▸ block⟩
  case h_3 =>
    obtain ⟨start, reached, within, token, block⟩ := place
    refine ⟨start, reached, longer within, ?_, ?_⟩
    · rw [slice_append_right within]
      exact token
    · rw [slice_append_right (le_trans reached within)]
      exact block
  case h_4 => exact ⟨place.1.append _, place.2⟩
  case h_5 =>
    obtain ⟨coloned, begins, blank⟩ := place
    exact ⟨coloned.append _, begins, slice_append_right coloned.inside _ ▸ blank⟩
  case h_6 =>
    obtain ⟨coloned, pre, ⟨c, here, solid⟩, text⟩ := place
    refine ⟨coloned.append _, ?_, ⟨c, getElem?_append_of_some here _, solid⟩, ?_⟩
    · rw [slice_append_right (le_trans coloned.reached coloned.inside)]
      exact pre
    · rw [slice_append_right coloned.inside]
      exact text
  case h_7 | h_8 =>
    obtain ⟨start, within, text, fields, line, field, block, spelled, split, read⟩ := place
    refine ⟨start, longer within, text, fields, line, field, block, spelled, split, ?_⟩
    rw [slice_append_right within, read]
  case h_9 | h_10 =>
    obtain ⟨start, within, text, block, read⟩ := place
    refine ⟨start, longer within, text, block, ?_⟩
    rw [slice_append_right within, read]
  case h_11 => exact place

theorem Reading.append (reading : Reading buf origin length p) (more : Bytes) :
    Reading (buf ++ more) origin length p :=
  ⟨reading.defaults, reading.info, reading.place.append _⟩

/-- The parsing that the loop of a call starts from. -/
def Parsing.prepared (p : Parsing) : Parsing :=
  { p with
    ctx := (p.ctx.prepareRead p.rptr (.init .header)).1
    rptr := (p.ctx.prepareRead p.rptr (.init .header)).2 }

theorem parseCommon_outcome (reading : Reading buf origin length p.prepared)
    {result : FieldRange → HeaderError} {out : Parsing × HeaderError}
    (returned : parseCommon buf result p = some out) : Outcome buf origin length out := by
  exact post_of_iterate_unguarded (fun p going => parseRound_keeps going _) ⟨reading, rfl⟩ returned

/-- A suspended reader goes on where it stopped. -/
theorem reading_prepared_of_suspended (reading : Reading buf origin length p)
    (suspended : p.ctx.suspendPos = p.rptr) : Reading buf origin length p.prepared := by
  have started : p.ctx.state ≠ .uninit := by
    intro state
    have place := reading.place
    simp [Place, state] at place
  have same : p.prepared = { p with ctx := { p.ctx with resumable := false } } := by
    simp [Parsing.prepared, prepareRead, started, suspended]
  rw [same]
  exact ⟨reading.defaults, reading.info, reading.place⟩

/-- A reader with the default flags at the beginning of the field lines. -/
structure Ready (buf : Bytes) (p : Parsing) : Prop where
  defaults : p.ctx.flag = {}
  unknown : p.ctx.bodyType = .noInfo
  empty : p.fields = []
  within : p.rptr ≤ buf.length
  state : p.ctx.state = .uninit ∨ p.ctx.state = .init .header ∧ p.ctx.suspendPos = p.rptr

theorem reading_prepared_of_ready (ready : Ready buf p) :
    Reading buf p.rptr p.ctx.contentLength p.prepared := by
  obtain ⟨defaults, unknown, empty, within, state⟩ := ready
  have block : Block (slice buf p.rptr p.rptr) p.fields := by
    rw [slice_self, empty]
    exact .nil
  have info : p.ctx.bodyInfo = framing ⟨.noInfo, p.ctx.contentLength⟩ p.fields := by
    rw [empty, bodyInfo, unknown]
    rfl
  rcases state with state | ⟨state, suspended⟩
  · have same : p.prepared = { p with ctx := { p.ctx with
        state := .init .header, startPos := p.rptr, suspendPos := p.rptr, resumable := false } } := by
      simp [Parsing.prepared, prepareRead, state]
    rw [same]
    exact ⟨defaults, info, le_rfl, within, block⟩
  · refine reading_prepared_of_suspended ⟨defaults, info, ?_⟩ suspended
    simp only [Place, state]
    exact ⟨le_rfl, within, block⟩

end Round

/-- An accepted header block has been read as the fields it spells. -/
theorem reading_of_parseChunks {result : FieldRange → HeaderError} {buf text : Bytes}
    {p left : Parsing} {chunks : List Bytes} {origin length : Nat}
    (reading : ∀ more, Reading (buf ++ more) origin length p.prepared)
    (accepted : parseChunks result buf p chunks = some (text, left)) :
    Reading text origin length left ∧ left.ctx.state = .bodyInit := by
  induction chunks generalizing buf p with
  | nil => cases accepted
  | cons chunk chunks ih =>
    simp only [parseChunks] at accepted
    split at accepted
    case h_1 out error returned =>
      have outcome := parseCommon_outcome (reading _) returned
      split at accepted
      case isTrue done =>
        cases accepted
        exact outcome.1 done
      split at accepted
      case isTrue bad resumable =>
        obtain ⟨again, suspended⟩ := outcome.2 bad resumable
        exact ih (fun more => reading_prepared_of_suspended (again.append _) suspended) accepted
      case isFalse => cases accepted
    case h_2 => cases accepted

theorem Ready.append {buf : Bytes} {p : Parsing} (ready : Ready buf p) (more : Bytes) :
    Ready (buf ++ more) p :=
  { ready with within := by rw [length_append]; exact le_add_right_of_le ready.within }

/-- The body type of an accepted header block is what its fields say, if each is read as what it is
and the lengths agree. -/
theorem body_framing_unambiguous {result : FieldRange → HeaderError} {buf text : Bytes}
    {p left : Parsing} {chunks : List Bytes} (ready : Ready buf p)
    (accepted : parseChunks result buf p chunks = some (text, left))
    (unambiguous : Guarded scanStep Unambiguous ⟨.noInfo, p.ctx.contentLength⟩ left.fields)
    (agree : LengthsAgree left.fields) :
    (∃ block, Block block left.fields ∧ slice text p.rptr left.rptr = block ++ [13, 10]) ∧
      (left.ctx.bodyType = .chunked ∨ left.ctx.bodyType = .chunkedContentLength →
        ∃ field ∈ left.fields, field.isTransferEncoding = true ∧
          hasChunkedToken field.value = true) ∧
      (left.ctx.bodyType = .contentLength ∨ left.ctx.bodyType = .chunkedContentLength →
        (∃ field ∈ left.fields, field.isContentLength = true) ∧
        ∀ field ∈ left.fields, field.isContentLength = true →
          Numeral field.value left.ctx.contentLength) ∧
      left.ctx.bodyInfo = framing ⟨.noInfo, p.ctx.contentLength⟩
        (left.fields.filter fun field => field.isContentLength || field.isTransferEncoding) := by
  obtain ⟨reading, state⟩ := reading_of_parseChunks
    (fun more => reading_prepared_of_ready (ready.append _)) accepted
  have place := reading.place
  have grounded := grounded_framing _ unambiguous
  rw [← reading.info] at grounded
  simp only [Place, state] at place
  obtain ⟨-, -, block, spelled, read⟩ := place
  refine ⟨⟨block, spelled, read⟩, fun chunked => grounded.chunked ?_, fun sized => ?_, ?_⟩
  · rcases chunked with type | type <;> simp [bodyInfo, type, BodyType.wantsChunked]
  · obtain ⟨field, member, named, parsed⟩ := grounded.length (by
      rcases sized with type | type <;> simp [bodyInfo, type, BodyType.wantsLength])
    exact ⟨⟨field, member, named⟩, agree _ member named _ parsed⟩
  · rw [reading.info, framing_filter unambiguous]

/-- A request whose header arrives in two pieces. -/
theorem body_framing_two_pieces :
    ∃ text left,
      parseChunks (fun _ => .none) [] ⟨{}, 0, []⟩
        [ascii "Host: a\r\nContent-Len", ascii "gth: 12\r\nX: 1\r\n\r\n"] = some (text, left) ∧
      left.ctx.bodyType = .contentLength ∧ left.ctx.contentLength = 12 ∧
      ∀ field ∈ left.fields, field.isContentLength = true →
        Numeral field.value left.ctx.contentLength := by
  have facts : (parseChunks (fun _ => .none) [] ⟨{}, 0, []⟩
      [ascii "Host: a\r\nContent-Len", ascii "gth: 12\r\nX: 1\r\n\r\n"]).map
        (fun run => (run.2.ctx.bodyType, run.2.ctx.contentLength, run.2.fields)) =
      some (.contentLength, 12, [⟨ascii "Host", ascii "a"⟩, ⟨ascii "Content-Length", ascii "12"⟩,
        ⟨ascii "X", ascii "1"⟩]) := by decide +kernel
  obtain ⟨⟨text, left⟩, accepted, shape⟩ := Option.map_eq_some_iff.1 facts
  simp only [Prod.mk.injEq] at shape
  obtain ⟨type, length, fields⟩ := shape
  have framed := body_framing_unambiguous ⟨rfl, rfl, rfl, le_refl 0, .inl rfl⟩ accepted
    (by rw [fields]; decide +kernel) (by rw [fields]; decide +kernel)
  exact ⟨text, left, accepted, type, length, (framed.2.2.1 (.inl type)).2⟩

/-- The body type and the length that a header block leaves behind. -/
def framedAs (text : Bytes) : Option (BodyType × Nat) :=
  (parseChunks (fun _ => .none) [] ⟨{}, 0, []⟩ [text]).map fun run =>
    (run.2.ctx.bodyType, run.2.ctx.contentLength)

/-- Header blocks accepted with a body type their fields do not give: for the end of a name, letters
that are no token, lengths that differ, are no numeral or wrap around. -/
theorem body_framing_confused :
    framedAs (ascii "HostContent-Length: 5\r\nContent-Length: 7\r\n\r\n") =
        some (.contentLength, 5) ∧
      framedAs (ascii "Content-LengthTransfer-Encoding: chunked\r\n\r\n") = some (.chunked, 0) ∧
      (framedAs (ascii "Transfer-Encoding: xchunkedx\r\n\r\n") = some (.chunked, 0) ∧
        hasChunkedToken (ascii "xchunkedx") = false) ∧
      framedAs (ascii "Content-Length: a\r\nContent-Length: 5\r\nContent-Length: 7\r\n\r\n") =
        some (.contentLength, 5) ∧
      framedAs (ascii "Content-Length: +5\r\n\r\n") = some (.contentLength, 5) ∧
      framedAs (ascii "Content-Length: 18446744073709551619\r\n\r\n") =
        some (.contentLength, 3) := by
  decide +kernel

end Futils.Http1
