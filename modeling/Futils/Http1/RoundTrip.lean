import Futils.Http1.Render

/-!
# What is rendered is read back

The reader goes through the states of a rendered head in order: each part of the first line and each
field line is delimited by a byte that its loop does not consume.  The reader and the writer look for
a `Host` header in the same way, so that they agree on whether one is missing.
-/

namespace Futils.Http1

open Sequencer Number Lib.Loop ReadContext List

/-! ## The `Host` header -/

theorem scanConnectionHeader_host (ctx : ReadContext) (buf : Bytes) (range : FieldRange)
    (rptr : Nat) :
    (scanConnectionHeader ctx buf range rptr).1.hasHost = ctx.hasHost ∧
      (scanConnectionHeader ctx buf range rptr).1.requireHost = ctx.requireHost := by
  obtain ⟨-, _, _, noted⟩ := scanConnection_spec buf _ _ ctx _
  simp only [scanConnectionHeader]
  split
  · rw [noted]
    exact ⟨rfl, rfl⟩
  · exact ⟨rfl, rfl⟩

theorem scanBodyInfo_host (ctx : ReadContext) (buf : Bytes) (range : FieldRange) (rptr : Nat) :
    (scanBodyInfo ctx buf range rptr).hasHost = ctx.hasHost ∧
      (scanBodyInfo ctx buf range rptr).requireHost = ctx.requireHost := by
  simp only [scanBodyInfo, scanContentLength, scanEncoding]
  repeat' split
  all_goals exact ⟨rfl, rfl⟩

/-- The reader finds a `Host` header by its whole name. -/
theorem scanHeader_host {ctx : ReadContext} {buf : Bytes} {range : FieldRange} {name : Bytes}
    (inKey : InKey buf range.key.stop range.key.start name) :
    (ctx.scanHeader buf range).hasHost = (ctx.hasHost || sameName name hostName) ∧
      (ctx.scanHeader buf range).requireHost = ctx.requireHost := by
  simp only [scanHeader, lookFor_found inKey plain_names.1, Bool.true_and]
  split
  case isTrue host => exact ⟨by simp [host], rfl⟩
  case isFalse other =>
    rw [Bool.not_eq_true] at other
    rw [other, Bool.or_false]
    split
    · exact ⟨rfl, rfl⟩
    · obtain ⟨host, required⟩ := scanBodyInfo_host _ buf _ _
      rw [host, required]
      exact scanConnectionHeader_host ctx buf _ _

theorem isNamed_eq (word key : Bytes) : isNamed word key = sameName key word := by
  rw [← startsWith_strip_isEmpty, isNamed]
  simp only [seekIf, strip, drop_zero]
  split
  case isTrue found =>
    rw [Bool.eq_iff_iff]
    simp [found, eos]
  case isFalse missing => simp [missing]

theorem scanConnection_write (value : Bytes) (rounds : Nat) (ctx : WriteContext) (rptr : Nat) :
    ∃ close keepAlive, WriteContext.scanConnection value rounds ctx rptr =
      { ctx with hasClose := close, hasKeepAlive := keepAlive } := by
  induction rounds generalizing ctx rptr with
  | zero => exact ⟨ctx.hasClose, ctx.hasKeepAlive, rfl⟩
  | succ rounds ih =>
    simp only [WriteContext.scanConnection]
    split
    · exact ⟨ctx.hasClose, ctx.hasKeepAlive, rfl⟩
    · obtain ⟨close, keepAlive, noted⟩ := ih _ _
      exact ⟨close, keepAlive, noted⟩

/-- The names the writer looks for before `Host` are other names. -/
theorem sameName_host {key word : Bytes} (host : sameName key hostName)
    (other : sameName hostName word = false) : sameName key word = false := by
  simp only [sameName, beq_iff_eq] at host other ⊢
  rwa [host]

/-- The writer finds a `Host` header by its whole name. -/
theorem scanHeader_write (ctx : WriteContext) (key value : Bytes) :
    (ctx.scanHeader key value).hasHost = (ctx.hasHost || sameName key hostName) ∧
      (ctx.scanHeader key value).requireHost = ctx.requireHost ∧
      (ctx.scanHeader key value).writeFlag = ctx.writeFlag := by
  have same : sameName key (ascii "Host") = sameName key hostName := by
    simp only [sameName, show (ascii "Host").map toUpper = hostName.map toUpper by decide +kernel]
  simp only [WriteContext.scanHeader, isNamed_eq, same]
  by_cases host : sameName key hostName
  · rw [sameName_host host (by decide +kernel), sameName_host host (by decide +kernel),
      sameName_host host (by decide +kernel), sameName_host host (by decide +kernel)]
    simp [host, WriteContext.requireHost]
  · obtain ⟨_, _, noted⟩ := scanConnection_write value value.length ctx 0
    simp only [host, Bool.or_false, noted, WriteContext.scanContentLength, Bool.false_eq_true,
      if_false]
    repeat' split
    all_goals exact ⟨rfl, rfl, rfl⟩

/-! ## Field lines -/

/-- A field as the writer takes it: accepted by the default validator, with a value that neither
starts nor ends with a blank. -/
@[mk_iff]
structure Field.Writable (field : Field) : Prop where
  valid : defaultValidator field.name field.value = true
  first : ∃ c ∈ field.value.head?, isTabOrSpace c = false
  last : ∃ c ∈ field.value.getLast?, isTabOrSpace c = false

instance (field : Field) : Decidable field.Writable :=
  decidable_of_iff' _ field.writable_iff

/-- A writable field is a field as a field line can spell it. -/
theorem Field.Writable.wellFormed {field : Field} (writable : field.Writable) :
    field.WellFormed := by
  have valid := writable.valid
  simp only [defaultValidator, isValidKey, isValidValue, validate, Bool.false_or, Bool.and_eq_true,
    all_eq_true, Bool.not_eq_true', isEmpty_eq_false_iff] at valid
  exact ⟨valid.1.2, fun c member => (valid.1.1 c member).2, valid.2.1, writable.first,
    writable.last⟩

def takes (_ : FieldRange) : HeaderError := .none

section FieldLine

variable {buf after : Bytes} {part : Part} {p : Parsing}

theorem parseRound_init {c : UInt8} (state : p.ctx.state = .init part)
    (here : buf.drop p.rptr = c :: after) (inside : isLine c = false) :
    parseRound buf takes p = .inl (p.goto (.key part) p.rptr) := by
  simp only [parseRound, state, not_eos_of_drop here, current_of_drop here, inside,
    Bool.false_eq_true, if_false]

theorem parseRound_key {name : Bytes} (defaults : p.ctx.flag = {})
    (state : p.ctx.state = .key part) (start : p.ctx.startPos = p.rptr)
    (here : buf.drop p.rptr = name ++ 58 :: after) (named : name ≠ [])
    (token : ∀ c ∈ name, isTokenChar c) :
    parseRound buf takes p =
      .inl ({ p with ctx := p.ctx.saveHeaderKey p.rptr (p.rptr + name.length) }.goto (.colon part)
        (p.rptr + name.length)) := by
  have keeps : keepsKey {} = isTokenChar := rfl
  have stop := consumeWhile_of_drop here token (by decide)
  have further : ¬ p.rptr + name.length = p.rptr := by
    have length := length_pos_iff.2 named
    omega
  simp only [parseRound, state, defaults, keeps, stop, start,
    not_eos_of_drop (drop_add_of_drop here), Bool.false_eq_true, if_false, further]

theorem parseRound_colon (state : p.ctx.state = .colon part)
    (here : buf.drop p.rptr = 58 :: after) :
    parseRound buf takes p = .inl (p.goto (.preSpace part) (p.rptr + 1)) := by
  simp only [parseRound, state, not_eos_of_drop here, current_of_drop here, Bool.false_eq_true,
    if_false, if_true]

theorem parseRound_preSpace {c : UInt8} (defaults : p.ctx.flag = {})
    (state : p.ctx.state = .preSpace part) (here : buf.drop p.rptr = 32 :: c :: after)
    (solid : isTabOrSpace c = false) :
    parseRound buf takes p = .inl (p.goto (.value part) (p.rptr + 1)) := by
  have stop : consumeWhile isTabOrSpace buf p.rptr = p.rptr + 1 :=
    @consumeWhile_of_drop buf _ _ _ c _ here (forall_mem_singleton.2 (by decide)) solid
  simp only [parseRound, state, defaults, stop, not_eos_of_drop (drop_succ_of_drop here),
    Bool.false_eq_true, if_false]

/-- Nothing is trimmed behind a character that is no blank. -/
theorem trimEnd_of_solid {pos : Nat} (solid : isTabOrSpace (current buf pos) = false) :
    trimEnd buf (pos + 1) = pos + 1 := by
  simp [trimEnd, solid]

theorem trimEnd_value {start : Nat} {value : Bytes} (here : buf.drop start = value ++ after)
    (last : ∃ c ∈ value.getLast?, isTabOrSpace c = false) :
    trimEnd buf (start + value.length) = start + value.length := by
  obtain ⟨_, ends, solid⟩ := last
  obtain ⟨_, rfl⟩ := getLast?_eq_some_iff.1 ends
  rw [append_assoc] at here
  rw [length_append, ← Nat.add_assoc]
  apply trimEnd_of_solid
  rwa [current_of_drop (drop_add_of_drop here)]

variable {field : Field}

/-- The field whose line has been read up to the end of its value is passed on. -/
theorem parseRound_value {keyStart : Nat} (defaults : p.ctx.flag = {})
    (state : p.ctx.state = .value part) (start : p.ctx.startPos = p.rptr)
    (keyed : p.ctx.headerKeyStartOrRemainContent = keyStart)
    (ended : p.ctx.headerKeyEndOrRemainChunkSize = keyStart + field.name.length)
    (name : slice buf keyStart (keyStart + field.name.length) = field.name)
    (here : buf.drop p.rptr = field.value ++ 13 :: after) (wellFormed : field.WellFormed) :
    parseRound buf takes p =
      .inl ({ p with
        ctx := p.ctx.scanHeader buf ⟨⟨keyStart, keyStart + field.name.length⟩,
          ⟨p.rptr, p.rptr + field.value.length⟩⟩
        fields := p.fields ++ [field] }.goto (.eolOneByte part)
          (p.rptr + field.value.length)) := by
  have keeps : keepsValue {} = fun c => isNonSpaceAscii c || isTabOrSpace c := by
    funext c
    simp [keepsValue]
  have stop := consumeWhile_of_drop here wellFormed.text (by decide)
  have filled : ¬ p.rptr + field.value.length = p.rptr := by
    obtain ⟨_, first, -⟩ := wellFormed.first
    have length : 0 < field.value.length := by
      cases same : field.value with
      | nil => rw [same] at first; cases first
      | cons => exact Nat.zero_lt_succ _
    omega
  have trimmed : valueStop buf p.ctx (p.rptr + field.value.length) =
      p.rptr + field.value.length := by
    simp only [valueStop, trimEnd_value here wellFormed.last, ite_self]
  simp only [parseRound, state, parseValue, defaults, keeps, stop, trimmed, start,
    not_eos_of_drop (drop_add_of_drop here), filled, keyed, ended, name, slice_of_drop here]
  rfl

theorem readEolWithFlag_both {oneByte twoByte next : ReadState} {ctx : ReadContext} {rptr : Nat}
    (defaults : ctx.flag = {}) (state : ctx.state = oneByte)
    (here : buf.drop rptr = 13 :: 10 :: after) :
    readEolWithFlag buf oneByte twoByte next ctx rptr =
      (true, ctx.changeState next (rptr + 2), rptr + 2) := by
  have second := drop_succ_of_drop here
  simp only [readEolWithFlag, state, if_true, not_eos_of_drop here, current_of_drop here, defaults,
    Bool.false_eq_true, if_false, false_and, changeState, not_eos_of_drop second,
    current_of_drop second]

theorem parseRound_eol (defaults : p.ctx.flag = {}) (state : p.ctx.state = .eolOneByte part)
    (here : buf.drop p.rptr = 13 :: 10 :: after) :
    parseRound buf takes p = .inl (p.goto (.init part) (p.rptr + 2)) := by
  simp only [parseRound, state, parseEol, readEolWithFlag_both defaults _ here]
  rfl

theorem isLine_of_token {c : UInt8} (token : isTokenChar c) : isLine c = false :=
  forall_byte (P := fun c => isTokenChar c → isLine c = false) (by decide +kernel) c token

/-- The reading of a line whose name has been read up to the beginning of its value. -/
def Parsing.named (p : Parsing) (part : Part) (name : Bytes) : Parsing :=
  { p with
    ctx := (p.ctx.saveHeaderKey p.rptr (p.rptr + name.length)).changeState (.value part)
      (p.rptr + name.length + 2)
    rptr := p.rptr + name.length + 2 }

/-- The reader stands behind the name of a field. -/
theorem ends_of_named (defaults : p.ctx.flag = {}) (state : p.ctx.state = .init part)
    (here : buf.drop p.rptr = field.name ++ 58 :: 32 :: (field.value ++ after))
    (wellFormed : field.WellFormed) {out : Parsing × HeaderError}
    (ends : Ends (parseRound buf takes) (p.named part field.name) out) :
    Ends (parseRound buf takes) p out := by
  have atColon := drop_add_of_drop here
  obtain ⟨b, name, same⟩ := exists_cons_of_ne_nil wellFormed.named
  obtain ⟨c, first, solid⟩ := wellFormed.first
  obtain ⟨value, spelled⟩ := head?_eq_some_iff.1 first
  have atName : buf.drop p.rptr = b :: (name ++ 58 :: 32 :: (field.value ++ after)) := by
    rw [here, same, cons_append]
  have inside : isLine b = false :=
    isLine_of_token (wellFormed.token b (same ▸ mem_cons_self))
  have atBlank : buf.drop (p.rptr + field.name.length + 1) = 32 :: c :: (value ++ after) := by
    rw [drop_succ_of_drop atColon, spelled, cons_append]
  exact .round (parseRound_init state atName inside)
    (.round (parseRound_key defaults rfl rfl here wellFormed.named wellFormed.token)
      (.round (parseRound_colon rfl atColon)
        (.round (parseRound_preSpace defaults rfl atBlank solid) ends)))

/-- What the reader has done once the line of a field is behind it. -/
structure LineRead (part : Part) (field : Field) (p next : Parsing) : Prop where
  state : next.ctx.state = .init part
  defaults : next.ctx.flag = {}
  moved : next.rptr = p.rptr + (fieldLine field).length
  fields : next.fields = p.fields ++ [field]
  host : next.ctx.hasHost = (p.ctx.hasHost || sameName field.name hostName)
  required : next.ctx.requireHost = p.ctx.requireHost

/-- The reader passes on the field of a line and stands behind the line. -/
theorem exists_lineRead (defaults : p.ctx.flag = {}) (state : p.ctx.state = .init part)
    (here : buf.drop p.rptr = fieldLine field ++ after) (wellFormed : field.WellFormed) :
    ∃ next, LineRead part field p next ∧
      ∀ out, Ends (parseRound buf takes) next out → Ends (parseRound buf takes) p out := by
  simp only [fieldLine, append_assoc] at here
  have atValue := drop_succ_of_drop (drop_succ_of_drop (drop_add_of_drop here))
  have inKey : InKey buf (p.rptr + field.name.length) p.rptr field.name := ⟨rfl, _, here⟩
  let range : FieldRange := ⟨⟨p.rptr, p.rptr + field.name.length⟩,
    ⟨p.rptr + field.name.length + 2, p.rptr + field.name.length + 2 + field.value.length⟩⟩
  have unflagged : ((p.named part field.name).ctx.scanHeader buf range).flag = {} := by
    rw [(scanHeader_same _ buf _).flag]
    exact defaults
  obtain ⟨host, required⟩ := @scanHeader_host _ buf range _ inKey
  refine ⟨_, ⟨rfl, unflagged, ?_, rfl, host, required⟩, fun out ends =>
    ends_of_named defaults state here wellFormed
      (.round (parseRound_value defaults rfl rfl rfl rfl (slice_of_drop here) atValue wellFormed)
        (.round (parseRound_eol unflagged rfl (drop_add_of_drop atValue)) ends))⟩
  simp only [Parsing.goto, Parsing.named, fieldLine, length_append, length_cons,
    length_nil]
  omega

/-- The empty line behind the fields of a header ends it, unless a `Host` header is missing. -/
theorem parseLastEol_header (defaults : p.ctx.flag = {})
    (state : p.ctx.state = .lastEolOneByte .header)
    (here : buf.drop p.rptr = 13 :: 10 :: after)
    (host : p.ctx.requireHost → p.ctx.hasHost) :
    parseLastEol buf .header p = (p.goto .bodyInit (p.rptr + 2), .none) := by
  simp only [parseLastEol, readEolWithFlag_both defaults state here]
  refine Prod.ext rfl (if_neg fun missing => ?_)
  simp only [Bool.and_eq_true] at missing
  have found := host missing.1.1.2
  exact absurd missing.1.2 (by simp [changeState, found])

/-- A rendered header is read back field by field. -/
theorem fields_read {fields : List Field} (defaults : p.ctx.flag = {})
    (state : p.ctx.state = .init .header)
    (here : buf.drop p.rptr = fields.flatMap fieldLine ++ 13 :: 10 :: after)
    (wellFormed : ∀ field ∈ fields, field.WellFormed)
    (host : p.ctx.requireHost →
      (p.ctx.hasHost || fields.any fun field => sameName field.name hostName)) :
    ∃ left, Ends (parseRound buf takes) p (left, .none) ∧ left.ctx.state = .bodyInit ∧
      left.rptr = p.rptr + (fields.flatMap fieldLine).length + 2 ∧
      left.fields = p.fields ++ fields := by
  induction fields generalizing p with
  | nil =>
    simp only [any_nil, Bool.or_false] at host
    have begun : parseRound buf takes p = .inl (p.goto (.lastEolOneByte .header) p.rptr) := by
      simp only [parseRound, state, not_eos_of_drop here, current_of_drop here,
        show isLine 13 by decide, Bool.false_eq_true, if_false, if_true]
    have ended := @parseLastEol_header buf _ (p.goto _ _) defaults rfl here host
    exact ⟨_, .round begun (.leave (congrArg _ ended)), rfl, rfl, (append_nil _).symm⟩
  | cons field fields ih =>
    rw [flatMap_cons, append_assoc] at here
    obtain ⟨next, line, ends⟩ := exists_lineRead defaults state here (wellFormed _ mem_cons_self)
    have further : buf.drop next.rptr = fields.flatMap fieldLine ++ 13 :: 10 :: after := by
      rw [line.moved]
      exact drop_add_of_drop here
    obtain ⟨left, done, reached, moved, read⟩ := ih line.defaults line.state further
      (forall_mem_cons.1 wellFormed).2
      (by rwa [line.required, line.host, Bool.or_assoc])
    refine ⟨left, ends _ done, reached, ?_, ?_⟩
    · rw [moved, line.moved, flatMap_cons, length_append]
      omega
    · rw [read, line.fields, append_assoc, singleton_append]

end FieldLine

/-! ## First lines -/

section Version

variable {buf after version : Bytes} {rptr : Nat} {a b : UInt8}

theorem seekIf_of_drop {word : Bytes} (here : buf.drop rptr = word ++ after) :
    seekIf (· == ·) word buf rptr = (true, rptr + word.length) := by
  rw [seekIf, if_pos]
  rw [here, startsWith_beq_iff]
  exact prefix_append _ _

theorem readHttpVersion_of_drop
    (here : buf.drop rptr = versionName ++ a :: 46 :: b :: after)
    (major : isDigit a) (minor : isDigit b) :
    readHttpVersion buf rptr = (some (digitValue a, digitValue b), rptr + httpVersionLen) := by
  have atMajor := drop_add_of_drop here
  have atDot := drop_succ_of_drop atMajor
  have atMinor := drop_succ_of_drop atDot
  have inside := lt_of_not_eos (not_eos_of_drop atMajor)
  have dot : buf[rptr + versionName.length + 1]? = some 46 := by
    rw [← head?_drop, atDot, head?_cons]
  have last := lt_of_not_eos (not_eos_of_drop atMinor)
  simp only [readHttpVersion, seekIf_of_drop here, current_of_drop atMajor, major, consume,
    if_pos inside, consumeIf, dot, if_true, current_of_drop atMinor, minor, if_pos last]
  rfl

/-- A version that the writer takes is `HTTP/x.x`. -/
theorem exists_of_exactVersion {major minor : Nat}
    (taken : exactVersion version = some (major, minor)) :
    ∃ a b, version = versionName ++ [a, 46, b] ∧ isDigit a ∧ isDigit b ∧
      major = digitValue a ∧ minor = digitValue b := by
  have nothing : isDigit 0 = false := by decide
  simp only [exactVersion, readHttpVersion, seekIf, drop_zero] at taken
  by_cases named : startsWith (· == ·) versionName version
  swap
  · simp [named] at taken
  obtain ⟨rest, rfl⟩ := startsWith_beq_iff.1 named
  have text : versionName = [72, 84, 84, 80, 47] := by decide
  rw [if_pos named] at taken
  simp only [text, current, consume, consumeIf, eos] at taken
  -- a digit, a dot, a digit and nothing else
  rcases rest with _ | ⟨a, rest⟩
  · simp [nothing] at taken
  by_cases first : isDigit a
  swap
  · simp [first] at taken
  rcases rest with _ | ⟨c, rest⟩
  · simp [first] at taken
  by_cases dot : c = 46
  swap
  · simp [first, dot] at taken
  rcases rest with _ | ⟨b, rest⟩
  · simp [first, dot, nothing] at taken
  by_cases second : isDigit b
  swap
  · simp [first, dot, second] at taken
  rcases rest with _ | ⟨_, _⟩
  · simp [first, dot, second] at taken
    exact ⟨a, b, by rw [dot], first, second, taken.1.symm, taken.2.symm⟩
  · grind

end Version

/-- The reader stands at the beginning of the field lines behind a first line that ended at `pos`. -/
structure Opened (left : FirstLine) (pos : Nat) (requireHost : Bool) : Prop where
  state : left.ctx.state = .init .header
  defaults : left.ctx.flag = {}
  resumes : left.ctx.suspendPos = pos
  host : left.ctx.hasHost = false
  required : left.ctx.requireHost = requireHost

section FirstLines

variable {buf after text version : Bytes} {p : FirstLine} {next : ReadState} {major minor : Nat}

theorem readText_of_drop {keep : UInt8 → Bool} {error : HeaderError} {took : Nat → FirstLine}
    {c : UInt8} (start : p.ctx.startPos = p.rptr) (here : buf.drop p.rptr = text ++ c :: after)
    (kept : ∀ b ∈ text, keep b) (stops : keep c = false) (filled : text ≠ []) :
    readText buf keep error next took p =
      .inl ((took (p.rptr + text.length)).goto next (p.rptr + text.length)) := by
  have further : ¬ p.rptr + text.length = p.rptr := by
    have length := length_pos_iff.2 filled
    omega
  simp only [readText, consumeWhile_of_drop here kept stops, start,
    not_eos_of_drop (drop_add_of_drop here), Bool.false_eq_true, if_false, further]

theorem readSpace_of_drop (here : buf.drop p.rptr = 32 :: after) :
    readSpace buf next p = .inl (p.goto next (p.rptr + 1)) := by
  simp only [readSpace, not_eos_of_drop here, current_of_drop here, Bool.false_eq_true, if_false,
    if_true]

theorem readVersion_of_drop {stops : UInt8 → Bool} (start : p.ctx.startPos = p.rptr)
    (here : buf.drop p.rptr = version ++ after)
    (taken : exactVersion version = some (major, minor)) :
    readVersion buf false stops next p =
      .inl ({ p with ctx := p.ctx.scanHttpVersion major minor, version }.goto next
        (p.rptr + version.length)) := by
  obtain ⟨a, b, spelled, digitA, digitB, rfl, rfl⟩ := exists_of_exactVersion taken
  have length : version.length = httpVersionLen := by rw [spelled]; rfl
  have enough : ¬ buf.length - p.rptr < httpVersionLen := by
    have whole := congrArg List.length here
    rw [length_drop, length_append] at whole
    omega
  have read := @readHttpVersion_of_drop buf _ _ a b (by rw [here, spelled]; rfl) digitA digitB
  have same := slice_of_drop here
  rw [length] at same
  simp only [readVersion, Bool.false_eq_true, if_false, enough, read, start, same, length]

/-- The end of a first line leaves the reader at the field lines. -/
theorem readFirstLineEol_of_drop {oneByte twoByte : ReadState} (defaults : p.ctx.flag = {})
    (state : p.ctx.state = oneByte) (here : buf.drop p.rptr = 13 :: 10 :: after) :
    readFirstLineEol buf oneByte twoByte p = (p.goto (.init .header) (p.rptr + 2), .none) := by
  simp only [readFirstLineEol, readEolWithFlag_both defaults state here]
  rfl

theorem readRequestEol_of_drop (defaults : p.ctx.flag = {})
    (state : p.ctx.state = .requestVersionLineOneByte)
    (here : buf.drop p.rptr = 13 :: 10 :: after) :
    readRequestEol buf p = (p.goto (.init .header) (p.rptr + 2), .none) := by
  have current : (p.goto (.init .header) (p.rptr + 2)).ctx.flag.legacyHttp09 = false :=
    congrArg _ defaults
  simp only [readRequestEol, readFirstLineEol_of_drop defaults state here, current,
    Bool.false_eq_true, false_and, and_false, if_false]

theorem requestRound_method (state : p.ctx.state = .method) (defaults : p.ctx.flag = {}) :
    requestRound buf p = readText buf isTokenChar .invalidMethod .methodSpace (fun pos => { p with
      ctx := p.ctx.scanMethod buf ⟨p.ctx.startPos, pos⟩
      method := slice buf p.ctx.startPos pos }) p := by
  simp only [requestRound, state, readMethod, defaults]
  rfl

theorem requestRound_path (state : p.ctx.state = .path) (defaults : p.ctx.flag = {}) :
    requestRound buf p = readText buf isUriUsable .invalidPath .pathSpace
      (fun pos => { p with path := slice buf p.ctx.startPos pos }) p := by
  simp only [requestRound, state, readPath, defaults]
  rfl

theorem requestLine_read {method path : Bytes}
    (here : buf = method ++ 32 :: (path ++ 32 :: (version ++ 13 :: 10 :: after)))
    (token : ∀ c ∈ method, isTokenChar c) (named : method ≠ [])
    (usable : ∀ c ∈ path, isUriUsable c) (placed : path ≠ [])
    (taken : exactVersion version = some (major, minor)) :
    ∃ left, parseRequestLine buf {} = some (left, .none) ∧ left.method = method ∧
      left.path = path ∧ left.version = version ∧
      Opened left (0 + method.length + 1 + path.length + 1 + version.length + 2)
        (major == 1 && minor == 1) := by
  have atMethod : buf.drop 0 = _ := here
  have atSpace := drop_add_of_drop atMethod
  have atPath := drop_succ_of_drop atSpace
  have atPathSpace := drop_add_of_drop atPath
  have atVersion := drop_succ_of_drop atPathSpace
  have atEnd := drop_add_of_drop atVersion
  have ends : Ends (requestRound buf) (FirstLine.prepared {} .methodInit) _ :=
    .round rfl
      (.round ((requestRound_method rfl rfl).trans
          (readText_of_drop rfl atMethod token (by decide) named))
        (.round (readSpace_of_drop atSpace)
          (.round ((requestRound_path rfl rfl).trans
              (readText_of_drop rfl atPath usable (by decide) placed))
            (.round (readSpace_of_drop atPathSpace)
              (.round (readVersion_of_drop rfl atVersion taken)
                (.leave (congrArg _ (readRequestEol_of_drop rfl rfl atEnd))))))))
  exact ⟨_, ends.iterate_eq (parseRequestLine_isSome buf {}), slice_of_drop atMethod,
    slice_of_drop atPath, rfl, rfl, rfl, rfl, rfl, Bool.and_true _⟩

/-- A digit as the writer spells it is read as its value. -/
theorem digit_spelled {n : Nat} (small : n < 10) :
    isDigit (48 + UInt8.ofNat n) ∧ digitValue (48 + UInt8.ofNat n) = n := by
  have all : ∀ n : Fin 10, isDigit (48 + UInt8.ofNat n) ∧
      digitValue (48 + UInt8.ofNat n) = n := by decide +kernel
  exact all ⟨n, small⟩

theorem readStatusCode_of_drop {status : Nat} (defaults : p.ctx.flag = {})
    (start : p.ctx.startPos = p.rptr) (small : status < 1000)
    (here : buf.drop p.rptr = statusDigits status ++ after) :
    readStatusCode buf p =
      .inl ({ p with
        ctx := p.ctx.scanStatusCode (status / 100 * 100 + status % 100 / 10 * 10 + status % 10)
        status := statusDigits status }.goto .statusCodeSpace (p.rptr + 3)) := by
  obtain ⟨hundreds, first⟩ := @digit_spelled (status / 100) (by omega)
  obtain ⟨tens, second⟩ := @digit_spelled (status % 100 / 10) (by omega)
  obtain ⟨ones, third⟩ := @digit_spelled (status % 10) (by omega)
  have text := slice_of_drop here
  have enough : ¬ buf.length - p.rptr < 3 := by
    have whole := congrArg length here
    simp only [length_drop, length_append, statusDigits, length_cons] at whole
    omega
  have atSecond := drop_succ_of_drop here
  have atThird := drop_succ_of_drop atSecond
  simp only [readStatusCode, ReadFlag.roughStatusCode, defaults, enough, current_of_drop here,
    current_of_drop atSecond, current_of_drop atThird, hundreds, tens, ones, first, second, third,
    start, Bool.not_true, Bool.false_eq_true, if_false]
  rw [show 3 = (statusDigits status).length from rfl, text]

theorem readPhrase_of_drop (start : p.ctx.startPos = p.rptr)
    (here : buf.drop p.rptr = text ++ 13 :: after) (inside : ∀ c ∈ text, isLine c = false) :
    readPhrase buf p =
      .inl ({ p with phrase := text }.goto .reasonPhraseLineOneByte (p.rptr + text.length)) := by
  have stop := @consumeWhile_of_drop buf _ _ _ 13 (fun c => !isLine c) here
    (fun c member => by rw [inside c member]; rfl) (by decide)
  simp only [readPhrase, stop, start, not_eos_of_drop (drop_add_of_drop here), Bool.false_eq_true,
    if_false, slice_of_drop here]

theorem statusLine_read {phrase : Bytes} {status : Nat}
    (here : buf = version ++ 32 :: (statusDigits status ++ 32 :: (phrase ++ 13 :: 10 :: after)))
    (small : status < 1000) (inside : ∀ c ∈ phrase, isLine c = false)
    (taken : exactVersion version = some (major, minor)) :
    ∃ left, parseStatusLine buf {} = some (left, .none) ∧ left.version = version ∧
      left.status = statusDigits status ∧ left.phrase = phrase ∧
      Opened left (0 + version.length + 1 + 3 + 1 + phrase.length + 2) false := by
  have atVersion : buf.drop 0 = _ := here
  have atSpace := drop_add_of_drop atVersion
  have atCode := drop_succ_of_drop atSpace
  have atCodeSpace := drop_add_of_drop atCode
  have atPhrase := drop_succ_of_drop atCodeSpace
  have atEnd := drop_add_of_drop atPhrase
  have ends : Ends (statusRound buf) (FirstLine.prepared {} .responseVersionInit) _ :=
    .round rfl
      (.round (readVersion_of_drop rfl atVersion taken)
        (.round (readSpace_of_drop atSpace)
          (.round (readStatusCode_of_drop rfl rfl small atCode)
            (.round (readSpace_of_drop atCodeSpace)
              (.round (readPhrase_of_drop rfl atPhrase inside)
                (.leave (congrArg _ (readFirstLineEol_of_drop rfl rfl atEnd))))))))
  exact ⟨_, ends.iterate_eq (parseStatusLine_isSome buf {}), rfl, rfl, rfl, rfl, rfl, rfl, rfl,
    Bool.and_false _⟩

end FirstLines

/-! ## What the writer has written -/

variable {validator : Bytes → Bytes → Bool} {fields : List Field} {version : Bytes}

/-- The lines of all fields have been appended, and the writer knows of a `Host` header among them. -/
theorem addHeaders_written {ctx : WriteContext} {out : Bytes}
    (done : (addHeaders validator ctx out fields).error = .none) :
    (addHeaders validator ctx out fields).out = out ++ fields.flatMap fieldLine ∧
      (addHeaders validator ctx out fields).ctx.hasHost =
        (ctx.hasHost || fields.any fun field => sameName field.name hostName) ∧
      (addHeaders validator ctx out fields).ctx.requireHost = ctx.requireHost ∧
      (addHeaders validator ctx out fields).ctx.writeFlag = ctx.writeFlag := by
  induction fields generalizing ctx out with
  | nil => simp [addHeaders]
  | cons field fields ih =>
    simp only [addHeaders] at done ⊢
    split at done
    · cases done
    rename_i accepted
    obtain ⟨host, required, flag⟩ := scanHeader_write ctx _ _
    obtain ⟨written, hosts, requires, flags⟩ := ih done
    rw [if_neg accepted, written, hosts, requires, flags, host, required, flag, append_assoc,
      Bool.or_assoc]
    exact ⟨rfl, rfl, rfl, rfl⟩

/-- A head that is not refused has the `Host` header it needs. -/
theorem hasHost_of_enterBody {ctx : WriteContext} (strict : ctx.writeFlag.allowNoHost = false)
    (done : ctx.enterBody.2 = .none) (required : ctx.requireHost) : ctx.hasHost := by
  by_contra missing
  rw [Bool.not_eq_true] at missing
  simp [WriteContext.enterBody, required, missing, strict] at done

/-- The writer has appended the field lines and the empty line behind a first line. -/
structure Written (line whole : Rendering) (fields : List Field) : Prop where
  out : whole.out = line.out ++ (fields.flatMap fieldLine ++ [13, 10])
  host : line.ctx.requireHost = true →
    (line.ctx.hasHost || fields.any fun field => sameName field.name hostName) = true

theorem withFields_written {line : Rendering}
    (strict : line.error = .none → line.ctx.writeFlag = {})
    (done : (line.withFields fields validator).error = .none) :
    line.error = .none ∧ Written line (line.withFields fields validator) fields := by
  simp only [Rendering.withFields, renderHeaderCommon] at done ⊢
  split at done
  case isTrue failed => exact absurd done failed
  case isFalse fine =>
    rw [if_neg fine]
    split at done
    · cases done
    rename_i ready
    rw [if_neg ready]
    split at done
    case isTrue failed => exact absurd done failed
    case isFalse added =>
      rw [if_neg added]
      obtain ⟨written, hosts, requires, flags⟩ := addHeaders_written (of_not_not added)
      refine ⟨of_not_not fine, by simp [written], fun required => ?_⟩
      rw [← hosts]
      exact hasHost_of_enterBody (by rw [flags, strict (of_not_not fine)]) done
        (by rw [requires, required])

/-- What the writer takes for a request line, and what it makes of it. -/
theorem renderRequestLine_written {method path : Bytes} {line : Rendering}
    (made : renderRequestLine {} [] method path (some version) = line) (done : line.error = .none) :
    line.ctx.writeFlag = {} ∧ (∀ c ∈ method, isTokenChar c) ∧ method ≠ [] ∧
      (∀ c ∈ path, isUriUsable c) ∧ path ≠ [] ∧
      ∃ major minor, exactVersion version = some (major, minor) ∧
        line.out = method ++ 32 :: (path ++ 32 :: (version ++ [13, 10])) ∧
        line.ctx.hasHost = false ∧ line.ctx.requireHost = (major == 1 && minor == 1) := by
  subst made
  simp only [renderRequestLine, refusesWord, ne_eq, not_true_eq_false, if_false,
    Bool.false_eq_true, validate, Bool.false_or] at done ⊢
  split at done
  · cases done
  rename_i token
  rw [if_neg token]
  split at done
  · cases done
  rename_i usable
  rw [if_neg usable]
  split at done
  · cases done
  rename_i major minor taken
  simp only [Bool.not_eq_true', Bool.not_eq_false, Bool.and_eq_true, all_eq_true,
    isEmpty_eq_false_iff] at token usable
  refine ⟨rfl, fun c member => (token.1 c member).2, token.2, usable.1, usable.2, major,
    minor, taken, ?_, ?_⟩ <;> simp [WriteContext.scanMethod, WriteContext.scanHttpVersion,
      WriteContext.requireHost]

/-- What the writer takes for a status line, and what it makes of it. -/
theorem renderStatusLine_written {status : Int} {phrase : Bytes} {line : Rendering}
    (made : renderStatusLine {} [] status phrase (some version) = line)
    (done : line.error = .none) :
    line.ctx.writeFlag = {} ∧ 100 ≤ status ∧ status ≤ 599 ∧ (∀ c ∈ phrase, isLine c = false) ∧
      (∃ major minor, exactVersion version = some (major, minor)) ∧
      line.out = version ++ 32 :: (statusDigits status.toNat ++ 32 :: (phrase ++ [13, 10])) := by
  subst made
  simp only [renderStatusLine, ne_eq, not_true_eq_false, if_false, Bool.false_eq_true,
    WriteContext.scanStatusCode, WriteContext.scanHttpVersion] at done ⊢
  split at done
  · cases done
  rename_i inRange
  rw [if_neg inRange]
  split at done
  · cases done
  rename_i major minor taken
  by_cases broken : (phrase.contains 13 || phrase.contains 10)
  · simp only [broken] at done
    cases done
  · have plain := broken
    simp only [Bool.not_eq_true, Bool.or_eq_false_iff, contains_eq_mem,
      decide_eq_false_iff_not] at plain
    refine ⟨by simp [plain], by omega, by omega, fun c member => ?_, ⟨major, minor, taken⟩, ?_⟩
    · simp only [isLine, Bool.or_eq_false_iff, beq_eq_false_iff_ne]
      exact ⟨fun same => plain.1 (same ▸ member), fun same => plain.2 (same ▸ member)⟩
    · simp [plain]

/-- A status code is what its three digits spell. -/
theorem statusCode_statusDigits {status : Nat} (low : 100 ≤ status) (high : status ≤ 599) :
    statusCode (statusDigits status) = status := by
  have all : ∀ n : Fin 500, statusCode (statusDigits (100 + n)) = 100 + n := by decide +kernel
  have same := all ⟨status - 100, by omega⟩
  rwa [Nat.add_sub_cancel' low] at same

/-! ## Heads -/

/-- A head whose first line has been read is read to its end. -/
theorem head_read_back {firstLine : Bytes → FirstLine → Option (FirstLine × HeaderError)}
    {line whole : Rendering} {after : Bytes} {left : FirstLine} {pos : Nat} {requireHost : Bool}
    (written : Written line whole fields) (ended : pos = line.out.length)
    (first : firstLine (whole.out ++ after) {} = some (left, .none))
    (opened : Opened left pos requireHost)
    (wellFormed : ∀ field ∈ fields, field.WellFormed)
    (host : requireHost →
      (fields.any fun field => sameName field.name hostName)) :
    ∃ head : Head, parseHead firstLine (whole.out ++ after) takes {} = some (head, .none) ∧
      head.rptr = whole.out.length ∧ head.fields = fields ∧
      head.method = left.method ∧ head.path = left.path ∧ head.version = left.version ∧
      head.status = left.status ∧ head.phrase = left.phrase := by
  subst ended
  have here : (whole.out ++ after).drop line.out.length =
      fields.flatMap fieldLine ++ 13 :: 10 :: after := by
    rw [written.out]
    simp
  let p : Parsing := ⟨left.ctx, left.rptr, []⟩
  have begun : (p.ctx.prepareRead p.rptr (.init .header)).1 = { left.ctx with resumable := false } ∧
      (p.ctx.prepareRead p.rptr (.init .header)).2 = line.out.length := by
    simp only [prepareRead, p, opened.state, reduceCtorEq, if_false, opened.resumes,
      and_self]
  obtain ⟨done, ends, -, moved, read⟩ := @fields_read _ _
    ⟨{ left.ctx with resumable := false }, line.out.length, []⟩ _ opened.defaults opened.state
    here wellFormed (fun required => by
      rw [show left.ctx.hasHost = false from opened.host]
      exact host (opened.required ▸ required))
  have parsed : parseCommon (whole.out ++ after) takes p = some (done, .none) := by
    have enough := parseCommon_isSome (whole.out ++ after) takes p
    simp only [parseCommon, begun] at enough ⊢
    exact ends.iterate_eq enough
  refine ⟨{ left with ctx := done.ctx, rptr := done.rptr, fields := done.fields }, ?_, ?_, read,
    rfl, rfl, rfl, rfl, rfl⟩
  · simp only [parseHead, first, if_true, Head.parsing]
    rw [show parseCommon _ takes ⟨left.ctx, left.rptr, []⟩ = _ from parsed, Option.map_some]
  · rw [written.out]
    simpa [Nat.add_assoc] using moved

/-- Every rendered request and response is read back: exactly the rendered bytes, as what was
rendered. -/
theorem rendered_head_read_back (fields : List Field) (writable : ∀ field ∈ fields, field.Writable)
    (validator : Bytes → Bytes → Bool) (version after : Bytes) :
    (∀ method path : Bytes,
      let rendered := renderRequest {} [] method path fields validator (some version)
      rendered.error = .none →
        ∃ head : Head, parseRequest (rendered.out ++ after) takes {} = some (head, .none) ∧
          head.rptr = rendered.out.length ∧ head.method = method ∧ head.path = path ∧
          head.version = version ∧ head.fields = fields) ∧
    ∀ (status : Int) (phrase : Bytes),
      let rendered := renderResponse {} [] status phrase fields validator (some version)
      rendered.error = .none →
        ∃ head : Head, parseResponse (rendered.out ++ after) takes {} = some (head, .none) ∧
          head.rptr = rendered.out.length ∧ head.version = version ∧
          (statusCode head.status : Int) = status ∧ head.phrase = phrase ∧
          head.fields = fields := by
  have wellFormed := fun field member =>
    (writable field member).wellFormed
  constructor
  · intro method path rendered done
    obtain ⟨lineDone, written⟩ :=
      withFields_written (fun fine => (renderRequestLine_written rfl fine).1) done
    obtain ⟨-, token, named, usable, placed, major, minor, taken, line, noHost, required⟩ :=
      renderRequestLine_written rfl lineDone
    have here : rendered.out ++ after =
        method ++ 32 :: (path ++ 32 :: (version ++ 13 :: 10 ::
          (fields.flatMap fieldLine ++ 13 :: 10 :: after))) := by
      rw [show rendered.out = _ from written.out, line]
      simp
    obtain ⟨_, first, sameMethod, samePath, sameVersion, opened⟩ :=
      requestLine_read here token named usable placed taken
    have host (needed : (major == 1 && minor == 1)) :
        (fields.any fun field => sameName field.name hostName) := by
      have found := written.host (by rw [required, needed])
      rwa [noHost] at found
    obtain ⟨head, read, moved, sameFields, methods, paths, versions, -⟩ :=
      head_read_back written (by simp [line]; omega) first opened wellFormed host
    exact ⟨head, read, moved, methods.trans sameMethod, paths.trans samePath,
      versions.trans sameVersion, sameFields⟩
  · intro status phrase rendered done
    obtain ⟨lineDone, written⟩ :=
      withFields_written (fun fine => (renderStatusLine_written rfl fine).1) done
    obtain ⟨-, low, high, inside, ⟨_, _, taken⟩, line⟩ := renderStatusLine_written rfl lineDone
    have digits : (statusDigits status.toNat).length = 3 := rfl
    have here : rendered.out ++ after =
        version ++ 32 :: (statusDigits status.toNat ++ 32 :: (phrase ++ 13 :: 10 ::
          (fields.flatMap fieldLine ++ 13 :: 10 :: after))) := by
      rw [show rendered.out = _ from written.out, line]
      simp
    obtain ⟨_, first, sameVersion, sameStatus, samePhrase, opened⟩ :=
      statusLine_read here (by omega) inside taken
    obtain ⟨head, read, moved, sameFields, -, -, versions, codes, phrases⟩ :=
      head_read_back written (by simp [line]; omega) first opened wellFormed
        (fun needed => by cases needed)
    refine ⟨head, read, moved, versions.trans sameVersion, ?_, phrases.trans samePhrase, sameFields⟩
    rw [codes, sameStatus, statusCode_statusDigits (by omega) (by omega)]
    omega

/-- A request that uploads three bytes, and a response that refuses it. -/
theorem rendered_upload_read_back :
    let fields : List Field :=
      [⟨ascii "Host", ascii "example"⟩, ⟨ascii "Content-Length", ascii "3"⟩,
        ⟨ascii "Accept", ascii "a b, c"⟩]
    let request := renderRequest {} [] (ascii "PUT") (ascii "/a?b=%20") fields defaultValidator
      (some (ascii "HTTP/1.1"))
    let response := renderResponse {} [] 404 (ascii "Not Found") fields defaultValidator
      (some (ascii "HTTP/1.1"))
    (request.error = .none ∧ ∃ head : Head,
      parseRequest (request.out ++ ascii "abc") takes {} = some (head, .none) ∧
        head.rptr = request.out.length ∧ head.method = ascii "PUT" ∧
        head.path = ascii "/a?b=%20" ∧ head.version = ascii "HTTP/1.1" ∧ head.fields = fields) ∧
      (response.error = .none ∧ ∃ head : Head,
        parseResponse (response.out ++ ascii "abc") takes {} = some (head, .none) ∧
          head.rptr = response.out.length ∧ head.version = ascii "HTTP/1.1" ∧
          (statusCode head.status : Int) = 404 ∧ head.phrase = ascii "Not Found" ∧
          head.fields = fields) := by
  intro fields request response
  have writable : ∀ field ∈ fields, field.Writable := by decide +kernel
  have requestDone : request.error = .none := by decide +kernel
  have responseDone : response.error = .none := by decide +kernel
  have back := rendered_head_read_back _ writable defaultValidator (ascii "HTTP/1.1") (ascii "abc")
  exact ⟨⟨requestDone, back.1 _ _ requestDone⟩, ⟨responseDone, back.2 _ _ responseDone⟩⟩

end Futils.Http1
