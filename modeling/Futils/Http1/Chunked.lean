import Futils.Http1.Body

/-!
# Chunked bodies

The grammar of a chunked body, and the proof that what `read_body` takes for one is one.  The proof
relates every state of the reader to the part of the grammar that has been read.
-/

namespace Futils.Http1

open Sequencer Number Lib.Loop Lib.Machine BodyReading ReadContext Nat List

def hexValue (digits : Bytes) : Nat :=
  digits.foldl (fun value c => value * 16 + (numberTransform c).getD 0) 0

/-- A chunk size: at least one digit, denoting `size`. -/
def Size (digits : Bytes) (size : Nat) : Prop :=
  digits ≠ [] ∧ (∀ c ∈ digits, isHex c = true) ∧ hexValue digits = size

/-- What may stand between a chunk size and the end of its line, with the extension texts in it. -/
inductive Extension : Bytes → List Bytes → Prop
  | none : Extension [] []
  | some {blank text} (blanks : Blank blank) (oneLine : ∀ c ∈ text, isLine c = false) :
      Extension (blank ++ 59 :: text) [text]

/-- Complete chunks with data: their text, their data and their extensions. -/
inductive Chunks : Bytes → Bytes → List Bytes → Prop
  | nil : Chunks [] [] []
  | chunk {text data extensions digits line found piece} (chunks : Chunks text data extensions)
      (size : Size digits piece.length) (extension : Extension line found) (filled : piece ≠ []) :
      Chunks (text ++ digits ++ line ++ [13, 10] ++ piece ++ [13, 10]) (data ++ piece)
        (extensions ++ found)

/-- Chunks followed by a size and what may stand behind it on its line. -/
def SizeRead (text data : Bytes) (extensions : List Bytes) (size : Nat) : Prop :=
  ∃ chunks earlier digits line found, Chunks chunks data earlier ∧ Size digits size ∧
    Extension line found ∧ extensions = earlier ++ found ∧ text = chunks ++ digits ++ line

/-- A chunked body without trailer: chunks, a last chunk of size zero, and an empty line. -/
def ChunkedBody (text data : Bytes) (extensions : List Bytes) : Prop :=
  ∃ last, SizeRead last data extensions 0 ∧ text = last ++ [13, 10] ++ [13, 10]

/-- The digits pushed one by one are the number they denote, in 64 bits. -/
theorem foldl_pushHex (read digits : Bytes) :
    digits.foldl pushHex (hexValue read % 2 ^ 64) = hexValue (read ++ digits) % 2 ^ 64 := by
  induction digits generalizing read with
  | nil => simp
  | cons c digits ih =>
    have pushed : pushHex (hexValue read % 2 ^ 64) c = hexValue (read ++ [c]) % 2 ^ 64 := by
      simp only [pushHex, hexValue, foldl_append, foldl_cons, foldl_nil]
      omega
    rw [foldl_cons, pushed, ih]
    simp

/-- A size line, the data it announces and a line end are one more chunk. -/
theorem SizeRead.chunk {line data piece : Bytes} {extensions : List Bytes}
    (size : SizeRead line data extensions piece.length) (filled : piece ≠ []) :
    Chunks (line ++ [13, 10] ++ piece ++ [13, 10]) (data ++ piece) extensions := by
  obtain ⟨_, _, _, _, _, complete, digitsSize, extension, rfl, rfl⟩ := size
  exact .chunk complete digitsSize extension filled

/-- What has been read of a chunked body, by the state of the reader. -/
def ChunkPlace (buf : Bytes) (origin : Nat) (p : BodyReading) : Prop :=
  let text := slice buf origin p.rptr
  let data := p.pieces.flatten
  let remain := p.ctx.headerKeyEndOrRemainChunkSize
  match p.ctx.state with
  | .bodyInit | .bodyChunkedInit => text = [] ∧ data = [] ∧ p.extensions = []
  | .bodyChunkedSize =>
    origin ≤ p.ctx.startPos ∧ p.ctx.startPos ≤ p.rptr ∧
      Chunks (slice buf origin p.ctx.startPos) data p.extensions ∧
      (∀ c ∈ slice buf p.ctx.startPos p.rptr, isHex c = true) ∧
      remain = hexValue (slice buf p.ctx.startPos p.rptr) % 2 ^ 64
  | .bodyChunkedExtensionInit =>
    origin ≤ p.ctx.startPos ∧ p.ctx.startPos ≤ p.rptr ∧ Blank (slice buf p.ctx.startPos p.rptr) ∧
      ∃ chunks digits, Chunks chunks data p.extensions ∧ Size digits remain ∧
        slice buf origin p.ctx.startPos = chunks ++ digits
  | .bodyChunkedExtension =>
    origin ≤ p.ctx.startPos ∧ p.ctx.startPos ≤ p.rptr ∧
      (∀ c ∈ slice buf p.ctx.startPos p.rptr, isLine c = false) ∧
      ∃ chunks digits blank, Chunks chunks data p.extensions ∧ Size digits remain ∧ Blank blank ∧
        slice buf origin p.ctx.startPos = chunks ++ digits ++ (blank ++ [59])
  | .bodyChunkedSizeEolOneByte => SizeRead text data p.extensions remain
  | .bodyChunkedSizeEolTwoByte =>
    ∃ line, SizeRead line data p.extensions remain ∧ text = line ++ [13]
  | .bodyChunkedDataInit =>
    ∃ line, SizeRead line data p.extensions remain ∧ text = line ++ [13, 10]
  | .bodyChunkedData =>
    remain ≠ 0 ∧ ∃ line earlier got, SizeRead line earlier p.extensions (got.length + remain) ∧
      data = earlier ++ got ∧ text = line ++ [13, 10] ++ got
  | .bodyChunkedDataEolOneByte =>
    remain = 0 ∧ ∃ line earlier got, SizeRead line earlier p.extensions got.length ∧ got ≠ [] ∧
      data = earlier ++ got ∧ text = line ++ [13, 10] ++ got
  | .bodyChunkedDataEolTwoByte =>
    remain = 0 ∧ ∃ line earlier got, SizeRead line earlier p.extensions got.length ∧ got ≠ [] ∧
      data = earlier ++ got ∧ text = line ++ [13, 10] ++ got ++ [13]
  | .lastEolOneByte .trailer =>
    ∃ line, SizeRead line data p.extensions 0 ∧ text = line ++ [13, 10]
  | .lastEolTwoByte .trailer =>
    ∃ line, SizeRead line data p.extensions 0 ∧ text = line ++ [13, 10] ++ [13]
  | .bodyEnd => ChunkedBody text data p.extensions
  | _ => False

/-- A reader with the default flags in a chunked body without trailer. -/
structure InChunks (buf : Bytes) (origin : Nat) (p : BodyReading) : Prop where
  defaults : p.ctx.flag = {}
  type : p.ctx.bodyType = .chunked
  noTrailer : p.ctx.hasTrailer = false
  start : origin ≤ p.rptr
  within : p.rptr ≤ buf.length
  place : ChunkPlace buf origin p

/-- What a call of `read_body` may leave behind. -/
def BodyOutcome (buf : Bytes) (origin : Nat) (out : BodyReading × BodyResult) : Prop :=
  (out.2 = .full → InChunks buf origin out.1 ∧ out.1.ctx.state = .bodyEnd) ∧
    (out.2 = .incomplete → InChunks buf origin out.1 ∧ out.1.ctx.suspendPos = out.1.rptr)

/-- A size line that the reader is about to finish has a digit, and its number fits into 64 bits. -/
def SizeFits (buf : Bytes) (p : BodyReading) : Prop :=
  p.ctx.state = .bodyChunkedSize → eos buf (consumeWhile isHex buf p.rptr) = false →
    slice buf p.ctx.startPos (consumeWhile isHex buf p.rptr) ≠ [] ∧
      hexValue (slice buf p.ctx.startPos (consumeWhile isHex buf p.rptr)) < 2 ^ 64
deriving Decidable

section Round

variable {buf : Bytes} {origin : Nat} {p : BodyReading}

theorem countContent_eq (type : p.ctx.bodyType = .chunked) (count : Nat) :
    p.countContent count = p := by
  simp [countContent, type]

variable (buf origin) in
/-- What a round of `read_body` may leave behind. -/
abbrev BodyKept : BodyReading ⊕ (BodyReading × BodyResult) → Prop :=
  Round (InChunks buf origin) (BodyOutcome buf origin)

theorem chunkPlace_size {pos : Nat} (remain : p.ctx.headerKeyEndOrRemainChunkSize = 0)
    (ordered : origin ≤ pos) (chunks : Chunks (slice buf origin pos) p.pieces.flatten p.extensions) :
    ChunkPlace buf origin (p.goto .bodyChunkedSize pos) := by
  refine ⟨ordered, le_rfl, chunks, ?_, ?_⟩
  · simp [goto, changeState]
  · simp [goto, changeState, remain, hexValue]

variable (inChunks : InChunks buf origin p)
include inChunks

theorem inChunks_suspend {pos : Nat} (start : origin ≤ pos)
    (within : pos ≤ buf.length) (place : ChunkPlace buf origin (p.suspend pos).1) :
    BodyOutcome buf origin (p.suspend pos) :=
  ⟨nofun, fun _ => ⟨{ inChunks with start := start, within := within, place := place }, rfl⟩⟩

theorem inChunks_goto {state : ReadState} {pos : Nat}
    (start : origin ≤ pos) (within : pos ≤ buf.length)
    (place : ChunkPlace buf origin (p.goto state pos)) : InChunks buf origin (p.goto state pos) :=
  { inChunks with start := start, within := within, place := place }

theorem not_consistent : p.consistent = false := by
  simp [consistent, inChunks.type]

theorem readChunkSize_keeps (state : p.ctx.state = .bodyChunkedSize) (fits : SizeFits buf p) :
    BodyKept buf origin (readChunkSize buf p) := by
  have place := inChunks.place
  simp only [ChunkPlace, state] at place
  obtain ⟨start, reached, chunks, digits, remain⟩ := place
  have further := le_consumeWhile isHex buf p.rptr
  have inside := consumeWhile_le_length isHex buf _ inChunks.within
  have hex := forall_mem_consumeWhile _ buf _ reached digits fun _ => id
  have fits := fits state
  have size : (slice buf p.rptr (consumeWhile isHex buf p.rptr)).foldl pushHex
      p.ctx.headerKeyEndOrRemainChunkSize =
      hexValue (slice buf p.ctx.startPos (consumeWhile isHex buf p.rptr)) % 2 ^ 64 := by
    rw [remain, foldl_pushHex, ← slice_append_slice reached further]
  simp only [readChunkSize, not_consistent inChunks, size]
  have begun := le_trans inChunks.start further
  split
  · refine .leaves ⟨by rintro ⟨⟩, fun _ =>
      ⟨{ inChunks with start := begun, within := inside, place := ?_ }, rfl⟩⟩
    simp only [ChunkPlace, suspend, saveRemainChunk, savePos,
      state]
    exact ⟨start, le_trans reached further, chunks, hex, trivial⟩
  case isFalse more =>
    obtain ⟨filled, small⟩ := fits (eq_false_of_ne_true more)
    refine .goes { inChunks with start := begun, within := inside, place := ?_ }
    refine ⟨begun, le_rfl, ?_, _, _, chunks,
      ⟨filled, hex, (mod_eq_of_lt small).symm⟩, ?_⟩
    · simp [goto, changeState, Blank]
    · exact slice_append_slice start (le_trans reached further)

theorem readExtensionInit_keeps (state : p.ctx.state = .bodyChunkedExtensionInit) :
    BodyKept buf origin (readExtensionInit buf p) := by
  have place := inChunks.place
  simp only [ChunkPlace, state] at place
  obtain ⟨start, reached, blank, chunks, digits, complete, size, text⟩ := place
  have behind := le_trans reached (le_consumeWhile isTabOrSpace buf _)
  have inside := consumeWhile_le_length isTabOrSpace buf _ inChunks.within
  have blanks := forall_mem_consumeWhile _ buf _ reached blank fun _ => id
  simp only [readExtensionInit]
  generalize consumeWhile isTabOrSpace buf p.rptr = pos at behind inside blanks
  have begun := le_trans start behind
  split
  · refine .leaves (inChunks_suspend inChunks begun inside ?_)
    simp only [suspend, savePos, state]
    exact ⟨start, behind, blanks, chunks, digits, complete, size, text⟩
  rename_i more
  have more := eq_false_of_ne_true more
  split
  case isTrue semicolon =>
    have here := getElem?_of_not_eos more
    rw [semicolon] at here
    refine .goes (inChunks_goto inChunks (le_succ_of_le begun) (lt_of_not_eos more)
      ⟨le_succ_of_le begun, le_rfl, ?_, chunks, digits, _, complete, size, blanks, ?_⟩)
    · simp [goto, changeState]
    · show slice buf origin (pos + 1) = _
      rw [slice_succ begun here, slice_append_slice start behind, text]
      simp
  split
  · exact .leaves ⟨by simp, by simp⟩
  case isFalse space =>
    have same : p.ctx.startPos = pos := not_not.1 space
    refine .goes (inChunks_goto inChunks begun inside
      ⟨chunks, p.extensions, digits, [], [], complete, size, .none, (append_nil _).symm, ?_⟩)
    show slice buf origin pos = _
    rw [← same, text]
    simp

theorem readExtension_keeps (state : p.ctx.state = .bodyChunkedExtension) :
    BodyKept buf origin (readExtension buf p) := by
  have place := inChunks.place
  simp only [ChunkPlace, state] at place
  obtain ⟨start, reached, oneLine, chunks, digits, blank, complete, size, blanks, text⟩ := place
  have behind := le_trans reached (le_consumeWhile (fun c => !isLine c) buf _)
  have inside := consumeWhile_le_length (fun c => !isLine c) buf _ inChunks.within
  have lines := forall_mem_consumeWhile (fun c => !isLine c) buf _ reached oneLine
    fun c keeps => by simpa using keeps
  simp only [readExtension]
  generalize consumeWhile (fun c => !isLine c) buf p.rptr = pos at behind inside lines
  have begun := le_trans start behind
  split
  · refine .leaves (inChunks_suspend inChunks begun inside ?_)
    simp only [suspend, savePos, state]
    exact ⟨start, behind, lines, chunks, digits, blank, complete, size, blanks, text⟩
  refine .goes { inChunks with start := begun, within := inside, place := ?_ }
  refine ⟨chunks, p.extensions, digits, _, _, complete, size, .some blanks lines, rfl, ?_⟩
  show slice buf origin pos = _
  rw [slice_append_slice start behind, text]
  simp

/-- What the line end behind a size or behind chunk data may leave behind. -/
theorem readBodyEol_keeps {oneByte twoByte next : ReadState} (distinct : twoByte ≠ oneByte)
    (state : p.ctx.state = oneByte ∨ p.ctx.state = twoByte)
    (both : p.ctx.state = oneByte →
      ∀ pos, origin ≤ pos → slice buf origin pos = slice buf origin p.rptr ++ [13, 10] →
        ChunkPlace buf origin (p.goto next pos))
    (second : p.ctx.state = twoByte →
      ∀ pos, origin ≤ pos → slice buf origin pos = slice buf origin p.rptr ++ [10] →
        ChunkPlace buf origin (p.goto next pos))
    (half : p.ctx.state = oneByte →
      ∀ pos, origin ≤ pos → slice buf origin pos = slice buf origin p.rptr ++ [13] →
        ChunkPlace buf origin ((p.goto twoByte pos).suspend pos).1) :
    BodyKept buf origin (readBodyEol buf oneByte twoByte next p) := by
  have start := inChunks.start
  have ends := @readEolWithFlag_lineEnd buf _ _ next _ p.rptr inChunks.defaults distinct state
  simp only [readBodyEol]
  generalize readEolWithFlag buf oneByte twoByte next p.ctx p.rptr = line at ends
  cases ends with
  | both state first last =>
    obtain ⟨begun, within, read⟩ := slice_lineEnd start first last
    exact .goes (inChunks_goto inChunks begun within (both state _ begun read))
  | second state last =>
    exact .goes (inChunks_goto inChunks (le_succ_of_le start)
      (List.getElem?_eq_some_iff.1 last).1
      (second state _ (le_succ_of_le start) (slice_succ start last)))
  | wait => exact .leaves (inChunks_suspend inChunks start inChunks.within inChunks.place)
  | half state first =>
    exact .leaves ⟨by rintro ⟨⟩, fun _ => ⟨{ inChunks with
      start := le_succ_of_le start
      within := (List.getElem?_eq_some_iff.1 first).1
      place := half state _ (le_succ_of_le start) (slice_succ start first) }, rfl⟩⟩
  | bad left pos fatal =>
    simp only [fatal]
    exact .leaves ⟨by simp, by simp⟩

/-- The size decides whether data or the end follows. -/
theorem readDataInit_keeps (state : p.ctx.state = .bodyChunkedDataInit) :
    BodyKept buf origin (readDataInit p) := by
  have place := inChunks.place
  simp only [ChunkPlace, state] at place
  obtain ⟨line, size, text⟩ := place
  have strict : p.ctx.flag.notStrictTrailer = false := by rw [inChunks.defaults]
  simp only [readDataInit, not_consistent inChunks, strict, inChunks.noTrailer]
  split
  case isTrue last =>
    rw [last] at size
    exact .goes (inChunks_goto inChunks inChunks.start inChunks.within ⟨line, size, text⟩)
  case isFalse more =>
    refine .goes (inChunks_goto inChunks inChunks.start inChunks.within
      ⟨more, line, _, [], ?_, (append_nil _).symm, ?_⟩)
    · rwa [length_nil, zero_add]
    · rw [append_nil]
      exact text

/-- The data of a chunk is reported as it arrives. -/
theorem readData_keeps (state : p.ctx.state = .bodyChunkedData) :
    BodyKept buf origin (readData buf p) := by
  have place := inChunks.place
  have start := inChunks.start
  simp only [ChunkPlace, state] at place
  obtain ⟨missing, line, earlier, got, size, data, text⟩ := place
  have suspends : p.ctx.flag.suspendOnChunked = false := by rw [inChunks.defaults]
  have type : ∀ start stop remain,
      ((p.report buf start stop).saveRemainChunk remain).ctx.bodyType = .chunked :=
    fun _ _ _ => inChunks.type
  have reported : ∀ stop, (p.report buf p.rptr stop).pieces.flatten =
      earlier ++ (got ++ slice buf p.rptr stop) := by
    simp [report, data]
  have reads : ∀ count, slice buf origin (p.rptr + count) =
      line ++ [13, 10] ++ (got ++ slice buf p.rptr (p.rptr + count)) := by
    intro count
    rw [slice_append_slice start (le_add_right _ _), text]
    simp
  simp only [readData, countContent_eq (type _ _ _), suspends]
  split
  · exact .leaves (inChunks_suspend inChunks start inChunks.within inChunks.place)
  rename_i more
  have inside := lt_of_not_eos (eq_false_of_ne_true more)
  split
  case isTrue short =>
    have all : p.rptr + (buf.length - p.rptr) ≤ buf.length := by omega
    refine .leaves ⟨by rintro ⟨⟩, fun _ => ⟨{ inChunks with
      start := le_add_right_of_le start, within := all, place := ?_ }, rfl⟩⟩
    simp only [ChunkPlace, suspend, saveRemainChunk, savePos,
      report, state]
    refine ⟨by omega, line, earlier, _, ?_, reported _, reads _⟩
    rw [length_append, length_slice all]
    have whole : got.length + (p.rptr + (buf.length - p.rptr) - p.rptr) +
        (p.ctx.headerKeyEndOrRemainChunkSize - (buf.length - p.rptr)) =
        got.length + p.ctx.headerKeyEndOrRemainChunkSize := by omega
    rwa [whole]
  case isFalse enough =>
    have all : p.rptr + p.ctx.headerKeyEndOrRemainChunkSize ≤ buf.length := by omega
    have length := @length_slice buf p.rptr _ all
    refine .goes { inChunks with
      start := le_add_right_of_le start, within := all, place := ?_ }
    refine ⟨rfl, line, earlier, got ++ slice buf _ _, ?_, ?_, reported _, reads _⟩
    · rw [length_append, length, Nat.add_sub_cancel_left]
      exact size
    · intro empty
      rw [append_eq_nil_iff] at empty
      rw [empty.2, length_nil] at length
      omega

/-- The last line end completes the body. -/
theorem readLastEol_outcome
    (state : p.ctx.state = .lastEolOneByte .trailer ∨ p.ctx.state = .lastEolTwoByte .trailer) :
    BodyOutcome buf origin (readLastEol buf p) := by
  have place := inChunks.place
  have start := inChunks.start
  have ends := @readEolWithFlag_lineEnd buf _ _
    (.init .trailer) _ p.rptr inChunks.defaults (by simp) state
  simp only [readLastEol]
  generalize readEolWithFlag buf (.lastEolOneByte .trailer) (.lastEolTwoByte .trailer)
    (.init .trailer) p.ctx p.rptr = line at ends
  have ended : ∀ pos, origin ≤ pos → pos ≤ buf.length →
      ChunkedBody (slice buf origin pos) p.pieces.flatten p.extensions →
      BodyOutcome buf origin ((p.goto (.init .trailer) pos).goto .bodyEnd pos, .full) :=
    fun pos start within body =>
      ⟨fun _ => ⟨{ inChunks with start := start, within := within, place := body }, rfl⟩, nofun⟩
  cases ends with
  | both state first second =>
    simp only [ChunkPlace, state] at place
    obtain ⟨last, size, text⟩ := place
    obtain ⟨begun, within, read⟩ := slice_lineEnd start first second
    exact ended _ begun within ⟨last, size, by rw [read, text]⟩
  | second state second =>
    simp only [ChunkPlace, state] at place
    obtain ⟨last, size, text⟩ := place
    refine ended _ (Nat.le_succ_of_le start) (List.getElem?_eq_some_iff.1 second).1
      ⟨last, size, ?_⟩
    rw [slice_succ start second, text]
    simp
  | wait => exact inChunks_suspend inChunks start inChunks.within inChunks.place
  | half state first =>
    simp only [ChunkPlace, state] at place
    obtain ⟨last, size, text⟩ := place
    refine ⟨nofun, fun _ => ⟨{ inChunks with
      start := Nat.le_succ_of_le start, within := (List.getElem?_eq_some_iff.1 first).1,
      place := ⟨last, size, ?_⟩ }, rfl⟩⟩
    show slice buf origin (p.rptr + 1) = _
    rw [slice_succ start first, text]
  | bad left pos fatal =>
    simp only [fatal]
    exact ⟨nofun, nofun⟩

/-- One round of `read_body` in a chunked body. -/
theorem readRound_keeps (fits : SizeFits buf p) :
    BodyKept buf origin (readRound buf p) := by
  have place := inChunks.place
  have start := inChunks.start
  have within := inChunks.within
  simp only [ChunkPlace] at place
  split at place
  case h_15 => exact place.elim
  all_goals
    rename_i state
    simp only [readRound, state]
  · simp only [readBodyInit, inChunks.type]
    exact .goes (inChunks_goto inChunks start within place)
  · obtain ⟨text, data, extensions⟩ := place
    simp only [not_consistent inChunks]
    have chunks := @chunkPlace_size buf _ (p.saveRemainChunk 0) _ rfl start
    refine .goes { inChunks with place := chunks ?_ }
    show Chunks (slice buf origin p.rptr) p.pieces.flatten p.extensions
    rw [text, data, extensions]
    exact .nil
  · exact readChunkSize_keeps inChunks state fits
  · exact readExtensionInit_keeps inChunks state
  · exact readExtension_keeps inChunks state
  · exact readBodyEol_keeps inChunks (by simp) (.inl state) (fun _ pos _ read => ⟨_, place, read⟩)
      (by simp [state]) fun _ pos _ read => ⟨_, place, read⟩
  · obtain ⟨line, size, text⟩ := place
    refine readBodyEol_keeps inChunks (by simp) (.inr state)
      (by simp [state]) (fun _ pos _ read => ⟨line, size, ?_⟩)
      (by simp [state])
    show slice buf origin pos = _
    rw [read, text]
    simp
  · exact readDataInit_keeps inChunks state
  · exact readData_keeps inChunks state
  · obtain ⟨remain, line, earlier, got, size, filled, data, text⟩ := place
    refine readBodyEol_keeps inChunks (by simp) (.inl state)
      (fun _ pos ordered read => chunkPlace_size remain ordered ?_)
      (by simp [state])
      fun _ pos _ read => ⟨remain, line, earlier, got, size, filled, data, ?_⟩
    · rw [read, text, data]
      simpa using size.chunk filled
    · show slice buf origin pos = _
      rw [read, text]
  · obtain ⟨remain, _, _, _, size, filled, data, text⟩ := place
    refine readBodyEol_keeps inChunks (by simp) (.inr state)
      (by simp [state])
      (fun _ pos ordered read => chunkPlace_size remain ordered ?_)
      (by simp [state])
    rw [read, text, data]
    simpa using size.chunk filled
  · exact .leaves (readLastEol_outcome inChunks (.inl state))
  · exact .leaves (readLastEol_outcome inChunks (.inr state))
  · exact .leaves ⟨fun _ => ⟨inChunks, state⟩, by rintro ⟨⟩⟩

/-! ## Calls on a growing buffer -/

omit inChunks

/-- What has been read stays read when more input arrives. -/
theorem ChunkPlace.append (within : p.rptr ≤ buf.length) (place : ChunkPlace buf origin p)
    (more : Bytes) : ChunkPlace (buf ++ more) origin p := by
  unfold ChunkPlace at place ⊢
  simp only [slice_append_right within] at place ⊢
  split at place
  case h_3 =>
    obtain ⟨start, reached, rest⟩ := place
    rw [slice_append_right (le_trans reached within)]
    exact ⟨start, reached, rest⟩
  case h_4 | h_5 =>
    obtain ⟨start, reached, blank, rest⟩ := place
    rw [slice_append_right (le_trans reached within)]
    exact ⟨start, reached, blank, rest⟩
  all_goals exact place

theorem InChunks.append (inChunks : InChunks buf origin p) (more : Bytes) :
    InChunks (buf ++ more) origin p :=
  { inChunks with
    within := by rw [length_append]; exact le_add_right_of_le inChunks.within
    place := inChunks.place.append inChunks.within _ }

/-- A suspended reader goes on where it stopped. -/
theorem inChunks_prepared_of_suspended (inChunks : InChunks buf origin p)
    (suspended : p.ctx.suspendPos = p.rptr) : InChunks buf origin p.prepared := by
  have started : p.ctx.state ≠ .uninit := by
    intro state
    have place := inChunks.place
    simp [ChunkPlace, state] at place
  have same : p.prepared = { p with ctx := { p.ctx with resumable := false } } := by
    simp [prepared, prepareRead, started, suspended]
  rw [same]
  exact { inChunks with }

/-- A fresh reader for a chunked body without trailer. -/
structure Fresh (buf : Bytes) (p : BodyReading) : Prop where
  defaults : p.ctx.flag = {}
  type : p.ctx.bodyType = .chunked
  noTrailer : p.ctx.hasTrailer = false
  noPieces : p.pieces = []
  noExtensions : p.extensions = []
  within : p.rptr ≤ buf.length
  state : p.ctx.state = .uninit ∨ p.ctx.state = .bodyInit ∧ p.ctx.suspendPos = p.rptr

theorem inChunks_prepared_of_fresh (fresh : Fresh buf p) : InChunks buf p.rptr p.prepared := by
  obtain ⟨defaults, type, noTrailer, noPieces, noExtensions, within, state⟩ := fresh
  have same : p.prepared = { p with ctx := { p.ctx with
      state := .bodyInit, startPos := p.prepared.ctx.startPos, suspendPos := p.rptr,
      resumable := false } } := by
    rcases state with state | ⟨state, suspended⟩
    · simp [prepared, prepareRead, state]
    · simp [prepared, prepareRead, state, suspended]
  rw [same]
  refine ⟨defaults, type, noTrailer, le_rfl, within, ?_⟩
  exact ⟨slice_self buf _, by rw [noPieces]; rfl, noExtensions⟩

theorem readBody_outcome (inChunks : InChunks buf origin p.prepared)
    (fits : Along (readRound buf) (SizeFits buf) (bodyRounds buf) p.prepared)
    {out : BodyReading × BodyResult} (returned : readBody buf p = some out) :
    BodyOutcome buf origin out := by
  exact post_of_iterate (fun p holds fits => readRound_keeps holds fits) inChunks fits returned

end Round

/-- Every size line that the call with `chunk` finishes has a digit and fits. -/
def SizesFit (session : Session) (chunk : Bytes) : Prop :=
  session.result = .incomplete →
    Along (readRound (session.buf ++ chunk)) (SizeFits (session.buf ++ chunk))
      (bodyRounds (session.buf ++ chunk)) session.body.prepared
deriving Decidable

/-- What holds of a session between two calls. -/
structure Waiting (origin : Nat) (session : Session) : Prop where
  resumes : session.result = .incomplete →
    ∀ more, InChunks (session.buf ++ more) origin session.body.prepared
  full : session.result = .full →
    InChunks session.buf origin session.body ∧ session.body.ctx.state = .bodyEnd

theorem Waiting.feed {origin : Nat} {session : Session} {chunk : Bytes}
    (waiting : Waiting origin session) (fits : SizesFit session chunk) :
    Waiting origin (feed session chunk).1 := by
  unfold Http1.feed
  split
  case isTrue incomplete =>
    split
    case h_1 body result returned =>
      have outcome := readBody_outcome (waiting.resumes incomplete _) (fits incomplete) returned
      refine ⟨fun again more => ?_, outcome.1⟩
      obtain ⟨inChunks, suspended⟩ := outcome.2 again
      exact inChunks_prepared_of_suspended (inChunks.append _) suspended
    case h_2 => exact waiting
  case isFalse => exact waiting

/-- A body that has been read in full is a chunked body, and its data is what has been reported. -/
theorem chunked_body_exact {session : Session} {chunks : List Bytes}
    (fresh : Fresh session.buf session.body) (started : session.result = .incomplete)
    (fits : Guarded feed SizesFit session chunks)
    (full : (final feed session chunks).result = .full) :
    ChunkedBody
      (slice (final feed session chunks).buf session.body.rptr
        (final feed session chunks).body.rptr)
      (final feed session chunks).body.pieces.flatten
      (final feed session chunks).body.extensions := by
  have longer : ∀ more, Fresh (session.buf ++ more) session.body := fun more => { fresh with
    within := by rw [length_append]; exact le_add_right_of_le fresh.within }
  have start : Waiting session.body.rptr session :=
    ⟨fun _ more => inChunks_prepared_of_fresh (longer _), fun full => by
      rw [started] at full
      cases full⟩
  have waiting := @invariant_of_guarded _ _ _ _ _ (fun state _ => Waiting _ state)
    (fun state past chunk holds allowed => holds.feed allowed) _ [] _ start fits
  obtain ⟨inChunks, state⟩ := waiting.full full
  have place := inChunks.place
  simpa only [ChunkPlace, state] using place

/-- Two chunks that arrive in three pieces. -/
theorem chunked_body_three_pieces :
    let run := final feed { body := { ctx := { bodyType := .chunked }, rptr := 0 } }
      [ascii "4\r\nWi", ascii "ki\r\n5 ;x=y\r\npedia\r", ascii "\n0\r\n\r\nGET"]
    run.result = .full ∧ run.body.pieces.flatten = ascii "Wikipedia" ∧
      ChunkedBody (slice run.buf 0 run.body.rptr) run.body.pieces.flatten run.body.extensions :=
  ⟨by decide +kernel, by decide +kernel,
    chunked_body_exact ⟨rfl, rfl, rfl, rfl, rfl, le_refl 0, .inl rfl⟩ rfl (by decide +kernel)
      (by decide +kernel)⟩

theorem Size.head {digits : Bytes} {size : Nat} (sized : Size digits size) (rest : Bytes) :
    ∃ c ∈ (digits ++ rest).head?, isHex c := by
  obtain ⟨filled, hex, -⟩ := sized
  cases digits with
  | nil => exact absurd rfl filled
  | cons c digits => exact ⟨c, rfl, hex c mem_cons_self⟩

/-- A chunked body begins with a digit. -/
theorem ChunkedBody.head {text data : Bytes} {extensions : List Bytes}
    (body : ChunkedBody text data extensions) : ∃ c ∈ text.head?, isHex c := by
  obtain ⟨-, ⟨chunks, _, _, -, -, complete, size, -, -, rfl⟩, rfl⟩ := body
  have first : ∀ {text data extensions}, Chunks text data extensions → ∀ rest, text ≠ [] →
      ∃ c ∈ (text ++ rest).head?, isHex c := by
    intro text data extensions chunks
    induction chunks with
    | nil => exact fun _ filled => absurd rfl filled
    | @chunk text _ _ digits line _ piece _ size _ _ ih =>
      intro rest _
      simp only [append_assoc]
      by_cases filled : text = []
      · rw [filled]
        exact size.head _
      · exact ih _ filled
  simp only [append_assoc]
  by_cases filled : chunks = []
  · rw [filled]
    exact size.head _
  · exact first complete _ filled

/-- The result of reading one buffer, and the data reported. -/
def readsAs (text : Bytes) : Option (BodyResult × Nat × Bytes) :=
  (readBody text { ctx := { bodyType := .chunked }, rptr := 0 }).map fun out =>
    (out.2, out.1.rptr, out.1.pieces.flatten)

/-- A size line without digits is read as zero, and a size of 2^64 + 1 as one. -/
theorem chunked_body_inexact :
    (readsAs (ascii "\r\n\r\n") = some (.full, 4, []) ∧
      ∀ data extensions, ¬ ChunkedBody (ascii "\r\n\r\n") data extensions) ∧
    readsAs (ascii "10000000000000001\r\na\r\n0\r\n\r\n") = some (.full, 27, ascii "a") ∧
      hexValue (ascii "10000000000000001") = 2 ^ 64 + 1 := by
  refine ⟨⟨by decide +kernel, fun data extensions body => ?_⟩, by decide +kernel,
    by decide +kernel⟩
  obtain ⟨_, first, hex⟩ := body.head
  have same : (ascii "\r\n\r\n").head? = some 13 := by decide +kernel
  rw [same, Option.mem_some_iff] at first
  subst first
  revert hex
  decide

end Futils.Http1
