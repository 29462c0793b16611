import Futils.Hpack.Encode

/-!
# HPACK fields

Headers are written as an index into the static table followed by the dynamic one, or literally.
Both sides keep a dynamic table of their own, newest entry first, and evict its oldest entries when
it outgrows the limit.
-/

namespace Futils.Hpack

open List Nat

abbrev Header := Bytes × Bytes

/-- A dynamic table, newest entry first. -/
abbrev Table := List Header

def text (literal : String) : Bytes := literal.toUTF8.data.toList

/-- `predefined_header`: the static table; index 0 is not a header. -/
def predefinedHeader : List Header := List.map (fun entry => (text entry.1, text entry.2))
  [("INVALIDINDEX", "INVALIDINDEX"), (":authority", ""), (":method", "GET"), (":method", "POST"),
   (":path", "/"), (":path", "/index.html"), (":scheme", "http"), (":scheme", "https"),
   (":status", "200"), (":status", "204"), (":status", "206"), (":status", "304"),
   (":status", "400"), (":status", "404"), (":status", "500"), ("accept-charset", ""),
   ("accept-encoding", "gzip, deflate"), ("accept-language", ""), ("accept-ranges", ""),
   ("accept", ""), ("access-control-allow-origin", ""), ("age", ""), ("allow", ""),
   ("authorization", ""), ("cache-control", ""), ("content-disposition", ""),
   ("content-encoding", ""), ("content-language", ""), ("content-length", ""),
   ("content-location", ""), ("content-range", ""), ("content-type", ""), ("cookie", ""),
   ("date", ""), ("etag", ""), ("expect", ""), ("expires", ""), ("from", ""), ("host", ""),
   ("if-match", ""), ("if-modified-since", ""), ("if-none-match", ""), ("if-range", ""),
   ("if-unmodified-since", ""), ("last-modified", ""), ("link", ""), ("location", ""),
   ("max-forwards", ""), ("proxy-authenticate", ""), ("proxy-authorization", ""), ("range", ""),
   ("referer", ""), ("refresh", ""), ("retry-after", ""), ("server", ""), ("set-cookie", ""),
   ("strict-transport-security", ""), ("transfer-encoding", ""), ("user-agent", ""),
   ("vary", ""), ("via", ""), ("www-authenticate", "")]

def predefinedHeaderSize : Nat := 62

inductive Field where
  | index
  | indexLiteralInsert
  | indexLiteralNeverIndexed
  | indexLiteralNoInsert
  | dynTableUpdate
  | undefined
  deriving DecidableEq

namespace Field

def mask : Field → Nat
  | index => 0x80
  | indexLiteralInsert => 0xC0
  | dynTableUpdate => 0xE0
  | indexLiteralNoInsert | indexLiteralNeverIndexed => 0xF0
  | undefined => 0

/-- `match` -/
def pattern : Field → Nat
  | index => 0x80
  | indexLiteralInsert => 0x40
  | dynTableUpdate => 0x20
  | indexLiteralNoInsert => 0x00
  | indexLiteralNeverIndexed => 0x10
  | undefined => 0xff

end Field

def getFieldType (top : UInt8) : Field :=
  let is (field : Field) : Bool := field.mask &&& top.toNat == field.pattern
  if is .index then .index
  else if is .indexLiteralInsert then .indexLiteralInsert
  else if is .dynTableUpdate then .dynTableUpdate
  else if is .indexLiteralNoInsert then .indexLiteralNoInsert
  else if is .indexLiteralNeverIndexed then .indexLiteralNeverIndexed
  else .undefined

/-- `get_table_index`: the static table is searched first, from index 1 on. -/
def getTableIndex (f : Header → Bool) (table : Table) : Option Nat :=
  match (predefinedHeader.drop 1).findIdx? f with
  | some position => some (position + 1)
  | none => (table.findIdx? f).map (· + predefinedHeaderSize)

def entrySize (entry : Header) : Nat := entry.1.length + entry.2.length + 32

variable (table : Table)

def calcTableSize : Nat := (table.map entrySize).sum

/-- The loop of `update_table`: drop the oldest entry while the table is too large.  `none` stands for
`false`. -/
def evict (limit : Nat) : Nat → Nat → Table → Option Table
  | 0, tablesize, table => if limit < tablesize then none else some table
  | rounds + 1, tablesize, table =>
    if limit < tablesize then
      match table.getLast? with
      | none => none
      | some oldest => evict limit rounds (tablesize - entrySize oldest) table.dropLast
    else some table

def updateTable (limit : Nat) (table : Table) : Option Table :=
  evict limit table.length (calcTableSize table) table

/-- Announces a new size, and evicts to it. -/
def encodeTableSizeUpdate (newSize : Nat) (table : Table) :
    Except HpackError (Bytes × Table) := do
  let bytes ← encodeInteger 5 newSize Field.dynTableUpdate.pattern
  match updateTable newSize table with
  | some table => .ok (bytes, table)
  | none => .error .internal

/-- How `encode_field` begins a field that is not in a table as a whole. -/
def encodeName (key : Bytes) (adddymap : Bool) : Except HpackError Bytes :=
  match getTableIndex (fun entry => entry.1 == key) table with
  | some index =>
    if adddymap then encodeInteger 6 index Field.indexLiteralInsert.pattern
    else encodeInteger 4 index Field.indexLiteralNoInsert.pattern
  | none =>
    let first := if adddymap then Field.indexLiteralInsert.pattern
      else Field.indexLiteralNoInsert.pattern
    (encodeString 7 key 0 0x80).map (UInt8.ofNat first :: ·)

def encodeField (key value : Bytes) (limit : Nat) (adddymap : Bool) :
    Except HpackError (Bytes × Table) :=
  match getTableIndex (fun entry => entry.1 == key && entry.2 == value) table with
  | some index => do
    let bytes ← encodeInteger 7 index Field.index.pattern
    .ok (bytes, table)
  | none => do
    let name ← encodeName table key adddymap
    let literal ← encodeString 7 value 0 0x80
    if adddymap then
      match updateTable limit ((key, value) :: table) with
      | some table => .ok (name ++ literal, table)
      | none => .error .internal
    else .ok (name ++ literal, table)

/-- A header to encode and whether it is to be added to the dynamic table. -/
structure Entry where
  header : Header
  addDynMap : Bool
  deriving DecidableEq

/-- `encode`: the fields of a header list, one after another. -/
def encode (limit : Nat) (addDynMapDefault : Bool) :
    Table → List Entry → Except HpackError (Bytes × Table)
  | table, [] => .ok ([], table)
  | table, entry :: entries => do
    let (field, table) ← encodeField table entry.header.1 entry.header.2 limit
      (entry.addDynMap || addDynMapDefault)
    let (fields, table) ← encode limit addDynMapDefault table entries
    .ok (field ++ fields, table)

/-- The dynamic table of a decoder and the limit it has been told. -/
structure Decoder where
  table : Table
  limit : Nat
  deriving DecidableEq

/-- What a decoded field does: the header it emits, if any, and the decoder after it. -/
structure Outcome where
  header : Option Header
  decoder : Decoder
  deriving DecidableEq

def readTwoLiteral (input : Bytes) : Except HpackError (Header × Bytes) := do
  let ((key, _), rest) ← decodeString 7 0x80 input
  let ((value, _), rest) ← decodeString 7 0x80 rest
  .ok ((key, value), rest)

/-- The entry an index stands for: the static table comes first, then the dynamic one. -/
def entryAt (index : Nat) : Option Header :=
  if index < predefinedHeaderSize then predefinedHeader[index]?
  else table[index - predefinedHeaderSize]?

def readIdxAndLiteral (idx : Nat) (input : Bytes) : Except HpackError (Header × Bytes) :=
  match entryAt table idx with
  | none => .error .notExists
  | some (key, _) => do
    let ((value, _), rest) ← decodeString 7 0x80 input
    .ok ((key, value), rest)

/-- A literal field after its first integer `code`. -/
def readLiteral (code : Nat) (input : Bytes) : Except HpackError (Header × Bytes) :=
  if code = 0 then readTwoLiteral input else readIdxAndLiteral table code input

/-- The header of an indexed field; a static entry without a value is refused. -/
def headerAt (index : Nat) : Except HpackError Header :=
  if index = 0 then .error .invalidValue
  else
    match entryAt table index with
    | none => .error .notExists
    | some entry =>
      if index < predefinedHeaderSize ∧ entry.2 = [] then .error .notExists else .ok entry

def decodeField (maxTableSize : Nat) (decoder : Decoder) (input : Bytes) :
    Except HpackError (Outcome × Bytes) :=
  match input with
  | [] => .error .inputLength
  | top :: _ =>
    match getFieldType top with
    | .undefined => .error .invalidMask
    | .index => do
      let ((index, _), rest) ← decodeInteger 7 input
      let header ← headerAt decoder.table index
      .ok (⟨some header, decoder⟩, rest)
    | .indexLiteralInsert => do
      let ((code, _), rest) ← decodeInteger 6 input
      let (header, rest) ← readLiteral decoder.table code rest
      match updateTable decoder.limit (header :: decoder.table) with
      | some table => .ok (⟨some header, { decoder with table := table }⟩, rest)
      | none => .error .tableUpdate
    | .indexLiteralNoInsert | .indexLiteralNeverIndexed => do
      let ((code, _), rest) ← decodeInteger 4 input
      let (header, rest) ← readLiteral decoder.table code rest
      .ok (⟨some header, decoder⟩, rest)
    | .dynTableUpdate => do
      let ((code, _), rest) ← decodeInteger 5 input
      if maxTableSize < code then .error .tooLargeNumber
      else
        match updateTable code decoder.table with
        | some table => .ok (⟨none, ⟨table, code⟩⟩, rest)
        | none => .error .tableUpdate

/-- The loop of `decode`.  A field takes at least one byte, so that as many rounds as there are bytes
are enough. -/
def decodeLoop (maxTableSize : Nat) :
    Nat → Decoder → Bytes → List Header → Except HpackError (List Header × Decoder)
  | _, decoder, [], headers => .ok (headers, decoder)
  | 0, _, _ :: _, _ => .error .internal
  | rounds + 1, decoder, input, headers => do
    let (outcome, rest) ← decodeField maxTableSize decoder input
    decodeLoop maxTableSize rounds outcome.decoder rest (headers ++ outcome.header.toList)

def decode (maxTableSize : Nat) (decoder : Decoder) (input : Bytes) :
    Except HpackError (List Header × Decoder) :=
  decodeLoop maxTableSize input.length decoder input []

/-- What `decode` has made of the table and its limit when it ends, also with an error. -/
def decodeReached (maxTableSize : Nat) : Nat → Decoder → Bytes → Decoder
  | 0, decoder, _ => decoder
  | rounds + 1, decoder, input =>
    match decodeField maxTableSize decoder input with
    | .error _ => decoder
    | .ok (outcome, rest) => decodeReached maxTableSize rounds outcome.decoder rest

section Table

@[simp] theorem calcTableSize_nil : calcTableSize [] = 0 := rfl

/-- Every entry counts for at least 32. -/
theorem length_le_calcTableSize : table.length * 32 ≤ calcTableSize table := by
  induction table with
  | nil => simp
  | cons entry table ih =>
    simp only [calcTableSize, map_cons, sum_cons, length_cons, entrySize] at ih ⊢
    omega

/-- The newest entries that the room is enough for. -/
def newest : Nat → Table → Table
  | _, [] => []
  | room, entry :: older =>
    if entrySize entry ≤ room then entry :: newest (room - entrySize entry) older else []

theorem calcTableSize_cons (entry : Header) (older : Table) :
    calcTableSize (entry :: older) = entrySize entry + calcTableSize older := by
  simp [calcTableSize]

theorem newest_spec (room : Nat) :
    newest room table <+: table ∧ calcTableSize (newest room table) ≤ room := by
  induction table generalizing room with
  | nil => simp [newest]
  | cons entry older ih =>
    obtain ⟨isPrefix, fits⟩ := ih (room - entrySize entry)
    rw [newest]
    split
    · exact ⟨prefix_cons_inj _ |>.2 isPrefix, by rw [calcTableSize_cons]; omega⟩
    · simp

theorem newest_append (room : Nat) (new old : Table) : newest room (new ++ old) =
    if calcTableSize new ≤ room then new ++ newest (room - calcTableSize new) old
    else newest room new := by
  induction new generalizing room with
  | nil => simp
  | cons entry new ih =>
    rw [cons_append, newest, newest, ih, calcTableSize_cons, Nat.sub_add_eq]
    split_ifs <;> first | rfl | omega

theorem newest_of_le {room : Nat} (within : calcTableSize table ≤ room) :
    newest room table = table := by
  have whole := newest_append room table []
  rwa [append_nil, if_pos within, newest, append_nil] at whole

theorem evict_eq (limit : Nat) :
    ∀ (rounds : Nat) (table : Table), table.length ≤ rounds →
      evict limit rounds (calcTableSize table) table = some (newest limit table) := by
  intro rounds
  induction rounds with
  | zero =>
    intro table enough
    have empty : table = [] := length_eq_zero_iff.1 (by omega)
    subst empty
    simp [evict, newest]
  | succ rounds ih =>
    intro table enough
    by_cases large : limit < calcTableSize table
    · obtain rfl | ⟨newer, oldest, rfl⟩ := eq_nil_or_concat' table
      · simp at large
      have size : calcTableSize (newer ++ [oldest]) = calcTableSize newer + entrySize oldest := by
        simp [calcTableSize]
      have kept : newest limit (newer ++ [oldest]) = newest limit newer := by
        rw [newest_append]
        split
        · rw [newest, if_neg (by omega), append_nil, newest_of_le _ (by omega)]
        · rfl
      rw [size] at large ⊢
      simp only [evict, if_pos large, getLast?_concat, dropLast_concat, kept, Nat.add_sub_cancel]
      exact ih _ (by simpa using enough)
    · rw [evict, if_neg large, newest_of_le _ (not_lt.1 large)]

/-- `update_table` keeps the newest entries that fit. -/
theorem updateTable_eq (limit : Nat) : updateTable limit table = some (newest limit table) :=
  evict_eq _ _ _ le_rfl

theorem length_predefinedHeader : predefinedHeader.length = predefinedHeaderSize := by
  rfl

/-- The index `get_table_index` finds is one of an entry that was searched for. -/
theorem getTableIndex_spec {f : Header → Bool} {table : Table} {index : Nat}
    (found : getTableIndex f table = some index) :
    0 < index ∧ index < predefinedHeaderSize + table.length ∧
      ∃ entry, entryAt table index = some entry ∧ f entry := by
  rw [getTableIndex] at found
  split at found
  case h_1 position static =>
    cases found
    obtain ⟨within, hit, -⟩ := findIdx?_eq_some_iff_getElem.1 static
    have small : position + 1 < predefinedHeaderSize := by
      have bound := within
      rw [length_drop, length_predefinedHeader] at bound
      omega
    refine ⟨by omega, by omega, (predefinedHeader.drop 1)[position], ?_, hit⟩
    rw [entryAt, if_pos small, ← getElem?_eq_getElem _, getElem?_drop, add_comm]
  case h_2 =>
    obtain ⟨position, dynamic, rfl⟩ := Option.map_eq_some_iff.1 found
    obtain ⟨within, hit, -⟩ := findIdx?_eq_some_iff_getElem.1 dynamic
    refine ⟨by simp [predefinedHeaderSize], by omega, table[position], ?_, hit⟩
    exact getElem?_eq_getElem _

end Table

section Fields

theorem getFieldType_index : ∀ low ≤ prefixMask 7,
    getFieldType (UInt8.ofNat (Field.index.pattern ||| low)) = .index := by
  decide

theorem getFieldType_insert : ∀ low ≤ prefixMask 6,
    getFieldType (UInt8.ofNat (Field.indexLiteralInsert.pattern ||| low)) =
      .indexLiteralInsert := by
  decide

theorem getFieldType_noInsert : ∀ low ≤ prefixMask 4,
    getFieldType (UInt8.ofNat (Field.indexLiteralNoInsert.pattern ||| low)) =
      .indexLiteralNoInsert := by
  decide

theorem getFieldType_update : ∀ low ≤ prefixMask 5,
    getFieldType (UInt8.ofNat (Field.dynTableUpdate.pattern ||| low)) = .dynTableUpdate := by
  decide

variable {maxTableSize : Nat} {decoder : Decoder} {bytes rest : Bytes}

variable {header : Header} {index limit : Nat} {table : Table} {literal : Bytes}

theorem decodeField_index (encoded : EncodedInteger 7 index Field.index.pattern bytes)
    (at_index : headerAt decoder.table index = .ok header) :
    decodeField maxTableSize decoder (bytes ++ rest) = .ok (⟨some header, decoder⟩, rest) := by
  obtain ⟨⟨low, _, small, rfl⟩, decodes⟩ := encoded
  have decoded := decodes rest
  rw [cons_append] at decoded ⊢
  simp only [decodeField, getFieldType_index low small, decoded, at_index, bind, Except.bind]

theorem decodeField_insert {code : Nat}
    (encoded : EncodedInteger 6 code Field.indexLiteralInsert.pattern bytes)
    (read : readLiteral decoder.table code literal = .ok (header, rest))
    (updated : updateTable decoder.limit (header :: decoder.table) = some table) :
    decodeField maxTableSize decoder (bytes ++ literal) =
      .ok (⟨some header, { decoder with table := table }⟩, rest) := by
  obtain ⟨⟨low, _, small, rfl⟩, decodes⟩ := encoded
  have decoded := decodes literal
  rw [cons_append] at decoded ⊢
  simp only [decodeField, getFieldType_insert low small, decoded, read, updated, bind, Except.bind]

theorem decodeField_noInsert {code : Nat}
    (encoded : EncodedInteger 4 code Field.indexLiteralNoInsert.pattern bytes)
    (read : readLiteral decoder.table code literal = .ok (header, rest)) :
    decodeField maxTableSize decoder (bytes ++ literal) = .ok (⟨some header, decoder⟩, rest) := by
  obtain ⟨⟨low, _, small, rfl⟩, decodes⟩ := encoded
  have decoded := decodes literal
  rw [cons_append] at decoded ⊢
  simp only [decodeField, getFieldType_noInsert low small, decoded, read, bind, Except.bind]

theorem decodeField_update {newSize : Nat}
    (encoded : EncodedInteger 5 newSize Field.dynTableUpdate.pattern bytes)
    (allowed : newSize ≤ maxTableSize) (updated : updateTable newSize decoder.table = some table) :
    decodeField maxTableSize decoder (bytes ++ rest) = .ok (⟨none, ⟨table, newSize⟩⟩, rest) := by
  obtain ⟨⟨low, _, small, rfl⟩, decodes⟩ := encoded
  have decoded := decodes rest
  rw [cons_append] at decoded ⊢
  simp only [decodeField, getFieldType_update low small, decoded, bind, Except.bind,
    if_neg (not_lt.2 allowed), updated]

/-- The headers that survive both codecs: a static entry has a value, and lengths survive 32-bit
shifts. -/
def Encodable (header : Header) : Prop :=
  (header.2 = [] → header ∉ predefinedHeader.drop 1) ∧
    Representable 7 (encodedLength header.1) ∧ Representable 7 (encodedLength header.2)
deriving Decidable

theorem mem_predefinedHeader {entry : Header} (positive : 0 < index)
    (static : index < predefinedHeaderSize) (found : entryAt table index = some entry) :
    entry ∈ predefinedHeader.drop 1 := by
  rw [entryAt, if_pos static] at found
  refine List.mem_of_getElem? (i := index - 1) ?_
  rw [List.getElem?_drop, Nat.add_sub_cancel' positive, found]

theorem headerAt_of_found (positive : 0 < index) (found : entryAt table index = some header)
    (valued : header.2 = [] → header ∉ predefinedHeader.drop 1) :
    headerAt table index = .ok header := by
  have accepted : ¬ (index < predefinedHeaderSize ∧ header.2 = []) := fun refused =>
    valued refused.2 (mem_predefinedHeader positive refused.1 found)
  simp only [headerAt, if_neg (ne_of_gt positive), found, if_neg accepted]

/-- An index into a table within its limit is far from the 32-bit shifts. -/
theorem representable_index (n : Nat) (within : calcTableSize table ≤ limit)
    (limit_lt : limit < 2 ^ 32) (bound : index < predefinedHeaderSize + table.length) :
    Representable n index := by
  have entries := length_le_calcTableSize table
  rw [predefinedHeaderSize] at bound
  exact representable_of_lt (by omega)

/-- What precedes the value of a literal field: an integer, and the name if the integer is zero. -/
structure EncodedName (table : Table) (key : Bytes) (n mask : Nat) (name : Bytes) : Prop where
  reads : ∃ code head tail, name = head ++ tail ∧ EncodedInteger n code mask head ∧
    ∀ value valueMask literal, EncodedString 7 value 0 0x80 valueMask literal →
      ∀ rest, readLiteral table code (tail ++ (literal ++ rest)) = .ok ((key, value), rest)

theorem encodeName_indexed {n mask : Nat} {entry : Header} {name : Bytes} (positive : 0 < index)
    (found : entryAt table index = some entry) (encoded : EncodedInteger n index mask name) :
    EncodedName table entry.1 n mask name := by
  refine ⟨index, name, [], by simp, encoded, fun value valueMask literal string rest => ?_⟩
  simp only [readLiteral, if_neg (ne_of_gt positive), readIdxAndLiteral, found,
    nil_append, string.decodes _, bind, Except.bind]

theorem encodeName_literal {key : Bytes} {n mask keyMask : Nat} (free : PrefixFree n mask)
    (string : EncodedString 7 key 0 0x80 keyMask literal) :
    EncodedName table key n mask (UInt8.ofNat mask :: literal) := by
  obtain ⟨_, encoded, spec⟩ := @encodeInteger_spec n 0 _ free (representable_of_lt (by decide))
  rw [encodeInteger, if_neg (not_not.2 free.and_eq_zero), if_pos free.mask_pos, or_zero]
    at encoded
  cases encoded
  refine ⟨0, _, literal, rfl, spec, fun value valueMask valueLiteral valueString rest => ?_⟩
  simp only [readLiteral, if_true, readTwoLiteral, string.decodes, valueString.decodes, bind,
    Except.bind]

theorem encodeName_spec {key : Bytes} (adddymap : Bool) (within : calcTableSize table ≤ limit)
    (limit_lt : limit < 2 ^ 32) (fits : Representable 7 (encodedLength key)) :
    ∃ name, encodeName table key adddymap = .ok name ∧
      if adddymap then EncodedName table key 6 Field.indexLiteralInsert.pattern name
      else EncodedName table key 4 Field.indexLiteralNoInsert.pattern name := by
  have insertFree : PrefixFree 6 Field.indexLiteralInsert.pattern := by decide
  have noInsertFree : PrefixFree 4 Field.indexLiteralNoInsert.pattern := by decide
  rw [encodeName]
  split
  case h_1 index found =>
    obtain ⟨positive, bound, ⟨entryKey, _⟩, at_index, hit⟩ := getTableIndex_spec found
    obtain rfl : entryKey = key := by simpa using hit
    have representable (n : Nat) := representable_index n within limit_lt bound
    cases adddymap with
    | true =>
      obtain ⟨name, encoded, spec⟩ := encodeInteger_spec insertFree (representable 6)
      exact ⟨name, encoded, encodeName_indexed positive at_index spec⟩
    | false =>
      obtain ⟨name, encoded, spec⟩ := encodeInteger_spec noInsertFree (representable 4)
      exact ⟨name, encoded, encodeName_indexed positive at_index spec⟩
  case h_2 =>
    obtain ⟨_, _, encoded, string⟩ :=
      @encodeString_spec 7 0 0x80 key (by decide) fits
    rw [encoded]
    cases adddymap with
    | true => exact ⟨_, rfl, encodeName_literal insertFree string⟩
    | false => exact ⟨_, rfl, encodeName_literal noInsertFree string⟩

/-- What one side encodes the other one decodes, with the same change to the table. -/
theorem encodeField_spec {bound : Nat} (adddymap : Bool) (within : calcTableSize table ≤ bound)
    (limit_le : limit ≤ bound) (bound_lt : bound < 2 ^ 32) (encodable : Encodable header) :
    ∃ bytes after, encodeField table header.1 header.2 limit adddymap = .ok (bytes, after) ∧
      calcTableSize after ≤ bound ∧ bytes ≠ [] ∧
      ∀ maxTableSize rest, decodeField maxTableSize ⟨table, limit⟩ (bytes ++ rest) =
        .ok (⟨some header, ⟨after, limit⟩⟩, rest) := by
  obtain ⟨key, value⟩ := header
  obtain ⟨valued, keyFits, valueFits⟩ := encodable
  rw [encodeField]
  split
  case h_1 index found =>
    obtain ⟨positive, inside, ⟨entryKey, entryValue⟩, at_index, hit⟩ := getTableIndex_spec found
    obtain ⟨rfl, rfl⟩ : entryKey = key ∧ entryValue = value := by simpa using hit
    obtain ⟨bytes, encoded, spec⟩ := @encodeInteger_spec 7 _ Field.index.pattern (by decide)
      (representable_index 7 within bound_lt inside)
    refine ⟨bytes, table, by simp only [encoded, bind, Except.bind], within, ?_,
      fun maxTableSize rest =>
        decodeField_index spec (headerAt_of_found positive at_index valued)⟩
    obtain ⟨-, -, -, rfl⟩ := spec.first
    exact cons_ne_nil _ _
  case h_2 =>
    obtain ⟨name, nameEncoded, nameSpec⟩ := encodeName_spec adddymap within bound_lt keyFits
    obtain ⟨literal, mask, encoded, string⟩ := @encodeString_spec 7 0 0x80 _ (by decide) valueFits
    have updated := updateTable_eq ((key, value) :: table) limit
    have keptWithin := (newest_spec ((key, value) :: table) limit).2
    have nonempty : name ++ literal ≠ [] := by
      obtain ⟨-, -, -, rfl⟩ := string.first
      simp
    simp only [nameEncoded, encoded, bind, Except.bind]
    cases adddymap with
    | true =>
      obtain ⟨_, _, _, rfl, integer, reads⟩ := nameSpec.reads
      refine ⟨_, _, by simp only [updated, if_true], keptWithin.trans limit_le, nonempty,
        fun maxTableSize rest => ?_⟩
      rw [append_assoc, append_assoc]
      exact decodeField_insert integer (reads _ _ _ string _) updated
    | false =>
      obtain ⟨_, _, _, rfl, integer, reads⟩ := nameSpec.reads
      refine ⟨_, table, by simp only [Bool.false_eq_true, if_false], within, nonempty,
        fun maxTableSize rest => ?_⟩
      rw [append_assoc, append_assoc]
      exact decodeField_noInsert integer (reads _ _ _ string _)

theorem encodeTableSizeUpdate_spec {table : Table} {newSize : Nat} (fits : Representable 5 newSize) :
    ∃ bytes after, encodeTableSizeUpdate newSize table = .ok (bytes, after) ∧
      calcTableSize after ≤ newSize ∧ bytes ≠ [] ∧
      ∀ maxTableSize limit rest, newSize ≤ maxTableSize →
        decodeField maxTableSize ⟨table, limit⟩ (bytes ++ rest) =
          .ok (⟨none, ⟨after, newSize⟩⟩, rest) := by
  obtain ⟨bytes, encoded, spec⟩ :=
    @encodeInteger_spec 5 _ Field.dynTableUpdate.pattern (by decide) fits
  have updated := updateTable_eq table newSize
  refine ⟨bytes, _, by simp only [encodeTableSizeUpdate, encoded, updated, bind, Except.bind],
    (newest_spec _ _).2, ?_,
    fun maxTableSize limit rest allowed => decodeField_update spec allowed updated⟩
  obtain ⟨-, -, -, rfl⟩ := spec.first
  exact cons_ne_nil _ _

end Fields

end Futils.Hpack
