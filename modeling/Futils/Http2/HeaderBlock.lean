import Futils.Hpack.Lockstep
import Futils.Http2.FlowControl
import Futils.Http2.Simulation

/-!
# Header blocks of a connection

A connection has one HPACK table for each direction.  Header blocks are encoded before it is known
whether they may be sent; if not, the table is to be restored from what was noted meanwhile.
Entries are inserted at the front, but it is the back from which they are taken again.  A stream
keeps the limit of the table for decoding as it was when the stream was made.
-/

namespace Futils.Http2.Compression

open StreamCommonState List ConnState ConnDirState ID Bool
open Binary Hpack FlowControl Policy StreamCommonState ConnState

section Journal

/-- What `on_modify_table` is called with. -/
inductive Modification where
  | insert
  | delete (entry : Header)
  deriving DecidableEq

/-- The entries that `update_table` pops, the oldest one first. -/
def popped (before after : Table) : List Header := (before.drop after.length).reverse

/-- The calls of `on_modify_table` for one field. -/
def fieldModifications (table : Table) (header : Header) (adddymap : Bool) (after : Table) :
    List Modification :=
  if (getTableIndex (fun entry => entry.1 == header.1 && entry.2 == header.2) table).isSome ||
      !adddymap then []
  else .insert :: (popped (header :: table) after).map .delete

/-- The calls of `on_modify_table` while a header list is encoded. -/
def modifications (limit : Nat) (addDynMapDefault : Bool) :
    Table → List Hpack.Entry → List Modification
  | _, [] => []
  | table, entry :: entries =>
    let adddymap := entry.addDynMap || addDynMapDefault
    match encodeField table entry.header.1 entry.header.2 limit adddymap with
    | .error _ => []
    | .ok (_, after) =>
      fieldModifications table entry.header adddymap after ++
        modifications limit addDynMapDefault after entries

/-- What `send_with_hpack` notes about the changes of the table. -/
structure Journal where
  baseSize : Nat
  insertCount : Nat := 0
  delEntry : Table := []
  deriving DecidableEq

namespace Journal

def onModify (journal : Journal) (modification : Modification) : Journal :=
  if journal.delEntry.length = journal.baseSize then journal
  else
    match modification with
    | .insert => { journal with insertCount := journal.insertCount + 1 }
    | .delete entry => { journal with delEntry := entry :: journal.delEntry }

def ofEncode (limit : Nat) (addDynMapDefault : Bool) (table : Table) (entries : List Hpack.Entry) :
    Journal :=
  (modifications limit addDynMapDefault table entries).foldl onModify { baseSize := table.length }

/-- `recover_table`: the inserted entries are popped from the back, where the oldest ones are. -/
def recover (journal : Journal) (after : Table) : Table :=
  if journal.delEntry.length = journal.baseSize then journal.delEntry
  else after.take (after.length - journal.insertCount) ++ journal.delEntry

/-- The changes that `recover_table` takes back: there are none, or nothing is left of the table. -/
def Restorable (journal : Journal) : Prop :=
  journal.insertCount = 0 ∨ journal.delEntry.length = journal.baseSize
deriving Decidable

end Journal

variable {limit : Nat} {entries : List Hpack.Entry} {addDynMapDefault : Bool}

/-- What a field that is to be added, and is in neither table, does to the entries that were put
into the table and to those left of it. -/
def displace (limit : Nat) (addDynMapDefault : Bool) (parts : Table × Table) (entry : Hpack.Entry) :
    Table × Table :=
  if (entry.addDynMap || addDynMapDefault) = true ∧
      entry.header ∉ predefinedHeader.drop 1 ++ (parts.1 ++ parts.2) then
    let new := entry.header :: parts.1
    (new, newest (limit - calcTableSize new) parts.2)
  else parts

theorem isSome_getTableIndex (header : Header) (table : Table) :
    (getTableIndex (fun entry => entry.1 == header.1 && entry.2 == header.2) table).isSome ↔
      header ∈ predefinedHeader.drop 1 ++ table := by
  have same : (fun entry : Header => entry.1 == header.1 && entry.2 == header.2) = (· == header) :=
    funext fun _ => rfl
  rw [getTableIndex, mem_append, same]
  split
  case h_1 position found =>
    obtain ⟨_, hit, -⟩ := findIdx?_eq_some_iff_getElem.1 found
    simp only [Option.isSome_some, true_iff]
    exact .inl (eq_of_beq hit ▸ getElem_mem _)
  case h_2 missing =>
    have absent : header ∉ predefinedHeader.drop 1 := fun member => by
      simpa using findIdx?_eq_none_iff.1 missing _ member
    rw [or_iff_right absent, Option.isSome_map, findIdx?_isSome]
    simp

/-- A field leaves the table as it is, or its header is put in front and old entries go. -/
theorem encodeField_table {table after : Table} {header : Header} {adddymap : Bool}
    {bytes : Bytes}
    (encoded : encodeField table header.1 header.2 limit adddymap = .ok (bytes, after)) :
    if adddymap = true ∧ header ∉ predefinedHeader.drop 1 ++ table then
      after = newest limit (header :: table) ∧
        fieldModifications table header adddymap after =
          .insert :: (popped (header :: table) after).map .delete
    else after = table ∧ fieldModifications table header adddymap after = [] := by
  rw [encodeField] at encoded
  simp only [fieldModifications, ← isSome_getTableIndex]
  split at encoded
  case h_1 index found =>
    obtain ⟨_, -, same⟩ := bind_eq_ok.1 encoded
    cases same
    simp [found]
  case h_2 missing =>
    obtain ⟨_, -, encoded⟩ := bind_eq_ok.1 encoded
    obtain ⟨_, -, encoded⟩ := bind_eq_ok.1 encoded
    cases adddymap with
    | false =>
      cases encoded
      simp
    | true =>
      rw [updateTable_eq] at encoded
      cases encoded
      simp [missing]

/-- The journal from the entries `base` to `current`: those of `old` are left behind the new ones, if
any are. -/
structure Tracks (base : Table) (journal : Journal) (parts : Table × Table) (current : Table) :
    Prop where
  baseSize : journal.baseSize = base.length
  split : base = parts.2 ++ journal.delEntry
  partly : parts.2 ≠ [] → current = parts.1 ++ parts.2 ∧ journal.insertCount = parts.1.length ∧
    ∀ entry ∈ parts.1, entry ∉ parts.2

namespace Tracks

variable {base current new old : Table} {journal : Journal} {parts : Table × Table}

theorem complete_iff (tracks : Tracks base journal parts current) :
    journal.delEntry.length = journal.baseSize ↔ parts.2 = [] := by
  rw [tracks.baseSize, congrArg length tracks.split, length_append, ← length_eq_zero_iff]
  omega

theorem insert {header : Header} (tracks : Tracks base journal (new, old) current)
    (fresh : header ∉ current) :
    Tracks base (journal.onModify .insert) (header :: new, old) (header :: current) := by
  rw [Journal.onModify]
  split
  case isTrue complete =>
    exact ⟨tracks.baseSize, tracks.split, fun partly => absurd (tracks.complete_iff.1 complete) partly⟩
  case isFalse =>
    refine ⟨tracks.baseSize, tracks.split, fun partly => ?_⟩
    obtain ⟨rfl, count, apart⟩ := tracks.partly partly
    refine ⟨rfl, congrArg (· + 1) count, forall_mem_cons.2 ⟨fun again => ?_, apart⟩⟩
    exact fresh (mem_append_right _ again)

theorem delete {entry : Header} (tracks : Tracks base journal (new, old) (current ++ [entry])) :
    Tracks base (journal.onModify (.delete entry)) (new, old.dropLast) current := by
  rw [Journal.onModify]
  split
  case isTrue complete =>
    obtain rfl : old = [] := tracks.complete_iff.1 complete
    exact ⟨tracks.baseSize, tracks.split, fun partly => absurd rfl partly⟩
  case isFalse partly =>
    have left : old ≠ [] := mt tracks.complete_iff.2 partly
    obtain ⟨whole, count, apart⟩ := tracks.partly left
    obtain ⟨older, oldest, rfl⟩ := (eq_nil_or_concat' old).resolve_left left
    simp only [← append_assoc] at whole
    obtain ⟨rfl, same⟩ := append_inj' whole rfl
    cases same
    rw [dropLast_concat]
    refine ⟨tracks.baseSize, by simpa using tracks.split, fun _ => ⟨rfl, count, fun other member =>
      ?_⟩⟩
    exact fun again => apart other member (mem_append_left _ again)

theorem deleteAll (dropped : Table) :
    ∀ {journal old}, Tracks base journal (new, old) (current ++ dropped) →
      Tracks base ((dropped.reverse.map .delete).foldl Journal.onModify journal)
        (new, old.take (old.length - dropped.length)) current := by
  induction dropped using reverseRecOn with
  | nil => simp
  | append_singleton dropped oldest ih =>
    intro journal old tracks
    rw [← append_assoc] at tracks
    rw [reverse_append]
    have rest := ih tracks.delete
    rw [dropLast_eq_take, take_take, length_take] at rest
    rwa [length_append, length_singleton, show old.length - (dropped.length + 1) =
      min (min (old.length - 1) old.length - dropped.length) (old.length - 1) by omega]

/-- The old entries that stay when the new ones push from the front. -/
theorem take_newest (limit : Nat) (new old : Table) :
    old.take (old.length - ((new ++ old).length - (newest limit (new ++ old)).length)) =
      newest (limit - calcTableSize new) old := by
  have kept := (newest_spec old (limit - calcTableSize new)).1
  have kept_le := kept.length_le
  rw [newest_append]
  split
  case isTrue =>
    conv_rhs => rw [prefix_iff_eq_take.1 kept]
    congr 1
    simp only [length_append]
    omega
  case isFalse full =>
    have new_le := (newest_spec new limit).1.length_le
    have nothing : newest (limit - calcTableSize new) old = [] := by
      rw [Nat.sub_eq_zero_of_le (by omega)]
      cases old <;> simp [newest, entrySize]
    rw [nothing, take_eq_nil_iff]
    left
    rw [length_append]
    omega

theorem field {bytes : Bytes} {after : Table} {entry : Hpack.Entry}
    (tracks : Tracks base journal parts current)
    (encoded : encodeField current entry.header.1 entry.header.2 limit
      (entry.addDynMap || addDynMapDefault) = .ok (bytes, after)) :
    Tracks base ((fieldModifications current entry.header (entry.addDynMap || addDynMapDefault)
      after).foldl Journal.onModify journal) (displace limit addDynMapDefault parts entry) after := by
  obtain ⟨new, old⟩ := parts
  by_cases gone : old = []
  · -- The journal is complete and does not change any more.
    subst gone
    have kept : ∀ modifications : List Modification,
        modifications.foldl Journal.onModify journal = journal := by
      intro modifications
      induction modifications with
      | nil => rfl
      | cons modification _ ih =>
        have same : journal.onModify modification = journal := if_pos (tracks.complete_iff.2 rfl)
        rw [foldl_cons, same, ih]
    rw [kept, displace]
    split <;> exact ⟨tracks.baseSize, tracks.split, fun partly => absurd rfl partly⟩
  · obtain rfl : current = new ++ old := (tracks.partly gone).1
    have outcome := encodeField_table encoded
    rw [displace]
    split at outcome
    case isTrue added =>
      obtain ⟨after_eq, changes⟩ := outcome
      have inserted := tracks.insert fun member => added.2 (mem_append_right _ member)
      obtain ⟨dropped, whole⟩ : after <+: entry.header :: (new ++ old) :=
        after_eq ▸ (newest_spec _ _).1
      have left : old.take (old.length - dropped.length) =
          newest (limit - calcTableSize (entry.header :: new)) old := by
        rw [← take_newest limit (entry.header :: new) old, cons_append, ← after_eq, ← whole,
          length_append, Nat.add_sub_cancel_left]
      rw [if_pos added, changes, foldl_cons, popped, ← whole, drop_left]
      rw [← whole] at inserted
      have rest := deleteAll dropped inserted
      rwa [left] at rest
    case isFalse kept =>
      obtain ⟨rfl, changes⟩ := outcome
      rw [if_neg kept, changes]
      exact tracks

theorem encode :
    ∀ {journal parts current bytes after}, Tracks base journal parts current →
      Hpack.encode limit addDynMapDefault current entries = .ok (bytes, after) →
      Tracks base ((modifications limit addDynMapDefault current entries).foldl Journal.onModify
        journal) (entries.foldl (displace limit addDynMapDefault) parts) after := by
  induction entries with
  | nil =>
    intro journal parts current bytes after tracks encoded
    cases encoded
    exact tracks
  | cons entry entries ih =>
    intro journal parts current bytes after tracks encoded
    obtain ⟨⟨_, _⟩, first, encoded⟩ := bind_eq_ok.1 encoded
    obtain ⟨⟨_, _⟩, rest, same⟩ := bind_eq_ok.1 encoded
    cases same
    simp only [modifications, first, foldl_append]
    exact ih (tracks.field first) rest

theorem restorable_iff (tracks : Tracks base journal parts current) :
    journal.Restorable ↔ parts.1 = [] ∨ parts.2 = [] := by
  rw [Journal.Restorable, tracks.complete_iff]
  by_cases gone : parts.2 = []
  · simp [gone]
  · rw [(tracks.partly gone).2.1, length_eq_zero_iff]

/-- `recover_table` pops the new entries only if there are none, or no old ones. -/
theorem recover_iff (tracks : Tracks base journal parts current) :
    journal.recover current = base ↔ parts.1 = [] ∨ parts.2 = [] := by
  obtain ⟨new, old⟩ := parts
  rw [Journal.recover]
  by_cases gone : old = []
  · rw [if_pos (tracks.complete_iff.2 gone), tracks.split]
    simp [gone]
  · obtain ⟨rfl, count, apart⟩ := tracks.partly gone
    rw [if_neg (mt tracks.complete_iff.1 gone), count, congrArg (_ = ·) tracks.split,
      append_left_inj]
    cases new with
    | nil => simp
    | cons latest new =>
      obtain ⟨head, older, rfl⟩ := exists_cons_of_ne_nil gone
      have other : latest ≠ head := fun same => apart latest mem_cons_self (same ▸ mem_cons_self)
      simp [other]

end Tracks

variable {table after : Table} {bytes : Bytes}
  (encoded : encode limit addDynMapDefault table entries = .ok (bytes, after))
include encoded

theorem tracks_ofEncode : Tracks table (Journal.ofEncode limit addDynMapDefault table entries)
    (entries.foldl (displace limit addDynMapDefault) ([], table)) after :=
  .encode ⟨rfl, (append_nil _).symm, fun _ => ⟨rfl, rfl, by simp⟩⟩ encoded

/-- `recover_table` restores the table when nothing was inserted or all old entries have gone. -/
theorem recover_restores
    (restorable : (Journal.ofEncode limit addDynMapDefault table entries).Restorable) :
    (Journal.ofEncode limit addDynMapDefault table entries).recover after = table :=
  (tracks_ofEncode encoded).recover_iff.2 ((tracks_ofEncode encoded).restorable_iff.1 restorable)

end Journal

section Endpoint

/-- What a stream keeps for the header blocks it receives. -/
structure HeaderState where
  recvTableSizeLimit : UInt32
  headerBuffer : Bytes := []
  deriving DecidableEq

/-- `FrameHandler` with the tables of its connection, and what its streams keep. -/
structure FrameHandler where
  handler : Handler
  encodeTable : Table := []
  decodeTable : Table := []
  headers : List HeaderState := []
  deriving DecidableEq

inductive Answer where
  | nothing
  | error (error : Error)
  | headers (headers : List Header)
  deriving DecidableEq

structure Request where
  entries : List Hpack.Entry
  fin : Bool := false
  addHeaderTable : Bool := false
  priority : Option Priority := none
  padding : Option UInt8 := none
  deriving DecidableEq

/-- The HEADERS frame of a request; `final` says that the header block ends with it. -/
def Request.frame (request : Request) (id : Int) (data : Bytes) (final : Bool) : Frame where
  id := id
  flag := (if request.priority.isSome then Flag.priority.bit else 0) |||
    (if request.padding.isSome then Flag.padded.bit else 0) |||
    (if request.fin then Flag.endStream.bit else 0) |||
    (if final then Flag.endHeaders.bit else 0)
  payload := .header (request.padding.getD 0) (request.priority.getD {}) data

/-- The CONTINUATION frames of `send_with_hpack`, with those that have been written. -/
def continuations (index : Nat) (id : Int) (frameSize : Nat) :
    Nat → Handler → Bytes → Handler × List Frame × Option Error
  | 0, handler, _ => (handler, [], none)
  | _ + 1, handler, [] => (handler, [], none)
  | rounds + 1, handler, data =>
    let frame : Frame := {
      id := id
      flag := if data.length ≤ frameSize then Flag.endHeaders.bit else 0
      payload := .continuation (data.take frameSize) }
    match handler.sendStream index frame with
    | (handler, some error) => (handler, [], some error)
    | (handler, none) =>
      let (handler, frames, error) :=
        continuations index id frameSize rounds handler (data.drop frameSize)
      (handler, frame :: frames, error)

namespace FrameHandler

variable (endpoint : FrameHandler) (index : Nat)

/-- The limit a stream is made with. -/
def localLimit : UInt32 :=
  endpoint.handler.conn.local.settings.maxHeaderTableSize

def peerLimit : Nat :=
  endpoint.handler.conn.peer.settings.maxHeaderTableSize.toNat

/-- A step of the handler, with which streams may be made. -/
def adopt (handler : Handler) : FrameHandler :=
  { endpoint with
    handler := handler
    headers := endpoint.headers ++
      List.replicate (handler.streams.length - endpoint.headers.length) ⟨endpoint.localLimit, []⟩ }

def openStream (endpoint : FrameHandler) : FrameHandler :=
  endpoint.adopt endpoint.handler.openStream

/-- `send_settings` with `SETTINGS_HEADER_TABLE_SIZE`. -/
def sendSettings (endpoint : FrameHandler) (settings : Bytes) : FrameHandler × Option Error :=
  let (handler, error) := endpoint.handler.sendSettings settings
  (endpoint.adopt handler, error)

/-- The HEADERS frame with which a header block begins. -/
def headersFrame (request : Request) (id : Int) (payload : Bytes) : Frame :=
  let frameSize := endpoint.handler.conn.peer.settings.maxFrameSize.toNat
  request.frame id (payload.take frameSize) (payload.length ≤ frameSize)

/-- `send_headers` through `send_with_hpack`, with the frames that have been written.  The encoder
refuses no header list. -/
def sendHeaders (request : Request) : FrameHandler × List Frame × Option Error :=
  match endpoint.handler.streams[index]? with
  | none => (endpoint, [], some routingError)
  | some entry =>
    let id := entry.state.com.id
    let frameSize := endpoint.handler.conn.peer.settings.maxFrameSize.toNat
    match encode endpoint.peerLimit request.addHeaderTable endpoint.encodeTable
        request.entries with
    | .error _ => (endpoint, [], some { code := .compression, debug := some "hpack error" })
    | .ok (payload, table) =>
      let frame := endpoint.headersFrame request id payload
      match endpoint.handler.conn.canSendStreamFrame frame entry.state with
      | some error =>
        let journal := Journal.ofEncode endpoint.peerLimit request.addHeaderTable
          endpoint.encodeTable request.entries
        ({ endpoint with encodeTable := journal.recover table }, [], some error)
      -- From here on the table is kept, whatever happens.
      | none =>
        match endpoint.handler.sendStream index frame with
        | (handler, some error) =>
          ({ endpoint with handler := handler, encodeTable := table }, [], some error)
        | (handler, none) =>
          let (handler, frames, error) := continuations index id frameSize payload.length
            handler (payload.drop frameSize)
          ({ endpoint with handler := handler, encodeTable := table }, frame :: frames,
            error)

/-- `handle_header`; what a block with an error has changed up to it stays. -/
def handleHeader (payload : Bytes) : FrameHandler × Answer :=
  match endpoint.headers[index]? with
  | none => (endpoint, .nothing)
  | some state =>
    let before : Decoder := ⟨endpoint.decodeTable, state.recvTableSizeLimit.toNat⟩
    let left (decoder : Decoder) : FrameHandler :=
      { endpoint with
        decodeTable := decoder.table
        headers := endpoint.headers.set index
          { state with recvTableSizeLimit := .ofNat decoder.limit } }
    match decode endpoint.localLimit.toNat before payload with
    | .error _ =>
      (left (decodeReached endpoint.localLimit.toNat payload.length before payload),
        .error { code := .compression })
    | .ok (headers, decoder) => (left decoder, .headers headers)

/-- The bytes that wait for the end of their header block. -/
def buffered : Bytes :=
  (endpoint.headers[index]?.map HeaderState.headerBuffer).getD []

def setBuffer (buffer : Bytes) : FrameHandler :=
  { endpoint with headers := endpoint.headers.modify index ({ · with headerBuffer := buffer }) }

/-- `recv_frame` of the handler and of the stream. -/
def recvFrame (endpoint : FrameHandler) (frame : Frame) : FrameHandler × Answer :=
  let index := (endpoint.handler.locate frame.id).2
  match endpoint.handler.recvFrame frame with
  | (handler, some error) => (endpoint.adopt handler, .error error)
  | (handler, none) =>
    let endpoint := endpoint.adopt handler
    match frame.payload with
    | .header _ _ data | .pushPromise _ _ data =>
      if hasFlag frame.flag .endHeaders then endpoint.handleHeader index data
      else (endpoint.setBuffer index (endpoint.buffered index ++ data), .nothing)
    | .continuation data =>
      let block := endpoint.buffered index ++ data
      let endpoint := endpoint.setBuffer index block
      if !hasFlag frame.flag .endHeaders then (endpoint, .nothing)
      else
        match endpoint.handleHeader index block with
        | (endpoint, .headers headers) => (endpoint.setBuffer index [], .headers headers)
        | refused => refused
    | _ => (endpoint, .nothing)

/-- `parse_frame` and `recv_frame` for the bytes of one frame. -/
def recvBytes (bytes : Bytes) : FrameHandler × Answer :=
  match parseFrame bytes endpoint.handler.conn.local.settings.maxFrameSize.toNat with
  | .frame frame _ => endpoint.recvFrame frame
  | .refused error | .malformed error => (endpoint, .error error)
  | .wait | .unknown _ => (endpoint, .nothing)

end FrameHandler

end Endpoint

section Headers

variable {frame : Frame}

/-- The header block of a HEADERS frame ends with it. -/
structure WholeHeaders (frame : Frame) : Prop where
  type : frame.type = .header
  ends : hasFlag frame.flag .endHeaders = true

theorem Request.frame_flags (request : Request) (id : Int) (data : Bytes) (final : Bool) :
    hasFlag (request.frame id data final).flag .endHeaders = final ∧
      hasFlag (request.frame id data final).flag .padded = request.padding.isSome := by
  simp only [Request.frame]
  cases request.priority.isSome <;> cases request.padding.isSome <;> cases request.fin <;>
    cases final <;> decide

/-- A direction that is not in a header block takes HEADERS, which change nothing that matters. -/
theorem WholeHeaders.onFrame_conn (whole : WholeHeaders frame) {dir : ConnDirState}
    (opposite : ConnDirState) (fits : frame.len ≤ dir.settings.maxFrameSize.toNat)
    (outside : dir.onContinuation = false) :
    dir.onFrame opposite frame = ((dir.processed frame, opposite, []), none) := by
  rw [onFrame, if_neg (not_lt.2 fits)]
  simp [outside, whole.type, whole.ends]

theorem WholeHeaders.onFrame_stream (whole : WholeHeaders frame) {dir : StreamDirState}
    (opposite : StreamDirState) (outside : dir.onContinuous = .none) :
    dir.onFrame opposite frame = ((dir, opposite), none) := by
  simp [StreamDirState.onFrame, outside, whole.type, whole.ends]

/-- A stream that HEADERS do not open: it is an idle one of the server, or one that the creation of
a higher stream closes. -/
def Barred (conn : ConnState) (stream : StreamState) : Prop :=
  stream.com.state = .idle ∧ (ID.byServer stream.com.id = true ∨
    stream.com.id < if ID.byClient stream.com.id then conn.maxClientId else conn.maxServerId)
deriving Decidable

variable {stream : StreamState} {conn : ConnState}

theorem maybeClosed_of_not_barred (unbarred : ¬ Barred conn stream) :
    conn.maybeClosedByHigherCreation stream = stream := by
  rw [maybeClosedByHigherCreation, StreamState.maybeCloseByHigherCreation]
  by_cases lower : stream.com.id <
      if byClient stream.com.id then conn.maxClientId else conn.maxServerId
  · rw [if_pos lower, maybeCloseByHigherCreation,
      if_neg fun idle => unbarred ⟨idle, .inr lower⟩]
  · exact if_neg lower

/-- What may be sent is sent, but for HEADERS that do not open a stream and WINDOW_UPDATE on a half
closed one. -/
theorem onSend_of_canSend {com : StreamCommonState} (can : com.canSend frame = none)
    (opens : frame.type = .header → com.state = .idle → byServer com.id = false)
    (update : frame.type = .windowUpdate → com.state ≠ .halfClosedLocal) :
    (com.onSend frame).2 = none := by
  have sameId : frame.id = com.id := by
    by_contra other
    rw [canSend, if_pos other] at can
    cases can
  obtain ⟨_, _, state, _⟩ := com
  cases ends : hasFlag frame.flag .endStream <;> cases type : frame.type <;> cases state <;>
    simp_all [canSend, onSend, AllowPolicy.permits, hasEndStreamFlag, sendIdle, sendReservedLocal,
      sendReservedRemote, sendData, sendHeaders, sendRstStream, sendPushPromise,
      sendWindowUpdate]

/-- A barred stream takes PRIORITY only. -/
theorem onSend_barred (other : frame.type ≠ .priority) (sameId : frame.id = stream.com.id)
    (barred : Barred conn stream) :
    ((conn.maybeClosedByHigherCreation stream).com.onSend frame).2 ≠ none := by
  obtain ⟨idle, cause⟩ := barred
  obtain ⟨⟨id, _, _, _⟩, _, _⟩ := stream
  subst idle
  rw [maybeClosedByHigherCreation, StreamState.maybeCloseByHigherCreation]
  by_cases lower : id < if byClient id then conn.maxClientId else conn.maxServerId
  · simp [lower, maybeCloseByHigherCreation, onSend, other, sameId, AllowPolicy.permits, sendClosed]
  · by_cases header : frame.type = .header <;> simp [lower, onSend, other, header, sameId,
      AllowPolicy.permits, sendIdle, cause.resolve_right _]

/-- A stream that takes HEADERS. -/
def Receptive (conn : ConnState) (stream : StreamState) : Prop :=
  ¬ Barred conn stream ∧ stream.com.state ≠ .halfClosedRemote ∧
    stream.com.state ≠ .reservedLocal ∧
    ¬ (stream.com.state = .closed ∧ stream.com.perfectClosed = true)
deriving Decidable

theorem WholeHeaders.onRecv (whole : WholeHeaders frame) (sameId : stream.com.id = frame.id)
    (receptive : Receptive conn stream) : (stream.com.onRecv frame).2 = none := by
  obtain ⟨unbarred, remote, reserved, closed⟩ := receptive
  have opens := fun idle =>
    eq_false_iff.2 fun byServer => unbarred ⟨idle, .inl byServer⟩
  obtain ⟨⟨_, _, state, _⟩, _, _⟩ := stream
  cases ends : hasFlag frame.flag .endStream <;> cases state <;>
    simp [onRecv, whole.type, ← sameId, AllowPolicy.permits,
      hasEndStreamFlag, recvIdle, recvReservedRemote]
      at opens remote reserved closed ⊢ <;> simp [*]

/-- A direction of the connection between header blocks; no SETTINGS have changed its frame size. -/
structure Quiet (dir : ConnDirState) : Prop where
  outside : dir.onContinuation = false
  frameSize : dir.settings.maxFrameSize.toNat = 16384

theorem Quiet.processed {dir : ConnDirState} (quiet : Quiet dir) (frame : Frame) :
    Quiet (dir.processed frame) where
  outside := by rw [ConnDirState.processed_onContinuation, quiet.outside, Bool.false_and]
  frameSize := by rw [processed_settings, quiet.frameSize]

/-- A connection between header blocks. -/
structure QuietConn (conn : ConnState) : Prop where
  peer : Quiet conn.peer
  «local» : Quiet conn.local
  issued : conn.issueId < 2 ^ 31

theorem QuietConn.onStreamFrameProcessed (quiet : QuietConn conn) (stream : StreamState) :
    QuietConn (conn.onStreamFrameProcessed stream) where
  peer := by simpa using quiet.peer
  «local» := by simpa using quiet.local
  issued := by
    simpa only [ConnState.onStreamFrameProcessed, apply_ite ConnState.issueId, ite_self]
      using quiet.issued

/-- A stream on which no header block is being received, with an id that can be written. -/
structure Calm (stream : StreamState) : Prop where
  outside : stream.local.onContinuous = .none
  id_lt : stream.com.id < 2 ^ 31

theorem maybeClosed_id (conn : ConnState) (stream : StreamState) :
    (conn.maybeClosedByHigherCreation stream).com.id = stream.com.id := by
  simp only [maybeClosedByHigherCreation, StreamState.maybeCloseByHigherCreation,
    maybeCloseByHigherCreation, apply_ite,
    apply_ite, ite_self]

theorem Calm.maybeClosed (calm : Calm stream) (conn : ConnState) :
    Calm (conn.maybeClosedByHigherCreation stream) where
  outside := by rw [(maybeClosed_dirs _).2]; exact calm.outside
  id_lt := by rw [maybeClosed_id]; exact calm.id_lt

/-- HEADERS move the state of the stream and nothing else of it. -/
theorem WholeHeaders.onSendFrame (whole : WholeHeaders frame) (calm : Calm stream)
    (outside : stream.peer.onContinuous = .none) :
    Calm (stream.onSendFrame frame).1 ∧
      (stream.onSendFrame frame).2 = (stream.com.onSend frame).2 := by
  have id_lt : (stream.com.onSend frame).1.id < 2 ^ 31 := by
    rw [onSend_id]
    exact calm.id_lt
  rw [StreamState.onSendFrame, whole.onFrame_stream _ outside]
  generalize stream.com.onSend frame = moved at id_lt
  obtain ⟨_, - | _⟩ := moved <;> exact ⟨⟨calm.outside, id_lt⟩, rfl⟩

theorem WholeHeaders.onRecvFrame (whole : WholeHeaders frame) (calm : Calm stream) :
    Calm (stream.onRecvFrame frame).1 ∧
      (stream.onRecvFrame frame).2 = (stream.com.onRecv frame).2 := by
  have id_lt : (stream.com.onRecv frame).1.id < 2 ^ 31 := by
    rw [onRecv_id]
    exact calm.id_lt
  rw [StreamState.onRecvFrame, whole.onFrame_stream _ calm.outside]
  generalize stream.com.onRecv frame = moved at id_lt
  obtain ⟨_, - | _⟩ := moved <;> exact ⟨⟨calm.outside, id_lt⟩, rfl⟩

theorem WholeHeaders.onSendStreamFrame (whole : WholeHeaders frame)
    (routed : misrouted frame stream = none) (quiet : QuietConn conn)
    (fits : frame.len ≤ 16384) :
    ∃ after, conn.onSendStreamFrame frame stream =
        ((after, ((conn.maybeClosedByHigherCreation stream).onSendFrame frame).1),
          ((conn.maybeClosedByHigherCreation stream).onSendFrame frame).2) ∧ QuietConn after := by
  have listed : frame.type.OnStream := by rw [whole.type]; decide
  have taken := whole.onFrame_conn conn.local (quiet.peer.frameSize ▸ fits) quiet.peer.outside
  have moved : QuietConn (conn.withDirs (conn.peer.processed frame) conn.local) :=
    ⟨quiet.peer.processed _, quiet.local, quiet.issued⟩
  rw [ConnState.onSendStreamFrame, routed]
  dsimp only
  rw [onSendFrame_listed _ listed, taken]
  obtain ⟨state, - | -⟩ := (conn.maybeClosedByHigherCreation _).onSendFrame _
  · exact ⟨_, rfl, moved.onStreamFrameProcessed _⟩
  · exact ⟨_, rfl, moved⟩

theorem WholeHeaders.onRecvStreamFrame (whole : WholeHeaders frame)
    (routed : misrouted frame stream = none) (quiet : QuietConn conn)
    (fits : frame.len ≤ 16384) :
    ∃ after, conn.onRecvStreamFrame frame stream =
        ((after, ((conn.maybeClosedByHigherCreation stream).onRecvFrame frame).1),
          ((conn.maybeClosedByHigherCreation stream).onRecvFrame frame).2) ∧ QuietConn after := by
  have listed : frame.type.OnStream := by rw [whole.type]; decide
  have taken := whole.onFrame_conn conn.peer (quiet.local.frameSize ▸ fits) quiet.local.outside
  have moved : QuietConn (conn.withDirs conn.peer (conn.local.processed frame)) :=
    ⟨quiet.peer, quiet.local.processed _, quiet.issued⟩
  rw [ConnState.onRecvStreamFrame, routed]
  dsimp only
  rw [onRecvFrame_listed _ listed, taken]
  obtain ⟨state, - | -⟩ := (conn.maybeClosedByHigherCreation _).onRecvFrame _
  · exact ⟨_, rfl, moved.onStreamFrameProcessed _⟩
  · exact ⟨_, rfl, moved⟩

theorem render_isSome (type : frame.type = .header) (onStream : frame.id ≠ 0)
    (small : frame.dataLen ≤ 0xffffff) : frame.render.isSome := by
  have accepted : frame.refused = false := by
    obtain ⟨_, _, id, payload⟩ := frame
    cases payload with
    | header => simp [Frame.refused, show id ≠ 0 from onStream]
    | _ => cases type
  have fits : ¬ 0xffffff < frame.dataLen % 2 ^ 32 := by
    omega
  rw [Frame.render, accepted, Frame.renderWithLen, if_neg fits]
  rfl

end Headers

section Handlers

variable {frame : Frame} {handler : Handler}

/-- No header block is under way, in no direction and on no stream. -/
structure Settled (handler : Handler) : Prop where
  conn : QuietConn handler.conn
  streams : ∀ entry ∈ handler.streams, Calm entry.state

variable {conn : ConnState} {entry : FlowControl.Entry}

theorem Settled.set (settled : Settled handler) {index : Nat} (quiet : QuietConn conn)
    (calm : Calm entry.state) : Settled ⟨conn, handler.streams.set index entry⟩ := by
  refine ⟨quiet, fun other member => ?_⟩
  obtain kept | rfl := mem_or_eq_of_mem_set member
  · exact settled.streams _ kept
  · exact calm

theorem Settled.append (settled : Settled handler) {id : Int} (mapped : Bool)
    (quiet : QuietConn conn) (id_lt : id < 2 ^ 31) :
    Settled ⟨conn, handler.streams ++ [⟨.ofId id, mapped⟩]⟩ := by
  refine ⟨quiet, fun other member => ?_⟩
  obtain kept | rfl := mem_snoc.1 member
  · exact settled.streams _ kept
  · exact ⟨rfl, id_lt⟩

theorem QuietConn.newStream (quiet : QuietConn conn) :
    QuietConn conn.newStream.1 ∧ conn.newStream.2 < 2 ^ 31 := by
  obtain ⟨peer, dir⟩ := newStream_dirs conn
  have issued := quiet.issued
  have small : conn.newStream.1.issueId < 2 ^ 31 ∧ conn.newStream.2 < 2 ^ 31 := by
    rw [ConnState.newStream]
    dsimp only
    split
    · split <;> simp
    · split
      · exact ⟨issued, by simp⟩
      · have next_lt : next conn.issueId < 2 ^ 31 := by
          rw [ID.next]
          split
          · decide
          · split <;> omega
        exact ⟨next_lt, next_lt⟩
  exact ⟨⟨peer ▸ quiet.peer, dir ▸ quiet.local, small.1⟩, small.2⟩

theorem Settled.openStream (settled : Settled handler) : Settled handler.openStream := by
  obtain ⟨quiet, id_lt⟩ := settled.conn.newStream
  rw [Handler.openStream]
  dsimp only
  split
  · exact ⟨quiet, settled.streams⟩
  · exact settled.append _ quiet id_lt

theorem length_openStream (handler : Handler) :
    handler.streams.length ≤ handler.openStream.streams.length := by
  rw [Handler.openStream]
  dsimp only
  split <;> simp

/-- HEADERS that may be sent are sent exactly when the stream is not barred. -/
theorem Settled.sendStream (settled : Settled handler) (whole : WholeHeaders frame)
    (fits : frame.len ≤ 16384) {index : Nat} (found : handler.streams[index]? = some entry)
    (can : handler.conn.canSendStreamFrame frame entry.state = none) :
    Settled (handler.sendStream index frame).1 ∧
      (handler.sendStream index frame).1.streams.length = handler.streams.length ∧
      ((handler.sendStream index frame).2 = none ↔ ¬ Barred handler.conn entry.state) := by
  obtain ⟨routed, sameId, onStream, small, streamCan⟩ := canSendStreamFrame_cases can
  obtain ⟨outside, comCan⟩ : entry.state.peer.onContinuous = .none ∧
      entry.state.com.canSend _ = none := by
    rw [StreamState.canSendFrame, if_neg (not_not.2 sameId)] at streamCan
    split at streamCan
    case isTrue => simp [whole.type] at streamCan
    case isFalse outside =>
      refine ⟨not_not.1 outside, ?_⟩
      split at streamCan
      · cases streamCan
      rename_i can
      exact can
  obtain ⟨after, sent, quiet⟩ := whole.onSendStreamFrame routed settled.conn fits
  have calm := (settled.streams _ (mem_of_getElem? found)).maybeClosed handler.conn
  obtain ⟨calmAfter, error_eq⟩ :=
    whole.onSendFrame calm ((maybeClosed_dirs entry.state).1 ▸ outside)
  have kept : Settled ⟨after, handler.streams.set index
      { entry with
        state := ((handler.conn.maybeClosedByHigherCreation entry.state).onSendFrame frame).1 }⟩ :=
    settled.set quiet calmAfter
  rw [settled.conn.peer.frameSize] at small
  have rendered := render_isSome whole.type onStream (by omega)
  have notContinuation : frame.type ≠ .continuation := by rw [whole.type]; decide
  rw [Handler.sendStream, found]
  simp only [if_neg notContinuation, can, sent, error_eq, writeFrame, rendered, if_true]
  refine ⟨?_, ?_, fun done barred => ?_, fun unbarred => ?_⟩
  · split <;> exact kept
  · split <;> exact length_set
  · refine onSend_barred (by simp [whole.type]) sameId barred ?_
    split at done
    · cases done
    rename_i accepted
    exact accepted
  · have opens := fun idle => eq_false_iff.2 fun byServer => unbarred ⟨idle, .inl byServer⟩
    rw [maybeClosed_of_not_barred unbarred, onSend_of_canSend comCan (fun _ => opens)
      (by simp [whole.type])]

/-- The stream that a frame is for, before the frame. -/
def streamFor (handler : Handler) (id : Int) : StreamState :=
  let (handler, index) := handler.locate id
  (handler.streams[index]?.map FlowControl.Entry.state).getD (.ofId id)

theorem Settled.locate (settled : Settled handler) {id : Int} (id_lt : id < 2 ^ 31) :
    Settled (handler.locate id).1 ∧ (handler.locate id).1.conn = handler.conn ∧
      handler.streams.length ≤ (handler.locate id).1.streams.length ∧
      ∃ entry, (handler.locate id).1.streams[(handler.locate id).2]? = some entry ∧
        entry.state.com.id = id := by
  rw [Handler.locate]
  cases found : handler.find id with
  | some index =>
    rw [Handler.find, findIdx?_eq_some_iff_getElem] at found
    obtain ⟨below, holds, -⟩ := found
    exact ⟨settled, rfl, le_rfl, _, getElem?_eq_getElem _,
      of_decide_eq_true (and_eq_true_iff.1 holds).2⟩
  | none =>
    exact ⟨settled.append _ settled.conn id_lt, rfl, by simp, ⟨.ofId id, true⟩, by simp, rfl⟩

/-- A receptive stream takes HEADERS. -/
theorem Settled.recvFrame (settled : Settled handler) (whole : WholeHeaders frame)
    (fits : frame.len ≤ 16384) (positive : 0 < frame.id) (id_lt : frame.id < 2 ^ 31)
    (receptive : Receptive handler.conn (streamFor handler frame.id)) :
    (handler.recvFrame frame).2 = none ∧ Settled (handler.recvFrame frame).1 ∧
      (handler.recvFrame frame).1.streams.length =
        (handler.locate frame.id).1.streams.length := by
  obtain ⟨located, conn_eq, -, entry, found, sameId⟩ := settled.locate id_lt
  have streamFor_eq : streamFor handler frame.id = entry.state := by
    simp only [streamFor, found, Option.map_some, Option.getD_some]
  rw [streamFor_eq] at receptive
  have routed : misrouted frame entry.state = none := by
    have valid : (isConn frame.id || !valid frame.id) = false := by
      simp [isConn, valid]
      omega
    rw [misrouted, if_neg (not_not.2 sameId.symm), valid, if_neg Bool.false_ne_true]
  obtain ⟨_, received, quiet⟩ := whole.onRecvStreamFrame routed settled.conn fits
  have onStream : ¬ Handler.isConnection frame := by
    simp [Handler.isConnection, whole.type]
  obtain ⟨calmAfter, error_eq⟩ := whole.onRecvFrame (located.streams _ (mem_of_getElem? found))
  rw [maybeClosed_of_not_barred receptive.1, error_eq, whole.onRecv sameId receptive] at received
  rw [Handler.recvFrame, if_neg onStream]
  simp only [found, conn_eq, received]
  exact ⟨trivial, located.set quiet calmAfter, length_set⟩

end Handlers

end Futils.Http2.Compression
