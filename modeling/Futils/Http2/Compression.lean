import Futils.Http2.HeaderBlock

/-!
# Header compression end to end

Two connected endpoints send header blocks on any of their streams and change the size of their
tables.  A block in flight leads from the table its receiver has by then to the table its sender had
after it.
-/

namespace Futils.Http2.Compression

open List FrameHandler Option ConnDirState ConnState FlowControl Nat
open Binary Hpack FlowControl Lib.Machine Lib.BigEndian Simulation FrameHandler

section Settings

/-- A SETTINGS payload with `SETTINGS_HEADER_TABLE_SIZE`. -/
def tableSizeSetting (size : UInt32) : Bytes := toBytes 2 1 ++ toBytes 4 size.toNat

theorem visit_tableSizeSetting (size : UInt32) :
    visitSettings (tableSizeSetting size) = ([(1, size)], true) := by
  have value := ofBytes_toBytes 4 size.toNat
  have length_eq := length_toBytes 4 size.toNat
  rw [mod_eq_of_lt (show size.toNat < 256 ^ 4 from size.toNat_lt)] at value
  rw [tableSizeSetting]
  generalize toBytes 4 size.toNat = bytes at value length_eq
  obtain ⟨_, _, _, _, rfl⟩ := length_eq_four.1 length_eq
  rw [show toBytes 2 1 = [0, 1] from rfl]
  simp only [cons_append, nil_append, visitSettings, value, UInt32.ofNat_toNat]
  rfl

section TableSize

variable {dir opposite : ConnDirState} {conn : ConnState} {frame : Frame} {size : UInt32}
  (fits : frame.len ≤ 16384) (flag : frame.flag = 0)
  (payload : frame.payload = .settings (tableSizeSetting size))
include fits flag payload

/-- SETTINGS with the size of the table set the size of the table. -/
theorem onFrame_tableSize (quiet : Quiet dir) :
    dir.onFrame opposite frame = ((dir.processed frame,
      { opposite with settings := { opposite.settings with maxHeaderTableSize := size } }, []),
      none) := by
  have type : frame.type = .settings := by rw [Frame.type, payload]; rfl
  rw [onFrame, quiet.frameSize, if_neg (not_lt.2 fits)]
  simp [quiet.outside, type, onSettings, flag, hasFlag, Frame.settings, payload,
    visit_tableSizeSetting, applySettings, onSetting, SettingKey.ofValue]

theorem onSendFrame_tableSize (quiet : QuietConn conn) :
    ∃ after, conn.onSendFrame frame = ((after, []), none) ∧ QuietConn after := by
  have type : frame.type ≠ .pushPromise := by simp [Frame.type, payload, Payload.type]
  rw [onSendFrame, if_neg (by simp [type]),
    onFrame_tableSize fits flag payload quiet.peer]
  exact ⟨_, rfl, quiet.peer.processed _, ⟨quiet.local.outside, quiet.local.frameSize⟩, quiet.issued⟩

theorem onRecvFrame_tableSize (quiet : QuietConn conn) :
    ∃ after, conn.onRecvFrame frame = ((after, []), none) ∧ QuietConn after := by
  have type : frame.type ≠ .pushPromise := by simp [Frame.type, payload, Payload.type]
  rw [onRecvFrame, if_neg (by simp [type]),
    onFrame_tableSize fits flag payload quiet.local]
  exact ⟨_, rfl, ⟨quiet.peer.outside, quiet.peer.frameSize⟩, quiet.local.processed _, quiet.issued⟩

end TableSize

/-- SETTINGS with the size of the table, as `send_settings` makes them. -/
def settingsFrame (size : UInt32) : Frame where
  payload := .settings (tableSizeSetting size)

/-- SETTINGS with the size of the table, as they arrive. -/
def arrivedSettings (size : UInt32) : Frame where
  len := 6
  id := 0
  payload := .settings (tableSizeSetting size)

/-- SETTINGS are written for the connection, whatever their id. -/
theorem settings_on_wire (size : UInt32) :
    ∃ bytes, (settingsFrame size).render = some bytes ∧
      parseFrame bytes 16384 = .frame (arrivedSettings size) [] := by
  have length_eq : (tableSizeSetting size).length = 6 := by simp [tableSizeSetting]
  have accepted : (arrivedSettings size).render.isSome := by
    simp [Frame.render, Frame.refused, arrivedSettings, length_eq, Frame.renderWithLen,
      Frame.dataLen]
  obtain ⟨bytes, rendered⟩ := isSome_iff_exists.1 accepted
  have dataLen_eq : (arrivedSettings size).dataLen = 6 := length_eq
  have idValid : (arrivedSettings size).IdValid := ⟨le_rfl, Int.pow_pos (by decide), rfl⟩
  have readable : (arrivedSettings size).Readable :=
    fun ack : hasFlag 0 .ack => absurd ack (by decide)
  obtain ⟨parsed, -⟩ :=
    @parseFrame_render _ 16384 idValid (by omega) (by omega) _ rendered readable []
  rw [append_nil] at parsed
  refine ⟨bytes, rendered, parsed.trans ?_⟩
  rfl

end Settings

section Endpoints

/-- What the entries of a table can add up to. -/
def tableBound : Nat := 2 ^ 32 - 1

theorem toNat_le_tableBound (size : UInt32) : size.toNat ≤ tableBound :=
  le_sub_one_of_lt size.toNat_lt

/-- An endpoint between header blocks. -/
structure Sound (endpoint : FrameHandler) : Prop where
  settled : Settled endpoint.handler
  length_headers : endpoint.headers.length = endpoint.handler.streams.length
  encodeTable : calcTableSize endpoint.encodeTable ≤ tableBound
  decodeTable : calcTableSize endpoint.decodeTable ≤ tableBound

variable {endpoint : FrameHandler}

theorem Sound.adopt (sound : Sound endpoint) {handler : Handler} (settled : Settled handler)
    (longer : endpoint.handler.streams.length ≤ handler.streams.length) :
    Sound (endpoint.adopt handler) where
  settled := settled
  length_headers := by
    have length_eq := sound.length_headers
    simp only [FrameHandler.adopt, List.length_append, List.length_replicate]
    omega
  encodeTable := sound.encodeTable
  decodeTable := sound.decodeTable

theorem Sound.openStream (sound : Sound endpoint) : Sound endpoint.openStream :=
  sound.adopt sound.settled.openStream (length_openStream _)

section Sending

theorem Settled.sendSettings {handler : Handler} (settled : Settled handler) (size : UInt32) :
    (handler.sendSettings (tableSizeSetting size)).2 = none ∧
      Settled (handler.sendSettings (tableSizeSetting size)).1 ∧
      (handler.sendSettings (tableSizeSetting size)).1.streams = handler.streams := by
  obtain ⟨_, sent, quiet⟩ :=
    @onSendFrame_tableSize _ (settingsFrame size) _ zero_le rfl rfl settled.conn
  obtain ⟨_, rendered, -⟩ := settings_on_wire size
  have unmoved : FlowControl.Entry.followLocal [] = id := by
    funext entry
    rw [FlowControl.Entry.followLocal]
    split <;> rfl
  rw [settingsFrame] at sent rendered
  simp only [Handler.sendSettings, Handler.sendConn, sent, unmoved, List.map_id, writeFrame,
    rendered, Option.isSome_some, if_true]
  exact ⟨trivial, ⟨quiet, settled.streams⟩, trivial⟩

/-- A header block, from the table of its sender before it to the one after it. -/
structure Block where
  before : Table
  limit : Nat
  addHeaderTable : Bool
  entries : List Hpack.Entry
  after : Table
  deriving DecidableEq

/-- The block of a request that left the table `after`. -/
def FrameHandler.block (endpoint : FrameHandler) (request : Request) (after : Table) : Block where
  before := endpoint.encodeTable
  limit := endpoint.peerLimit
  addHeaderTable := request.addHeaderTable
  entries := request.entries
  after := after

/-- A HEADERS frame with a whole header block. -/
structure Carries (frame : Frame) (block : Block) : Prop where
  whole : WholeHeaders frame
  positive : 0 < frame.id
  id_lt : frame.id < 2 ^ 31
  small : 9 + frame.dataLen ≤ 16384
  rendered : frame.render.isSome = true
  payload : ∃ padding priority data, frame.payload = .header padding priority data ∧
    encode block.limit block.addHeaderTable block.before block.entries = .ok (data, block.after)
  encodable : ∀ entry ∈ block.entries, Encodable entry.header

/-- A header list that may not be sent is restorable, one on a barred stream changes nothing, and
what is sent survives the codec. -/
def FrameHandler.Spares (endpoint : FrameHandler) (request : Request) (stream : StreamState)
    (payload : Bytes) (table : Table) : Prop :=
  if (endpoint.handler.conn.canSendStreamFrame
      (endpoint.headersFrame request stream.com.id payload) stream).isSome then
    (Journal.ofEncode endpoint.peerLimit request.addHeaderTable endpoint.encodeTable
      request.entries).Restorable
  else if Barred endpoint.handler.conn stream then table = endpoint.encodeTable
  else ∀ entry ∈ request.entries, Encodable entry.header
deriving Decidable

/-- The condition under which `send_headers` keeps the table right. -/
def FrameHandler.Harmless (endpoint : FrameHandler) (index : Nat) (request : Request) : Prop :=
  ∀ entry ∈ endpoint.handler.streams[index]?,
    ∀ encoded ∈ (encode endpoint.peerLimit request.addHeaderTable endpoint.encodeTable
      request.entries).toOption,
      endpoint.Spares request entry.state encoded.1 encoded.2
deriving Decidable

theorem positive_of_routed {frame : Frame} {stream : StreamState}
    (routed : misrouted frame stream = none) : 0 < frame.id := by
  rw [misrouted] at routed
  split at routed
  · cases routed
  split at routed
  · cases routed
  rename_i valid
  simp only [ID.isConn, ID.valid, Bool.or_eq_true, decide_eq_true_eq, Bool.not_eq_true',
    decide_eq_false_iff_not] at valid
  omega

theorem continuations_nil (index : Nat) (id : Int) (frameSize rounds : Nat) (handler : Handler) :
    continuations index id frameSize rounds handler [] = (handler, [], none) := by
  cases rounds <;> rfl

/-- HEADERS that may be sent end their header block: a longer one is larger than a frame may be. -/
theorem headersFrame_whole {request : Request} {id : Int} {payload : Bytes} {stream : StreamState}
    (can : endpoint.handler.conn.canSendStreamFrame (endpoint.headersFrame request id payload)
      stream = none) :
    payload.length ≤ endpoint.handler.conn.peer.settings.maxFrameSize.toNat ∧
      endpoint.headersFrame request id payload = request.frame id payload true := by
  obtain ⟨-, -, -, small, -⟩ := canSendStreamFrame_cases can
  have short : payload.length ≤ endpoint.handler.conn.peer.settings.maxFrameSize.toNat := by
    simp only [headersFrame, Request.frame, Frame.dataLen, length_take] at small
    omega
  refine ⟨short, ?_⟩
  simp only [headersFrame, take_of_length_le _, short, decide_true]

/-- `send_headers` leaves the table as it was, or it sends one frame that leads to the new one. -/
theorem Sound.sendHeaders (sound : Sound endpoint) {index : Nat} {request : Request}
    (harmless : endpoint.Harmless index request) {after : FrameHandler} {frames : List Frame}
    {error : Option Error} (sent : endpoint.sendHeaders index request = (after, frames, error)) :
    Sound after ∧ after.decodeTable = endpoint.decodeTable ∧
      (frames = [] ∧ after.encodeTable = endpoint.encodeTable ∨
        ∃ frame, frames = [frame] ∧ Carries frame (endpoint.block request after.encodeTable)) := by
  rw [FrameHandler.sendHeaders] at sent
  match found : endpoint.handler.streams[index]? with
  | none =>
    rw [found] at sent
    cases sent
    exact ⟨sound, rfl, .inl ⟨rfl, rfl⟩⟩
  | some entry =>
    rw [found] at sent
    match encoded : encode endpoint.peerLimit request.addHeaderTable endpoint.encodeTable
        request.entries with
    | .error error =>
      simp only [encoded] at sent
      cases sent
      exact ⟨sound, rfl, .inl ⟨rfl, rfl⟩⟩
    | .ok (payload, table) =>
      have condition := harmless _ found _ (by rw [encoded]; rfl)
      simp only [encoded] at sent
      simp only [Spares] at condition
      match can : endpoint.handler.conn.canSendStreamFrame
          (endpoint.headersFrame request entry.state.com.id payload) entry.state with
      | some error =>
        rw [can] at condition
        rw [can, recover_restores encoded condition] at sent
        cases sent
        exact ⟨sound, rfl, .inl ⟨rfl, rfl⟩⟩
      | none =>
        rw [can, isSome_none, if_neg Bool.false_ne_true] at condition
        obtain ⟨short, frame_eq⟩ := headersFrame_whole can
        rw [frame_eq] at can sent
        obtain ⟨routed, -, onStream, small, -⟩ := canSendStreamFrame_cases can
        rw [sound.settled.conn.peer.frameSize] at small
        have whole : WholeHeaders (request.frame entry.state.com.id payload true) :=
          ⟨rfl, (request.frame_flags _ _ _).1⟩
        obtain ⟨settled, length_eq, accepted⟩ := sound.settled.sendStream whole (zero_le) found can
        have calm := sound.settled.streams _ (mem_of_getElem? found)
        match written : endpoint.handler.sendStream index
            (request.frame entry.state.com.id payload true) with
        | (handler, some error) =>
          rw [written] at settled length_eq accepted
          have barred : Barred endpoint.handler.conn entry.state := by
            by_contra unbarred
            exact some_ne_none _ (accepted.2 unbarred)
          rw [if_pos barred] at condition
          simp only [can, written, condition] at sent
          cases sent
          exact ⟨⟨settled, sound.length_headers.trans length_eq.symm, sound.encodeTable,
            sound.decodeTable⟩, rfl, .inl ⟨rfl, rfl⟩⟩
        | (handler, none) =>
          rw [written] at settled length_eq accepted
          rw [if_neg (accepted.1 rfl)] at condition
          simp only [can, written, drop_eq_nil_of_le short, continuations_nil] at sent
          cases sent
          obtain ⟨_, _, again, within, -⟩ := encode_spec (toNat_le_tableBound _)
            (show tableBound < 2 ^ 32 by decide) request.addHeaderTable request.entries _
            sound.encodeTable condition
          obtain ⟨rfl, rfl⟩ := Prod.mk.inj (Except.ok.inj (encoded.symm.trans again))
          refine ⟨⟨settled, sound.length_headers.trans length_eq.symm, within,
            sound.decodeTable⟩, rfl, .inr ⟨_, rfl, ?_⟩⟩
          exact {
            whole := whole
            positive := positive_of_routed routed
            id_lt := calm.id_lt
            small := small
            rendered := render_isSome rfl onStream (by omega)
            payload := ⟨_, _, payload, rfl, encoded⟩
            encodable := condition }

end Sending

section Receiving

/-- The limit with which the stream `id` decodes its next header block. -/
def FrameHandler.limitFor (endpoint : FrameHandler) (id : Int) : UInt32 :=
  let (handler, index) := endpoint.handler.locate id
  ((endpoint.adopt handler).headers[index]?.map HeaderState.recvTableSizeLimit).getD
    endpoint.localLimit

variable {frame : Frame}

/-- HEADERS that a receptive stream gets are decoded with its limit. -/
theorem Sound.recvHeaders (sound : Sound endpoint) (whole : WholeHeaders frame)
    (fits : frame.len ≤ 16384) (positive : 0 < frame.id) (id_lt : frame.id < 2 ^ 31)
    (receptive : Receptive endpoint.handler.conn (streamFor endpoint.handler frame.id))
    {padding : UInt8} {priority : Priority} {data : Bytes}
    (payload : frame.payload = .header padding priority data) {addHeaderTable : Bool}
    {entries : List Hpack.Entry} {after : Table}
    (encoded : encode (endpoint.limitFor frame.id).toNat addHeaderTable endpoint.decodeTable
      entries = .ok (data, after))
    (encodable : ∀ entry ∈ entries, Encodable entry.header) :
    Sound (endpoint.recvFrame frame).1 ∧
      (endpoint.recvFrame frame).2 = .headers (entries.map Hpack.Entry.header) ∧
      (endpoint.recvFrame frame).1.decodeTable = after ∧
      (endpoint.recvFrame frame).1.encodeTable = endpoint.encodeTable := by
  obtain ⟨located, -, longer, _, found, -⟩ := sound.settled.locate id_lt
  obtain ⟨accepted, settled, length_eq⟩ :=
    sound.settled.recvFrame whole fits positive id_lt receptive
  have adopted : (endpoint.adopt (endpoint.handler.recvFrame frame).1).headers =
      (endpoint.adopt (endpoint.handler.locate frame.id).1).headers := by
    simp only [FrameHandler.adopt, length_eq]
  have soundAfter := sound.adopt settled (length_eq ▸ longer)
  obtain ⟨state, state_eq⟩ : ∃ state,
      (endpoint.adopt (endpoint.handler.locate frame.id).1).headers[
        (endpoint.handler.locate frame.id).2]? = some state := by
    have inside := (List.getElem?_eq_some_iff.1 found).1
    have bound := (sound.adopt located longer).length_headers
    exact ⟨_, List.getElem?_eq_getElem (bound.symm ▸ inside)⟩
  have limit_eq : endpoint.limitFor frame.id = state.recvTableSizeLimit := by
    simp only [FrameHandler.limitFor, state_eq, Option.map_some, Option.getD_some]
  rw [limit_eq] at encoded
  obtain ⟨_, _, again, within, decodes⟩ := encode_spec (toNat_le_tableBound _)
    (show tableBound < 2 ^ 32 by decide) addHeaderTable entries _ sound.decodeTable encodable
  obtain ⟨rfl, rfl⟩ := Prod.mk.inj (Except.ok.inj (encoded.symm.trans again))
  rw [FrameHandler.recvFrame]
  generalize endpoint.handler.recvFrame frame = received at *
  obtain ⟨handler, _⟩ := received
  dsimp only at accepted adopted soundAfter
  have decoded := decodes (endpoint.adopt handler).localLimit.toNat _ [] le_rfl
  have tables : (endpoint.adopt handler).decodeTable = endpoint.decodeTable := rfl
  simp only [accepted, payload, whole.ends, if_true, FrameHandler.handleHeader, adopted, state_eq,
    decode, tables, decoded, List.nil_append]
  exact ⟨⟨soundAfter.settled, List.length_set.trans (adopted ▸ soundAfter.length_headers),
    soundAfter.encodeTable, within⟩, trivial, trivial, rfl⟩

/-- SETTINGS with the size of the table are taken, and no table changes. -/
theorem Sound.recvSettings (sound : Sound endpoint) (size : UInt32) :
    Sound (endpoint.recvFrame (arrivedSettings size)).1 ∧
      (endpoint.recvFrame (arrivedSettings size)).2 = .nothing ∧
      (endpoint.recvFrame (arrivedSettings size)).1.decodeTable = endpoint.decodeTable ∧
      (endpoint.recvFrame (arrivedSettings size)).1.encodeTable = endpoint.encodeTable := by
  obtain ⟨after, taken, quiet⟩ := @onRecvFrame_tableSize _ (arrivedSettings size) _
    (show 6 ≤ 16384 by decide) rfl rfl sound.settled.conn
  have unmoved : FlowControl.Entry.followPeer [] = id := by
    funext entry
    rw [FlowControl.Entry.followPeer]
    split <;> rfl
  have received : endpoint.handler.recvFrame (arrivedSettings size) =
      (⟨after, endpoint.handler.streams⟩, none) := by
    rw [Handler.recvFrame]
    simp only [taken, unmoved, List.map_id]
    rfl
  rw [recvFrame, received]
  exact ⟨sound.adopt ⟨quiet, sound.settled.streams⟩ le_rfl, rfl, rfl, rfl⟩

end Receiving

end Endpoints

section World

/-- A frame on its way; the frame that ends a header block carries it. -/
structure Parcel where
  frame : Frame
  block : Option Block
  deriving DecidableEq

/-- The endpoints and what each of them has sent that has not arrived. -/
structure World where
  endpoint : Side → FrameHandler
  sent : Side → List Parcel

def opposite : Side → Side
  | .client => .server
  | .server => .client

/-- The operations: of an application, and the arrival of the next frame a side has sent. -/
inductive Op where
  | openStream (side : Side)
  | sendHeaders (side : Side) (index : Nat) (request : Request)
  | sendSettings (side : Side) (size : UInt32)
  | deliver (side : Side)

namespace World

def act (world : World) (side : Side) (endpoint : FrameHandler) (parcels : List Parcel) :
    World where
  endpoint := Function.update world.endpoint side endpoint
  sent := Function.update world.sent side (world.sent side ++ parcels)

/-- The other side has taken what a side has sent. -/
def take (world : World) (side : Side) (endpoint : FrameHandler) (parcels : List Parcel) :
    World where
  endpoint := Function.update world.endpoint (opposite side) endpoint
  sent := Function.update world.sent side parcels

end World

def step (world : World) : Op → World × Answer
  | .openStream side => (world.act side (world.endpoint side).openStream [], .nothing)
  | .sendHeaders side index request =>
    let (after, frames, error) := (world.endpoint side).sendHeaders index request
    let block := (world.endpoint side).block request after.encodeTable
    let parcels := frames.map fun frame : Frame =>
      ⟨frame, if hasFlag frame.flag .endHeaders then some block else none⟩
    (world.act side after parcels, error.elim .nothing .error)
  | .sendSettings side size =>
    let (after, error) := (world.endpoint side).sendSettings (tableSizeSetting size)
    (world.act side after (if error.isNone then [⟨settingsFrame size, none⟩] else []),
      error.elim .nothing .error)
  | .deliver side =>
    match world.sent side with
    | [] => (world, .nothing)
    | parcel :: parcels =>
      let (after, answer) :=
        (world.endpoint (opposite side)).recvBytes (parcel.frame.render.getD [])
      (world.take side after parcels, answer)

def start : World where
  endpoint
    | .client => { handler := { conn := { isServer := false } } }
    | .server => { handler := { conn := { isServer := true } } }
  sent _ := []

/-- A header block that arrives is read: it is not padded, its stream takes HEADERS, and the limit
of the stream does not matter. -/
def FrameHandler.Ready (endpoint : FrameHandler) (frame : Frame) (block : Block) : Prop :=
  hasFlag frame.flag .padded = false ∧
    Receptive endpoint.handler.conn (streamFor endpoint.handler frame.id) ∧
    encode (endpoint.limitFor frame.id).toNat block.addHeaderTable block.before block.entries =
      encode block.limit block.addHeaderTable block.before block.entries
deriving Decidable

/-- The steps that keep the tables together. -/
def guard (world : World) : Op → Prop
  | .openStream _ | .sendSettings .. => True
  | .sendHeaders side index request => (world.endpoint side).Harmless index request
  | .deliver side => ∀ parcel ∈ (world.sent side).head?, ∀ block ∈ parcel.block,
      (world.endpoint (opposite side)).Ready parcel.frame block

instance (world : World) (op : Op) : Decidable (guard world op) := by
  cases op <;> dsimp only [guard] <;> infer_instance

/-- A header block that arrives is answered with the list that was sent, and leaves the table of its
sender. -/
def Synchronized (world : World) : Op → Prop
  | .deliver side => ∀ parcel ∈ (world.sent side).head?, ∀ block ∈ parcel.block,
      (step world (.deliver side)).2 = .headers (block.entries.map Hpack.Entry.header) ∧
        ((step world (.deliver side)).1.endpoint (opposite side)).decodeTable = block.after
  | _ => True

/-- What one frame makes of the table of its receiver. -/
inductive Leads : Table → Parcel → Table → Prop
  | settings (table : Table) (size : UInt32) : Leads table ⟨settingsFrame size, none⟩ table
  | block {table : Table} {frame : Frame} {block : Block} (before : table = block.before)
      (carries : Carries frame block) : Leads table ⟨frame, some block⟩ block.after

/-- What the frames in flight make of the table of their receiver. -/
def Chain : Table → List Parcel → Table → Prop
  | before, [], after => before = after
  | before, parcel :: parcels, after => ∃ next, Leads before parcel next ∧ Chain next parcels after

theorem Chain.append {before middle after : Table} {first second : List Parcel}
    (early : Chain before first middle) (late : Chain middle second after) :
    Chain before (first ++ second) after := by
  induction first generalizing before with
  | nil =>
    cases early
    exact late
  | cons parcel first ih =>
    obtain ⟨next, leads, rest⟩ := early
    exact ⟨next, leads, ih rest⟩

theorem Chain.eq_of_no_blocks {before after : Table} {parcels : List Parcel}
    (chain : Chain before parcels after) (none_left : ∀ parcel ∈ parcels, parcel.block = none) :
    before = after := by
  induction parcels generalizing before with
  | nil => exact chain
  | cons parcel parcels ih =>
    obtain ⟨_, leads, rest⟩ := chain
    cases leads with
    | settings => exact ih rest (forall_mem_cons.1 none_left).2
    | block => cases none_left _ mem_cons_self

/-- The tables of both directions are connected by the frames in flight. -/
structure InStep (world : World) : Prop where
  sound : ∀ side, Sound (world.endpoint side)
  chain : ∀ side, Chain (world.endpoint (opposite side)).decodeTable (world.sent side)
    (world.endpoint side).encodeTable

theorem opposite_ne (side : Side) : opposite side ≠ side := by
  cases side <;> nofun

theorem eq_or_opposite (side other : Side) : other = side ∨ other = opposite side := by
  cases side <;> cases other <;> simp [opposite]

@[simp] theorem opposite_opposite (side : Side) : opposite (opposite side) = side := by
  cases side <;> rfl

variable {world : World}

/-- A side that has sent what leads to its new table. -/
theorem InStep.act (inStep : InStep world) {side : Side} {after : FrameHandler}
    {parcels : List Parcel} (sound : Sound after)
    (decodeTable : after.decodeTable = (world.endpoint side).decodeTable)
    (chain : Chain (world.endpoint side).encodeTable parcels after.encodeTable) :
    InStep (world.act side after parcels) := by
  constructor
  · intro other
    obtain rfl | rfl := eq_or_opposite side other
    · simpa [World.act] using sound
    · simpa [World.act, opposite_ne] using inStep.sound _
  · intro other
    obtain rfl | rfl := eq_or_opposite side other
    · simpa [World.act, opposite_ne] using (inStep.chain _).append chain
    · simpa [World.act, opposite_ne, decodeTable] using inStep.chain (opposite _)

/-- The other side has taken the next frame. -/
theorem InStep.take (inStep : InStep world) {side : Side} {after : FrameHandler}
    {parcels : List Parcel} (sound : Sound after)
    (encodeTable : after.encodeTable = (world.endpoint (opposite side)).encodeTable)
    (chain : Chain after.decodeTable parcels (world.endpoint side).encodeTable) :
    InStep (world.take side after parcels) := by
  have distinct := (opposite_ne side).symm
  constructor
  · intro other
    obtain rfl | rfl := eq_or_opposite side other
    · simpa [World.take, distinct] using inStep.sound _
    · simpa [World.take] using sound
  · intro other
    obtain rfl | rfl := eq_or_opposite side other
    · simpa [World.take, distinct] using chain
    · simpa [World.take, distinct, opposite_ne, encodeTable] using inStep.chain (opposite _)

/-- HEADERS that arrive have the flags and the payload they were sent with. -/
theorem Carries.recvBytes {endpoint : FrameHandler} {frame : Frame} {block : Block}
    (carries : Carries frame block) (sound : Sound endpoint) (ready : endpoint.Ready frame block)
    (before : endpoint.decodeTable = block.before) :
    Sound (endpoint.recvBytes (frame.render.getD [])).1 ∧
      (endpoint.recvBytes (frame.render.getD [])).2 =
        .headers (block.entries.map Hpack.Entry.header) ∧
      (endpoint.recvBytes (frame.render.getD [])).1.decodeTable = block.after ∧
      (endpoint.recvBytes (frame.render.getD [])).1.encodeTable = endpoint.encodeTable := by
  obtain ⟨bytes, rendered⟩ := isSome_iff_exists.1 carries.rendered
  obtain ⟨_, priority, data, payload, encoded⟩ := carries.payload
  obtain ⟨unpadded, receptive, same⟩ := ready
  have small := carries.small
  have idValid : frame.IdValid := by
    refine ⟨carries.positive.le, carries.id_lt, ?_⟩
    rw [carries.whole.type]
    have positive := carries.positive
    simp [FrameType.idMode, FrameIDMode.allows]
    omega
  have readable : frame.Readable := by
    rw [Frame.Readable, payload]
    exact unpadded
  obtain ⟨parsed, -⟩ := @parseFrame_render _ _ idValid (by omega) (by omega) _ rendered readable []
  rw [append_nil] at parsed
  rw [rendered, Option.getD_some, FrameHandler.recvBytes, sound.settled.conn.local.frameSize,
    parsed]
  have announced : frame.announced.payload = .header 0
      (if hasFlag frame.flag .priority then priority else ⟨0, 0⟩) data := by
    rw [Frame.announced, payload]
    simp [unpadded]
  rw [← before] at encoded same
  have whole : WholeHeaders frame.announced :=
    ⟨(Frame.announced_type _).trans carries.whole.type, carries.whole.ends⟩
  exact sound.recvHeaders whole
    (show frame.dataLen ≤ 16384 by omega) carries.positive carries.id_lt receptive announced
    (same.trans encoded) carries.encodable

/-- One step keeps both directions in step, and a header block that arrives is the one that was
sent. -/
theorem InStep.step (inStep : InStep world) {op : Op} (allowed : guard world op) :
    InStep (Compression.step world op).1 ∧ Synchronized world op := by
  cases op with
  | openStream side =>
    exact ⟨inStep.act (inStep.sound _).openStream rfl rfl, trivial⟩
  | sendHeaders side index request =>
    refine ⟨?_, trivial⟩
    match sent : (world.endpoint side).sendHeaders index request with
    | (after, frames, error) =>
      obtain ⟨sound, decodeTable, outcome⟩ := (inStep.sound _).sendHeaders allowed sent
      simp only [Compression.step, sent]
      obtain ⟨rfl, same⟩ | ⟨_, rfl, carries⟩ := outcome
      · exact inStep.act sound decodeTable same.symm
      · refine inStep.act sound decodeTable ?_
        rw [map_singleton, if_pos carries.whole.ends]
        exact ⟨_, .block rfl carries, rfl⟩
  | sendSettings side size =>
    refine ⟨?_, trivial⟩
    obtain ⟨accepted, settled, streams⟩ := (inStep.sound _).settled.sendSettings size
    have sound := (inStep.sound side).adopt settled (le_of_eq (congrArg _ streams.symm))
    simp only [Compression.step, sendSettings, accepted]
    exact inStep.act sound rfl ⟨_, .settings _ _, rfl⟩
  | deliver side =>
    have chain := inStep.chain side
    have sound := inStep.sound (opposite side)
    rw [guard] at allowed
    simp only [Synchronized, Compression.step]
    match flying : world.sent side with
    | [] => exact ⟨inStep, nofun⟩
    | parcel :: parcels =>
      rw [flying] at chain allowed
      obtain ⟨_, leads, rest⟩ := chain
      cases leads with
      | settings size =>
        obtain ⟨_, rendered, parsed⟩ := settings_on_wire _
        obtain ⟨soundAfter, -, decodeTable, encodeTable⟩ := sound.recvSettings _
        have received : (world.endpoint (opposite side)).recvBytes
            ((settingsFrame size).render.getD []) =
              (world.endpoint (opposite side)).recvFrame (arrivedSettings size) := by
          rw [rendered, getD_some, recvBytes,
            sound.settled.conn.local.frameSize, parsed]
        simp only [received]
        refine ⟨inStep.take soundAfter encodeTable (decodeTable ▸ rest), ?_⟩
        rintro _ ⟨⟩ _ ⟨⟩
      | @block frame block before carries =>
        obtain ⟨soundAfter, answer, decodeTable, encodeTable⟩ :=
          carries.recvBytes sound (allowed _ rfl _ rfl) before
        refine ⟨inStep.take soundAfter encodeTable (decodeTable ▸ rest), ?_⟩
        rintro _ ⟨⟩ _ ⟨⟩
        exact ⟨answer, by simpa [World.take] using decodeTable⟩

theorem inStep_start : InStep start where
  sound side := by
    have quiet : Quiet {} := ⟨rfl, rfl⟩
    have within : calcTableSize [] ≤ tableBound := zero_le
    cases side <;>
      exact ⟨⟨⟨quiet, quiet, by decide⟩, fun _ none => absurd none not_mem_nil⟩, rfl, within,
        within⟩
  chain side := by cases side <;> rfl

/-- In every run whose steps keep the tables together, every header block is answered with the list
that was sent and leaves the table its sender had; with no block on its way the tables are the same.
-/
theorem header_tables_synchronized {ops : List Op} (guarded : Guarded step guard start ops) :
    Guarded step Synchronized start ops ∧
      ∀ side, (∀ parcel ∈ (final step start ops).sent side, parcel.block = none) →
        ((final step start ops).endpoint (opposite side)).decodeTable =
          ((final step start ops).endpoint side).encodeTable := by
  refine ⟨guarded_of_invariant (fun world op inStep allowed => inStep.step allowed) inStep_start
    guarded, fun side none_left => ?_⟩
  have inStep := @invariant_of_guarded _ _ _ _ _ (fun world _ => InStep world)
    (fun world _ op inStep allowed => (inStep.step allowed).1) _ [] ops inStep_start guarded
  exact (inStep.chain _).eq_of_no_blocks none_left

/-- With room for one entry the second header evicts the first one; HEADERS refused on the half
closed stream restore the table. -/
theorem header_tables_synchronized_evicting :
    let xa : Hpack.Entry := ⟨(text "x-a", text "1"), true⟩
    let xb : Hpack.Entry := ⟨(text "x-b", text "2"), true⟩
    let ops : List Op :=
      [.sendSettings .server 64, .deliver .server, .openStream .client,
       .sendHeaders .client 0 { entries := [xa] }, .deliver .client,
       .sendHeaders .client 0 { entries := [xb], fin := true },
       .sendHeaders .client 0 { entries := [xa] }, .deliver .client]
    Guarded step Synchronized start ops ∧
      ∀ side, (∀ parcel ∈ (final step start ops).sent side, parcel.block = none) →
        ((final step start ops).endpoint (opposite side)).decodeTable =
          ((final step start ops).endpoint side).encodeTable := by
  exact header_tables_synchronized (by decide +kernel)

/-- How a run ends: the last answer, and the tables of one direction. -/
structure Outcome where
  answer : Option Answer
  decodeTable : Table
  encodeTable : Table
  deriving DecidableEq

/-- How a run ends for the direction from a side. -/
def outcome (side : Side) (ops : List Op) : Outcome where
  answer := (trace step start ops).getLast?.map Prod.snd
  decodeTable := ((final step start ops).endpoint (opposite side)).decodeTable
  encodeTable := ((final step start ops).endpoint side).encodeTable

/-- A stream made before SETTINGS keeps the old limit; HEADERS that may not be sent leave a wrong
entry; the server keeps what it could not send; and a stream begun late is refused by the server. -/
theorem header_tables_diverge :
    let xa : Hpack.Entry := ⟨(text "x-a", text "1"), true⟩
    let xb : Hpack.Entry := ⟨(text "x-b", text "2"), true⟩
    outcome .client
        [.openStream .client, .sendHeaders .client 0 { entries := [xa] }, .deliver .client,
         .sendSettings .server 0, .deliver .server,
         .sendHeaders .client 0 { entries := [xb] }, .deliver .client] =
      ⟨some (.headers [xb.header]), [xb.header, xa.header], []⟩ ∧
    outcome .client
        [.openStream .client, .sendHeaders .client 0 { entries := [xa], fin := true },
         .deliver .client, .sendHeaders .client 0 { entries := [xb] }, .openStream .client,
         .sendHeaders .client 1 { entries := [xb] }, .deliver .client] =
      ⟨some (.headers [xa.header]), [xa.header], [xb.header]⟩ ∧
    outcome .server
        [.openStream .server, .sendHeaders .server 0 { entries := [xa] }, .openStream .client,
         .sendHeaders .client 0 { entries := [] }, .deliver .client,
         .sendHeaders .server 1 { entries := [xa] }, .deliver .server] =
      ⟨some (.error { code := .compression }), [], [xa.header]⟩ ∧
    outcome .client
        [.openStream .client, .openStream .client, .openStream .client,
         .sendHeaders .client 0 { entries := [], fin := true },
         .sendHeaders .client 2 { entries := [] }, .deliver .client, .deliver .client,
         .sendHeaders .server 0 { entries := [], fin := true },
         .sendHeaders .server 1 { entries := [] }, .deliver .server,
         .sendHeaders .client 1 { entries := [xa] }, .deliver .client] =
      ⟨some (.error { code := .protocol, debug := Policy.recvClosed.debug }), [], [xa.header]⟩ := by
  decide +kernel

end World

end Futils.Http2.Compression
