import Futils.Http2.Compression

/-!
# Sending on a stream

A frame is tested before it is sent, and sending it moves the connection and then the stream.  Both
are chains of tests of their own: what the first accepts the second may refuse, and by then the
connection has moved.  Header blocks go through both, with a test that makes no block longer than a
frame.
-/

namespace Futils.Http2.Compression

open Hpack FlowControl Policy StreamCommonState ConnState List

section Agreement

variable {conn : ConnState} {stream : StreamState} {frame : Frame}

/-- The test and the transition agree about the frame. -/
structure Agreeing (conn : ConnState) (stream : StreamState) (frame : Frame) : Prop where
  small : frame.len ≤ conn.peer.settings.maxFrameSize.toNat
  data : frame.type = .data → 0 ≤ conn.peer.window.window ∧ 0 ≤ stream.peer.window.window
  opens : frame.type = .header → ¬ Barred conn stream
  update : frame.type = .windowUpdate → stream.com.state ≠ .halfClosedLocal ∧
    stream.local.window.exceeded frame.credit = false
  continued : frame.type = .continuation →
    stream.com.state ∈ [.opened, .halfClosedLocal, .halfClosedRemote]

/-- The frame fails a test that comes before every change. -/
def RefusedAtOnce (conn : ConnState) (stream : StreamState) (frame : Frame) : Prop :=
  misrouted frame stream ≠ none ∨ conn.maybeClosedByHigherCreation stream = stream ∧
    (frame.type = .pushPromise ∧ conn.peer.settings.enablePush = false ∨
      conn.peer.settings.maxFrameSize.toNat < frame.len ∨
      conn.peer.onContinuation = true ∧
        (frame.type ≠ .continuation ∨ frame.id ≠ conn.peer.preprocedStreamId))

/-- CONTINUATION moves no stream that is open in some direction. -/
theorem onSend_continuation {com : StreamCommonState} (sameId : frame.id = com.id)
    (next : frame.type = .continuation)
    (listed : com.state ∈ [.opened, .halfClosedLocal, .halfClosedRemote]) :
    (com.onSend frame).2 = none := by
  simp only [mem_cons, not_mem_nil, or_false] at listed
  obtain state | state | state := listed <;>
    simp [onSend, sameId, next, state, hasEndStreamFlag, sendHalfClosedLocal,
      AllowPolicy.permits]

/-- A frame is sent if the connection and the stream take it. -/
theorem onSendStreamFrame_iff : (conn.onSendStreamFrame frame stream).2 = none ↔
    misrouted frame stream = none ∧ (conn.onSendFrame frame).2 = none ∧
      ((conn.maybeClosedByHigherCreation stream).onSendFrame frame).2 = none := by
  rw [onSendStreamFrame]
  grind

theorem streamOnSendFrame_iff : (stream.onSendFrame frame).2 = none ↔
    (stream.com.onSend frame).2 = none ∧ (stream.peer.onFrame stream.local frame).2 = none := by
  rw [StreamState.onSendFrame]
  grind

section Allowed

variable (can : conn.canSendStreamFrame frame stream = none) (agreeing : Agreeing conn stream frame)
include can agreeing

theorem onSendFrame_of_can : (conn.onSendFrame frame).2 = none := by
  obtain ⟨routed, sameId, onStream, small, streamCan⟩ := canSendStreamFrame_cases can
  have notSettings : frame.type ≠ .settings := by
    intro type
    obtain ⟨-, next⟩ | ⟨-, -, permitted, -⟩ := StreamState.canSendFrame_cases streamCan
    · rw [type] at next
      cases next
    · simp [canSend, sameId, type] at permitted
  simp only [canSendStreamFrame, routed, if_neg (not_lt.2 small)] at can
  split at can
  · cases can
  rename_i expected
  split at can
  · cases can
  rename_i sameStream
  split at can
  · cases can
  rename_i within
  split at can
  · cases can
  rename_i enabled
  rw [onSendFrame, if_neg enabled, ConnDirState.onFrame, if_neg (not_lt.2 agreeing.small),
    if_neg expected, if_neg sameStream]
  cases type : frame.type with
  | data =>
    have covered : ¬ conn.peer.window.window < frame.dataLen := by
      have nonneg := (agreeing.data type).1
      have available : frame.dataLen ≤ conn.peer.window.availSize := by
        simpa [type, ConnDirState.canData] using within
      rw [FlowControlWindow.availSize] at available
      omega
    simp [ConnDirState.processed_window, FlowControlWindow.consume, covered]
  | settings => exact absurd type notSettings
  | windowUpdate => simp [onStream]
  | header | pushPromise => cases hasFlag frame.flag .endHeaders <;> rfl
  | _ => rfl

/-- A stream that the creation of a higher one closes takes PRIORITY only. -/
theorem not_barred_of_can (other : frame.type ≠ .priority) : ¬ Barred conn stream := by
  obtain ⟨-, sameId, -, -, streamCan⟩ := canSendStreamFrame_cases can
  intro barred
  have idle := barred.1
  obtain ⟨-, next⟩ | ⟨-, -, permitted, -⟩ := StreamState.canSendFrame_cases streamCan
  · simpa [idle] using agreeing.continued next
  · cases type : frame.type <;>
      simp_all [canSend, AllowPolicy.permits, sendData, sendRstStream, sendPushPromise,
        sendWindowUpdate]
    exact agreeing.opens type barred

theorem streamOnSendFrame_of_can :
    ((conn.maybeClosedByHigherCreation stream).onSendFrame frame).2 = none := by
  obtain ⟨-, sameId, -, -, streamCan⟩ := canSendStreamFrame_cases can
  have dirs := StreamState.onFrame_accepted streamCan (fun data => (agreeing.data data).2)
    fun update => (agreeing.update update).2
  have moved : ((conn.maybeClosedByHigherCreation stream).com.onSend frame).2 = none := by
    by_cases priority : frame.type = .priority
    · have sameId := (maybeClosed_id conn _).trans sameId.symm
      rw [onSend, if_neg (not_not.2 sameId), if_pos priority]
    · have unbarred := not_barred_of_can can agreeing priority
      rw [maybeClosed_of_not_barred unbarred]
      obtain ⟨-, next⟩ | ⟨-, -, permitted, -⟩ := StreamState.canSendFrame_cases streamCan
      · exact onSend_continuation sameId next (agreeing.continued next)
      · exact onSend_of_canSend permitted (fun _ idle => Bool.eq_false_iff.2 fun byServer =>
          unbarred ⟨idle, .inl byServer⟩) fun update => (agreeing.update update).1
  obtain ⟨peer, dir⟩ := @maybeClosed_dirs conn stream
  exact streamOnSendFrame_iff.2 ⟨moved, by rw [peer, dir]; exact dirs⟩

theorem onSendStreamFrame_of_can : (conn.onSendStreamFrame frame stream).2 = none :=
  onSendStreamFrame_iff.2 ⟨(canSendStreamFrame_cases can).1, onSendFrame_of_can can agreeing,
    streamOnSendFrame_of_can can agreeing⟩

end Allowed

/-- The two agree about what is sent. -/
theorem agreeing_of_sent (can : conn.canSendStreamFrame frame stream = none)
    (sent : (conn.onSendStreamFrame frame stream).2 = none) : Agreeing conn stream frame := by
  have sameId := (canSendStreamFrame_cases can).2.1
  obtain ⟨-, connTakes, streamTakes⟩ := onSendStreamFrame_iff.1 sent
  obtain ⟨moves, dirs⟩ := streamOnSendFrame_iff.1 streamTakes
  rw [(maybeClosed_dirs _).1, (maybeClosed_dirs _).2] at dirs
  have unbarred (other : frame.type ≠ .priority) : ¬ Barred conn stream :=
    fun barred => onSend_barred other sameId barred moves
  have moves (other : frame.type ≠ .priority) : (stream.com.onSend frame).2 = none := by
    rwa [maybeClosed_of_not_barred (unbarred other)] at moves
  refine ⟨?_, fun data => ⟨?_, ?_⟩, fun opens => unbarred (by simp [opens]),
    fun update => ⟨fun half => ?_, ?_⟩, fun next => ?_⟩
  · by_contra large
    grind [onSendFrame, ConnDirState.onFrame]
  · grind [onSendFrame, ConnDirState.onFrame, FlowControlWindow.consume, ConnDirState.processed_window]
  · grind [StreamDirState.onFrame, FlowControlWindow.consume]
  · simpa [onSend, update, half, sameId, AllowPolicy.permits, sendHalfClosedLocal,
      hasEndStreamFlag] using moves (by simp [update])
  · grind [StreamDirState.onFrame, FlowControlWindow.update]
  · have moved := moves (by simp [next])
    cases state : stream.com.state <;> simp [onSend, sameId, next, state, AllowPolicy.permits,
      sendIdle, sendClosed, sendReservedLocal, sendReservedRemote] at moved ⊢

/-- What may be sent is sent exactly if the two agree about it, and a frame that is refused at once
changes nothing. -/
theorem sending_checked (conn : ConnState) (stream : StreamState) (frame : Frame) :
    (conn.canSendStreamFrame frame stream = none →
      ((conn.onSendStreamFrame frame stream).2 = none ↔ Agreeing conn stream frame)) ∧
    ((conn.onSendStreamFrame frame stream).2 ≠ none → RefusedAtOnce conn stream frame →
      (conn.onSendStreamFrame frame stream).1 = (conn, stream)) := by
  refine ⟨fun can => ⟨agreeing_of_sent can, onSendStreamFrame_of_can can⟩, fun _ refused => ?_⟩
  rw [onSendStreamFrame]
  cases routed : misrouted frame stream with
  | some error => rfl
  | none =>
    obtain ⟨unclosed, cause⟩ := refused.resolve_left (not_not.2 routed)
    have unmoved : (frame.type = .pushPromise && !conn.peer.settings.enablePush) ∨
        ∃ error, conn.peer.onFrame conn.local frame = ((conn.peer, conn.local, []), some error) := by
      obtain ⟨push, disabled⟩ | large | ⟨expected, other⟩ := cause
      · exact .inl (by simp [push, disabled])
      · exact .inr ⟨_, if_pos large⟩
      · refine .inr ?_
        rw [ConnDirState.onFrame]
        split
        · exact ⟨_, rfl⟩
        split
        · exact ⟨_, rfl⟩
        rw [if_pos (by simp_all)]
        exact ⟨_, rfl⟩
    simp only [onSendFrame, unclosed]
    by_cases disabled : (frame.type = .pushPromise && !conn.peer.settings.enablePush)
    · rw [if_pos disabled]
    · obtain ⟨_, kept⟩ := unmoved.resolve_left disabled
      rw [if_neg disabled, kept]

/-- A client that awaits the answer to its request. -/
def awaiting : ConnState × StreamState :=
  (onSendStreamFrame { isServer := false }
    { id := 1, flag := 0x5, payload := .header 0 {} [0x82] } (.ofId 1)).1

theorem sending_checked_reset : let reset : Frame := { id := 1, payload := .rstStream 8 }
    (awaiting.1.onSendStreamFrame reset awaiting.2).2 = none ∧
      (awaiting.1.onSendStreamFrame { reset with id := 3 } awaiting.2).1 = awaiting :=
  ⟨((sending_checked _ _ _).1 (by decide)).2 ⟨by decide, nofun, nofun, nofun, nofun⟩,
    (sending_checked _ _ _).2 (by decide) (.inl (by decide))⟩

/-- WINDOW_UPDATE may be sent by the client and is refused, when the connection has noted it. -/
theorem sending_unchecked : let update : Frame := { id := 1, payload := .windowUpdate 1 }
    awaiting.1.canSendStreamFrame update awaiting.2 = none ∧
      (awaiting.1.onSendStreamFrame update awaiting.2).2 ≠ none ∧
      (awaiting.1.onSendStreamFrame update awaiting.2).1 ≠ awaiting := by
  decide

end Agreement

section Blocks

/-- `can_send_stream_frame` refuses the first frame of a header block. -/
def FrameHandler.refuses (endpoint : FrameHandler) (index : Nat) (request : Request) : Bool :=
  match endpoint.handler.streams[index]?, encode endpoint.peerLimit request.addHeaderTable
      endpoint.encodeTable request.entries with
  | some entry, .ok (payload, _) => (endpoint.handler.conn.canSendStreamFrame
      (endpoint.headersFrame request entry.state.com.id payload) entry.state).isSome
  | _, _ => false

/-- The list puts nothing into the table, or so much that nothing is left of it. -/
def Undone (limit : Nat) (addDynMapDefault : Bool) (table : Table) (entries : List Hpack.Entry) :
    Prop :=
  let parts := entries.foldl (displace limit addDynMapDefault) ([], table)
  parts.1 = [] ∨ parts.2 = []
deriving Decidable

/-- A refused header block leaves the table it found exactly if the list puts nothing into the table
or nothing of it would be left. -/
theorem refused_headers_undone {endpoint : FrameHandler} {index : Nat} {request : Request}
    (refused : endpoint.refuses index request = true) :
    (endpoint.sendHeaders index request).1.encodeTable = endpoint.encodeTable ↔
      Undone endpoint.peerLimit request.addHeaderTable endpoint.encodeTable request.entries := by
  rw [FrameHandler.refuses] at refused
  split at refused
  case h_1 entry payload table found encoded =>
    obtain ⟨_, refused⟩ := Option.isSome_iff_exists.1 refused
    simp only [FrameHandler.sendHeaders, found, encoded, refused]
    exact (tracks_ofEncode encoded).recover_iff
  case h_2 => cases refused

/-- A client that has sent a request with one header in its table. -/
def requested : FrameHandler :=
  ((FrameHandler.mk ⟨{ isServer := false }, []⟩ [] [] []).openStream.sendHeaders 0
    { entries := [⟨(text "x-a", text "1"), true⟩], fin := true }).1

theorem refused_headers_undone_indexed :
    (requested.sendHeaders 0 { entries := [⟨(text "x-a", text "1"), true⟩] }).1.encodeTable =
      requested.encodeTable :=
  (refused_headers_undone (by decide +kernel)).2 (by decide +kernel)

/-- The entry that was there is popped instead of the new one. -/
theorem refused_headers_kept :
    let again := requested.sendHeaders 0 { entries := [⟨(text "x-b", text "2"), true⟩] }
    again.2.1 = [] ∧ again.2.2.isSome ∧
      requested.encodeTable = [(text "x-a", text "1")] ∧
      again.1.encodeTable = [(text "x-b", text "2")] := by
  decide +kernel

/-- The part of a header block that a frame carries. -/
def fragment (frame : Frame) : Bytes :=
  match frame.payload with
  | .header _ _ data | .continuation data => data
  | _ => []

/-- HEADERS and the CONTINUATION frames behind it carry a header block. -/
structure CarryBlock (id : Int) (maxFrameSize : Nat) (block : Bytes) (frames : List Frame) :
    Prop where
  types : frames.map Frame.type =
    .header :: List.replicate (frames.length - 1) .continuation
  onStream : ∀ frame ∈ frames, frame.id = id
  fits : ∀ frame ∈ frames, frame.dataLen ≤ maxFrameSize
  ends : frames.map (hasFlag ·.flag .endHeaders) =
    List.replicate (frames.length - 1) false ++ [true]
  block : frames.flatMap fragment = block

/-- The stream and its connection allow HEADERS. -/
structure Admits (conn : ConnState) (stream : StreamState) : Prop where
  positive : 0 < stream.com.id
  permitted : Policy.sendHeaders.permits stream.com.state = true
  unbarred : ¬ Barred conn stream
  outside : conn.peer.onContinuation = false ∧ stream.peer.onContinuous = .none

/-- The encoder refuses no header list. -/
theorem encode_total (limit : Nat) (addDynMapDefault : Bool) (entries : List Hpack.Entry) :
    ∀ table, ∃ encoded, encode limit addDynMapDefault table entries = .ok encoded := by
  have integer {n mask : Nat} (free : mask &&& prefixMask n = 0) (value : Nat) :
      ∃ bytes, encodeInteger n value mask = .ok bytes := by
    rw [encodeInteger, if_neg (not_not.2 free)]
    split <;> exact ⟨_, rfl⟩
  have string (str : Bytes) : ∃ bytes, encodeString 7 str 0 0x80 = .ok bytes := by
    obtain ⟨_, huffmanEncoded⟩ := @integer 7 0x80 (by decide) _
    obtain ⟨_, plainEncoded⟩ := @integer 7 0 (by decide) _
    rw [encodeString, Nat.zero_or, huffmanEncoded, plainEncoded]
    split <;> exact ⟨_, rfl⟩
  have field (table : Table) (key value : Bytes) (adddymap : Bool) :
      ∃ encoded, encodeField table key value limit adddymap = .ok encoded := by
    have name : ∃ bytes, encodeName table key adddymap = .ok bytes := by
      obtain ⟨_, encoded⟩ := string key
      rw [encodeName, encoded]
      split
      · cases adddymap
        · exact @integer 4 Field.indexLiteralNoInsert.pattern (by decide) _
        · exact @integer 6 Field.indexLiteralInsert.pattern (by decide) _
      · exact ⟨_, rfl⟩
    obtain ⟨_, nameEncoded⟩ := name
    obtain ⟨_, encoded⟩ := string value
    have updated := updateTable_eq ((key, value) :: table) limit
    simp only [encodeField, nameEncoded, encoded, updated, bind, Except.bind]
    split
    case h_1 index _ =>
      obtain ⟨bytes, encoded⟩ := @integer 7 Field.index.pattern (by decide) _
      exact ⟨(bytes, table), by rw [encoded]⟩
    case h_2 => split <;> exact ⟨_, rfl⟩
  induction entries with
  | nil => exact fun table => ⟨_, rfl⟩
  | cons entry entries ih =>
    intro table
    obtain ⟨⟨_, after⟩, encoded⟩ := field table entry.header.1 entry.header.2
      (entry.addDynMap || addDynMapDefault)
    obtain ⟨_, restEncoded⟩ := ih after
    simp only [encode, encoded, restEncoded, bind, Except.bind]
    exact ⟨_, rfl⟩

variable {endpoint : FrameHandler} {index : Nat} {request : Request} {entry : FlowControl.Entry}

theorem rendered_of_sendStream {handler after : Handler} {frame : Frame}
    (sent : handler.sendStream index frame = (after, none)) : frame.render.isSome := by
  by_contra unrendered
  simp only [Handler.sendStream, writeFrame, if_neg unrendered] at sent
  split at sent
  · cases sent
  split at sent
  · cases sent
  split at sent <;> cases sent

/-- A header block that is sent as a whole leaves room for the head of a frame. -/
theorem room_of_sendHeaders {payload : Bytes} {table : Table} {frames : List Frame}
    (found : endpoint.handler.streams[index]? = some entry)
    (encoded : encode endpoint.peerLimit request.addHeaderTable endpoint.encodeTable
      request.entries = .ok (payload, table))
    (sent : (endpoint.sendHeaders index request).2 = (frames, none)) :
    (request.frame entry.state.com.id payload true).dataLen ≤ 0xffffff ∧
      9 + (request.frame entry.state.com.id payload true).dataLen ≤
        endpoint.handler.conn.peer.settings.maxFrameSize.toNat := by
  simp only [FrameHandler.sendHeaders, found, encoded] at sent
  split at sent
  · cases sent
  rename_i can
  obtain ⟨-, -, -, fits, -⟩ := canSendStreamFrame_cases can
  rw [(headersFrame_whole can).2] at fits sent
  split at sent
  · cases sent
  rename_i moved
  have rendered := rendered_of_sendStream moved
  have bound := endpoint.handler.conn.peer.settings.maxFrameSize.toNat_lt
  refine ⟨?_, fits⟩
  by_contra large
  rw [Frame.render] at rendered
  split at rendered
  · cases rendered
  · rw [Frame.renderWithLen, if_pos (by omega)] at rendered
    cases rendered

/-- A header block goes out on a stream that allows it exactly if it leaves room for the head of a
frame. -/
theorem headers_carried (found : endpoint.handler.streams[index]? = some entry)
    (admits : Admits endpoint.handler.conn entry.state) :
    (∃ payload table frames,
      encode endpoint.peerLimit request.addHeaderTable endpoint.encodeTable request.entries =
        .ok (payload, table) ∧
      (endpoint.sendHeaders index request).2 = (frames, none) ∧
      CarryBlock entry.state.com.id endpoint.handler.conn.peer.settings.maxFrameSize.toNat payload
        frames) ↔
      ∀ encoded ∈ (encode endpoint.peerLimit request.addHeaderTable endpoint.encodeTable
        request.entries).toOption,
        (request.frame entry.state.com.id encoded.1 true).dataLen ≤ 0xffffff ∧
          9 + (request.frame entry.state.com.id encoded.1 true).dataLen ≤
            endpoint.handler.conn.peer.settings.maxFrameSize.toNat := by
  refine ⟨fun ⟨payload, table, frames, encoded, sent, _⟩ result same => ?_, fun room => ?_⟩
  · rw [encoded] at same
    cases same
    exact room_of_sendHeaders found encoded sent
  obtain ⟨⟨payload, table⟩, encoded⟩ := encode_total _ _ _ _
  obtain ⟨small, fits⟩ := room _ (by rw [encoded]; rfl)
  have short : payload.length ≤ endpoint.handler.conn.peer.settings.maxFrameSize.toNat := by
    simp only [Request.frame, Frame.dataLen] at fits
    omega
  have whole : endpoint.headersFrame request entry.state.com.id payload =
      request.frame entry.state.com.id payload true := by
    simp only [FrameHandler.headersFrame, take_of_length_le _, short, decide_true]
  obtain ⟨ends, -⟩ := request.frame_flags _ _ _
  generalize sent : request.frame entry.state.com.id payload true = frame at *
  have type : frame.type = .header := by rw [← sent]; rfl
  have sameId : frame.id = entry.state.com.id := by rw [← sent]; rfl
  have can : endpoint.handler.conn.canSendStreamFrame frame entry.state = none := by
    have routed : misrouted frame entry.state = none := by
      have positive := admits.positive
      simp [misrouted, sameId, ID.isConn, ID.valid]
      omega
    simp [canSendStreamFrame, routed, not_lt.2 fits, admits.outside, type,
      StreamState.canSendFrame, sameId, canSend, admits.permitted]
  have agreeing : Agreeing endpoint.handler.conn entry.state frame := by
    refine ⟨?_, ?_, fun _ => admits.unbarred, ?_, ?_⟩
    · rw [← sent]
      exact zero_le
    all_goals simp [type]
  have sends := onSendStreamFrame_of_can can agreeing
  have rendered := render_isSome type (by have := admits.positive; omega) small
  generalize moved : endpoint.handler.conn.onSendStreamFrame frame entry.state = result at sends
  obtain ⟨⟨_, _⟩, error⟩ := result
  obtain rfl : error = none := sends
  refine ⟨payload, table, [frame], encoded, ?_, ?_⟩
  · simp only [FrameHandler.sendHeaders, found, encoded, whole, can, Handler.sendStream, type,
      reduceCtorEq, if_false, moved, writeFrame, rendered, if_true, drop_eq_nil_of_le short,
      continuations_nil]
  · have block : fragment frame = payload := by rw [← sent]; rfl
    have fits : frame.dataLen ≤ endpoint.handler.conn.peer.settings.maxFrameSize.toNat := by omega
    exact ⟨by simp [type], by simp [sameId], by simpa using fits, by simp [ends], by simp [block]⟩

/-- A client with a stream that it has not used. -/
def opened : FrameHandler := FrameHandler.openStream ⟨⟨{ isServer := false }, []⟩, [], [], []⟩

/-- A header that the static table holds. -/
def indexed : Hpack.Entry := ⟨(text ":method", text "GET"), false⟩

theorem headers_carried_padded :
    let request : Request := { entries := [indexed], padding := some 3 }
    ∃ payload table frames, encode 4096 false [] [indexed] = .ok (payload, table) ∧
      (opened.sendHeaders 0 request).2 = (frames, none) ∧ CarryBlock 1 16384 payload frames :=
  (@headers_carried opened 0 { entries := [indexed], padding := some 3 } _ rfl
    ⟨by decide, by decide, by decide, by decide⟩).2 (by decide +kernel)

theorem encode_indexed (count : Nat) :
    encode 4096 false [] (replicate count indexed) = .ok (replicate count 0x82, []) := by
  have field : encodeField [] indexed.header.1 indexed.header.2 4096 false = .ok ([0x82], []) := by
    decide +kernel
  induction count with
  | zero => rfl
  | succ count ih =>
    rw [replicate_succ, encode, show (indexed.addDynMap || false) = false from rfl, field]
    simp only [ih, bind, Except.bind]
    rfl

/-- A block that leaves no room for the head of a frame is refused as a whole. -/
theorem sendHeaders_indexed {count : Nat} (long : 16384 < 9 + count) (short : count ≤ 16384) :
    (opened.sendHeaders 0 { entries := replicate count indexed }).2.1 = [] := by
  have refused : opened.handler.conn.canSendStreamFrame (opened.headersFrame
      { entries := replicate count indexed } 1 (replicate count 0x82)) (.ofId 1) =
        some { code := .frameSize, debug := some "frame size exceeded max_frame_size" } := by
    refine if_pos ?_
    have limit : opened.handler.conn.peer.settings.maxFrameSize.toNat = 16384 := rfl
    simp only [FrameHandler.headersFrame, Request.frame, Frame.dataLen, length_take,
      length_replicate]
    omega
  have encoded : encode opened.peerLimit false opened.encodeTable (replicate count indexed) =
      .ok (replicate count 0x82, []) := encode_indexed _
  have found : opened.handler.streams[0]? = some ⟨.ofId 1, true⟩ := rfl
  simp only [FrameHandler.sendHeaders, found, encoded, show (StreamState.ofId 1).com.id = 1 from rfl,
    refused]

theorem headers_not_carried :
    (opened.sendHeaders 0 { entries := replicate 16376 indexed }).2.1 = [] :=
  sendHeaders_indexed (by decide) (by decide)

end Blocks

end Futils.Http2.Compression
