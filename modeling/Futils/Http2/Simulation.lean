import Futils.Http2.State
import Futils.Lib.Machine

/-!
# Two endpoints of one stream

What one endpoint may send takes the other one to the mirrored state: the two directions of a stream
are the same record at both ends, and the chains of tests agree on every frame but one.  A header
block that ends the stream and is continued is sent in `half_closed_local`, and CONTINUATION is
refused in `half_closed_remote`.
-/

namespace Futils.Http2

open ConnState FlowControlWindow FrameType AllowPolicy List ID
open Lib.Machine Policy StreamDirState Frame StreamState

structure Endpoint where
  conn : ConnState
  stream : StreamState
  deriving DecidableEq

/-- The answer to an attempt to send: it is refused, or the frame is delivered and the receiver
reports an error or none. -/
inductive Answer where
  | refused (error : Error)
  | delivered (error : Option Error)
  deriving DecidableEq

/-- One endpoint sends a frame that it accepts; what arrives is what the flags of the frame
announce. -/
def exchange (sender receiver : Endpoint) (frame : Frame) : (Endpoint × Endpoint) × Answer :=
  match sender.conn.canSendStreamFrame frame sender.stream with
  | some error => ((sender, receiver), .refused error)
  | none =>
    match sender.conn.onSendStreamFrame frame sender.stream with
    | ((conn, stream), some error) => ((⟨conn, stream⟩, receiver), .refused error)
    | ((conn, stream), none) =>
      let ((rconn, rstream), error) :=
        receiver.conn.onRecvStreamFrame frame.announced receiver.stream
      ((⟨conn, stream⟩, ⟨rconn, rstream⟩), .delivered error)

/-- The types of frames on a stream that are sent. -/
def FrameType.OnStream (type : FrameType) : Prop :=
  type ∈ [.header, .continuation, .data, .rstStream, .windowUpdate]
deriving Decidable

theorem FrameType.OnStream.ne_pushPromise {type : FrameType} (listed : type.OnStream) :
    type ≠ .pushPromise := by
  rintro rfl
  exact absurd listed (by decide)

/-- The states of the two endpoints fit. -/
inductive Mirrored : State → State → Prop
  | idle : Mirrored .idle .idle
  | opened : Mirrored .opened .opened
  | halfClosedLocal : Mirrored .halfClosedLocal .halfClosedRemote
  | halfClosedRemote : Mirrored .halfClosedRemote .halfClosedLocal
  | closed : Mirrored .closed .closed

variable {right left : State}

theorem Mirrored.symm (mirrored : Mirrored left right) : Mirrored right left := by
  cases mirrored <;> constructor

theorem Mirrored.idle_iff (mirrored : Mirrored left right) : right = .idle ↔ left = .idle := by
  cases mirrored <;> simp

theorem Mirrored.closed_iff (mirrored : Mirrored left right) :
    right = .closed ↔ left = .closed := by
  cases mirrored <;> simp

section Announced

variable (frame : Frame)

@[simp] theorem Frame.announced_id : frame.announced.id = frame.id := rfl

@[simp] theorem Frame.announced_flag : frame.announced.flag = frame.flag := rfl

@[simp] theorem Frame.announced_len : frame.announced.len = frame.dataLen := rfl

@[simp] theorem Frame.announced_type : frame.announced.type = frame.type := by
  obtain ⟨-, -, -, payload⟩ := frame
  cases payload <;> rfl

@[simp] theorem Frame.announced_code : frame.announced.code = frame.code := by
  obtain ⟨-, -, -, payload⟩ := frame
  cases payload <;> rfl

@[simp] theorem Frame.announced_dataLen : frame.announced.dataLen = frame.dataLen := by
  obtain ⟨-, -, -, payload⟩ := frame
  cases payload <;> simp only [announced, dataLen, paddingLen]
  all_goals split <;> rfl

@[simp] theorem StreamCommonState.onRecv_announced (com : StreamCommonState) :
    com.onRecv frame.announced = com.onRecv frame := by
  simp only [onRecv, announced_id, announced_flag, announced_type,
    announced_code]

@[simp] theorem StreamDirState.onFrame_announced (dir opposite : StreamDirState) :
    dir.onFrame opposite frame.announced = dir.onFrame opposite frame := by
  have dataLen_eq := frame.announced_dataLen
  obtain ⟨_, _, _, payload⟩ := frame
  cases payload with
  | data padding data =>
    simp only [onFrame, dataLen_eq]
    rfl
  | _ => rfl

end Announced

theorem Error.stream_of_toOption {error reported : Error} (stream : error.stream)
    (same : error.toOption = some reported) : reported.stream := by
  rw [toOption] at same
  split at same
  · cases same
  cases same
  exact stream

section Common

variable {frame : Frame} {sender receiver : StreamCommonState}

section Sending

variable (mirrored : Mirrored sender.state receiver.state) (senderId : sender.id = frame.id)
  (byClient : ID.byServer frame.id = false) (listed : frame.type.OnStream)
  (allowed : frame.type ≠ .continuation → sender.canSend frame = none)
include mirrored senderId byClient listed allowed

/-- What is sent takes the receiver to the mirrored state, and only RST_STREAM is reported. -/
theorem StreamCommonState.mirrored_exchange (receiverId : receiver.id = frame.id)
    (whole : ¬ (frame.type = .continuation ∧ sender.state = .halfClosedLocal))
    (sent : (sender.onSend frame).2 = none) :
    Mirrored (sender.onSend frame).1.state (receiver.onRecv frame).1.state ∧
      (sender.onSend frame).1.state ≠ .idle ∧ sender.state ≠ .closed ∧
      (∀ error, (receiver.onRecv frame).2 = some error →
        error.stream ∧ frame.type = .rstStream) := by
  obtain ⟨sid, _, _, _⟩ := sender
  obtain ⟨rid, _, _, _⟩ := receiver
  obtain rfl : sid = frame.id := senderId
  obtain rfl : rid = frame.id := receiverId
  simp only [OnStream, mem_cons] at listed
  by_cases reset : frame.type = .rstStream
  · -- RST_STREAM closes both ends, from every state in which it can be sent.
    have reported (error : Error)
        (same : Error.toOption { code := .ofCode frame.code, stream := true } = some error) :=
          Error.stream_of_toOption rfl same
    cases mirrored <;>
      simp [onSend, onRecv, canSend, permits, sendRstStream, reset] at allowed sent ⊢ <;>
      exact ⟨.closed, reported⟩
  · -- The other frames: both chains of tests, in each pair of states.
    generalize ends : hasFlag frame.flag .endStream = final at *
    obtain type | type | type | type | type := listed <;> cases mirrored <;> cases final <;>
      simp_all [onSend, onRecv, canSend, permits, sendIdle, sendClosed,
        hasEndStreamFlag, sendHalfClosedLocal, recvIdle,
        sendHeaders, sendData] <;>
      constructor

/-- What is refused after `can_send` leaves the state: WINDOW_UPDATE, and CONTINUATION when idle or
closed. -/
theorem StreamCommonState.onSend_refused {error : Error}
    (refused : (sender.onSend frame).2 = some error) :
    (sender.onSend frame).1 = sender ∧ (frame.type = .windowUpdate ∨
      frame.type = .continuation ∧ (sender.state = .idle ∨ sender.state = .closed)) := by
  obtain ⟨_, _, _, _⟩ := sender
  obtain ⟨_, _, _, _⟩ := receiver
  simp only [OnStream, mem_cons] at listed
  generalize ends : hasFlag frame.flag .endStream = final at *
  obtain type | type | type | type | type := listed <;> cases mirrored <;> cases final <;>
    simp_all [onSend, canSend, permits, sendIdle, sendClosed,
      hasEndStreamFlag, sendHalfClosedLocal, sendHeaders, sendData,
      sendRstStream]

end Sending

@[simp] theorem StreamCommonState.onSend_id (com : StreamCommonState) (frame : Frame) :
    (com.onSend frame).1.id = com.id := by
  simp only [onSend, apply_ite Prod.fst, apply_ite StreamCommonState.id, ite_self]

@[simp] theorem StreamCommonState.onRecv_id (com : StreamCommonState) (frame : Frame) :
    (com.onRecv frame).1.id = com.id := by
  simp only [onRecv, apply_ite Prod.fst, apply_ite StreamCommonState.id, ite_self]

theorem StreamCommonState.onSend_windowUpdate (com : StreamCommonState)
    (update : frame.type = .windowUpdate) : (com.onSend frame).1 = com := by
  simp only [onSend, update, apply_ite Prod.fst, hasEndStreamFlag, permits]
  simp

end Common

section Directions

variable {frame : Frame}

/-- What a direction refuses leaves both directions as they are. -/
theorem StreamDirState.onFrame_refused {dir opposite : StreamDirState} {error : Error}
    (refused : (dir.onFrame opposite frame).2 = some error) :
    (dir.onFrame opposite frame).1 = (dir, opposite) := by
  generalize result : dir.onFrame opposite frame = after at refused ⊢
  rw [onFrame] at result
  repeat' split at result
  all_goals
    subst result
    first | rfl | cases refused

/-- CONTINUATION in a header block, and outside of one what the state permits, DATA within the
window. -/
theorem StreamState.canSendFrame_cases {stream : StreamState}
    (can : stream.canSendFrame frame = none) :
    stream.peer.onContinuous ≠ .none ∧ frame.type = .continuation ∨
    stream.peer.onContinuous = .none ∧ frame.type ≠ .continuation ∧
      stream.com.canSend frame = none ∧
      (frame.type = .data → frame.dataLen ≤ stream.peer.window.availSize) := by
  rw [canSendFrame] at can
  split at can
  · cases can
  rename_i routed
  split at can
  case isTrue continuing =>
    split at can
    · cases can
    rename_i next
    exact .inl ⟨continuing, not_not.1 next⟩
  case isFalse settled =>
    split at can
    · cases can
    rename_i permitted
    refine .inr ⟨not_not.1 settled, ?_, permitted, fun data => ?_⟩
    · intro next
      rw [StreamCommonState.canSend, if_neg routed, next] at permitted
      cases permitted
    · split at can
      · cases can
      rename_i within
      rw [data, canData] at within
      simpa using within

/-- The direction takes what `can_send_frame` accepts, but for a WINDOW_UPDATE past the limit. -/
theorem StreamState.onFrame_accepted {stream : StreamState}
    (can : stream.canSendFrame frame = none)
    (nonneg : frame.type = .data → 0 ≤ stream.peer.window.window)
    (room : frame.type = .windowUpdate → stream.local.window.exceeded frame.credit = false) :
    (stream.peer.onFrame stream.local frame).2 = none := by
  rw [onFrame]
  obtain ⟨continuing, next⟩ | ⟨settled, -, permitted, within⟩ := canSendFrame_cases can
  · rw [if_pos continuing, if_neg (not_not.2 next)]
    split <;> rfl
  · rw [if_neg (not_not.2 settled)]
    rw [StreamCommonState.canSend] at permitted
    cases type : frame.type with
    | header | pushPromise => cases hasFlag frame.flag .endHeaders <;> rfl
    | data =>
      have covered : ¬ stream.peer.window.window < frame.dataLen := by
        have := within type
        have := nonneg type
        rw [availSize] at *
        omega
      simp only [consume, if_neg covered]
    | windowUpdate => simp only [update, room type, Bool.false_eq_true, if_false]
    | rstStream | priority => rfl
    | _ =>
      rw [type] at permitted
      split at permitted <;> cases permitted

namespace ConnDirState

def charged (dir : ConnDirState) (frame : Frame) : Option FlowControlWindow :=
  if frame.type = .data then dir.window.consume frame.dataLen else some dir.window

def noted (dir : ConnDirState) (frame : Frame) (window : FlowControlWindow) : ConnDirState :=
  { dir.processed frame with
    window := window
    onContinuation := (dir.processed frame).onContinuation ||
      (frame.type = .header && !hasFlag frame.flag .endHeaders) }

/-- A frame on a stream that a direction accepts, with the window after it. -/
structure Passes (dir : ConnDirState) (frame : Frame) (window : FlowControlWindow) : Prop where
  small : frame.len ≤ dir.settings.maxFrameSize.toNat
  next : dir.onContinuation = true →
    frame.type = .continuation ∧ frame.id = dir.preprocedStreamId
  charged : dir.charged frame = some window

variable {dir opposite : ConnDirState} {window : FlowControlWindow}

theorem Passes.onFrame (passes : dir.Passes frame window) (listed : frame.type.OnStream)
    (onStream : frame.id ≠ 0) :
    dir.onFrame opposite frame = ((dir.noted frame window, opposite, []), none) := by
  obtain ⟨small, next, charged⟩ := passes
  rw [ConnDirState.onFrame, if_neg (not_lt.2 small)]
  simp only [FrameType.OnStream, mem_cons, not_mem_nil, or_false] at listed
  rw [if_neg (by simpa using fun continuing => (next continuing).1),
    if_neg (by simpa using fun continuing => (next continuing).2)]
  have kept := @processed_window dir frame
  rw [ConnDirState.charged] at charged
  obtain type | type | type | type | type := listed <;> rw [type] at charged ⊢ <;>
    simp only [if_true, reduceCtorEq, if_false, Option.some.injEq] at charged
  · subst charged
    cases ends : hasFlag frame.flag .endHeaders <;> simp [noted, type, ends, ← kept]
  · subst charged
    simp [noted, type, ← kept]
  · simp [noted, type, kept, charged]
  · subst charged
    simp [noted, type, ← kept]
  · subst charged
    simp [noted, type, ← kept, onStream]

theorem Passes.window_of_ne (passes : dir.Passes frame window) (other : frame.type ≠ .data) :
    window = dir.window := by
  have charge := passes.charged
  rw [ConnDirState.charged, if_neg other] at charge
  exact (Option.some.inj charge).symm

/-- Outside of header blocks only HEADERS begins one. -/
theorem Passes.continuing_of_ne (passes : dir.Passes frame window)
    (notNext : frame.type ≠ .continuation) (notHeader : frame.type ≠ .header) :
    (dir.noted frame window).onContinuation = dir.onContinuation := by
  have outside := Bool.eq_false_iff.2 fun continuing => notNext (passes.next continuing).1
  simp [noted, processed_onContinuation, outside, notHeader]

/-- A frame on a stream passes, or nothing but the note of it remains. -/
theorem onFrame_cases :
    (∃ window, dir.Passes frame window) ∨
    ∃ error, dir.onFrame opposite frame = ((dir, opposite, []), some error) ∨
      frame.type = .data ∧ dir.onContinuation = false ∧
        dir.onFrame opposite frame = ((dir.processed frame, opposite, []), some error) := by
  by_cases small : frame.len ≤ dir.settings.maxFrameSize.toNat
  · by_cases next : dir.onContinuation →
        frame.type = .continuation ∧ frame.id = dir.preprocedStreamId
    · match charge : dir.charged frame with
      | some window => exact .inl ⟨window, small, next, charge⟩
      | none =>
        have data : frame.type = .data := by
          by_contra other
          rw [charged, if_neg other] at charge
          cases charge
        have outside : dir.onContinuation = false := by
          refine Bool.eq_false_iff.2 fun continuing => ?_
          rw [(next continuing).1] at data
          cases data
        rw [charged, if_pos data] at charge
        exact .inr ⟨_, .inr ⟨data, outside, by
          rw [onFrame, if_neg (not_lt.2 small), outside]
          simp only [data, processed_window, charge]
          rfl⟩⟩
    · obtain ⟨continuing, stray⟩ := Classical.not_imp.1 next
      rw [onFrame, if_neg (not_lt.2 small), continuing]
      by_cases type : frame.type = .continuation
      · exact .inr ⟨_, .inl (by
          rw [if_neg (by simp [type]), if_pos (by simpa using fun same => stray ⟨type, same⟩)])⟩
      · exact .inr ⟨_, .inl (by rw [if_pos (by simpa using type)])⟩
  · exact .inr ⟨_, .inl (by rw [onFrame, if_pos (not_le.1 small)])⟩

end ConnDirState

end Directions

section Streams

variable {frame : Frame} {sender receiver : StreamState}

theorem StreamDirState.onFrame_nonneg {dir opposite : StreamDirState}
    (dirNonneg : 0 ≤ dir.window.window) (oppositeNonneg : 0 ≤ opposite.window.window) :
    0 ≤ (dir.onFrame opposite frame).1.1.window.window ∧
      0 ≤ (dir.onFrame opposite frame).1.2.window.window := by
  have consumed {window : FlowControlWindow}
      (consume : dir.window.consume frame.dataLen = some window) : 0 ≤ window.window := by
    rw [FlowControlWindow.consume] at consume
    split at consume
    · cases consume
    rename_i enough
    cases consume
    exact Int.sub_nonneg.2 (Int.not_lt.1 enough)
  have updated {window : FlowControlWindow}
      (update : opposite.window.update frame.credit = some window) : 0 ≤ window.window := by
    rw [FlowControlWindow.update] at update
    split at update
    · cases update
    cases update
    exact Int.add_nonneg oppositeNonneg (Int.natCast_nonneg _)
  generalize result : dir.onFrame opposite frame = after
  rw [onFrame] at result
  repeat' split at result
  all_goals
    subst result
    first
    | exact ⟨dirNonneg, oppositeNonneg⟩
    | exact ⟨consumed ‹_›, oppositeNonneg⟩
    | exact ⟨dirNonneg, updated ‹_›⟩

variable {after : StreamState} (mirrored : Mirrored sender.com.state receiver.com.state)
  (senderId : sender.com.id = frame.id) (byClient : ID.byServer frame.id = false)
  (listed : frame.type.OnStream) (can : sender.canSendFrame frame = none)
include mirrored senderId byClient listed can

/-- What an endpoint accepts to send takes the other one to the mirrored state. -/
theorem StreamState.mirrored_exchange (receiverId : receiver.com.id = frame.id)
    (forth : sender.peer = receiver.local) (back : receiver.peer = sender.local)
    (whole : ¬ (frame.type = .continuation ∧ sender.com.state = .halfClosedLocal))
    (sent : sender.onSendFrame frame = (after, none)) :
    Mirrored after.com.state (receiver.onRecvFrame frame.announced).1.com.state ∧
      after.com.state ≠ .idle ∧ sender.com.state ≠ .closed ∧
      after.peer = (receiver.onRecvFrame frame.announced).1.local ∧
      (receiver.onRecvFrame frame.announced).1.peer = after.local ∧
      (receiver.onRecvFrame frame.announced).1.com.id = receiver.com.id ∧
      ∀ error, (receiver.onRecvFrame frame.announced).2 = some error → error.stream := by
  obtain ⟨accepted, dirAccepted, rfl⟩ := onSendFrame_ok sent
  have allowed : frame.type ≠ .continuation → sender.com.canSend frame = none := fun other => by
    obtain ⟨-, next⟩ | ⟨-, -, permitted, -⟩ := canSendFrame_cases can
    · exact absurd next other
    · exact permitted
  obtain ⟨after, left, open_, reported⟩ := StreamCommonState.mirrored_exchange mirrored senderId
    byClient listed allowed receiverId whole accepted
  have recvId := receiver.com.onRecv_id frame
  rw [onRecvFrame, StreamCommonState.onRecv_announced, onFrame_announced, ← forth,
    back]
  generalize receiver.com.onRecv frame = moved at after reported recvId ⊢
  obtain ⟨_, - | error⟩ := moved
  · refine ⟨after, left, open_, rfl, rfl, recvId, fun error failed => ?_⟩
    rw [show (sender.peer.onFrame sender.local frame).2 = some error from failed] at dirAccepted
    cases dirAccepted
  · -- The receiver reports RST_STREAM before it comes to the directions, which it does not touch.
    obtain ⟨stream, reset⟩ := reported _ rfl
    have same : (sender.peer.onFrame sender.local frame).1 = (sender.peer, sender.local) := by
      rw [onFrame] at dirAccepted ⊢
      by_cases settled : sender.peer.onContinuous = .none
      · rw [if_neg (not_not.2 settled), reset]
      · rw [if_pos settled, if_pos (by rw [reset]; decide)]
    refine ⟨after, left, open_, ?_, ?_, recvId, fun reportedError failed => ?_⟩
    · rw [same]
    · rw [same]
    · cases failed
      exact stream

/-- What an endpoint refuses to send although it can be sent leaves the stream as it is. -/
theorem StreamState.onSendFrame_refused {error : Error} (nonneg : 0 ≤ sender.peer.window.window)
    (idle : sender.com.state = .idle → sender.peer.onContinuous = .none)
    (refused : sender.onSendFrame frame = (after, some error)) :
    after = sender ∧ (frame.type = .windowUpdate ∨
      frame.type = .continuation ∧ sender.com.state = .closed) := by
  have cases := canSendFrame_cases can
  have allowed : frame.type ≠ .continuation → sender.com.canSend frame = none := fun other => by
    obtain ⟨-, next⟩ | ⟨-, -, permitted, -⟩ := cases
    · exact absurd next other
    · exact permitted
  rw [onSendFrame] at refused
  rcases moved : sender.com.onSend frame with ⟨com, _ | _⟩
  case some =>
    rw [moved] at refused
    cases refused
    obtain ⟨same, kind⟩ := StreamCommonState.onSend_refused mirrored senderId byClient listed
      allowed (by rw [moved])
    rw [moved] at same
    obtain rfl : com = sender.com := same
    refine ⟨rfl, ?_⟩
    obtain update | ⟨next, fresh | closed⟩ := kind
    · exact .inl update
    · obtain ⟨continuing, -⟩ | ⟨-, other, -⟩ := cases
      · exact absurd (idle fresh) continuing
      · exact absurd next other
    · exact .inr ⟨next, closed⟩
  case none =>
    rw [moved] at refused
    have dirRefused := @onFrame_refused frame sender.peer sender.local
    have dirAccepted := onFrame_accepted can fun _ => nonneg
    generalize sender.peer.onFrame sender.local frame = dirs at refused dirRefused dirAccepted
    obtain ⟨⟨_, _⟩, _⟩ := dirs
    obtain ⟨rfl, rfl⟩ := Prod.mk.inj refused
    obtain ⟨rfl, rfl⟩ := Prod.mk.inj (dirRefused rfl)
    have update : frame.type = .windowUpdate := by
      by_contra other
      cases dirAccepted fun update => absurd update other
    have kept := StreamCommonState.onSend_windowUpdate sender.com update
    rw [moved] at kept
    exact ⟨congrArg (fun com => { sender with com := com }) kept, .inl update⟩

end Streams

section Exchange

variable {frame : Frame} {id : Int} {sender receiver : Endpoint}

/-- Both endpoints keep the same of the direction in which one sends; a closed sender may have noted
a CONTINUATION it refused. -/
structure Facing (id : Int) (sender receiver : Endpoint) : Prop where
  window : sender.conn.peer.window = receiver.conn.local.window
  frameSize : sender.conn.peer.settings.maxFrameSize = receiver.conn.local.settings.maxFrameSize
  dir : sender.stream.peer = receiver.stream.local
  nonneg : 0 ≤ sender.stream.peer.window.window
  idle : sender.stream.com.state = .idle → sender.stream.peer.onContinuous = .none
  continuing : sender.stream.com.state ≠ .closed →
    sender.conn.peer.onContinuation = receiver.conn.local.onContinuation
  header : receiver.conn.local.onContinuation = true →
    receiver.conn.local.preprocedStreamId = id

/-- The two endpoints of the stream `id`. -/
structure Paired (id : Int) (left right : Endpoint) : Prop where
  leftId : left.stream.com.id = id
  rightId : right.stream.com.id = id
  leftYoung : left.conn.maxClientId ≤ id
  rightYoung : right.conn.maxClientId ≤ id
  mirrored : Mirrored left.stream.com.state right.stream.com.state
  forth : Facing id left right
  back : Facing id right left

theorem Paired.symm (paired : Paired id sender receiver) : Paired id receiver sender where
  leftId := paired.rightId
  rightId := paired.leftId
  leftYoung := paired.rightYoung
  rightYoung := paired.leftYoung
  mirrored := paired.mirrored.symm
  forth := paired.back
  back := paired.forth

/-- The endpoint after the directions of the connection have taken a frame. -/
def ConnState.withDirs (conn : ConnState) (peer «local» : ConnDirState) : ConnState :=
  { conn with peer := peer, «local» := «local» }

namespace ConnState

theorem onGoaway_listed {close : CloseState} (listed : frame.type.OnStream) :
    close.onGoaway frame = close := by
  obtain ⟨_, _, _, payload⟩ := frame
  cases payload with
  | goaway => exact absurd (show goaway.OnStream from listed) (by decide)
  | _ => rfl

theorem onSendFrame_listed (conn : ConnState) (listed : frame.type.OnStream) :
    conn.onSendFrame frame =
      ((conn.withDirs (conn.peer.onFrame conn.local frame).1.1
          (conn.peer.onFrame conn.local frame).1.2.1,
        (conn.peer.onFrame conn.local frame).1.2.2), (conn.peer.onFrame conn.local frame).2) := by
  have push : ¬ (frame.type = .pushPromise && !conn.peer.settings.enablePush) := by
    simp [listed.ne_pushPromise]
  rw [onSendFrame, if_neg push]
  obtain ⟨⟨-, -, -⟩, - | -⟩ := conn.peer.onFrame _ _
  · rw [onGoaway_listed listed]
    rfl
  · rfl

theorem onRecvFrame_listed (conn : ConnState) (listed : frame.type.OnStream) :
    conn.onRecvFrame frame =
      ((conn.withDirs (conn.local.onFrame conn.peer frame).1.2.1
          (conn.local.onFrame conn.peer frame).1.1,
        (conn.local.onFrame conn.peer frame).1.2.2), (conn.local.onFrame conn.peer frame).2) := by
  have push : ¬ (frame.type = .pushPromise && !conn.local.settings.enablePush) := by
    simp [listed.ne_pushPromise]
  rw [onRecvFrame, if_neg push]
  obtain ⟨⟨-, -, -⟩, - | -⟩ := conn.local.onFrame _ _
  · rw [onGoaway_listed listed]
    rfl
  · rfl

variable {stream : StreamState} {conn : ConnState}

/-- The highest stream of a client is not above the stream it is noted for. -/
theorem onStreamFrameProcessed_maxClientId_le (young : conn.maxClientId ≤ id)
    (streamId : stream.com.id = id) : (conn.onStreamFrameProcessed stream).maxClientId ≤ id := by
  simp only [onStreamFrameProcessed, streamId]
  repeat' split
  all_goals first | exact young | exact Int.le_refl _

/-- A frame for one endpoint is one for the other endpoint of the stream. -/
theorem misrouted_announced {left right : StreamState} (same : left.com.id = right.com.id) :
    misrouted frame.announced right = misrouted frame left := by
  rw [misrouted, misrouted, announced_id, same]

/-- No higher stream has been created. -/
theorem maybeClosedByHigherCreation_young (byClient : byClient stream.com.id)
    (young : conn.maxClientId ≤ stream.com.id) :
    conn.maybeClosedByHigherCreation stream = stream := by
  rw [maybeClosedByHigherCreation, maybeCloseByHigherCreation]
  simp only [byClient]
  exact if_neg (Int.not_lt.2 young)

theorem canSendStreamFrame_cases (can : conn.canSendStreamFrame frame stream = none) :
    misrouted frame stream = none ∧ frame.id = stream.com.id ∧ frame.id ≠ 0 ∧
      9 + frame.dataLen ≤ conn.peer.settings.maxFrameSize.toNat ∧
      stream.canSendFrame frame = none := by
  rw [canSendStreamFrame] at can
  split at can
  · cases can
  rename_i routed
  refine ⟨routed, ?_⟩
  rw [misrouted] at routed
  split at routed
  · cases routed
  rename_i same
  split at routed
  · cases routed
  rename_i onStream
  refine ⟨not_not.1 same, fun zero => onStream (by simp [isConn, zero]), ?_⟩
  split at can
  · cases can
  rename_i small
  repeat' split at can
  all_goals first | cases can | exact ⟨not_lt.1 small, can⟩

end ConnState

/-- What a refused frame leaves behind does not concern the receiver. -/
theorem Paired.refused {dir : ConnDirState} (paired : Paired id sender receiver)
    (window : dir.window = sender.conn.peer.window)
    (settings : dir.settings = sender.conn.peer.settings)
    (continuing : sender.stream.com.state ≠ .closed →
      dir.onContinuation = sender.conn.peer.onContinuation) :
    Paired id ⟨sender.conn.withDirs dir sender.conn.local, sender.stream⟩ receiver where
  leftId := paired.leftId
  rightId := paired.rightId
  leftYoung := paired.leftYoung
  rightYoung := paired.rightYoung
  mirrored := paired.mirrored
  forth :=
    { window := window.trans paired.forth.window
      frameSize := (congrArg _ settings).trans paired.forth.frameSize
      dir := paired.forth.dir
      nonneg := paired.forth.nonneg
      idle := paired.forth.idle
      continuing := fun unclosed => (continuing unclosed).trans (paired.forth.continuing unclosed)
      header := paired.forth.header }
  back :=
    { window := paired.back.window
      frameSize := paired.back.frameSize
      dir := paired.back.dir
      nonneg := paired.back.nonneg
      idle := paired.back.idle
      continuing := paired.back.continuing
      header := paired.back.header }

variable {window : FlowControlWindow}

/-- The receiver's direction accepts what the sender's direction has accepted. -/
theorem Paired.passes (paired : Paired id sender receiver) (frameId : frame.id = id)
    (small : 9 + frame.dataLen ≤ sender.conn.peer.settings.maxFrameSize.toNat)
    (unclosed : sender.stream.com.state ≠ .closed) (passes : sender.conn.peer.Passes frame window) :
    receiver.conn.local.Passes frame.announced window where
  small := by
    rw [announced_len, ← paired.forth.frameSize]
    omega
  next := fun continuing => by
    rw [← paired.forth.continuing unclosed] at continuing
    refine ⟨(announced_type _).trans (passes.next continuing).1, ?_⟩
    rw [announced_id, frameId]
    rw [paired.forth.continuing unclosed] at continuing
    exact (paired.forth.header continuing).symm
  charged := by
    rw [ConnDirState.charged, announced_type, announced_dataLen, ← paired.forth.window]
    exact passes.charged

theorem Facing.sent {left right : Endpoint} (facing : Facing id sender receiver)
    (frameId : frame.id = id) (onStream : frame.id ≠ 0)
    (unclosed : sender.stream.com.state ≠ .closed) (used : left.stream.com.state ≠ .idle)
    (dir : left.stream.peer = right.stream.local) (nonneg : 0 ≤ left.stream.peer.window.window)
    (leftPeer : left.conn.peer = sender.conn.peer.noted frame window)
    (rightLocal : right.conn.local = receiver.conn.local.noted frame.announced window) :
    Facing id left right where
  window := by
    rw [leftPeer, rightLocal]
    rfl
  frameSize := by
    rw [leftPeer, rightLocal]
    simp only [ConnDirState.noted, ConnDirState.processed_settings]
    exact facing.frameSize
  dir := dir
  nonneg := nonneg
  idle := fun fresh => absurd fresh used
  continuing := fun _ => by
    rw [leftPeer, rightLocal]
    simp only [ConnDirState.noted, ConnDirState.processed_onContinuation, announced_flag,
      announced_type, facing.continuing unclosed]
  header := fun _ => by
    rw [rightLocal]
    exact (@ConnDirState.processed_preprocedStreamId _ frame.announced onStream).trans frameId

theorem Facing.heard {left right : Endpoint} (facing : Facing id receiver sender)
    (unclosed : receiver.stream.com.state ≠ .closed) (used : right.stream.com.state ≠ .idle)
    (dir : right.stream.peer = left.stream.local) (nonneg : 0 ≤ right.stream.peer.window.window)
    (rightPeer : right.conn.peer = receiver.conn.peer)
    (leftLocal : left.conn.local = sender.conn.local) : Facing id right left where
  window := by
    rw [rightPeer, leftLocal]
    exact facing.window
  frameSize := by
    rw [rightPeer, leftLocal]
    exact facing.frameSize
  dir := dir
  nonneg := nonneg
  idle := fun fresh => absurd fresh used
  continuing := fun _ => by
    rw [rightPeer, leftLocal]
    exact facing.continuing unclosed
  header := by
    rw [leftLocal]
    exact facing.header

/-- No connection error is reported. -/
def Answer.Harmless : Answer → Prop
  | .refused _ => True
  | .delivered none => True
  | .delivered (some error) => error.stream = true

instance (answer : Answer) : Decidable answer.Harmless := by
  obtain _ | _ | _ := answer <;> dsimp only [Answer.Harmless] <;> infer_instance

/-- A frame that is sent is not CONTINUATION in `half_closed_local`. -/
def Continuable (sender : Endpoint) (frame : Frame) : Prop :=
  sender.conn.canSendStreamFrame frame sender.stream = none →
    frame.len ≤ sender.conn.peer.settings.maxFrameSize.toNat →
      ¬ (frame.type = .continuation ∧ sender.stream.com.state = .halfClosedLocal)
deriving Decidable

/-- A frame that is delivered: both directions take it, and the streams move to mirrored states. -/
theorem Paired.delivered {after : StreamState} (paired : Paired id sender receiver)
    (byClient : byClient id) (listed : frame.type.OnStream)
    (frameId : frame.id = sender.stream.com.id)
    (misrouted : misrouted frame sender.stream = none) (onStream : frame.id ≠ 0)
    (notServer : byServer frame.id = false)
    (small : 9 + frame.dataLen ≤ sender.conn.peer.settings.maxFrameSize.toNat)
    (passes : sender.conn.peer.Passes frame window)
    (can : sender.stream.canSendFrame frame = none)
    (whole : ¬ (frame.type = .continuation ∧ sender.stream.com.state = .halfClosedLocal))
    (sent : sender.stream.onSendFrame frame = (after, none)) :
    let conn := (sender.conn.withDirs (sender.conn.peer.noted frame window)
      sender.conn.local).onStreamFrameProcessed after
    let arrived := receiver.conn.onRecvStreamFrame frame.announced receiver.stream
    Paired id ⟨conn, after⟩ ⟨arrived.1.1, arrived.1.2⟩ ∧ (Answer.delivered arrived.2).Harmless := by
  intro conn arrived
  obtain ⟨mirrored, used, unclosed, dir, back, rightId, reported⟩ :=
    mirrored_exchange paired.mirrored frameId.symm notServer listed can
      (paired.rightId.trans (frameId.trans paired.leftId).symm) paired.forth.dir paired.back.dir
      whole sent
  have received := paired.passes (frameId.trans paired.leftId) small unclosed passes
  have routed :=
    (misrouted_announced (paired.leftId.trans paired.rightId.symm)).trans misrouted
  have stays :=
    maybeClosedByHigherCreation_young (by rw [paired.rightId]; exact byClient)
      (by rw [paired.rightId]; exact paired.rightYoung)
  have afterId : after.com.id = id := by
    obtain ⟨-, -, rfl⟩ := onSendFrame_ok sent
    exact (StreamCommonState.onSend_id ..).trans paired.leftId
  have nonneg : 0 ≤ after.peer.window.window ∧ 0 ≤ after.local.window.window := by
    obtain ⟨-, -, rfl⟩ := onSendFrame_ok sent
    exact onFrame_nonneg paired.forth.nonneg
      (by rw [← paired.back.dir]; exact paired.back.nonneg)
  simp only [arrived, onRecvStreamFrame, routed, stays,
    onRecvFrame_listed _ ((announced_type _).symm ▸ listed),
    received.onFrame ((announced_type _).symm ▸ listed) onStream]
  generalize receiver.stream.onRecvFrame frame.announced = result at mirrored dir back rightId reported
  obtain ⟨right, error⟩ := result
  have again (rightConn : ConnState) (rightPeer : rightConn.peer = receiver.conn.peer)
      (rightLocal : rightConn.local = receiver.conn.local.noted frame.announced window)
      (rightYoung : rightConn.maxClientId ≤ id) : Paired id ⟨conn, after⟩ ⟨rightConn, right⟩ :=
    { leftId := afterId
      rightId := rightId.trans paired.rightId
      leftYoung := onStreamFrameProcessed_maxClientId_le paired.leftYoung afterId
      rightYoung := rightYoung
      mirrored := mirrored
      forth := paired.forth.sent (frameId.trans paired.leftId) onStream unclosed used dir nonneg.1
        (by simp [conn, withDirs]) rightLocal
      back := paired.back.heard (mt paired.mirrored.closed_iff.1 unclosed)
        (mt mirrored.idle_iff.1 used) back (by rw [back]; exact nonneg.2) rightPeer
        (by simp [conn, withDirs]) }
  cases error with
  | some error => exact ⟨again _ rfl rfl paired.rightYoung, reported error rfl⟩
  | none =>
    exact ⟨again _ (by simp [withDirs]) (by simp [withDirs])
      (onStreamFrameProcessed_maxClientId_le paired.rightYoung
        (rightId.trans paired.rightId)), trivial⟩

/-- One frame, sent or refused: the endpoints stay paired and no connection error is reported. -/
theorem Paired.exchange (paired : Paired id sender receiver) (byClient : ID.byClient id)
    (listed : frame.type.OnStream) (continuable : Continuable sender frame) :
    Paired id (exchange sender receiver frame).1.1 (exchange sender receiver frame).1.2 ∧
      (exchange sender receiver frame).2.Harmless := by
  rw [Http2.exchange]
  match can : sender.conn.canSendStreamFrame frame sender.stream with
  | some error => exact ⟨paired, trivial⟩
  | none =>
    obtain ⟨routed, frameId, onStream, small, streamCan⟩ :=
      ConnState.canSendStreamFrame_cases can
    have notServer : ID.byServer frame.id = false := by
      rw [frameId, paired.leftId]
      simp only [ID.byClient, ID.byServer, Bool.and_eq_true, decide_eq_true_eq] at byClient ⊢
      simp [byClient.2]
    have stays :=
      ConnState.maybeClosedByHigherCreation_young (by rw [paired.leftId]; exact byClient)
        (by rw [paired.leftId]; exact paired.leftYoung)
    simp only [ConnState.onSendStreamFrame, routed, stays,
      ConnState.onSendFrame_listed _ listed]
    obtain ⟨_, passes⟩ | ⟨_, same | ⟨-, outside, processed⟩⟩ :=
      @ConnDirState.onFrame_cases _ sender.conn.peer _
    · simp only [passes.onFrame listed onStream]
      match sent : sender.stream.onSendFrame frame with
      | (after, some error) =>
        obtain ⟨rfl, kind⟩ := onSendFrame_refused paired.mirrored frameId.symm
          notServer listed streamCan paired.forth.nonneg paired.forth.idle sent
        have other : frame.type ≠ .data := by
          obtain update | ⟨next, -⟩ := kind <;> simp [*]
        refine ⟨paired.refused (passes.window_of_ne other) ConnDirState.processed_settings
          fun unclosed => ?_, trivial⟩
        obtain update | ⟨-, closed⟩ := kind
        · exact passes.continuing_of_ne (by simp [update]) (by simp [update])
        · exact absurd closed unclosed
      | (after, none) =>
        exact paired.delivered byClient listed frameId routed onStream notServer small passes
          streamCan (continuable can passes.small) sent
    · rw [same]
      exact ⟨paired.refused rfl rfl fun _ => rfl, trivial⟩
    · rw [processed]
      refine ⟨paired.refused ConnDirState.processed_window ConnDirState.processed_settings
        fun _ => ?_, trivial⟩
      rw [ConnDirState.processed_onContinuation, outside, Bool.false_and]

end Exchange

namespace Simulation

inductive Side where
  | client
  | server
  deriving DecidableEq

structure World where
  client : Endpoint
  server : Endpoint
  deriving DecidableEq

def World.sender (world : World) : Side → Endpoint
  | .client => world.client
  | .server => world.server

/-- One side sends a frame to the other one. -/
def step (world : World) (op : Side × Frame) : World × Answer :=
  match op.1 with
  | .client =>
    let ((client, server), answer) := exchange world.client world.server op.2
    (⟨client, server⟩, answer)
  | .server =>
    let ((server, client), answer) := exchange world.server world.client op.2
    (⟨client, server⟩, answer)

def start (id : Int) : World where
  client := ⟨{ isServer := false }, .ofId id⟩
  server := ⟨{ isServer := true }, .ofId id⟩

theorem paired_start {id : Int} (byClient : ID.byClient id) :
    Paired id (start id).client (start id).server := by
  have positive : -1 ≤ id := by
    simp only [ID.byClient, ID.valid, Bool.and_eq_true, decide_eq_true_eq] at byClient
    omega
  have facing (left right : Bool) :
      Facing id ⟨{ isServer := left }, .ofId id⟩ ⟨{ isServer := right }, .ofId id⟩ :=
    ⟨rfl, rfl, rfl, show 0 ≤ ({} : StreamDirState).window.window by decide, fun _ => rfl,
      fun _ => rfl, nofun⟩
  exact ⟨rfl, rfl, positive, positive, .idle, facing _ _, facing _ _⟩

theorem paired_step {id : Int} {world : World} {op : Side × Frame}
    (paired : Paired id world.client world.server) (byClient : byClient id)
    (listed : op.2.type.OnStream) (continuable : Continuable (world.sender op.1) op.2) :
    Paired id (step world op).1.client (step world op).1.server ∧ (step world op).2.Harmless := by
  obtain ⟨side, _⟩ := op
  cases side with
  | client => exact paired.exchange byClient listed continuable
  | server =>
    obtain ⟨again, harmless⟩ := paired.symm.exchange byClient listed continuable
    exact ⟨again.symm, harmless⟩

/-- The states of both endpoints stay mirrored without a connection error, if no CONTINUATION is
sent in `half_closed_local`. -/
theorem streams_stay_mirrored {id : Int} (byClient : byClient id = true)
    (ops : List (Side × Frame)) (listed : ∀ op ∈ ops, op.2.type.OnStream)
    (guarded : Guarded step (fun world op => Continuable (world.sender op.1) op.2) (start id) ops) :
    let world := final step (start id) ops
    Mirrored world.client.stream.com.state world.server.stream.com.state ∧
      ∀ event ∈ trace step (start id) ops, event.2.Harmless := by
  have invariant := @invariant_of_guarded _ _ _ _ _
    (fun world past => Paired id world.client world.server ∧ ∀ event ∈ past, event.2.Harmless)
    (fun world past op ⟨paired, harmless⟩ ⟨listed, continuable⟩ => by
      obtain ⟨again, answer⟩ := paired_step paired byClient listed continuable
      refine ⟨again, fun event member => ?_⟩
      obtain earlier | rfl := mem_snoc.1 member
      · exact harmless _ earlier
      · exact answer)
    _ [] ops ⟨paired_start byClient, fun _ none => nomatch none⟩ (guarded.and_forall listed)
  exact ⟨invariant.1.mirrored, invariant.2⟩

/-- A request with a continued header block and DATA, the response, and RST_STREAM for a stream that
is closed. -/
theorem streams_stay_mirrored_request :
    let ops : List (Side × Frame) :=
      [(.client, { id := 1, payload := .header 0 {} [0x82] }),
       (.client, { id := 1, flag := 4, payload := .continuation [0x84] }),
       (.client, { id := 1, flag := 1, payload := .data 0 [1, 2] }),
       (.server, { id := 1, flag := 4, payload := .header 0 {} [0x88] }),
       (.server, { id := 1, flag := 1, payload := .data 0 [3] }),
       (.server, { id := 1, payload := .rstStream 8 })]
    let world := final step (start 1) ops
    world.client.stream.com.state = .closed ∧
    Mirrored world.client.stream.com.state world.server.stream.com.state ∧
      ∀ event ∈ trace step (start 1) ops, event.2.Harmless :=
  ⟨by decide +kernel, streams_stay_mirrored rfl _ (by decide) (by decide +kernel)⟩

/-- HEADERS end the stream but not the block: the CONTINUATION that the client sends is a protocol
error at the server. -/
theorem streams_continued_at_end :
    trace step (start 1)
        [(.client, { id := 1, flag := 1, payload := .header 0 {} [0x82] }),
         (.client, { id := 1, flag := 4, payload := .continuation [0x84] })] =
      [((.client, { id := 1, flag := 1, payload := .header 0 {} [0x82] }), .delivered none),
       ((.client, { id := 1, flag := 4, payload := .continuation [0x84] }),
        .delivered (some { code := .protocol, debug := recvHalfClosedRemote.debug }))] := by
  decide +kernel

end Simulation

end Futils.Http2
