import Futils.Http2.Frame

/-!
# The states of streams and connections

Each endpoint keeps for a stream its state, and for each direction a flow-control window and the
header block that is being sent.  The transitions for sending and for receiving are written down
separately, as chains of tests through which one frame may pass several states.
-/

namespace Futils.Http2

open Binary Lib.BigEndian

namespace ID

def valid (id : Int) : Bool := 0 ≤ id

def isConn (id : Int) : Bool := id = 0

def byClient (id : Int) : Bool := valid id && !isConn id && id % 2 = 1

def byServer (id : Int) : Bool := valid id && !isConn id && id % 2 = 0

/-- `ID::next`, an `int32_t`. -/
def next (id : Int) : Int :=
  if !valid id || isConn id then -1 else if id + 2 < 2 ^ 31 then id + 2 else id + 2 - 2 ^ 32

end ID

inductive State where
  | idle
  | closed
  | opened
  | halfClosedRemote
  | halfClosedLocal
  | reservedRemote
  | reservedLocal
  deriving DecidableEq

structure AllowPolicy (α : Type) where
  allow : List α
  debug : Option String := none

/-- The call operator of a policy. -/
def AllowPolicy.permits {α : Type} [DecidableEq α] (policy : AllowPolicy α) (value : α) : Bool :=
  value ∈ policy.allow

namespace Policy

def recvDebugMsg (frame state : String) : String :=
  "receiving other frame than " ++ frame ++ " on " ++ state ++ " state"

def sendDebugMsg (frame state : String) : String :=
  "sending other frame than " ++ frame ++ " on " ++ state ++ " state"

def recvIdle : AllowPolicy FrameType where
  allow := [.header, .priority]
  debug := recvDebugMsg "HEADERS or PRIORITY" "idle"

def sendIdle : AllowPolicy FrameType where
  allow := [.header, .priority]
  debug := sendDebugMsg "HEADERS or PRIORITY" "idle"

def recvReservedLocal : AllowPolicy FrameType where
  allow := [.priority, .windowUpdate, .rstStream]
  debug := recvDebugMsg "PRIORITY, WINDOW_UPDATE, or RST_STREAM" "reserved_local"

def sendReservedLocal : AllowPolicy FrameType where
  allow := [.header, .priority, .rstStream]
  debug := sendDebugMsg "HEADER, PRIORITY, or RST_STREAM" "reserved_local"

def recvReservedRemote : AllowPolicy FrameType where
  allow := [.header, .priority, .rstStream]
  debug := recvDebugMsg "HEADER, PRIORITY, or RST_STREAM" "reserved_remote"

def sendReservedRemote : AllowPolicy FrameType where
  allow := [.priority, .windowUpdate, .rstStream]
  debug := sendDebugMsg "PRIORITY, WINDOW_UPDATE, or RST_STREAM" "reserved_remote"

def hasEndStreamFlag : AllowPolicy FrameType where
  allow := [.data, .header]

def sendHalfClosedLocal : AllowPolicy FrameType where
  allow := [.priority, .windowUpdate, .rstStream]
  debug := sendDebugMsg "PRIORITY, WINDOW_UPDATE, or RST_STREAM" "half_closed_local"

def recvHalfClosedRemote : AllowPolicy FrameType where
  allow := [.priority, .windowUpdate, .rstStream]
  debug := recvDebugMsg "PRIORITY, WINDOW_UPDATE, or RST_STREAM" "half_closed_remote"

def recvClosed : AllowPolicy FrameType where
  allow := [.priority]
  debug := recvDebugMsg "PRIORITY" "closed"

def sendClosed : AllowPolicy FrameType where
  allow := [.priority]
  debug := sendDebugMsg "PRIORITY" "closed"

def sendData : AllowPolicy State where
  allow := [.opened, .halfClosedRemote]

def sendHeaders : AllowPolicy State where
  allow := [.idle, .opened, .reservedLocal, .halfClosedRemote]

def sendRstStream : AllowPolicy State where
  allow := [.opened, .reservedRemote, .reservedLocal, .halfClosedLocal, .halfClosedRemote]

def sendPushPromise : AllowPolicy State where
  allow := [.opened, .halfClosedRemote]

def sendWindowUpdate : AllowPolicy State where
  allow := [.opened, .reservedRemote, .halfClosedLocal]

end Policy

section Windows

structure FlowControlWindow where
  window : Int := 65535
  deriving DecidableEq

namespace FlowControlWindow

variable (flow : FlowControlWindow) (n : Nat)

def exceeded : Bool := 0x7fffffff < flow.window + n

/-- `update`; `none` when it fails. -/
def update : Option FlowControlWindow :=
  if flow.exceeded n then none else some { window := flow.window + n }

def setNewWindow (old new : UInt32) : FlowControlWindow where
  window := new.toNat - (old.toNat - flow.window)

/-- `consume`; `none` when it fails. -/
def consume : Option FlowControlWindow :=
  if flow.window < n then none else some { window := flow.window - n }

def availSize : Nat := flow.window.toNat

end FlowControlWindow

end Windows

/-- The error of a frame that has come to another stream. -/
def routingError : Error where
  code := .internal
  debug := some "stream routing is incorrect. library bug!!"

def Frame.code (frame : Frame) : UInt32 :=
  match frame.payload with
  | .rstStream code => code
  | _ => 0

def Frame.increment (frame : Frame) : UInt32 :=
  match frame.payload with
  | .windowUpdate increment => increment
  | _ => 0

def Frame.credit (frame : Frame) : Nat := frame.increment.toNat % 2 ^ 31

def H2Error.ofCode (code : UInt32) : H2Error :=
  match code.toNat with
  | 0 => .none
  | 1 => .protocol
  | 2 => .internal
  | 3 => .flowControl
  | 4 => .settingsTimeout
  | 5 => .streamClosed
  | 6 => .frameSize
  | 7 => .refused
  | 8 => .cancel
  | 9 => .compression
  | 0xa => .connect
  | 0xb => .enhanceYourClam
  | 0xc => .inadequateSecurity
  | 0xd => .http11Required
  | 0x100 => .transport
  | _ => .other code

/-- An error whose code is `none` is none. -/
def Error.toOption (error : Error) : Option Error := if error.code = .none then none else some error

section Common

structure StreamCommonState where
  id : Int
  code : UInt32 := 0
  state : State := .idle
  perfectClosed : Bool := false
  deriving DecidableEq

namespace StreamCommonState

variable (com : StreamCommonState) (frame : Frame)

def maybeCloseByHigherCreation : StreamCommonState :=
  if com.state = .idle then { com with state := .closed, perfectClosed := true } else com

def canSend : Option Error :=
  let can (policy : AllowPolicy State) : Option Error :=
    if policy.permits com.state then none else some { code := .protocol }
  if frame.id ≠ com.id then some routingError
  else
    match frame.type with
    | .priority => none
    | .data => can Policy.sendData
    | .header => can Policy.sendHeaders
    | .rstStream => can Policy.sendRstStream
    | .pushPromise => can Policy.sendPushPromise
    | .windowUpdate => can Policy.sendWindowUpdate
    | _ => some { code := .internal, debug := some "this frame is out of target" }

def onSend : StreamCommonState × Option Error :=
  let ends := Policy.hasEndStreamFlag.permits frame.type && hasFlag frame.flag .endStream
  if com.id ≠ frame.id then (com, some routingError)
  else if frame.type = .priority then (com, none)
  else if com.state = .idle && !Policy.sendIdle.permits frame.type then
    (com, some { code := .protocol, debug := Policy.sendIdle.debug })
  else if com.state = .idle && frame.type = .header && ID.byServer com.id then
    (com, some {
      code := .protocol
      debug := some "sending HEADERS frame on idle with stream initiated by server" })
  else
    let com := if com.state = .idle && frame.type = .header then
      { com with state := .opened } else com
    if com.state = .closed then
      if !Policy.sendClosed.permits frame.type then
        (com, some { code := .protocol, debug := Policy.sendClosed.debug })
      else (com, none)
    else if frame.type = .rstStream then ({ com with state := .closed, code := frame.code }, none)
    else if com.state = .reservedLocal && !Policy.sendReservedLocal.permits frame.type then
      (com, some { code := .protocol, debug := Policy.sendReservedLocal.debug })
    else
      let com := if com.state = .reservedLocal && frame.type = .header then
        { com with state := .halfClosedRemote } else com
      if com.state = .reservedRemote && !Policy.sendReservedRemote.permits frame.type then
        (com, some { code := .protocol, debug := Policy.sendReservedRemote.debug })
      else if com.state = .opened && ends then ({ com with state := .halfClosedLocal }, none)
      -- The test of the policy is not negated here.
      else if com.state = .halfClosedLocal && Policy.sendHalfClosedLocal.permits frame.type then
        (com, some { code := .protocol, debug := Policy.recvHalfClosedRemote.debug })
      else if com.state = .halfClosedRemote && ends then ({ com with state := .closed }, none)
      else (com, none)

def onRecv : StreamCommonState × Option Error :=
  let ends := Policy.hasEndStreamFlag.permits frame.type && hasFlag frame.flag .endStream
  if com.id ≠ frame.id then (com, some routingError)
  else if frame.type = .priority then (com, none)
  else if com.state = .idle && !Policy.recvIdle.permits frame.type then
    (com, some { code := .protocol, debug := Policy.recvIdle.debug })
  else if com.state = .idle && frame.type = .header && ID.byServer com.id then
    (com, some {
      code := .protocol
      debug := some "receiving HEADERS frame on idle with stream initiated by server" })
  else
    let com := if com.state = .idle && frame.type = .header then
      { com with state := .opened } else com
    if frame.type = .rstStream then
      ({ com with state := .closed, code := frame.code, perfectClosed := true },
        Error.toOption { code := .ofCode frame.code, stream := true })
    else if com.state = .reservedLocal && !Policy.recvReservedLocal.permits frame.type then
      (com, some { code := .protocol, debug := Policy.recvReservedLocal.debug })
    else if com.state = .reservedRemote && !Policy.recvReservedRemote.permits frame.type then
      (com, some { code := .protocol, debug := Policy.recvReservedRemote.debug })
    else
      let com := if com.state = .reservedRemote && frame.type = .header then
        { com with state := .halfClosedLocal } else com
      if com.state = .opened && ends then ({ com with state := .halfClosedRemote }, none)
      else if com.state = .halfClosedLocal && ends then
        ({ com with state := .closed, perfectClosed := true }, none)
      else if com.state = .halfClosedRemote && !Policy.recvHalfClosedRemote.permits frame.type then
        (com, some { code := .protocol, debug := Policy.recvHalfClosedRemote.debug })
      else if com.state = .closed && com.perfectClosed && !Policy.recvClosed.permits frame.type then
        (com, some { code := .protocol, debug := Policy.recvClosed.debug })
      else (com, none)

end StreamCommonState

end Common

section Stream

inductive ContinuousState where
  | none
  | onHeader
  | onPushPromise
  deriving DecidableEq

/-- `StreamDirState`, whose constructor sets a new window on top of the one it has. -/
structure StreamDirState where
  window : FlowControlWindow := ({} : FlowControlWindow).setNewWindow 0 65535
  onContinuous : ContinuousState := .none
  deriving DecidableEq

namespace StreamDirState

def canData (dir : StreamDirState) (size : Nat) : Bool := size ≤ dir.window.availSize

/-- `on_frame`: the state of the direction and of the opposite one. -/
def onFrame (dir opposite : StreamDirState) (frame : Frame) :
    (StreamDirState × StreamDirState) × Option Error :=
  if dir.onContinuous ≠ .none then
    if frame.type ≠ .continuation then ((dir, opposite), some { code := .protocol })
    else if hasFlag frame.flag .endHeaders then (({ dir with onContinuous := .none }, opposite), none)
    else ((dir, opposite), none)
  else
    match frame.type with
    | .header =>
      if hasFlag frame.flag .endHeaders then ((dir, opposite), none)
      else (({ dir with onContinuous := .onHeader }, opposite), none)
    | .pushPromise =>
      if hasFlag frame.flag .endHeaders then ((dir, opposite), none)
      else (({ dir with onContinuous := .onPushPromise }, opposite), none)
    | .data =>
      match dir.window.consume frame.dataLen with
      | none =>
        ((dir, opposite), some {
          code := .flowControl
          debug := some "DATA frame exceeded flow control limit" })
      | some window => (({ dir with window := window }, opposite), none)
    | .windowUpdate =>
      match opposite.window.update frame.credit with
      | none =>
        ((dir, opposite), some (if frame.increment = 0 then
          { code := .protocol, stream := true, debug := some "WINDOW not updated" }
        else {
          code := .flowControl
          stream := true
          debug := some "WINDOW update exceed flow control limit" }))
      | some window => ((dir, { opposite with window := window }), none)
    | .rstStream => ((dir, opposite), none)
    | .settings | .ping | .goaway | .continuation => ((dir, opposite), some { code := .protocol })
    | .priority => ((dir, opposite), none)

end StreamDirState

structure StreamState where
  com : StreamCommonState
  peer : StreamDirState := {}
  «local» : StreamDirState := {}
  deriving DecidableEq

namespace StreamState

def ofId (id : Int) : StreamState where
  com := { id := id }

def maybeCloseByHigherCreation (stream : StreamState) (maxServer maxClient : Int) : StreamState :=
  let highest := if ID.byClient stream.com.id then maxClient else maxServer
  if stream.com.id < highest then
    { stream with com := stream.com.maybeCloseByHigherCreation }
  else stream

variable (stream : StreamState) (frame : Frame)

def onRecvFrame : StreamState × Option Error :=
  match stream.com.onRecv frame with
  | (com, some error) => ({ stream with com := com }, some error)
  | (com, none) =>
    let ((dir, opposite), error) := stream.local.onFrame stream.peer frame
    ({ com := com, peer := opposite, «local» := dir }, error)

def onSendFrame : StreamState × Option Error :=
  match stream.com.onSend frame with
  | (com, some error) => ({ stream with com := com }, some error)
  | (com, none) =>
    let ((dir, opposite), error) := stream.peer.onFrame stream.local frame
    ({ com := com, peer := dir, «local» := opposite }, error)

/-- What an endpoint accepts to send: the stream and both directions accept it. -/
theorem onSendFrame_ok {sender after : StreamState} {frame : Frame}
    (sent : sender.onSendFrame frame = (after, none)) :
    (sender.com.onSend frame).2 = none ∧ (sender.peer.onFrame sender.local frame).2 = none ∧
      after = {
        com := (sender.com.onSend frame).1
        peer := (sender.peer.onFrame sender.local frame).1.1
        «local» := (sender.peer.onFrame sender.local frame).1.2 } := by
  rw [onSendFrame] at sent
  generalize sender.com.onSend frame = moved at sent ⊢
  generalize sender.peer.onFrame sender.local frame = dirs at sent ⊢
  obtain ⟨⟨_, _⟩, _⟩ := dirs
  obtain ⟨_, - | _⟩ := moved
  · obtain ⟨rfl, rfl⟩ := Prod.mk.inj sent
    exact ⟨rfl, rfl, rfl⟩
  · cases sent

/-- What an endpoint receives without an error: the stream and both directions accept it. -/
theorem onRecvFrame_ok {receiver after : StreamState} {frame : Frame}
    (received : receiver.onRecvFrame frame = (after, none)) :
    (receiver.com.onRecv frame).2 = none ∧ (receiver.local.onFrame receiver.peer frame).2 = none ∧
      after = {
        com := (receiver.com.onRecv frame).1
        peer := (receiver.local.onFrame receiver.peer frame).1.2
        «local» := (receiver.local.onFrame receiver.peer frame).1.1 } := by
  rw [onRecvFrame] at received
  generalize receiver.com.onRecv frame = moved at received ⊢
  generalize receiver.local.onFrame receiver.peer frame = dirs at received ⊢
  obtain ⟨⟨_, _⟩, _⟩ := dirs
  obtain ⟨_, - | _⟩ := moved
  · obtain ⟨rfl, rfl⟩ := Prod.mk.inj received
    exact ⟨rfl, rfl, rfl⟩
  · cases received

def canSendFrame : Option Error :=
  if frame.id ≠ stream.com.id then some routingError
  else if stream.peer.onContinuous ≠ .none then
    if frame.type ≠ .continuation then
      some { code := .protocol, debug := some "expect CONTINUATION" }
    else none
  else
    match stream.com.canSend frame with
    | some error => some error
    | none =>
      if frame.type = .data && !stream.peer.canData frame.dataLen then
        some {
          code := .flowControl
          stream := true
          debug := some "cannot send DATA frame by stream flow control limit" }
      -- The length of the frame is tested, not its increment, and against the other direction.
      else if frame.type = .windowUpdate && stream.peer.window.exceeded frame.dataLen then
        some { code := .flowControl, stream := true, debug := some "cannot send WINDOW_UPDATE frame" }
      else none

end StreamState

end Stream

section Connection

inductive SettingKey where
  | maxHeaderTableSize
  | enablePush
  | maxConcurrent
  | initialWindowsSize
  | maxFrameSize
  | headerListSize
  deriving DecidableEq

/-- The key of a number, if it is one of those compared with. -/
def SettingKey.ofValue (value : Nat) : Option SettingKey :=
  match value with
  | 1 => some maxHeaderTableSize
  | 2 => some enablePush
  | 3 => some maxConcurrent
  | 4 => some initialWindowsSize
  | 5 => some maxFrameSize
  | 6 => some headerListSize
  | _ => none

structure PredefinedSettings where
  maxHeaderTableSize : UInt32 := 4096
  enablePush : Bool := true
  maxConcurrentStream : UInt32 := 0xffffffff
  initialWindowSize : UInt32 := 65535
  maxFrameSize : UInt32 := 16384
  maxHeaderListSize : UInt32 := 0xffffffff
  deriving DecidableEq

/-- `SettingsFrame::visit`: the settings in their order, and whether the bytes end behind one. -/
def visitSettings : Bytes → List (Nat × UInt32) × Bool
  | [] => ([], true)
  | k₁ :: k₂ :: v₁ :: v₂ :: v₃ :: v₄ :: rest =>
    let (settings, whole) := visitSettings rest
    ((ofBytes [k₁, k₂], .ofNat (ofBytes [v₁, v₂, v₃, v₄])) :: settings, whole)
  | _ => ([], false)

def Frame.settings (frame : Frame) : Bytes :=
  match frame.payload with
  | .settings settings => settings
  | _ => []

structure ConnDirState where
  preprocedId : Int := -1
  preprocedStreamId : Int := -1
  settings : PredefinedSettings := {}
  window : FlowControlWindow := {}
  preprocedStreamType : Option FrameType := none
  preprocedType : Option FrameType := none
  onContinuation : Bool := false
  deriving DecidableEq

namespace ConnDirState

variable (dir : ConnDirState) (frame : Frame)

def canData (size : Nat) : Bool := size ≤ dir.window.availSize

/-- The callback of `on_settings`, with the change of the initial window size; `none` when it stops
the visit. -/
def onSetting (key : Nat) (value : UInt32) : Option (ConnDirState × List (UInt32 × UInt32)) :=
  match SettingKey.ofValue key with
  | some .maxHeaderTableSize =>
    some ({ dir with settings := { dir.settings with maxHeaderTableSize := value } }, [])
  | some .enablePush =>
    if value ≠ 1 ∧ value ≠ 0 then none
    else some ({ dir with settings := { dir.settings with enablePush := value ≠ 0 } }, [])
  | some .maxConcurrent =>
    some ({ dir with settings := { dir.settings with maxConcurrentStream := value } }, [])
  | some .initialWindowsSize =>
    if 0x7fffffff < value.toNat then none
    else
      let old := dir.settings.initialWindowSize
      -- The window of the connection moves with the setting as well.
      some ({ dir with
        settings := { dir.settings with initialWindowSize := value }
        window := dir.window.setNewWindow old value }, [(old, value)])
  | some .maxFrameSize =>
    some ({ dir with settings := { dir.settings with maxFrameSize := value } }, [])
  | some .headerListSize =>
    some ({ dir with settings := { dir.settings with maxHeaderListSize := value } }, [])
  | none => some (dir, [])

/-- The visit of `on_settings`: the state, the changes of the initial window size, and whether it went
through. -/
def applySettings : ConnDirState → List (Nat × UInt32) →
    ConnDirState × List (UInt32 × UInt32) × Bool
  | dir, [] => (dir, [], true)
  | dir, (key, value) :: rest =>
    match dir.onSetting key value with
    | none => (dir, [], false)
    | some (dir, changes) =>
      let (dir, later, whole) := applySettings dir rest
      (dir, changes ++ later, whole)

def onSettings : (ConnDirState × List (UInt32 × UInt32)) × Option Error :=
  if hasFlag frame.flag .ack then ((dir, []), none)
  else
    let (settings, whole) := visitSettings frame.settings
    let (dir, changes, through) := dir.applySettings settings
    ((dir, changes),
      if through && whole then none
      else some { code := .internal, debug := some "cannot read settings frame" })

/-- The part of `on_frame` that notes the frame. -/
def processed : ConnDirState :=
  let dir := { dir with
    onContinuation := dir.onContinuation && !hasFlag frame.flag .endHeaders
    preprocedId := frame.id
    preprocedType := some frame.type }
  if ID.isConn frame.id then dir
  else { dir with preprocedStreamId := frame.id, preprocedStreamType := some frame.type }

section Processed

variable {dir : ConnDirState} {frame : Frame}

theorem processed_settings : (dir.processed frame).settings = dir.settings := by
  rw [processed]
  split <;> rfl

theorem processed_window : (dir.processed frame).window = dir.window := by
  rw [processed]
  split <;> rfl

theorem processed_onContinuation : (dir.processed frame).onContinuation =
    (dir.onContinuation && !hasFlag frame.flag .endHeaders) := by
  rw [processed]
  split <;> rfl

theorem processed_preprocedStreamId (onStream : frame.id ≠ 0) :
    (dir.processed frame).preprocedStreamId = frame.id := by
  rw [processed, if_neg (by simpa [ID.isConn] using onStream)]

end Processed

/-- `on_frame`: the state of the direction and of the opposite one, and the changes of the initial
window size. -/
def onFrame (dir opposite : ConnDirState) (frame : Frame) :
    (ConnDirState × ConnDirState × List (UInt32 × UInt32)) × Option Error :=
  if dir.settings.maxFrameSize.toNat < frame.len then
    ((dir, opposite, []), some {
      code := .frameSize
      debug := some "frame size exceeded max_frame_size" })
  else if dir.onContinuation && frame.type ≠ .continuation then
    ((dir, opposite, []), some { code := .protocol, debug := some "expect CONTINUATION but not" })
  else if dir.onContinuation && frame.id ≠ dir.preprocedStreamId then
    ((dir, opposite, []), some {
      code := .protocol
      debug := some "expect same id previous received but not" })
  else
    let dir := dir.processed frame
    match frame.type with
    | .data =>
      match dir.window.consume frame.dataLen with
      | none =>
        ((dir, opposite, []), some {
          code := .flowControl
          debug := some "DATA frame exceeded flow control limit" })
      | some window => (({ dir with window := window }, opposite, []), none)
    | .windowUpdate =>
      if frame.id ≠ 0 then ((dir, opposite, []), none)
      else
        match opposite.window.update frame.credit with
        | none =>
          ((dir, opposite, []), some (if frame.increment = 0 then { code := .protocol }
            else {
              code := .flowControl
              debug := some "WINDOW_UPDATE frame exceeded flow control limit" }))
        | some window => ((dir, { opposite with window := window }, []), none)
    | .settings =>
      let ((opposite, changes), error) := opposite.onSettings frame
      ((dir, opposite, changes), error)
    | .header | .pushPromise =>
      if hasFlag frame.flag .endHeaders then ((dir, opposite, []), none)
      else (({ dir with onContinuation := true }, opposite, []), none)
    | _ => ((dir, opposite, []), none)

end ConnDirState

structure CloseState where
  code : UInt32 := 0
  processedId : UInt32 := 0
  closed : Bool := false
  deriving DecidableEq

/-- `on_goaway`, for a GOAWAY frame. -/
def CloseState.onGoaway (close : CloseState) (frame : Frame) : CloseState :=
  match frame.payload with
  | .goaway processedId code _ => { code := code, processedId := processedId, closed := true }
  | _ => close

structure ConnState where
  close : CloseState := {}
  maxClientId : Int := -1
  maxServerId : Int := -1
  maxClosedClientId : Int := -1
  maxClosedServerId : Int := -1
  issueId : Int := -1
  peer : ConnDirState := {}
  «local» : ConnDirState := {}
  isServer : Bool
  deriving DecidableEq

namespace ConnState

/-- The error of a PUSH_PROMISE that the settings forbid. -/
def pushDisabled : Error where
  code := .protocol
  debug := some "push disabled"

variable (conn : ConnState) (frame : Frame) (stream : StreamState)

/-- `on_recv_frame`, with the changes of the initial window size. -/
def onRecvFrame : (ConnState × List (UInt32 × UInt32)) × Option Error :=
  if frame.type = .pushPromise && !conn.local.settings.enablePush then
    ((conn, []), some pushDisabled)
  else
    match conn.local.onFrame conn.peer frame with
    | ((dir, opposite, changes), some error) =>
      (({ conn with «local» := dir, peer := opposite }, changes), some error)
    | ((dir, opposite, changes), none) =>
      (({ conn with
        «local» := dir
        peer := opposite
        close := conn.close.onGoaway frame }, changes), none)

/-- `on_send_frame`, with the changes of the initial window size. -/
def onSendFrame : (ConnState × List (UInt32 × UInt32)) × Option Error :=
  if frame.type = .pushPromise && !conn.peer.settings.enablePush then
    ((conn, []), some pushDisabled)
  else
    match conn.peer.onFrame conn.local frame with
    | ((dir, opposite, changes), some error) =>
      (({ conn with peer := dir, «local» := opposite }, changes), some error)
    | ((dir, opposite, changes), none) =>
      (({ conn with
        peer := dir
        «local» := opposite
        close := conn.close.onGoaway frame }, changes), none)

def onStreamFrameProcessed : ConnState :=
  let id := stream.com.id
  let closed := stream.com.state = .closed
  if ID.byServer id then
    if conn.maxServerId < id ∨ closed ∧ conn.maxClosedServerId < id then
      { conn with maxServerId := id }
    else conn
  else if conn.maxClientId < id ∨ closed ∧ conn.maxClosedClientId < id then
    { conn with maxClientId := id }
  else conn

@[simp] theorem onStreamFrameProcessed_peer :
    (conn.onStreamFrameProcessed stream).peer = conn.peer := by
  simp only [onStreamFrameProcessed, apply_ite ConnState.peer, ite_self]

@[simp] theorem onStreamFrameProcessed_local :
    (conn.onStreamFrameProcessed stream).local = conn.local := by
  simp only [onStreamFrameProcessed, apply_ite ConnState.local, ite_self]

def maybeClosedByHigherCreation : StreamState :=
  stream.maybeCloseByHigherCreation conn.maxServerId conn.maxClientId

/-- The first tests of the operations on a stream. -/
def misrouted : Option Error :=
  if frame.id ≠ stream.com.id then some routingError
  else if ID.isConn frame.id || !ID.valid frame.id then
    some { code := .internal, debug := some "invalid stream id. library bug!!" }
  else none

def onRecvStreamFrame : (ConnState × StreamState) × Option Error :=
  match misrouted frame stream with
  | some error => ((conn, stream), some error)
  | none =>
    let stream := conn.maybeClosedByHigherCreation stream
    match conn.onRecvFrame frame with
    | ((conn, _), some error) => ((conn, stream), some error)
    | ((conn, _), none) =>
      match stream.onRecvFrame frame with
      | (stream, some error) => ((conn, stream), some error)
      | (stream, none) => ((conn.onStreamFrameProcessed stream, stream), none)

def onSendStreamFrame : (ConnState × StreamState) × Option Error :=
  match misrouted frame stream with
  | some error => ((conn, stream), some error)
  | none =>
    let stream := conn.maybeClosedByHigherCreation stream
    match conn.onSendFrame frame with
    | ((conn, _), some error) => ((conn, stream), some error)
    | ((conn, _), none) =>
      match stream.onSendFrame frame with
      | (stream, some error) => ((conn, stream), some error)
      | (stream, none) => ((conn.onStreamFrameProcessed stream, stream), none)

/-- `new_stream`; the id is invalid when there are no more. -/
def newStream : ConnState × Int :=
  if !ID.valid conn.issueId then
    let first := if conn.isServer then 2 else 1
    ({ conn with issueId := first }, first)
  else
    let next := ID.next conn.issueId
    if !ID.valid next then (conn, -1) else ({ conn with issueId := next }, next)

def canSendStreamFrame : Option Error :=
  match misrouted frame stream with
  | some error => some error
  | none =>
    if conn.peer.settings.maxFrameSize.toNat < 9 + frame.dataLen then
      some { code := .frameSize, debug := some "frame size exceeded max_frame_size" }
    else if conn.peer.onContinuation && frame.type ≠ .continuation then
      some { code := .protocol, debug := some "expect CONTINUATION" }
    else if conn.peer.onContinuation && frame.id ≠ conn.peer.preprocedStreamId then
      some { code := .protocol, debug := some "expect same id sent before" }
    else if frame.type = .data && !conn.peer.canData frame.dataLen then
      some {
        code := .flowControl
        debug := some "cannot send DATA frame by connection flow limit" }
    else if frame.type = .pushPromise && !conn.peer.settings.enablePush then some pushDisabled
    else stream.canSendFrame frame

end ConnState

end Connection

end Futils.Http2
