import Futils.Http2.State
import Futils.Lib.Machine
import Mathlib.Logic.Function.Basic

/-!
# Flow control of a connection

A connection sends within its own window and within the window of each stream; WINDOW_UPDATE raises a
window, DATA uses it up, and SETTINGS moves all of them.  The books below are kept from the frames
alone.  A window of a stream starts at 131070 whatever the initial size is, and the window of the
connection follows the initial size although it should not; beyond that the windows are exact.
-/

namespace Futils.Http2.FlowControl

open Binary Lib.Machine FlowControlWindow ConnDirState ConnState List Option

section Handler

/-- A stream that has been made, and whether it is in the map of the handler. -/
structure Entry where
  state : StreamState
  mapped : Bool
  deriving DecidableEq

/-- `FrameHandler`: the connection and all streams that have been made. -/
structure Handler where
  conn : ConnState
  streams : List Entry := []
  deriving DecidableEq

/-- `write_frame`, into a buffer that grows. -/
def writeFrame (frame : Frame) (message : String) : Option Error :=
  if frame.render.isSome then none else some { code := .internal, debug := some message }

/-- The message for a frame on a stream that cannot be rendered. -/
def renderMessage : FrameType → String
  | .data => "failed to render DATA frame"
  | .header => "failed to render HEADER frame"
  | .rstStream => "failed to render RST_STREAM frame"
  | .windowUpdate => "failed to render WINDOW_UPDATE"
  | .pushPromise => "failed to render PUSH_PROMISE frame"
  | _ => "failed to render CONTINUATION frame"

/-- `set_new_window` for every change of the initial size. -/
def follow (flow : FlowControlWindow) (changes : List (UInt32 × UInt32)) : FlowControlWindow :=
  changes.foldl (fun flow change => flow.setNewWindow change.1 change.2) flow

namespace Entry

/-- `set_new_peer_window` for every change, if the stream is in the map. -/
def followPeer (changes : List (UInt32 × UInt32)) (entry : Entry) : Entry :=
  if entry.mapped then
    { entry with state := { entry.state with
        peer := { entry.state.peer with window := follow entry.state.peer.window changes } } }
  else entry

/-- `set_new_local_window` for every change, if the stream is in the map. -/
def followLocal (changes : List (UInt32 × UInt32)) (entry : Entry) : Entry :=
  if entry.mapped then
    { entry with state := { entry.state with
        «local» := { entry.state.local with window := follow entry.state.local.window changes } } }
  else entry

end Entry

namespace Handler

variable (handler : Handler) (frame : Frame)

def find (id : Int) : Option Nat :=
  handler.streams.findIdx? fun entry => entry.mapped && entry.state.com.id = id

/-- `open`; `emplace` does not replace a stream that is in the map. -/
def openStream : Handler :=
  let (conn, id) := handler.conn.newStream
  if !ID.valid id then { handler with conn := conn }
  else
    { conn := conn
      streams := handler.streams ++ [⟨.ofId id, (handler.find id).isNone⟩] }

/-- The part of `recv_frame` that finds or makes the stream of a frame. -/
def locate (id : Int) : Handler × Nat :=
  match handler.find id with
  | some index => (handler, index)
  | none =>
    ({ handler with streams := handler.streams ++ [⟨.ofId id, true⟩] }, handler.streams.length)

def sendConn (message : String) : Handler × Option Error :=
  let ((conn, changes), error) := handler.conn.onSendFrame frame
  let handler := { conn := conn, streams := handler.streams.map (Entry.followLocal changes) }
  match error with
  | some error => (handler, some error)
  | none => (handler, writeFrame frame message)

def sendPing (opaqueData : UInt64) (ack : Bool) : Handler × Option Error :=
  handler.sendConn
    { id := 0, flag := if ack then Flag.ack.bit else 0, payload := .ping opaqueData }
    "failed to render PING frame"

/-- `send_settings`, whose frame keeps the invalid id of a new frame. -/
def sendSettings (settings : Bytes) : Handler × Option Error :=
  handler.sendConn { payload := .settings settings } "failed to render SETTINGS frame"

def sendSettingsAck : Handler × Option Error :=
  handler.sendConn { flag := Flag.ack.bit, payload := .settings [] }
    "failed to render SETTINGS+ACK frame"

/-- `send_goaway`; `max_processed` is never set. -/
def sendGoaway (code : UInt32) (debug : Bytes) : Handler × Option Error :=
  handler.sendConn { id := 0, payload := .goaway 0xffffffff code debug }
    "failed to render GOAWAY frame"

/-- A frame of the connection, for `recv_frame`. -/
def isConnection : Bool :=
  match frame.type with
  | .settings | .ping | .goaway => true
  | .windowUpdate => frame.id = 0
  | _ => false

/-- `recv_frame`, without the parts of HPACK. -/
def recvFrame : Handler × Option Error :=
  if isConnection frame then
    if frame.id ≠ 0 then
      (handler, some { code := .protocol, debug := some "unexpected frame id" })
    else
      let ((conn, changes), error) := handler.conn.onRecvFrame frame
      let handler := { conn := conn, streams := handler.streams.map (Entry.followPeer changes) }
      match error, frame.payload with
      | some error, _ => (handler, some error)
      | none, .ping opaqueData =>
        if hasFlag frame.flag .ack then (handler, none) else handler.sendPing opaqueData true
      | none, _ => (handler, none)
  else
    let (handler, index) := handler.locate frame.id
    match handler.streams[index]? with
    | none => (handler, none)
    | some entry =>
      let ((conn, state), error) := handler.conn.onRecvStreamFrame frame entry.state
      ({ conn := conn, streams := handler.streams.set index { entry with state := state } }, error)

/-- Send a frame on a stream.  A CONTINUATION behind HEADERS is not asked for with `can_send`. -/
def sendStream (index : Nat) (frame : Frame) : Handler × Option Error :=
  match handler.streams[index]? with
  | none => (handler, some routingError)
  | some entry =>
    let refused := if frame.type = .continuation then none
      else handler.conn.canSendStreamFrame frame entry.state
    match refused with
    | some error => (handler, some error)
    | none =>
      let ((conn, state), error) := handler.conn.onSendStreamFrame frame entry.state
      let handler := {
        conn := conn
        streams := handler.streams.set index { entry with state := state } }
      match error with
      | some error => (handler, some error)
      | none => (handler, writeFrame frame (renderMessage frame.type))

end Handler

inductive Op where
  | openStream
  | recv (frame : Frame)
  | send (index : Nat) (frame : Frame)
  | sendSettings (settings : Bytes)
  | sendSettingsAck
  | sendPing (opaqueData : UInt64)
  | sendGoaway (code : UInt32) (debug : Bytes)
  deriving DecidableEq

def Handler.apply (handler : Handler) : Op → Handler × Option Error
  | .openStream => (handler.openStream, none)
  | .recv frame => handler.recvFrame frame
  | .send index frame => handler.sendStream index frame
  | .sendSettings settings => handler.sendSettings settings
  | .sendSettingsAck => handler.sendSettingsAck
  | .sendPing opaqueData => handler.sendPing opaqueData false
  | .sendGoaway code debug => handler.sendGoaway code debug

end Handler

section Books

/-- The books of a stream: the initial size when it was made, the increments received and the DATA
sent. -/
structure Account where
  opened : UInt32 := 0
  credit : Nat := 0
  spent : Nat := 0
  deriving DecidableEq

structure Books where
  initial : UInt32 := 65535
  credit : Nat := 0
  spent : Nat := 0
  streams : Nat → Account := fun _ => {}

def lastInitial (initial : UInt32) (settings : List (Nat × UInt32)) : UInt32 :=
  settings.foldl (fun initial setting =>
    if SettingKey.ofValue setting.1 = some .initialWindowsSize then setting.2 else initial) initial

def initialAfter (initial : UInt32) (frame : Frame) : UInt32 :=
  if frame.type = .settings ∧ hasFlag frame.flag .ack = false then
    lastInitial initial (visitSettings frame.settings).1
  else initial

/-- The bytes that DATA takes from the windows. -/
def spending (frame : Frame) : Nat := if frame.type = .data then frame.dataLen else 0

def connCredit (frame : Frame) : Nat :=
  if frame.type = .windowUpdate ∧ frame.id = 0 then frame.credit else 0

def streamCredit (frame : Frame) : Nat := if frame.type = .windowUpdate then frame.credit else 0

namespace Books

def adjust (books : Books) (index : Nat) (change : Account → Account) : Books :=
  { books with
    streams := Function.update books.streams index (change (books.streams index)) }

def opening (books : Books) (index : Nat) : Books :=
  books.adjust index fun _ => { opened := books.initial }

/-- What is noted about an operation that succeeds. -/
def record (books : Books) (handler : Handler) : Op → Books
  | .openStream => books.opening handler.streams.length
  | .recv frame =>
    if Handler.isConnection frame then
      { books with
        initial := initialAfter books.initial frame
        credit := books.credit + connCredit frame }
    else
      let index := (handler.locate frame.id).2
      let books := if (handler.find frame.id).isNone then books.opening index else books
      books.adjust index fun account =>
        { account with credit := account.credit + streamCredit frame }
  | .send index frame =>
    { books with spent := books.spent + spending frame }.adjust index fun account =>
      { account with spent := account.spent + spending frame }
  | _ => books

end Books

structure World where
  handler : Handler
  books : Books := {}

def step (world : World) (op : Op) : World × Option Error :=
  let (handler, error) := world.handler.apply op
  (⟨handler, world.books.record world.handler op⟩, error)

def start (isServer : Bool) : World where
  handler := { conn := { isServer := isServer } }

end Books

section Directions

/-- `set_new_window` is exact, also below zero. -/
@[simp] theorem window_setNewWindow (flow : FlowControlWindow) (old new : UInt32) :
    (flow.setNewWindow old new).window = flow.window + (new.toNat - old.toNat) := by
  simp only [setNewWindow]
  omega

/-- The windows of the connection and of its streams have followed the initial size. -/
structure Follows (before after : ConnDirState) (changes : List (UInt32 × UInt32)) : Prop where
  conn : after.window.window = before.window.window +
    (after.settings.initialWindowSize.toNat - before.settings.initialWindowSize.toNat)
  stream : ∀ flow, (follow flow changes).window = flow.window +
    (after.settings.initialWindowSize.toNat - before.settings.initialWindowSize.toNat)

variable {dir opposite after oppositeAfter : ConnDirState} {frame : Frame}
  {changes : List (UInt32 × UInt32)}

theorem Follows.of_eq {before : ConnDirState} (window : after.window = before.window)
    (initial : after.settings.initialWindowSize = before.settings.initialWindowSize) :
    Follows before after [] := by
  constructor
  · rw [window, initial]
    omega
  · intro flow
    rw [initial, follow, foldl_nil]
    omega

theorem Follows.trans {before middle : ConnDirState} {early late : List (UInt32 × UInt32)}
    (first : Follows before middle early) (second : Follows middle after late) :
    Follows before after (early ++ late) := by
  constructor
  · rw [second.conn, first.conn]
    omega
  · intro flow
    rw [follow, foldl_append]
    exact (second.stream (follow _ _)).trans (by rw [first.stream _]; omega)

theorem onSetting_follows {key : Nat} {value : UInt32}
    (applied : dir.onSetting key value = some (after, changes)) :
    Follows dir after changes ∧ after.settings.initialWindowSize =
      lastInitial dir.settings.initialWindowSize [(key, value)] := by
  rw [onSetting] at applied
  split at applied
  case h_4 known =>
    split at applied
    · cases applied
    obtain ⟨rfl, rfl⟩ := Prod.mk.inj (some.inj applied)
    refine ⟨⟨window_setNewWindow .., fun flow => ?_⟩, (if_pos known).symm⟩
    exact window_setNewWindow ..
  case h_2 known =>
    split at applied
    · cases applied
    obtain ⟨rfl, rfl⟩ := Prod.mk.inj (some.inj applied)
    exact ⟨.of_eq rfl rfl, (if_neg (by rw [known]; decide)).symm⟩
  all_goals
    obtain ⟨rfl, rfl⟩ := Prod.mk.inj (some.inj applied)
    exact ⟨.of_eq rfl rfl, (if_neg (by simp [*])).symm⟩

/-- Settings that go through move the windows by the change of the initial size. -/
theorem applySettings_follows {settings : List (Nat × UInt32)}
    (applied : dir.applySettings settings = (after, changes, true)) :
    Follows dir after changes ∧ after.settings.initialWindowSize =
      lastInitial dir.settings.initialWindowSize settings := by
  induction settings generalizing dir changes with
  | nil =>
    cases applied
    exact ⟨.of_eq rfl rfl, rfl⟩
  | cons setting settings ih =>
    obtain ⟨key, value⟩ := setting
    rw [applySettings] at applied
    match one : dir.onSetting key value with
    | none =>
      rw [one] at applied
      cases applied
    | some (middle, early) =>
      rw [one] at applied
      match rest : middle.applySettings settings with
      | (last, late, through) =>
        simp only [rest] at applied
        obtain ⟨rfl, rfl, rfl⟩ := applied
        obtain ⟨first, middleInitial⟩ := onSetting_follows one
        obtain ⟨second, lastInitial_eq⟩ := ih rest
        refine ⟨first.trans second, ?_⟩
        rw [lastInitial_eq, middleInitial]
        rfl

/-- DATA is taken from its direction, WINDOW_UPDATE and SETTINGS concern the opposite one. -/
structure Moves (frame : Frame) (dir opposite after oppositeAfter : ConnDirState)
    (changes : List (UInt32 × UInt32)) : Prop where
  settings : after.settings = dir.settings
  spent : after.window.window = dir.window.window - spending frame
  initial : oppositeAfter.settings.initialWindowSize =
    initialAfter opposite.settings.initialWindowSize frame
  credit : oppositeAfter.window.window = opposite.window.window + connCredit frame +
    (oppositeAfter.settings.initialWindowSize.toNat - opposite.settings.initialWindowSize.toNat)
  within : 0 < connCredit frame → oppositeAfter.window.window ≤ 0x7fffffff
  follow : ∀ flow, (follow flow changes).window = flow.window +
    (oppositeAfter.settings.initialWindowSize.toNat - opposite.settings.initialWindowSize.toNat)

/-- A frame that leaves the settings alone. -/
theorem Moves.of_ne (other : frame.type ≠ .settings) (settings : after.settings = dir.settings)
    (spent : after.window.window = dir.window.window - spending frame)
    (oppositeSettings : oppositeAfter.settings = opposite.settings)
    (credit : oppositeAfter.window.window = opposite.window.window + connCredit frame)
    (within : 0 < connCredit frame → oppositeAfter.window.window ≤ 0x7fffffff) :
    Moves frame dir opposite after oppositeAfter [] where
  settings := settings
  spent := spent
  initial := by rw [oppositeSettings, initialAfter, if_neg fun both => other both.1]
  credit := by rw [oppositeSettings]; omega
  within := within
  follow flow := by rw [oppositeSettings, FlowControl.follow, foldl_nil]; omega

theorem moves_onSettings (type : frame.type = .settings)
    (applied : opposite.onSettings frame = ((after, changes), none)) :
    Moves frame dir opposite (dir.processed frame) after changes := by
  have spent : (dir.processed frame).window.window = dir.window.window - spending frame := by
    rw [processed_window]
    simp [spending, type]
  have credit : connCredit frame = 0 := by simp [connCredit, type]
  rw [onSettings] at applied
  by_cases ack : hasFlag frame.flag .ack
  · rw [if_pos ack] at applied
    cases applied
    have same : initialAfter opposite.settings.initialWindowSize frame =
        opposite.settings.initialWindowSize := if_neg (by simp [ack])
    exact ⟨processed_settings, spent, same.symm, by omega, by omega,
      fun flow => by rw [FlowControl.follow, foldl_nil]; omega⟩
  · rw [if_neg ack] at applied
    generalize visited : visitSettings frame.settings = visit at applied
    obtain ⟨settings, _⟩ := visit
    match result : opposite.applySettings settings with
    | (last, late, through) =>
      simp only [result] at applied
      split at applied
      case isTrue both =>
        cases applied
        obtain ⟨rfl, -⟩ := Bool.and_eq_true_iff.1 both
        obtain ⟨follows, initial⟩ := applySettings_follows result
        refine ⟨processed_settings, spent, ?_, ?_, by omega, follows.stream⟩
        · rw [initial, initialAfter, if_pos ⟨type, by simpa using ack⟩, visited]
        · rw [follows.conn]
          omega
      case isFalse => cases applied

/-- What an accepted frame of any type does to the windows of the connection. -/
theorem moves_onFrame
    (accepted : dir.onFrame opposite frame = ((after, oppositeAfter, changes), none)) :
    Moves frame dir opposite after oppositeAfter changes := by
  have settings := @processed_settings dir frame
  have window := @processed_window dir frame
  have kept (other : frame.type ≠ .data) :
      (dir.processed frame).window.window = dir.window.window - spending frame := by
    rw [window, spending, if_neg other]
    omega
  have uncredited (other : frame.type ≠ .windowUpdate) : connCredit frame = 0 :=
    if_neg fun both => other both.1
  have unmoved (notData : frame.type ≠ .data) (notUpdate : frame.type ≠ .windowUpdate)
      (notSettings : frame.type ≠ .settings) :
      Moves frame dir opposite (dir.processed frame) opposite [] :=
    .of_ne notSettings settings (kept notData) rfl (by rw [uncredited notUpdate]; omega)
      (by rw [uncredited notUpdate]; omega)
  rw [onFrame] at accepted
  split at accepted
  · cases accepted
  split at accepted
  · cases accepted
  split at accepted
  · cases accepted
  dsimp only at accepted
  split at accepted
  case h_1 type =>
    rw [window, consume] at accepted
    split at accepted
    · cases accepted
    rename_i consumed
    split at consumed
    · cases consumed
    cases consumed
    cases accepted
    have none_credited := uncredited (by rw [type]; decide)
    refine .of_ne (by rw [type]; decide) settings ?_ rfl (by omega) (by omega)
    rw [spending, if_pos type]
  case h_2 type =>
    split at accepted
    case isTrue onStream =>
      cases accepted
      have none_credited : connCredit frame = 0 := if_neg fun both => onStream both.2
      exact .of_ne (by rw [type]; decide) settings (kept (by rw [type]; decide)) rfl (by omega)
        (by omega)
    case isFalse onConn =>
      rw [update] at accepted
      split at accepted
      · cases accepted
      rename_i updated
      split at updated
      · cases updated
      rename_i within
      cases updated
      cases accepted
      refine .of_ne (by rw [type]; decide) settings (kept (by rw [type]; decide)) rfl ?_
        fun _ => by simpa [exceeded] using within
      rw [connCredit, if_pos ⟨type, not_not.1 onConn⟩]
  case h_3 type =>
    match applied : opposite.onSettings frame with
    | ((last, late), error) =>
      rw [applied] at accepted
      cases accepted
      exact moves_onSettings type applied
  case h_4 type | h_5 type =>
    have plain := unmoved (by rw [type]; decide) (by rw [type]; decide) (by rw [type]; decide)
    split at accepted
    · cases accepted
      exact plain
    · cases accepted
      exact ⟨plain.settings, plain.spent, plain.initial, plain.credit, plain.within,
        plain.follow⟩
  case h_6 notData notUpdate notSettings _ _ =>
    cases accepted
    exact unmoved notData notUpdate notSettings

/-- What a frame does to the windows of a stream. -/
structure StreamMoves (frame : Frame) (dir opposite after oppositeAfter : StreamDirState) :
    Prop where
  spent : after.window.window = dir.window.window - spending frame
  credit : oppositeAfter.window.window = opposite.window.window + streamCredit frame
  within : 0 < streamCredit frame → oppositeAfter.window.window ≤ 0x7fffffff
  onStream : frame.type ≠ .settings

theorem StreamMoves.of_ne {dir opposite after : StreamDirState}
    (window : after.window = dir.window) (notData : frame.type ≠ .data)
    (notUpdate : frame.type ≠ .windowUpdate) (notSettings : frame.type ≠ .settings) :
    StreamMoves frame dir opposite after opposite := by
  have unspent : spending frame = 0 := if_neg notData
  have uncredited : streamCredit frame = 0 := if_neg notUpdate
  exact ⟨by rw [window]; omega, by omega, by omega, notSettings⟩

/-- What an accepted frame does to the windows of a stream. -/
theorem streamMoves_onFrame {dir opposite after oppositeAfter : StreamDirState}
    (accepted : dir.onFrame opposite frame = ((after, oppositeAfter), none)) :
    StreamMoves frame dir opposite after oppositeAfter := by
  rw [StreamDirState.onFrame] at accepted
  split at accepted
  case isTrue =>
    split at accepted
    · cases accepted
    rename_i next
    have type := not_not.1 next
    split at accepted <;> cases accepted <;>
      exact .of_ne rfl (by rw [type]; decide) (by rw [type]; decide) (by rw [type]; decide)
  case isFalse =>
    split at accepted
    case h_1 type | h_2 type =>
      split at accepted <;> cases accepted <;>
        exact .of_ne rfl (by rw [type]; decide) (by rw [type]; decide) (by rw [type]; decide)
    case h_3 type =>
      rw [consume] at accepted
      split at accepted
      · cases accepted
      rename_i consumed
      split at consumed
      · cases consumed
      cases consumed
      cases accepted
      have uncredited : streamCredit frame = 0 := if_neg (by rw [type]; decide)
      refine ⟨?_, by omega, by omega, by rw [type]; decide⟩
      rw [spending, if_pos type]
    case h_4 type =>
      rw [update] at accepted
      split at accepted
      · cases accepted
      rename_i updated
      split at updated
      · cases updated
      rename_i within
      cases updated
      cases accepted
      have unspent : spending frame = 0 := if_neg (by rw [type]; decide)
      refine ⟨by omega, ?_, fun _ => by simpa [exceeded] using within,
        by rw [type]; decide⟩
      rw [streamCredit, if_pos type]
    case h_5 type | h_10 type =>
      cases accepted
      exact .of_ne rfl (by rw [type]; decide) (by rw [type]; decide) (by rw [type]; decide)
    all_goals cases accepted

end Directions

section Operations

variable {frame : Frame} {conn after : ConnState} {changes : List (UInt32 × UInt32)}

theorem moves_onRecvFrame (accepted : conn.onRecvFrame frame = ((after, changes), none)) :
    Moves frame conn.local conn.peer after.local after.peer changes := by
  rw [onRecvFrame] at accepted
  split at accepted
  · cases accepted
  split at accepted
  · cases accepted
  rename_i taken
  cases accepted
  exact moves_onFrame taken

theorem moves_onSendFrame (accepted : conn.onSendFrame frame = ((after, changes), none)) :
    Moves frame conn.peer conn.local after.peer after.local changes := by
  rw [onSendFrame] at accepted
  split at accepted
  · cases accepted
  split at accepted
  · cases accepted
  rename_i taken
  cases accepted
  exact moves_onFrame taken

theorem maybeClosed_dirs (stream : StreamState) :
    (conn.maybeClosedByHigherCreation stream).peer = stream.peer ∧
      (conn.maybeClosedByHigherCreation stream).local = stream.local := by
  simp only [maybeClosedByHigherCreation, StreamState.maybeCloseByHigherCreation,
    apply_ite, apply_ite, ite_self, and_self]

variable {stream streamAfter : StreamState}

/-- What an accepted frame of the peer does to the windows of its stream and of the connection. -/
theorem moves_onRecvStreamFrame
    (accepted : conn.onRecvStreamFrame frame stream = ((after, streamAfter), none)) :
    (∃ changes, Moves frame conn.local conn.peer after.local after.peer changes) ∧
      StreamMoves frame stream.local stream.peer streamAfter.local streamAfter.peer := by
  rw [onRecvStreamFrame] at accepted
  split at accepted
  · cases accepted
  split at accepted
  · cases accepted
  rename_i changes taken
  simp only at accepted
  split at accepted
  · cases accepted
  rename_i moved
  cases accepted
  have dirs := @maybeClosed_dirs conn stream
  rw [← dirs.1, ← dirs.2]
  obtain ⟨-, dirs, rfl⟩ := StreamState.onRecvFrame_ok moved
  refine ⟨⟨changes, ?_⟩, streamMoves_onFrame (Prod.ext rfl dirs)⟩
  rw [onStreamFrameProcessed_peer, onStreamFrameProcessed_local]
  exact moves_onRecvFrame taken

/-- What an accepted frame on a stream does to the windows of the stream and of the connection. -/
theorem moves_onSendStreamFrame
    (accepted : conn.onSendStreamFrame frame stream = ((after, streamAfter), none)) :
    (∃ changes, Moves frame conn.peer conn.local after.peer after.local changes) ∧
      StreamMoves frame stream.peer stream.local streamAfter.peer streamAfter.local := by
  rw [onSendStreamFrame] at accepted
  split at accepted
  · cases accepted
  split at accepted
  · cases accepted
  rename_i changes taken
  simp only at accepted
  split at accepted
  · cases accepted
  rename_i moved
  cases accepted
  have dirs := @maybeClosed_dirs conn stream
  rw [← dirs.1, ← dirs.2]
  obtain ⟨-, dirs, rfl⟩ := StreamState.onSendFrame_ok moved
  refine ⟨⟨changes, ?_⟩, streamMoves_onFrame (Prod.ext rfl dirs)⟩
  rw [onStreamFrameProcessed_peer, onStreamFrameProcessed_local]
  exact moves_onSendFrame taken

end Operations

section Balance

def Entry.sendWindow (entry : Entry) : Int := entry.state.peer.window.window

def Entry.recvWindow (entry : Entry) : Int := entry.state.local.window.window

/-- The window of a stream: 131070, moved by changes of the initial size if it is in the map, and by
the frames. -/
def Entry.Balances (entry : Entry) (initial : UInt32) (account : Account) : Prop :=
  entry.sendWindow =
    131070 + (if entry.mapped then (initial.toNat - account.opened.toNat : Int) else 0) +
      account.credit - account.spent

/-- The windows and the books agree. -/
structure Balanced (handler : Handler) (books : Books) : Prop where
  initial : handler.conn.peer.settings.initialWindowSize = books.initial
  conn : handler.conn.peer.window.window = books.initial.toNat + books.credit - books.spent
  stream : ∀ (index : Nat) (entry : Entry), handler.streams[index]? = some entry →
    entry.Balances books.initial (books.streams index)

/-- No window is larger than the protocol allows. -/
structure Bounded (handler : Handler) : Prop where
  send : handler.conn.peer.window.window ≤ 0x7fffffff
  recv : handler.conn.local.window.window ≤ 0x7fffffff
  stream : ∀ entry ∈ handler.streams, entry.sendWindow ≤ 0x7fffffff ∧ entry.recvWindow ≤ 0x7fffffff

variable {handler : Handler} {books : Books} {frame : Frame}

theorem Balanced.start (isServer : Bool) :
    Balanced (start isServer).handler (start isServer).books where
  initial := rfl
  conn := by cases isServer <;> decide
  stream := by simp [FlowControl.start]

theorem newStream_dirs (conn : ConnState) :
    conn.newStream.1.peer = conn.peer ∧ conn.newStream.1.local = conn.local := by
  rw [newStream]
  dsimp only
  split
  · exact ⟨rfl, rfl⟩
  · split <;> exact ⟨rfl, rfl⟩

@[simp] theorem Entry.followPeer_mapped (changes : List (UInt32 × UInt32)) (entry : Entry) :
    (entry.followPeer changes).mapped = entry.mapped := by
  rw [followPeer]
  split <;> rfl

@[simp] theorem Entry.followLocal_mapped (changes : List (UInt32 × UInt32)) (entry : Entry) :
    (entry.followLocal changes).mapped = entry.mapped := by
  rw [followLocal]
  split <;> rfl

@[simp] theorem Entry.followPeer_recvWindow (changes : List (UInt32 × UInt32)) (entry : Entry) :
    (entry.followPeer changes).recvWindow = entry.recvWindow := by
  rw [followPeer]
  split <;> rfl

@[simp] theorem Entry.followLocal_sendWindow (changes : List (UInt32 × UInt32)) (entry : Entry) :
    (entry.followLocal changes).sendWindow = entry.sendWindow := by
  rw [followLocal]
  split <;> rfl

variable {changes : List (UInt32 × UInt32)} {after : Handler}

theorem Entry.followPeer_sendWindow {difference : Int}
    (follows : ∀ flow, (follow flow changes).window = flow.window + difference) (entry : Entry) :
    (entry.followPeer changes).sendWindow =
      entry.sendWindow + if entry.mapped then difference else 0 := by
  rw [followPeer]
  split
  · exact follows _
  · exact (Int.add_zero _).symm

theorem Entry.followLocal_recvWindow {difference : Int}
    (follows : ∀ flow, (follow flow changes).window = flow.window + difference) (entry : Entry) :
    (entry.followLocal changes).recvWindow =
      entry.recvWindow + if entry.mapped then difference else 0 := by
  rw [followLocal]
  split
  · exact follows _
  · exact (Int.add_zero _).symm

theorem Balanced.append (balanced : Balanced handler books) (id : Int) (mapped : Bool) :
    Balanced { handler with streams := handler.streams ++ [⟨.ofId id, mapped⟩] }
      (books.opening handler.streams.length) where
  initial := balanced.initial
  conn := balanced.conn
  stream index entry found := by
    rw [getElem?_append] at found
    split at found
    case isTrue below =>
      rw [Books.opening, Books.adjust]
      dsimp only
      rw [Function.update_of_ne (Nat.ne_of_lt below)]
      exact balanced.stream _ _ found
    case isFalse above =>
      obtain ⟨last, rfl⟩ : index = handler.streams.length ∧ ⟨.ofId id, mapped⟩ = entry := by
        rw [getElem?_singleton] at found
        split at found
        case isTrue zero => exact ⟨by omega, some.inj found⟩
        case isFalse => cases found
      rw [last, Books.opening, Books.adjust, Entry.Balances]
      cases mapped <;> simp [Entry.sendWindow, StreamState.ofId]

theorem Balanced.openStream (balanced : Balanced handler books) :
    Balanced handler.openStream (books.opening handler.streams.length) := by
  rw [Handler.openStream]
  have dirs := newStream_dirs handler.conn
  generalize handler.conn.newStream = result at dirs ⊢
  obtain ⟨conn, id⟩ := result
  have again : Balanced { handler with conn := conn } books :=
    ⟨by rw [← balanced.initial]; exact congrArg (·.settings.initialWindowSize) dirs.1,
      by rw [← balanced.conn]; exact congrArg (·.window.window) dirs.1, balanced.stream⟩
  dsimp only
  split
  case isTrue =>
    refine ⟨again.initial, again.conn, fun index entry found => ?_⟩
    have below := (List.getElem?_eq_some_iff.1 found).1
    rw [Books.opening, Books.adjust]
    dsimp only
    rw [Function.update_of_ne (Nat.ne_of_lt below)]
    exact balanced.stream _ _ found
  case isFalse => exact again.append id _

/-- What a handler has done that has sent a frame of the connection. -/
theorem sendConn_ok {message : String} (sent : handler.sendConn frame message = (after, none)) :
    ∃ conn changes, handler.conn.onSendFrame frame = ((conn, changes), none) ∧
      after = ⟨conn, handler.streams.map (Entry.followLocal changes)⟩ := by
  rw [Handler.sendConn] at sent
  match taken : handler.conn.onSendFrame frame with
  | ((conn, changes), some error) =>
    rw [taken] at sent
    cases sent
  | ((conn, changes), none) =>
    rw [taken] at sent
    exact ⟨conn, changes, rfl, (Prod.mk.inj sent).1.symm⟩

theorem Balanced.sendConn {message : String} (balanced : Balanced handler books)
    (sent : handler.sendConn frame message = (after, none)) (other : frame.type ≠ .data) :
    Balanced after books := by
  obtain ⟨_, _, taken, rfl⟩ := sendConn_ok sent
  have moves := moves_onSendFrame taken
  have unspent : spending frame = 0 := if_neg other
  refine ⟨by rw [← balanced.initial, moves.settings], ?_, fun index entry found => ?_⟩
  · rw [moves.spent, ← balanced.conn]
    omega
  · rw [getElem?_map, map_eq_some_iff] at found
    obtain ⟨before, found, rfl⟩ := found
    have balances := balanced.stream _ _ found
    rw [Entry.Balances] at balances ⊢
    rw [Entry.followLocal_sendWindow, Entry.followLocal_mapped, balances]

theorem Balanced.recvConn {conn : ConnState} (balanced : Balanced handler books)
    (taken : handler.conn.onRecvFrame frame = ((conn, changes), none)) :
    Balanced ⟨conn, handler.streams.map (Entry.followPeer changes)⟩
      { books with
        initial := initialAfter books.initial frame
        credit := books.credit + connCredit frame } := by
  have moves := moves_onRecvFrame taken
  have initial : conn.peer.settings.initialWindowSize = initialAfter books.initial frame := by
    rw [moves.initial, balanced.initial]
  refine ⟨initial, ?_, fun index entry found => ?_⟩
  · rw [moves.credit, initial, balanced.initial, balanced.conn]
    dsimp only
    omega
  · rw [getElem?_map, map_eq_some_iff] at found
    obtain ⟨before, found, rfl⟩ := found
    have balances := balanced.stream _ _ found
    rw [Entry.Balances] at balances ⊢
    rw [Entry.followPeer_sendWindow moves.follow, Entry.followPeer_mapped, balances, initial,
      balanced.initial]
    dsimp only
    split <;> omega

theorem locate_mapped (handler : Handler) (id : Int) :
    ∃ entry, (handler.locate id).1.streams[(handler.locate id).2]? = some entry ∧
      entry.mapped := by
  rw [Handler.locate]
  match found : handler.find id with
  | some index =>
    rw [Handler.find, findIdx?_eq_some_iff_getElem] at found
    obtain ⟨below, holds, -⟩ := found
    exact ⟨_, getElem?_eq_getElem _, (Bool.and_eq_true_iff.1 holds).1⟩
  | none => exact ⟨⟨.ofId id, true⟩, by simp, rfl⟩

theorem Balanced.locate (balanced : Balanced handler books) (id : Int) :
    Balanced (handler.locate id).1
      (if (handler.find id).isNone then books.opening (handler.locate id).2 else books) := by
  rw [Handler.locate]
  match handler.find id with
  | some index => exact balanced
  | none => exact balanced.append id true

/-- One stream and the connection move together with the books. -/
theorem Balanced.adjust {index : Nat} {entry after : Entry} {conn : ConnState}
    (connSpent credit spent : Nat) (balanced : Balanced handler books)
    (found : handler.streams[index]? = some entry) (mapped : after.mapped = entry.mapped)
    (initial : conn.peer.settings.initialWindowSize = books.initial)
    (connWindow : conn.peer.window.window = handler.conn.peer.window.window - connSpent)
    (sendWindow : after.sendWindow = entry.sendWindow + credit - spent) :
    Balanced ⟨conn, handler.streams.set index after⟩
      ({ books with spent := books.spent + connSpent }.adjust index fun account =>
        { account with credit := account.credit + credit, spent := account.spent + spent }) := by
  refine ⟨initial, ?_, fun other current set => ?_⟩
  · rw [connWindow, balanced.conn]
    dsimp only [Books.adjust]
    omega
  · rw [getElem?_set] at set
    split at set
    case isTrue same =>
      subst same
      split at set
      case isTrue =>
        cases set
        have balances := balanced.stream _ _ found
        rw [Entry.Balances] at balances ⊢
        dsimp only [Books.adjust]
        rw [Function.update_self, mapped]
        dsimp only
        omega
      case isFalse => cases set
    case isFalse different =>
      dsimp only [Books.adjust]
      rw [Function.update_of_ne (Ne.symm different)]
      exact balanced.stream _ _ set

/-- What a handler has done that has received a frame of the connection; PING is answered. -/
theorem recvFrame_conn_ok (isConn : Handler.isConnection frame)
    (received : handler.recvFrame frame = (after, none)) :
    ∃ conn changes, handler.conn.onRecvFrame frame = ((conn, changes), none) ∧
      (after = ⟨conn, handler.streams.map (Entry.followPeer changes)⟩ ∨
        ∃ opaqueData, Handler.sendPing ⟨conn, handler.streams.map (Entry.followPeer changes)⟩
          opaqueData true = (after, none)) := by
  rw [Handler.recvFrame, if_pos isConn] at received
  split at received
  · cases received
  match taken : handler.conn.onRecvFrame frame with
  | ((conn, changes), some error) =>
    rw [taken] at received
    cases received
  | ((conn, changes), none) =>
    rw [taken] at received
    refine ⟨conn, changes, rfl, ?_⟩
    dsimp only at received
    split at received
    case h_1 => cases received
    case h_2 =>
      split at received
      case isTrue => exact .inl (Prod.mk.inj received).1.symm
      case isFalse => exact .inr ⟨_, received⟩
    case h_3 => exact .inl (Prod.mk.inj received).1.symm

/-- What a handler has done that has received a frame on a stream. -/
theorem recvFrame_stream_ok (onStream : Handler.isConnection frame = false)
    (received : handler.recvFrame frame = (after, none)) :
    ∃ entry conn state, (handler.locate frame.id).1.streams[(handler.locate frame.id).2]? = some entry ∧
      (handler.locate frame.id).1.conn.onRecvStreamFrame frame entry.state = ((conn, state), none) ∧
      after = ⟨conn, (handler.locate frame.id).1.streams.set (handler.locate frame.id).2
        { entry with state := state }⟩ := by
  obtain ⟨entry, found, -⟩ := locate_mapped _ _
  rw [Handler.recvFrame, if_neg (by rw [onStream]; decide)] at received
  dsimp only at received
  rw [found] at received
  match taken : (handler.locate frame.id).1.conn.onRecvStreamFrame frame entry.state with
  | ((conn, state), error) =>
    simp only [taken] at received
    obtain ⟨rfl, rfl⟩ := received
    exact ⟨entry, conn, state, found, taken, rfl⟩

/-- WINDOW_UPDATE on a stream leaves the window of the connection alone. -/
theorem connCredit_of_stream (onStream : Handler.isConnection frame = false) :
    connCredit frame = 0 := by
  refine if_neg fun both => ?_
  rw [Handler.isConnection, both.1, both.2] at onStream
  cases onStream

/-- What a handler has done that has sent a frame on a stream. -/
theorem sendStream_ok {index : Nat} (sent : handler.sendStream index frame = (after, none)) :
    ∃ entry conn state, handler.streams[index]? = some entry ∧
      handler.conn.onSendStreamFrame frame entry.state = ((conn, state), none) ∧
      after = ⟨conn, handler.streams.set index { entry with state := state }⟩ := by
  rw [Handler.sendStream] at sent
  match found : handler.streams[index]? with
  | none =>
    rw [found] at sent
    cases sent
  | some entry =>
    rw [found] at sent
    dsimp only at sent
    split at sent
    · cases sent
    match taken : handler.conn.onSendStreamFrame frame entry.state with
    | ((conn, state), some error) =>
      rw [taken] at sent
      cases sent
    | ((conn, state), none) =>
      rw [taken] at sent
      exact ⟨entry, conn, state, rfl, taken, (Prod.mk.inj sent).1.symm⟩

theorem Balanced.step {world : World} {op : Op} (balanced : Balanced world.handler world.books)
    (succeeds : (step world op).2 = none) :
    Balanced (step world op).1.handler (step world op).1.books := by
  obtain ⟨handler, books⟩ := world
  change Balanced handler books at balanced
  change (handler.apply op).2 = none at succeeds
  change Balanced (handler.apply op).1 (books.record handler op)
  generalize result : handler.apply op = applied at succeeds ⊢
  obtain ⟨_, error⟩ := applied
  obtain rfl : error = none := succeeds
  cases op with
  | openStream =>
    cases result
    exact balanced.openStream
  | recv frame =>
    rw [Books.record]
    cases kind : Handler.isConnection frame with
    | true =>
      obtain ⟨_, _, taken, rfl | ⟨_, answered⟩⟩ := recvFrame_conn_ok kind result
      · exact balanced.recvConn taken
      · exact (balanced.recvConn taken).sendConn answered nofun
    | false =>
      obtain ⟨_, conn, _, found, taken, rfl⟩ := recvFrame_stream_ok kind result
      obtain ⟨⟨_, moves⟩, streamMoves⟩ := moves_onRecvStreamFrame taken
      have located := balanced.locate frame.id
      have same : conn.peer.settings.initialWindowSize =
          (handler.locate frame.id).1.conn.peer.settings.initialWindowSize := by
        rw [moves.initial, initialAfter, if_neg fun both => streamMoves.onStream both.1]
      have uncredited := connCredit_of_stream kind
      refine located.adjust 0 _ 0 found rfl (same.trans located.initial) ?_ ?_
      · rw [moves.credit, same]
        omega
      · exact streamMoves.credit.trans (Int.sub_zero _).symm
  | send index frame =>
    obtain ⟨_, _, _, found, taken, rfl⟩ := sendStream_ok result
    obtain ⟨⟨_, moves⟩, streamMoves⟩ := moves_onSendStreamFrame taken
    refine balanced.adjust _ 0 _ found rfl ?_ moves.spent ?_
    · exact (congrArg _ moves.settings).trans balanced.initial
    · rw [Int.natCast_zero, Int.add_zero]
      exact streamMoves.spent
  | sendSettings | sendSettingsAck | sendPing | sendGoaway =>
    simp only [Handler.apply] at result
    exact balanced.sendConn result nofun

end Balance

section Bounds

variable {handler : Handler} {frame : Frame}

/-- A window that moves with the initial size stays within its bound. -/
def Fits (old new : UInt32) (window : Int) : Prop :=
  window + (new.toNat - old.toNat) ≤ 0x7fffffff
deriving Decidable

/-- SETTINGS that are received move the windows of the sending direction within their bound. -/
def RecvFits (handler : Handler) (frame : Frame) : Prop :=
  let old := handler.conn.peer.settings.initialWindowSize
  Fits old (initialAfter old frame) handler.conn.peer.window.window ∧
    ∀ entry ∈ handler.streams, entry.mapped = true → Fits old (initialAfter old frame) entry.sendWindow
deriving Decidable

/-- SETTINGS that are sent move the windows of the receiving direction within their bound. -/
def SendFits (handler : Handler) (frame : Frame) : Prop :=
  let old := handler.conn.local.settings.initialWindowSize
  Fits old (initialAfter old frame) handler.conn.local.window.window ∧
    ∀ entry ∈ handler.streams, entry.mapped = true → Fits old (initialAfter old frame) entry.recvWindow
deriving Decidable

/-- SETTINGS do not move a window out of its bound; all other operations are allowed. -/
def Allowed (handler : Handler) : Op → Prop
  | .recv frame => frame.type = .settings → RecvFits handler frame
  | .sendSettings settings => SendFits handler { payload := .settings settings }
  | _ => True

instance (handler : Handler) (op : Op) : Decidable (Allowed handler op) := by
  cases op <;> dsimp only [Allowed] <;> infer_instance

/-- Where the initial size does not change, nothing moves out of its bound. -/
theorem Bounded.recvFits (bounded : Bounded handler) (other : frame.type ≠ .settings) :
    RecvFits handler frame := by
  have same : initialAfter handler.conn.peer.settings.initialWindowSize frame =
      handler.conn.peer.settings.initialWindowSize := if_neg fun both => other both.1
  simp only [RecvFits, Fits, same, Int.sub_self, Int.add_zero]
  exact ⟨bounded.send, fun entry member _ => (bounded.stream _ member).1⟩

theorem Bounded.sendFits (bounded : Bounded handler)
    (same : initialAfter handler.conn.local.settings.initialWindowSize frame =
      handler.conn.local.settings.initialWindowSize) : SendFits handler frame := by
  simp only [SendFits, Fits, same, Int.sub_self, Int.add_zero]
  exact ⟨bounded.recv, fun entry member _ => (bounded.stream _ member).2⟩

variable {changes : List (UInt32 × UInt32)}

/-- A direction that receives credit stays within its bound. -/
theorem Moves.bounded {dir opposite after oppositeAfter : ConnDirState}
    (moves : Moves frame dir opposite after oppositeAfter changes)
    (fits : Fits opposite.settings.initialWindowSize
      (initialAfter opposite.settings.initialWindowSize frame) opposite.window.window) :
    oppositeAfter.window.window ≤ 0x7fffffff := by
  by_cases credited : 0 < connCredit frame
  · exact moves.within credited
  · rw [Fits, ← moves.initial] at fits
    rw [moves.credit]
    omega

theorem Bounded.append (bounded : Bounded handler) (id : Int) (mapped : Bool) :
    Bounded { handler with streams := handler.streams ++ [⟨.ofId id, mapped⟩] } := by
  refine ⟨bounded.send, bounded.recv, fun entry member => ?_⟩
  obtain earlier | rfl := mem_snoc.1 member
  · exact bounded.stream _ earlier
  · exact ⟨show 131070 ≤ 0x7fffffff by decide, show 131070 ≤ 0x7fffffff by decide⟩

theorem Bounded.openStream (bounded : Bounded handler) : Bounded handler.openStream := by
  rw [Handler.openStream]
  have dirs := newStream_dirs handler.conn
  generalize handler.conn.newStream = result at dirs ⊢
  obtain ⟨conn, id⟩ := result
  have again : Bounded { handler with conn := conn } :=
    ⟨by rw [dirs.1]; exact bounded.send, by rw [dirs.2]; exact bounded.recv, bounded.stream⟩
  dsimp only
  split
  · exact again
  · exact again.append id _

theorem Bounded.locate (bounded : Bounded handler) (id : Int) : Bounded (handler.locate id).1 := by
  rw [Handler.locate]
  match handler.find id with
  | some index => exact bounded
  | none => exact bounded.append id true

theorem Bounded.sendConn {message : String} {after : Handler} (bounded : Bounded handler)
    (sent : handler.sendConn frame message = (after, none)) (fits : SendFits handler frame) :
    Bounded after := by
  obtain ⟨_, _, taken, rfl⟩ := sendConn_ok sent
  have moves := moves_onSendFrame taken
  refine ⟨?_, moves.bounded fits.1, fun entry member => ?_⟩
  · have := bounded.send
    rw [moves.spent]
    omega
  · obtain ⟨before, earlier, rfl⟩ := mem_map.1 member
    obtain ⟨send, recv⟩ := bounded.stream _ earlier
    refine ⟨by rw [Entry.followLocal_sendWindow]; exact send, ?_⟩
    rw [Entry.followLocal_recvWindow moves.follow, moves.initial]
    split
    case isTrue mapped => exact fits.2 _ earlier mapped
    case isFalse => rwa [Int.add_zero]

theorem Bounded.recvConn {conn : ConnState} (bounded : Bounded handler)
    (taken : handler.conn.onRecvFrame frame = ((conn, changes), none))
    (fits : RecvFits handler frame) :
    Bounded ⟨conn, handler.streams.map (Entry.followPeer changes)⟩ := by
  have moves := moves_onRecvFrame taken
  refine ⟨moves.bounded fits.1, ?_, fun entry member => ?_⟩
  · have := bounded.recv
    rw [moves.spent]
    omega
  · obtain ⟨before, earlier, rfl⟩ := mem_map.1 member
    obtain ⟨send, recv⟩ := bounded.stream _ earlier
    refine ⟨?_, by rw [Entry.followPeer_recvWindow]; exact recv⟩
    rw [Entry.followPeer_sendWindow moves.follow, moves.initial]
    split
    case isTrue mapped => exact fits.2 _ earlier mapped
    case isFalse => rwa [Int.add_zero]

theorem StreamMoves.bounded {dir opposite after oppositeAfter : StreamDirState}
    (moves : StreamMoves frame dir opposite after oppositeAfter)
    (dirBound : dir.window.window ≤ 0x7fffffff) (bound : opposite.window.window ≤ 0x7fffffff) :
    after.window.window ≤ 0x7fffffff ∧ oppositeAfter.window.window ≤ 0x7fffffff := by
  refine ⟨by rw [moves.spent]; omega, ?_⟩
  by_cases credited : 0 < streamCredit frame
  · exact moves.within credited
  · rw [moves.credit]
    omega

theorem Bounded.set {index : Nat} {after : Entry} {conn : ConnState} (bounded : Bounded handler)
    (send : conn.peer.window.window ≤ 0x7fffffff) (recv : conn.local.window.window ≤ 0x7fffffff)
    (stream : after.sendWindow ≤ 0x7fffffff ∧ after.recvWindow ≤ 0x7fffffff) :
    Bounded ⟨conn, handler.streams.set index after⟩ := by
  refine ⟨send, recv, fun entry member => ?_⟩
  obtain earlier | rfl := mem_or_eq_of_mem_set member
  · exact bounded.stream _ earlier
  · exact stream

theorem Bounded.step {world : World} {op : Op} (bounded : Bounded world.handler)
    (succeeds : (step world op).2 = none) (allowed : Allowed world.handler op) :
    Bounded (step world op).1.handler := by
  obtain ⟨handler, _⟩ := world
  change Bounded handler at bounded
  change (handler.apply op).2 = none at succeeds
  change Bounded (handler.apply op).1
  generalize result : handler.apply op = applied at succeeds ⊢
  obtain ⟨_, error⟩ := applied
  obtain rfl : error = none := succeeds
  cases op with
  | openStream =>
    cases result
    exact bounded.openStream
  | recv frame =>
    have fits : RecvFits handler frame := by
      by_cases settings : frame.type = .settings
      · exact allowed settings
      · exact bounded.recvFits settings
    cases kind : Handler.isConnection frame with
    | true =>
      obtain ⟨_, _, taken, rfl | ⟨_, answered⟩⟩ := recvFrame_conn_ok kind result
      · exact bounded.recvConn taken fits
      · have again := bounded.recvConn taken fits
        exact again.sendConn answered (again.sendFits rfl)
    | false =>
      obtain ⟨entry, _, _, found, taken, rfl⟩ := recvFrame_stream_ok kind result
      obtain ⟨⟨_, moves⟩, streamMoves⟩ := moves_onRecvStreamFrame taken
      have located := bounded.locate frame.id
      obtain ⟨send, recv⟩ := located.stream _ (mem_of_getElem? found)
      have streams := streamMoves.bounded recv send
      refine located.set (moves.bounded (located.recvFits streamMoves.onStream).1) ?_
        ⟨streams.2, streams.1⟩
      have := located.recv
      rw [moves.spent]
      omega
  | send index frame =>
    obtain ⟨entry, _, _, found, taken, rfl⟩ := sendStream_ok result
    obtain ⟨⟨_, moves⟩, streamMoves⟩ := moves_onSendStreamFrame taken
    obtain ⟨send, recv⟩ := bounded.stream _ (mem_of_getElem? found)
    have unchanged : initialAfter handler.conn.local.settings.initialWindowSize frame =
        handler.conn.local.settings.initialWindowSize :=
      if_neg fun both => streamMoves.onStream both.1
    refine bounded.set ?_ (moves.bounded (bounded.sendFits unchanged).1)
      (streamMoves.bounded send recv)
    have := bounded.send
    rw [moves.spent]
    omega
  | sendSettings settings =>
    rw [Handler.apply] at result
    exact bounded.sendConn result allowed
  | sendSettingsAck | sendPing | sendGoaway =>
    simp only [Handler.apply]
      at result
    exact bounded.sendConn result (bounded.sendFits rfl)

theorem Bounded.start (isServer : Bool) : Bounded (start isServer).handler where
  send := by cases isServer <;> decide
  recv := by cases isServer <;> decide
  stream := by simp [FlowControl.start]

end Bounds

section Run

/-- In every run without errors, the window of the connection is exact while the initial size is
65535, that of a stream if it was made while the initial size was 131070; no window exceeds its
bound unless SETTINGS move it out. -/
theorem windows_accounted (isServer : Bool) (ops : List Op)
    (quiet : ∀ event ∈ trace step (start isServer) ops, event.2 = none) :
    let world := final step (start isServer) ops
    let books := world.books
    (world.handler.conn.peer.window.window = 65535 + books.credit - books.spent ↔
      books.initial = 65535) ∧
    (∀ (index : Nat) (entry : Entry), world.handler.streams[index]? = some entry →
      (entry.sendWindow = books.initial.toNat + (books.streams index).credit -
          (books.streams index).spent ↔
        if entry.mapped then (books.streams index).opened = 131070 else books.initial = 131070)) ∧
    (Guarded step (fun world op => Allowed world.handler op) (start isServer) ops →
      Bounded world.handler) := by
  have succeeds := @guarded_of_trace _ _ _ _ (fun answer => answer = none) _ _ quiet
  have balanced := @invariant_of_guarded _ _ _ _ _ (fun world _ => Balanced _ world.books)
    (fun _ _ _ balanced succeeds => balanced.step succeeds) _ [] ops (Balanced.start _) succeeds
  refine ⟨?_, fun index entry found => ?_, fun allowed => ?_⟩
  · rw [balanced.conn, ← UInt32.toNat_inj, show (65535 : UInt32).toNat = 65535 from rfl]
    omega
  · have balances := balanced.stream _ _ found
    rw [balances, ← UInt32.toNat_inj, ← UInt32.toNat_inj,
      show (131070 : UInt32).toNat = 131070 from rfl]
    split <;> omega
  · exact @invariant_of_guarded _ _ _ _ _ (fun world _ => Bounded world.handler)
      (fun _ _ _ bounded both => bounded.step both.1 both.2) _ [] ops (Bounded.start _)
      (succeeds.and allowed)

/-- The payload of SETTINGS with one initial window size, of three bytes. -/
def initialSettings (size : UInt8 × UInt8 × UInt8) : Bytes :=
  [0, 4, 0, size.1, size.2.1, size.2.2]

/-- The peer sets the initial size to 131070, a stream is made and sends, the peer gives credit and
goes back to 65535. -/
theorem windows_accounted_exchange :
    let ops : List Op :=
      [.recv { id := 0, payload := .settings (initialSettings (1, 0xff, 0xfe)) },
       .openStream,
       .send 0 { id := 1, flag := 4, payload := .header 0 {} [0x82] },
       .send 0 { id := 1, payload := .data 0 [1, 2, 3] },
       .recv { id := 1, payload := .windowUpdate 10 },
       .recv { id := 0, payload := .windowUpdate 20 },
       .recv { id := 0, payload := .settings (initialSettings (0, 0xff, 0xff)) }]
    let world := final step (start false) ops
    world.handler.conn.peer.window.window = 65535 + world.books.credit - world.books.spent ∧
    (∀ entry : Entry, world.handler.streams[0]? = some entry → entry.mapped →
      entry.sendWindow = world.books.initial.toNat + (world.books.streams 0).credit -
        (world.books.streams 0).spent) ∧
    Bounded world.handler := by
  intro ops world
  have accounted := windows_accounted false ops (by decide +kernel)
  refine ⟨accounted.1.2 (by decide +kernel), fun entry found mapped => ?_,
    accounted.2.2 (by decide +kernel)⟩
  exact (accounted.2.1 0 _ found).2 (by rw [if_pos mapped]; decide +kernel)

/-- A setting moves the window of the connection; a new stream has twice the initial size; and a
setting takes a window over its bound. -/
theorem windows_not_accounted :
    (let ops : List Op := [.recv { id := 0, payload := .settings (initialSettings (1, 0x86, 0xa0)) }]
     let world := final step (start false) ops
     (∀ event ∈ trace step (start false) ops, event.2 = none) ∧
       world.books.credit = 0 ∧ world.books.spent = 0 ∧
       world.handler.conn.peer.window.window = 100000) ∧
    (let world := final step (start false) [.openStream]
     world.books.initial = 65535 ∧ world.handler.streams.map Entry.sendWindow = [131070]) ∧
    (let ops : List Op :=
      [.recv { id := 0, payload := .windowUpdate 0x7fff0000 },
       .recv { id := 0, payload := .settings (initialSettings (1, 0, 0)) }]
     let world := final step (start false) ops
     (∀ event ∈ trace step (start false) ops, event.2 = none) ∧
       world.handler.conn.peer.window.window = 0x80000000) := by
  decide +kernel

end Run

end Futils.Http2.FlowControl
