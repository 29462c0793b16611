import Futils.Quic.Resend
import Futils.Quic.Frame.Stream
import Futils.Quic.Stream.RecvSorter
import Futils.Quic.Stream.SendState

/-!
# Credit and state of a receiving stream

`RecvUniStreamState` is the state machine of a receiving stream.  Its limiter counts the highest
offset received, which is the final size once that is known.  `recv_impl` and `recv_reset` charge the
connection for the part of a frame that is new.
-/

namespace Futils.Quic.Stream

open Quic.Frame Limiter

inductive RecvState
  | preRecv
  | recv
  | sizeKnown
  | dataRecved
  | resetRecved
  | dataRead
  | resetRead
  deriving DecidableEq

structure RecvUniStreamState where
  limit : Limiter := {}
  /-- Error code of a reset, or of STOP_SENDING. -/
  errorCode : Nat := 0
  iniLimit : Nat := 0
  state : RecvState := .preRecv
  stopRequired : Bool := false
  shouldSendLimitUpdate : Bool := false
  deriving DecidableEq

namespace RecvUniStreamState

variable (self : RecvUniStreamState)

def updateRecvLimit (newLimit : Nat) : RecvUniStreamState × Bool :=
  let (limit, raised) := self.limit.updateLimit newLimit
  let should := raised || self.shouldSendLimitUpdate
  ({ self with limit := limit, shouldSendLimitUpdate := should }, should)

def setRecvLimit (newLimit : Nat) : RecvUniStreamState × Bool :=
  match self.limit.setLimit newLimit with
  | (limit, true) => ({ self with limit := limit, iniLimit := newLimit }, true)
  | (_, false) => (self, false)

def recvLimit : Nat := self.limit.limit

def recvBytes : Nat := self.limit.used

def isRecv : Bool := self.state = .preRecv || self.state = .recv

def canRecv : Bool := self.isRecv || self.state = .sizeKnown

def isSizeKnown : Bool := self.state = .resetRecved || self.state = .sizeKnown

def isTerminalState : Bool := self.state = .dataRead || self.state = .resetRead

def recv (recvMax : Nat) : RecvUniStreamState × Bool :=
  if self.isSizeKnown && recvMax > self.recvBytes then (self, false)
  else if !self.canRecv then (self, false)
  else
    match self.limit.updateUse recvMax with
    | (_, false) => (self, false)
    | (limit, true) =>
      ({ self with
        limit := limit, state := if self.state ≠ .sizeKnown then .recv else .sizeKnown }, true)

def sizeKnown : RecvUniStreamState × Bool :=
  if self.state = .sizeKnown then (self, true)
  else if self.state ≠ .recv then (self, false)
  else ({ self with state := .sizeKnown }, true)

def canStopSending : Bool :=
  self.state ≠ .resetRecved && self.state ≠ .resetRead && self.state ≠ .dataRead

def reset (finSize code : Nat) : RecvUniStreamState × Bool :=
  if self.isTerminalState then (self, true)
  else if self.isSizeKnown && finSize ≠ self.recvBytes then (self, false)
  else
    match self.limit.updateUse finSize with
    | (_, false) => (self, false)
    | (limit, true) =>
      ({ self with limit := limit, state := .resetRecved, errorCode := code }, true)

def stopSending (code : Nat) : RecvUniStreamState × Bool :=
  if !self.canStopSending then (self, false)
  else ({ self with errorCode := code, stopRequired := true }, true)

def maxStreamDataSent : RecvUniStreamState := { self with shouldSendLimitUpdate := false }

def resetRead : RecvUniStreamState × Bool :=
  if self.state ≠ .resetRecved then (self, false) else ({ self with state := .resetRead }, true)

def recved : RecvUniStreamState × Bool :=
  if self.state ≠ .sizeKnown then (self, false) else ({ self with state := .dataRecved }, true)

def dataRead : RecvUniStreamState × Bool :=
  if self.state ≠ .dataRecved then (self, false) else ({ self with state := .dataRead }, true)

end RecvUniStreamState

/-- What the application and the sender do with a receiving stream. -/
inductive RecvUserOp
  | updateRecvLimit (newLimit : Nat)
  | requestStopSending (code : Nat)
  | maxStreamDataSent
  | dataRead
  | resetRead
  deriving DecidableEq

/-- The state of a stream after an operation of its user. -/
def RecvUserOp.apply (state : RecvUniStreamState) : RecvUserOp → RecvUniStreamState
  | .updateRecvLimit newLimit => (state.updateRecvLimit newLimit).1
  | .requestStopSending code => (state.stopSending code).1
  | .maxStreamDataSent => state.maxStreamDataSent
  | .dataRead => state.dataRead.1
  | .resetRead => state.resetRead.1

structure RecvUniStreamBase where
  id : Nat
  state : RecvUniStreamState := {}
  deriving DecidableEq

/-- What the buffer of the stream makes of a fragment. -/
inductive Delivery
  | more
  | allDone
  | mismatch
  deriving DecidableEq

/-- `use_recv_credit`, which `recv_impl` and `recv_reset` call for new usage only. -/
def useRecvCredit (conn : Limiter) (delta : Nat) : Limiter × Bool :=
  if delta = 0 then (conn, true) else conn.use delta

section Errors

/-- The frame goes past the limit of the stream. -/
def streamOverflow (type : FrameType) : QUICError where
  msg := "stream flow control limit overflow"
  transportError := .flowControlError
  frameType := type

/-- The frame goes past the limit of the connection. -/
def connOverflow (type : FrameType) : QUICError where
  msg := "connection flow control limit overflow"
  transportError := .flowControlError
  frameType := type

/-- The final size of a RESET_STREAM frame is refused. -/
def finalSizeMismatch : QUICError where
  msg := "final size has no consistency"
  transportError := .finalSizeError
  frameType := .resetStream

/-- The final size of a RESET_STREAM frame goes past the limit of the connection. -/
def resetOverflow : QUICError where
  msg := "connection flow control limit violation"
  transportError := .flowControlError
  frameType := .resetStream

end Errors

/-- The transport error that an answer reports. -/
def transportError? : Option Error → Option TransportError
  | some (.quic error) => some error.transportError
  | _ => none

namespace RecvUniStreamBase

variable (base : RecvUniStreamBase)

/-- The end of `recv_impl`: the fragment is delivered, and the stream is complete once all data is
there. -/
def deliver (state : RecvUniStreamState) (frame : StreamFrame) (delivery : Delivery) :
    RecvUniStreamState × IOResult × Option Error :=
  let state := if frame.fin then state.sizeKnown.1 else state
  match delivery with
  | .more => (state, .ok, none)
  | .allDone => (state.recved.1, .ok, none)
  | .mismatch => (state, .fatal, some (.quic (RecvSorter.fragmentError frame.type)))

/-- `recv_impl`, with the buffer of `RecvUniStream::recv_stream`. -/
def recvStream (conn : Limiter) (frame : StreamFrame) (delivery : Delivery) :
    Limiter × RecvUniStreamBase × IOResult × Option Error :=
  if frame.streamID ≠ base.id then
    (conn, base, .idMismatch, some (.lib "unexpected streamID on StreamFrame. library bug!!"))
  else if !base.state.canRecv then (conn, base, .notInIoState, none)
  else
    match base.state.recv frame.stop with
    | (_, false) => (conn, base, .blockByStream, some (.quic (streamOverflow frame.type)))
    | (state, true) =>
      match useRecvCredit conn (state.recvBytes - base.state.recvBytes) with
      | (_, false) =>
        (conn, { base with state := state }, .blockByConn,
          some (.quic (connOverflow frame.type)))
      | (conn, true) =>
        let (state, res, err) := deliver state frame delivery
        (conn, { base with state := state }, res, err)

def recvReset (conn : Limiter) (reset : ResetStreamFrame) :
    Limiter × RecvUniStreamBase × IOResult × Option Error :=
  if base.id ≠ reset.streamID then
    (conn, base, .idMismatch, some (.lib "unexpected stream id on ResetFrame. library bug!!"))
  else
    match base.state.reset reset.finalSize reset.applicationProtocolErrorCode with
    | (_, false) => (conn, base, .blockByStream, some (.quic finalSizeMismatch))
    | (state, true) =>
      match useRecvCredit conn (state.recvBytes - base.state.recvBytes) with
      | (_, false) =>
        (conn, { base with state := state }, .blockByStream, some (.quic resetOverflow))
      | (conn, true) => (conn, { base with state := state }, .ok, none)

end RecvUniStreamBase

section Specification

variable {limiter next conn : Limiter} {size : Nat}

/-- Usage up to the limit is accepted, and counts as far as it is new. -/
theorem Limiter.updateUse_of_le (within : size ≤ limiter.limit) :
    ∃ next, limiter.updateUse size = (next, true) ∧ next.limit = limiter.limit ∧
      next.used = max limiter.used size := by
  simp only [updateUse, dif_neg (not_lt.2 within)]
  split
  case isTrue grows => exact ⟨_, rfl, rfl, (Nat.max_eq_right (le_of_lt grows)).symm⟩
  case isFalse old => exact ⟨_, rfl, rfl, (Nat.max_eq_left (not_lt.1 old)).symm⟩

theorem Limiter.updateUse_of_lt (past : limiter.limit < size) :
    limiter.updateUse size = (limiter, false) := by
  simp only [updateUse, dif_pos past]

theorem useRecvCredit_of_le (there : size ≤ conn.availSize) :
    ∃ next, useRecvCredit conn size = (next, true) ∧ next.limit = conn.limit ∧
      next.used = conn.used + size := by
  unfold useRecvCredit
  split
  case isTrue nothing => exact ⟨conn, rfl, rfl, by omega⟩
  case isFalse =>
    simp only [use, dif_neg (not_lt.2 there)]
    exact ⟨_, rfl, rfl, rfl⟩

theorem useRecvCredit_of_lt (past : conn.availSize < size) :
    useRecvCredit conn size = (conn, false) := by
  rw [useRecvCredit, if_neg (by omega), use, dif_pos past]

theorem Limiter.limit_le_updateLimit (limiter : Limiter) (newLimit : Nat) :
    limiter.limit ≤ (limiter.updateLimit newLimit).1.limit := by
  unfold updateLimit
  split
  · exact le_rfl
  · split
    case isTrue raised => exact le_of_lt raised
    case isFalse => exact le_rfl

/-- The user of a stream raises its limit at most, and reopens nothing. -/
theorem RecvUserOp.apply_spec (op : RecvUserOp) (state : RecvUniStreamState) :
    (op.apply state).recvBytes = state.recvBytes ∧ state.recvLimit ≤ (op.apply state).recvLimit ∧
      (op.apply state).isRecv = state.isRecv ∧
      (state.state = .resetRecved ∨ state.state = .resetRead →
        (op.apply state).state = .resetRecved ∨ (op.apply state).state = .resetRead) := by
  cases op with
  | updateRecvLimit newLimit =>
    exact ⟨used_updateLimit .., limit_le_updateLimit .., rfl, id⟩
  | requestStopSending code =>
    simp only [apply, RecvUniStreamState.stopSending]
    split <;> exact ⟨rfl, le_rfl, rfl, id⟩
  | maxStreamDataSent => exact ⟨rfl, le_rfl, rfl, id⟩
  | dataRead =>
    simp only [apply, RecvUniStreamState.dataRead]
    split
    · exact ⟨rfl, le_rfl, rfl, id⟩
    case isFalse read =>
      rw [Decidable.not_not] at read
      refine ⟨rfl, le_rfl, ?_, fun reset => ?_⟩
      · simp [RecvUniStreamState.isRecv, read]
      · rw [read] at reset
        simp at reset
  | resetRead =>
    simp only [apply, RecvUniStreamState.resetRead]
    split
    · exact ⟨rfl, le_rfl, rfl, id⟩
    case isFalse read =>
      rw [Decidable.not_not] at read
      refine ⟨rfl, le_rfl, ?_, fun _ => .inr rfl⟩
      simp [RecvUniStreamState.isRecv, read]

/-- The stream takes in a frame that ends at `stop`: its limiter counts what is new. -/
structure Received (before : RecvUniStreamState) (stop : Nat) (state : RecvState)
    (after : RecvUniStreamState) : Prop where
  within : stop ≤ before.recvLimit
  limit_eq : after.recvLimit = before.recvLimit
  used_eq : after.recvBytes = max before.recvBytes stop
  state_eq : after.state = state

namespace RecvUniStreamState

variable (self : RecvUniStreamState)

theorem recv_cases (open_state : self.canRecv) (stop : Nat) :
    self.recv stop = (self, false) ∧
        (self.recvLimit < stop ∨ self.state = .sizeKnown ∧ self.recvBytes < stop) ∨
      ∃ after, self.recv stop = (after, true) ∧
        (self.state = .sizeKnown → stop ≤ self.recvBytes) ∧
        Received self stop (if self.state = .sizeKnown then .sizeKnown else .recv) after := by
  have not_reset : self.state ≠ .resetRecved := by
    intro reset
    simp [canRecv, isRecv, reset] at open_state
  have known_eq : self.isSizeKnown = decide (self.state = .sizeKnown) := by
    simp [isSizeKnown, not_reset]
  rw [recv, known_eq]
  by_cases past_end : self.state = .sizeKnown ∧ self.recvBytes < stop
  · rw [if_pos (by simpa using past_end)]
    exact .inl ⟨rfl, .inr past_end⟩
  · rw [if_neg (by simpa using past_end), if_neg (by simp [open_state])]
    by_cases within : stop ≤ self.recvLimit
    · obtain ⟨_, used, limit_eq, used_eq⟩ := updateUse_of_le within
      rw [used]
      refine .inr ⟨_, rfl, fun known => ?_, within, limit_eq, used_eq, ?_⟩
      · exact not_lt.1 fun past => past_end ⟨known, past⟩
      · by_cases known : self.state = .sizeKnown <;> simp [known]
    · rw [updateUse_of_lt (not_le.1 within)]
      exact .inl ⟨rfl, .inl (not_le.1 within)⟩

theorem recv_iff (open_state : self.canRecv) (stop : Nat) :
    (self.recv stop).2 ↔
      stop ≤ self.recvLimit ∧ (self.state = .sizeKnown → stop ≤ self.recvBytes) := by
  rcases self.recv_cases open_state stop with
    ⟨refused, past⟩ | ⟨_, accepted, before_end, received⟩
  · rw [refused]
    simp only [Bool.false_eq_true, false_iff]
    rintro ⟨within, before_end⟩
    rcases past with past | ⟨known, past⟩
    · omega
    · have := before_end known
      omega
  · rw [accepted]
    exact ⟨fun _ => ⟨received.within, before_end⟩, fun _ => rfl⟩

theorem reset_cases (finSize code : Nat) :
    self.reset finSize code = (self, true) ∧ self.isTerminalState ∨
      self.reset finSize code = (self, false) ∧ self.isTerminalState = false ∧
        (self.recvLimit < finSize ∨ self.isSizeKnown ∧ finSize ≠ self.recvBytes) ∨
      ∃ after, self.reset finSize code = (after, true) ∧ self.isTerminalState = false ∧
        (self.isSizeKnown → finSize = self.recvBytes) ∧
        Received self finSize .resetRecved after := by
  unfold reset
  cases terminal : self.isTerminalState with
  | true => exact .inl ⟨rfl, rfl⟩
  | false =>
    simp only [Bool.false_eq_true, if_false]
    by_cases mismatch : self.isSizeKnown ∧ finSize ≠ self.recvBytes
    · rw [if_pos (by simpa using mismatch)]
      exact .inr (.inl ⟨rfl, trivial, .inr mismatch⟩)
    · rw [if_neg (by simpa using mismatch)]
      by_cases within : finSize ≤ self.recvLimit
      · obtain ⟨_, used, limit_eq, used_eq⟩ := updateUse_of_le within
        rw [used]
        refine .inr (.inr ⟨_, rfl, trivial, fun known => ?_, within, limit_eq, used_eq, rfl⟩)
        by_contra other
        exact mismatch ⟨known, other⟩
      · rw [updateUse_of_lt (not_le.1 within)]
        exact .inr (.inl ⟨rfl, trivial, .inl (not_le.1 within)⟩)

theorem reset_iff (finSize code : Nat) :
    (self.reset finSize code).2 ↔ self.isTerminalState ∨
      finSize ≤ self.recvLimit ∧ (self.isSizeKnown → finSize = self.recvBytes) := by
  rcases self.reset_cases finSize code with
    ⟨same, terminal⟩ | ⟨refused, live, mismatch⟩ | ⟨_, accepted, -, matching, received⟩
  · rw [same]
    exact ⟨fun _ => .inl terminal, fun _ => rfl⟩
  · rw [refused]
    simp only [live, Bool.false_eq_true, false_iff, false_or]
    rintro ⟨within, matching⟩
    rcases mismatch with past | ⟨known, other⟩
    · omega
    · exact other (matching known)
  · rw [accepted]
    exact ⟨fun _ => .inr ⟨received.within, matching⟩, fun _ => rfl⟩

end RecvUniStreamState

namespace RecvUniStreamBase

variable {base : RecvUniStreamBase}

theorem deliver_spec (state : RecvUniStreamState) (frame : StreamFrame) (delivery : Delivery) :
    (deliver state frame delivery).1.limit = state.limit ∧
      (deliver state frame delivery).1.state =
        (let known := if frame.fin ∧ state.state = .recv then .sizeKnown else state.state
         if delivery = .allDone ∧ known = .sizeKnown then .dataRecved else known) ∧
      ((deliver state frame delivery).2 = (.ok, none) ∨ (deliver state frame delivery).2 =
        (.fatal, some (.quic (RecvSorter.fragmentError frame.type)))) := by
  have known_eq : (if frame.fin then state.sizeKnown.1 else state) =
      { state with state := if frame.fin ∧ state.state = .recv then .sizeKnown else state.state } := by
    obtain ⟨-, -, -, state, -, -⟩ := state
    cases frame.fin <;> cases state <;> rfl
  simp only [deliver, known_eq]
  generalize (if frame.fin ∧ state.state = .recv then RecvState.sizeKnown
    else state.state) = known
  cases delivery with
  | more => exact ⟨rfl, by simp, .inl rfl⟩
  | mismatch => exact ⟨rfl, by simp, .inr rfl⟩
  | allDone =>
    simp only [RecvUniStreamState.recved]
    by_cases complete : known = .sizeKnown <;> simp [complete]

/-- Everything `recv_impl` can do with a frame of its stream. -/
inductive StreamOutcome (base : RecvUniStreamBase) (conn : Limiter) (frame : StreamFrame)
    (delivery : Delivery) : Limiter × RecvUniStreamBase × IOResult × Option Error → Prop
  | ignored (closed : base.state.canRecv = false) :
      StreamOutcome base conn frame delivery (conn, base, .notInIoState, none)
  | refused (open_state : base.state.canRecv = true)
      (past : base.state.recvLimit < frame.stop ∨
        base.state.state = .sizeKnown ∧ base.state.recvBytes < frame.stop) :
      StreamOutcome base conn frame delivery
        (conn, base, .blockByStream, some (.quic (streamOverflow frame.type)))
  | overdrawn (open_state : base.state.canRecv = true) (state : RecvUniStreamState)
      (before_end : base.state.state = .sizeKnown → frame.stop ≤ base.state.recvBytes)
      (received : Received base.state frame.stop
        (if base.state.state = .sizeKnown then .sizeKnown else .recv) state)
      (overdraws : conn.availSize < state.recvBytes - base.state.recvBytes) :
      StreamOutcome base conn frame delivery
        (conn, { base with state := state }, .blockByConn, some (.quic (connOverflow frame.type)))
  | delivered (open_state : base.state.canRecv = true) (state : RecvUniStreamState) (next : Limiter)
      (before_end : base.state.state = .sizeKnown → frame.stop ≤ base.state.recvBytes)
      (received : Received base.state frame.stop
        (if base.state.state = .sizeKnown then .sizeKnown else .recv) state)
      (there : state.recvBytes - base.state.recvBytes ≤ conn.availSize)
      (limit_eq : next.limit = conn.limit)
      (used_eq : next.used = conn.used + (state.recvBytes - base.state.recvBytes)) :
      StreamOutcome base conn frame delivery
        (next, { base with state := (deliver state frame delivery).1 },
          (deliver state frame delivery).2.1, (deliver state frame delivery).2.2)

theorem recvStream_outcome {frame : StreamFrame} (same_id : frame.streamID = base.id)
    (conn : Limiter) (delivery : Delivery) :
    StreamOutcome base conn frame delivery (base.recvStream conn frame delivery) := by
  unfold recvStream
  rw [if_neg (by simp [same_id])]
  cases open_state : base.state.canRecv with
  | false => exact .ignored open_state
  | true =>
    rcases base.state.recv_cases open_state frame.stop with
      ⟨refused, past⟩ | ⟨state, accepted, before_end, received⟩
    · rw [refused]
      exact .refused open_state past
    · rw [accepted]
      simp only
      by_cases there : state.recvBytes - base.state.recvBytes ≤ conn.availSize
      · obtain ⟨next, used, limit_eq, used_eq⟩ := useRecvCredit_of_le there
        rw [used]
        exact .delivered open_state _ _ before_end received there limit_eq used_eq
      · have overdraws := not_le.1 there
        rw [useRecvCredit_of_lt overdraws]
        exact .overdrawn open_state _ before_end received overdraws

/-- Everything `recv_reset` can do with a frame of its stream. -/
inductive ResetOutcome (base : RecvUniStreamBase) (conn : Limiter) (finalSize : Nat) :
    Limiter × RecvUniStreamBase × IOResult × Option Error → Prop
  | needless (terminal : base.state.isTerminalState = true) :
      ResetOutcome base conn finalSize (conn, base, .ok, none)
  | refused (live : base.state.isTerminalState = false)
      (mismatch : base.state.recvLimit < finalSize ∨
        base.state.isSizeKnown = true ∧ finalSize ≠ base.state.recvBytes) :
      ResetOutcome base conn finalSize (conn, base, .blockByStream, some (.quic finalSizeMismatch))
  | overdrawn (live : base.state.isTerminalState = false) (state : RecvUniStreamState)
      (matching : base.state.isSizeKnown = true → finalSize = base.state.recvBytes)
      (received : Received base.state finalSize .resetRecved state)
      (overdraws : conn.availSize < state.recvBytes - base.state.recvBytes) :
      ResetOutcome base conn finalSize
        (conn, { base with state := state }, .blockByStream, some (.quic resetOverflow))
  | done (live : base.state.isTerminalState = false) (state : RecvUniStreamState) (next : Limiter)
      (matching : base.state.isSizeKnown = true → finalSize = base.state.recvBytes)
      (received : Received base.state finalSize .resetRecved state)
      (there : state.recvBytes - base.state.recvBytes ≤ conn.availSize)
      (limit_eq : next.limit = conn.limit)
      (used_eq : next.used = conn.used + (state.recvBytes - base.state.recvBytes)) :
      ResetOutcome base conn finalSize (next, { base with state := state }, .ok, none)

theorem recvReset_outcome {reset : ResetStreamFrame} (same_id : reset.streamID = base.id)
    (conn : Limiter) :
    ResetOutcome base conn reset.finalSize (base.recvReset conn reset) := by
  unfold recvReset
  rw [if_neg (by simp [same_id])]
  rcases base.state.reset_cases reset.finalSize reset.applicationProtocolErrorCode with
    ⟨same, terminal⟩ | ⟨refused, live, mismatch⟩ | ⟨state, accepted, live, matching, received⟩
  · rw [same]
    simp only [Nat.sub_self]
    exact .needless terminal
  · rw [refused]
    exact .refused live mismatch
  · rw [accepted]
    simp only
    by_cases there : state.recvBytes - base.state.recvBytes ≤ conn.availSize
    · obtain ⟨next, used, limit_eq, used_eq⟩ := useRecvCredit_of_le there
      rw [used]
      exact .done live _ _ matching received there limit_eq used_eq
    · have overdraws := not_le.1 there
      rw [useRecvCredit_of_lt overdraws]
      exact .overdrawn live _ matching received overdraws

end RecvUniStreamBase

end Specification

end Futils.Quic.Stream
