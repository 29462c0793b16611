import Futils.Lib.Segment
import Futils.Quic.Stream.SendBase

/-!
# Sending streams

`SendUniStream` joins the core of a sending stream with its buffer, the record of a reset and the
fragments that wait for their acknowledgement.  `Sender` puts it beside the credit of its
connection; `supplied` remembers all bytes the application handed over.
-/

namespace Futils.Quic.Stream

open Quic.Frame Lib.Segment StreamWriteData List SendUniStreamState Limiter

structure SendUniStream where
  uni : SendUniStreamBase
  src : Bytes := []
  /-- The packet that carries RESET_STREAM, while it waits for its acknowledgement. -/
  resetWait : Option Nat := none
  /-- The fragments of the `Retransmiter`. -/
  frags : List (Resend StreamFragment) := []
  deriving DecidableEq

namespace SendUniStream

variable (stream : SendUniStream) (marks : Nat → ACKLostState) (observer : Nat)

/-- The constructor, with the initial limit of the peer. -/
def new (id limit : Nat) : SendUniStream where
  uni := { id := id, state := SendUniStreamState.setSendLimit {} limit }

def maybeSendDone : SendUniStream :=
  if stream.uni.state.isDataSent && stream.frags.isEmpty then
    { stream with uni := { stream.uni with state := stream.uni.state.sentAck.1 } }
  else stream

/-- The callback of `send_retransmit`. -/
def retransmitFragment (uni : SendUniStreamBase) : Resend.Send StreamFragment FWriter :=
  fun w frag =>
    match uni.sendRetransmitStream w frag.offset frag.data frag.fin with
    | (w, res, none) =>
      (w, frag, [], if res = .fatal ∨ res = .invalidData then res else .notInIoState)
    | (w, _, some (sent, remain)) =>
      let saved := ⟨sent.offset, sent.fragment, sent.fin⟩
      if remain.fragment.length ≠ 0 then
        (w, ⟨remain.offset, remain.fragment, remain.fin⟩, [saved], .notInIoState)
      else (w, frag, [saved], .ok)

variable (fairnessLimit : Nat) (conn : Limiter) (w : FWriter)

def sendRetransmit : SendUniStream × FWriter × IOResult :=
  if !stream.uni.state.canRetransmit then (stream, w, .notInIoState)
  else
    let (w, frags, res) :=
      Resend.retransmit marks observer (retransmitFragment stream.uni) w stream.frags
    let stream := { stream with frags := frags }
    (if res = .ok then stream.maybeSendDone else stream, w, res)

/-- `send_stream_unlocked`, after the retransmission. -/
def sendNew : SendUniStream × Limiter × FWriter × IOResult :=
  let (sent, res, blockedSize) := sendImpl stream.uni.id fairnessLimit
    { w := w, conn := conn, state := stream.uni.state, data := stream.uni.data }
  let stream := { stream with
    uni := { stream.uni with state := sent.state, data := sent.data }
    frags := match sent.saved with
      | none => stream.frags
      | some frag => Resend.sent observer stream.frags ⟨frag.offset, frag.fragment, frag.fin⟩ }
  match res with
  | .blockByStream =>
    let (w, res) := sendStreamBlocked sent.w stream.uni.id blockedSize
    (stream, sent.conn, w, if res = .ok then .blockByStream else res)
  | .blockByConn =>
    let (w, res) := sendConnBlocked sent.w blockedSize
    (stream, sent.conn, w, if res = .ok then .blockByConn else res)
  | _ => (stream, sent.conn, sent.w, res)

def sendStreamUnlocked : SendUniStream × Limiter × FWriter × IOResult :=
  let (stream, w, res) := stream.sendRetransmit marks observer w
  if res ≠ .ok ∧ res ≠ .noData ∧ res ≠ .notInIoState then (stream, conn, w, res)
  else stream.sendNew observer fairnessLimit conn w

def sendResetUnlocked : SendUniStream × FWriter × IOResult :=
  if stream.resetWait.isSome then
    if Resend.isAck marks stream.resetWait then
      let (state, ok) := stream.uni.state.resetAck
      ({ stream with uni := { stream.uni with state := state }, resetWait := none }, w,
        if ok then .ok else .notInIoState)
    else if Resend.isLost marks stream.resetWait then
      let (w, res) := stream.uni.sendRetransmitReset w
      (if res = .ok then { stream with resetWait := some observer } else stream, w, res)
    else (stream, w, .ok)
  else
    let (uni, w, res) := stream.uni.sendResetIfStopRequired w
    let stream := { stream with uni := uni }
    (if res = .ok then { stream with resetWait := some observer } else stream, w, res)

/-- `send`, with its first result. -/
def send : SendUniStream × Limiter × FWriter × IOResult :=
  if stream.uni.state.isTerminalState then (stream, conn, w, .ok)
  else
    let (stream, w, res) := stream.sendResetUnlocked marks observer w
    if res ≠ .notInIoState then (stream, conn, w, res)
    else stream.sendStreamUnlocked marks observer fairnessLimit conn w

def detectAckLost : SendUniStream × IOResult :=
  if stream.resetWait.isSome then
    if Resend.isAck marks stream.resetWait then
      ({ stream with uni := { stream.uni with state := stream.uni.state.resetAck.1 } },
        .notInIoState)
    else if Resend.isLost marks stream.resetWait then (stream, .ok)
    else (stream, .noData)
  else
    let (frags, lost) := Resend.detectAckAndLost marks stream.frags
    let stream := { stream with frags := frags }.maybeSendDone
    (stream, if stream.uni.state.isTerminalState then .notInIoState
      else if lost ≠ 0 then .ok else .noData)

def discardWrittenDataImpl (fin : Bool) (data : Bytes) : SendUniStream × IOResult :=
  let written := stream.uni.data.writtenOffset
  let src := stream.src.drop (sub64 written stream.uni.data.discardedOffset) ++ data
  let (uni, ok) := stream.uni.updateData written src fin
  ({ stream with uni := uni, src := src }, if ok then .ok else .fatal)

def writeEx (fin discardWritten : Bool) (data : Bytes) : SendUniStream × IOResult :=
  if stream.uni.data.fin then
    if discardWritten then
      match stream.discardWrittenDataImpl true [] with
      | (stream, .ok) => (stream, .cancel)
      | failed => failed
    else (stream, .cancel)
  else if discardWritten then stream.discardWrittenDataImpl fin data
  else
    let src := stream.src ++ data
    let (uni, ok) := stream.uni.updateData stream.uni.data.discardedOffset src fin
    ({ stream with uni := uni, src := src }, if ok then .ok else .fatal)

end SendUniStream

/-- A sending stream, the credit of its connection and what the application supplied. -/
structure Sender where
  stream : SendUniStream
  conn : Limiter
  /-- All bytes that `write` accepted. -/
  supplied : Bytes := []
  deriving DecidableEq

/-- What the application, the peer and other streams do to a sending stream. -/
inductive Control
  /-- `write(data, fin, discard_written)`. -/
  | write (data : Bytes) (fin discardWritten : Bool)
  | discardWrittenData
  | recvMaxStreamData (maxStreamData : Nat)
  | recvMaxData (maxData : Nat)
  /-- `apply_peer_initial_limits`, for the stream and its connection. -/
  | applyPeerInitialLimits (streamLimit connLimit : Nat)
  | useCredit (size : Nat)
  | requestReset (code : Nat)
  | recvStopSending (code : Nat)
  deriving DecidableEq

namespace Sender

def start (id limit : Nat) (conn : Limiter) : Sender where
  stream := .new id limit
  conn := conn

def mapState (sender : Sender) (change : SendUniStreamState → SendUniStreamState) : Sender :=
  { sender with stream := { sender.stream with uni := { sender.stream.uni with
      state := change sender.stream.uni.state } } }

def control (sender : Sender) : Control → Sender
  | .write data fin discardWritten =>
    { sender with
      stream := (sender.stream.writeEx fin discardWritten data).1
      supplied := sender.supplied ++ if sender.stream.uni.data.fin then [] else data }
  | .discardWrittenData =>
    { sender with
      stream := (sender.stream.discardWrittenDataImpl sender.stream.uni.data.fin []).1 }
  | .recvMaxStreamData maxStreamData => sender.mapState (·.updateSendLimit maxStreamData)
  | .recvMaxData maxData => { sender with conn := (sender.conn.updateLimit maxData).1 }
  | .applyPeerInitialLimits streamLimit connLimit =>
    { sender.mapState (·.setSendLimit streamLimit) with
      conn := (sender.conn.setLimit connLimit).1 }
  | .useCredit size => { sender with conn := useSendCredit sender.conn size }
  | .requestReset code => sender.mapState fun state => (state.setErrorCodeImpl code false).1
  | .recvStopSending code => sender.mapState fun state => (state.setErrorCodeImpl code true).1

end Sender

section Invariant

/-- The core of a stream agrees with its buffer and with all the application supplied. -/
structure Backed (supplied src : Bytes) (uni : SendUniStreamBase) : Prop where
  id_lt : uni.id < 2 ^ 62
  src_eq : uni.data.src = src
  buffered : src = supplied.drop uni.data.discardedOffset
  discarded_le : uni.data.discardedOffset ≤ uni.data.writtenOffset
  written_le : uni.data.writtenOffset ≤ supplied.length
  used_eq : uni.state.limit.used = uni.data.writtenOffset
  closed : uni.data.finWritten = true → uni.state.canSend = false

namespace Backed

variable {supplied src : Bytes} {uni : SendUniStreamBase}

variable (backed : Backed supplied src uni)
include backed

theorem total_eq : uni.data.total = supplied.length := by
  have discarded_le := backed.discarded_le
  have written_le := backed.written_le
  rw [total, backed.src_eq, backed.buffered, length_drop]
  omega

theorem remain_eq : uni.data.remain = supplied.length - uni.data.writtenOffset := by
  have total_eq := backed.total_eq
  have written_le := backed.written_le
  rw [total] at total_eq
  rw [remain, total_eq, sub64_of_le written_le]

theorem drop_src : src.drop (sub64 uni.data.writtenOffset uni.data.discardedOffset) =
      supplied.drop uni.data.writtenOffset := by
  have discarded_le := backed.discarded_le
  rw [sub64_of_le discarded_le, backed.buffered, drop_drop]
  congr 1
  omega

theorem getRemain_eq (limit : Nat) :
    uni.data.getRemain limit = (supplied.drop uni.data.writtenOffset).take limit := by
  rw [getRemain, substr, backed.src_eq, backed.drop_src]

/-- A new buffer that holds the rest of a longer stream is accepted. -/
theorem updateData_eq {more : Bytes} {discard : Nat} (fin : Bool)
    (ended : uni.data.fin → more = []) (discard_le : discard ≤ uni.data.writtenOffset) :
    let next := (supplied ++ more).drop discard
    uni.updateData discard next fin = ({ uni with data := { uni.data with
      src := next, discardedOffset := discard, fin := uni.data.fin || fin } }, true) := by
  intro next
  have total_eq := backed.total_eq
  have written_le := backed.written_le
  rw [total] at total_eq
  have next_total : next.length + discard = supplied.length + more.length := by
    simp only [next, length_drop, length_append]
    omega
  have accepted : uni.data.update discard next fin = ({ uni.data with
      src := next, discardedOffset := discard, fin := uni.data.fin || fin }, true) := by
    rw [update, if_neg]
    rw [next_total, total_eq]
    rintro (smaller | past)
    · split at smaller
      case isTrue ended_fin =>
        rw [ended ended_fin] at smaller
        exact smaller rfl
      case isFalse => omega
    · omega
  rw [SendUniStreamBase.updateData, accepted]

/-- A frame that `send_impl` writes carries the next bytes of the stream. -/
theorem agrees_of_wrote {s result : Sending}
    {fairnessLimit : Nat} {frame : StreamFrame} (data_eq : s.data = uni.data)
    (wrote : Wrote uni.id fairnessLimit s frame result) :
    frame.offset = uni.data.writtenOffset ∧ Agrees supplied frame.offset frame.streamData := by
  have written_le := backed.written_le
  have offset_eq := wrote.fitted.offset_eq
  rw [data_eq] at offset_eq
  refine ⟨offset_eq, ?_⟩
  have cut := wrote.fitted.data_prefix
  rw [data_eq, backed.getRemain_eq] at cut
  rw [offset_eq, prefix_iff_eq_take.1 cut, take_take]
  have len_le := cut.length_le
  rw [length_take, length_drop] at len_le
  exact Agrees.of_stream _ (by omega)

theorem sendImpl {fairnessLimit : Nat} {s : Sending}
    (state_eq : s.state = uni.state) (data_eq : s.data = uni.data) :
    Backed supplied src { uni with
      state := (sendImpl uni.id fairnessLimit s).1.state
      data := (sendImpl uni.id fairnessLimit s).1.data } := by
  have used_eq : s.state.limit.used = s.data.writtenOffset := by
    rw [state_eq, data_eq]
    exact backed.used_eq
  rcases @sendImpl_cases uni.id fairnessLimit s backed.id_lt used_eq with idle | ⟨frame, wrote⟩
  · rw [idle.state_eq, idle.data_eq, state_eq, data_eq]
    exact backed
  · obtain ⟨offset_eq, agrees⟩ := backed.agrees_of_wrote data_eq wrote
    have discarded_le := backed.discarded_le
    have stop_le := agrees.end_le
    have not_finished : uni.data.finWritten = false := by
      have open_state := wrote.open_state
      rw [state_eq] at open_state
      cases finished : uni.data.finWritten with
      | false => rfl
      | true => simp [backed.closed finished] at open_state
    rw [wrote.data_eq, data_eq]
    exact
      { id_lt := backed.id_lt
        src_eq := backed.src_eq
        buffered := backed.buffered
        discarded_le := by
          simp only [StreamFrame.stop]
          omega
        written_le := stop_le
        used_eq := wrote.used_eq
        closed := by
          intro finished
          simp only [not_finished, Bool.false_or] at finished
          rw [wrote.state_eq, finished]
          rfl }

end Backed

namespace SendUniStream

variable {stream : SendUniStream} {supplied : Bytes}

def rebuffer (stream : SendUniStream) (src : Bytes) (discard : Nat) (fin : Bool) :
    SendUniStream :=
  { stream with
    uni := { stream.uni with data := { stream.uni.data with
      src := src, discardedOffset := discard, fin := fin } }
    src := src }

theorem rebuffer_self (src_eq : stream.uni.data.src = stream.src) :
    stream.rebuffer stream.src stream.uni.data.discardedOffset stream.uni.data.fin = stream := by
  obtain ⟨⟨_, _, ⟨_, _, _, _, _⟩⟩, _, _, _⟩ := stream
  cases src_eq
  rfl

theorem discardWrittenDataImpl_eq (backed : Backed supplied stream.src stream.uni) (fin : Bool)
    {more : Bytes} (ended : stream.uni.data.fin → more = []) :
    let written := stream.uni.data.writtenOffset
    stream.discardWrittenDataImpl fin more =
      (stream.rebuffer ((supplied ++ more).drop written) written (stream.uni.data.fin || fin),
        .ok) := by
  intro written
  have next_eq : stream.src.drop (sub64 written stream.uni.data.discardedOffset) ++ more =
      (supplied ++ more).drop written := by
    rw [backed.drop_src, drop_append_of_le_length backed.written_le]
  have updated := backed.updateData_eq fin ended (le_rfl)
  simp only [discardWrittenDataImpl]
  rw [next_eq, updated]
  rfl

/-- `write` puts the data behind what was supplied before, unless the stream has ended. -/
theorem writeEx_eq (backed : Backed supplied stream.src stream.uni) (fin discardWritten : Bool)
    (more : Bytes) :
    ∃ discard ≤ stream.uni.data.writtenOffset, ∃ ended,
      (stream.uni.data.fin = true → ended = true) ∧
      (stream.writeEx fin discardWritten more).1 = stream.rebuffer
        ((supplied ++ if stream.uni.data.fin then [] else more).drop discard) discard ended := by
  unfold writeEx
  cases finished : stream.uni.data.fin with
  | true =>
    simp only [if_true, append_nil]
    cases discardWritten with
    | true =>
      have discarded := discardWrittenDataImpl_eq backed true (fun _ => rfl)
      rw [append_nil] at discarded
      simp only [discarded]
      exact ⟨_, le_rfl, _, by simp, rfl⟩
    | false =>
      refine ⟨stream.uni.data.discardedOffset, backed.discarded_le, true, by simp, ?_⟩
      rw [← backed.buffered, if_neg Bool.false_ne_true]
      rw [← finished]
      exact (rebuffer_self backed.src_eq).symm
  | false =>
    have ended : stream.uni.data.fin → more = [] := by simp [finished]
    cases discardWritten with
    | true =>
      have discarded := discardWrittenDataImpl_eq backed fin ended
      simp only [discarded]
      exact ⟨_, le_rfl, _, by simp, rfl⟩
    | false =>
      have discarded_le := backed.discarded_le
      have written_le := backed.written_le
      have next_eq : stream.src ++ more =
          (supplied ++ more).drop stream.uni.data.discardedOffset := by
        rw [drop_append_of_le_length (by omega), ← backed.buffered]
      have updated := backed.updateData_eq fin ended backed.discarded_le
      simp only [Bool.false_eq_true]
      refine ⟨_, backed.discarded_le, stream.uni.data.fin || fin, by simp, ?_⟩
      rw [next_eq, updated]
      rfl

/-- A stream that is backed stays so with the buffer that `write` leaves. -/
theorem backed_rebuffer (backed : Backed supplied stream.src stream.uni) {more : Bytes}
    {discard : Nat} (discard_le : discard ≤ stream.uni.data.writtenOffset) (fin : Bool) :
    Backed (supplied ++ more) ((supplied ++ more).drop discard)
      (stream.rebuffer ((supplied ++ more).drop discard) discard fin).uni where
  id_lt := backed.id_lt
  src_eq := rfl
  buffered := rfl
  discarded_le := discard_le
  written_le := by
    have written_le := backed.written_le
    rw [length_append]
    exact le_trans written_le (Nat.le_add_right ..)
  used_eq := backed.used_eq
  closed := backed.closed

end SendUniStream

namespace Sender

variable {sender : Sender}

/-- The stream of the sender is backed by what was supplied. -/
def Backed (sender : Sender) : Prop :=
  Stream.Backed sender.supplied sender.stream.src sender.stream.uni

/-- What no control operation touches: everything about data that was sent. -/
structure Kept (before after : Sender) : Prop where
  id_eq : after.stream.uni.id = before.stream.uni.id
  state_eq : after.stream.uni.state.state = before.stream.uni.state.state
  written_eq : after.stream.uni.data.writtenOffset = before.stream.uni.data.writtenOffset
  finWritten_eq : after.stream.uni.data.finWritten = before.stream.uni.data.finWritten
  fin_kept : before.stream.uni.data.fin = true → after.stream.uni.data.fin = true
  frags_eq : after.stream.frags = before.stream.frags
  resetWait_eq : after.stream.resetWait = before.stream.resetWait
  supplied_eq : ∃ more, after.supplied = before.supplied ++ more ∧
    (before.stream.uni.data.fin = true → more = [])

theorem kept_rebuffer (sender : Sender) {more : Bytes} {discard : Nat} {fin : Bool}
    (fin_kept : sender.stream.uni.data.fin → fin) (src : Bytes)
    (ended : sender.stream.uni.data.fin → more = []) :
    Kept sender { sender with
      stream := sender.stream.rebuffer src discard fin, supplied := sender.supplied ++ more } :=
  ⟨rfl, rfl, rfl, rfl, fin_kept, rfl, rfl, more, rfl, ended⟩

theorem mapState_kept (backed : sender.Backed)
    (change : SendUniStreamState → SendUniStreamState)
    (state_eq : ∀ state, (change state).state = state.state)
    (used_eq : ∀ state, (change state).limit.used = state.limit.used) (conn : Limiter) :
    Kept sender { sender.mapState change with conn := conn } ∧
      Backed { sender.mapState change with conn := conn } := by
  refine ⟨⟨rfl, state_eq _, rfl, rfl, id, rfl, rfl, [], by simp [mapState], fun _ => rfl⟩, ?_⟩
  exact { backed with
    used_eq := (used_eq _).trans backed.used_eq
    closed := fun finished => by
      have closed := backed.closed finished
      simp only [mapState, canSend, state_eq] at closed ⊢
      exact closed }

theorem state_setErrorCodeImpl (state : SendUniStreamState) (code : Nat) (byPeer : Bool) :
    (state.setErrorCodeImpl code byPeer).1.state = state.state ∧
      (state.setErrorCodeImpl code byPeer).1.limit = state.limit := by
  unfold setErrorCodeImpl
  split
  · exact ⟨rfl, rfl⟩
  · split <;> exact ⟨rfl, rfl⟩

theorem control_kept (backed : sender.Backed) (op : Control) :
    Kept sender (sender.control op) ∧ (sender.control op).Backed := by
  have same_supplied : sender.supplied ++ [] = sender.supplied := append_nil _
  cases op with
  | write data fin discardWritten =>
    obtain ⟨_, discard_le, _, fin_kept, stream_eq⟩ :=
      SendUniStream.writeEx_eq backed fin discardWritten data
    simp only [control, stream_eq]
    refine ⟨kept_rebuffer _ fin_kept _ ?_, SendUniStream.backed_rebuffer backed discard_le _⟩
    intro finished
    rw [if_pos finished]
  | discardWrittenData =>
    have stream_eq := SendUniStream.discardWrittenDataImpl_eq backed
      sender.stream.uni.data.fin (fun _ => rfl)
    simp only [control, stream_eq]
    have kept := @kept_rebuffer sender [] sender.stream.uni.data.writtenOffset
      (sender.stream.uni.data.fin || sender.stream.uni.data.fin) (by simp)
      ((sender.supplied ++ []).drop sender.stream.uni.data.writtenOffset) (fun _ => rfl)
    have next_backed := @SendUniStream.backed_rebuffer _ _ backed [] _ (le_rfl)
      (sender.stream.uni.data.fin || sender.stream.uni.data.fin)
    rw [same_supplied] at kept next_backed ⊢
    exact ⟨kept, next_backed⟩
  | recvMaxStreamData maxStreamData =>
    exact mapState_kept backed (·.updateSendLimit _) (fun _ => rfl)
      (fun _ => used_updateLimit _ _) _
  | applyPeerInitialLimits streamLimit connLimit =>
    exact mapState_kept backed (·.setSendLimit _) (fun _ => rfl) (fun _ => used_setLimit _ _) _
  | recvMaxData maxData | useCredit size =>
    exact ⟨⟨rfl, rfl, rfl, rfl, id, rfl, rfl, [], by simp [control], fun _ => rfl⟩, backed⟩
  | requestReset code =>
    exact mapState_kept backed _ (fun state => (state_setErrorCodeImpl _ _ _).1)
      (fun state => congrArg _ (state_setErrorCodeImpl _ _ _).2) _
  | recvStopSending code =>
    exact mapState_kept backed _ (fun state => (state_setErrorCodeImpl _ _ _).1)
      (fun state => congrArg _ (state_setErrorCodeImpl _ _ _).2) _

theorem backed_start {id : Nat} (id_lt : id < 2 ^ 62) (limit : Nat) (conn : Limiter) :
    Backed (start id limit conn) where
  id_lt := id_lt
  src_eq := rfl
  buffered := rfl
  discarded_le := le_rfl
  written_le := le_rfl
  used_eq := used_setLimit _ _
  closed := by simp [start, SendUniStream.new]

end Sender

end Invariant

end Futils.Quic.Stream
