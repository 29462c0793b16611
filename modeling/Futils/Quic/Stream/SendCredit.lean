import Futils.Lib.Machine
import Futils.Lib.Shares
import Futils.Quic.Stream.SendBase

/-!
# Credit of a sending connection

All streams of a connection draw on `conn_flow.send`.  `send_impl` takes credit of its stream and of
the connection for the bytes that the frame carries in the end; retransmissions and resets take none.
A connection is run here with any number of streams, which their owners may use in any way.
-/

namespace Futils.Quic.Stream

open Quic.Frame Varint Lib.Machine Lib.Shares SendUniStreamState Nat StreamFrame FWriter

section Limits

theorem limit_updateLimit (limiter : Limiter) (value : Value) :
    (limiter.updateLimit value).1.limit = max value.val limiter.limit := by
  have accepted : ¬ value.val ≥ border 8 := not_le.2 value.isLt
  simp only [Limiter.updateLimit, dif_neg accepted]
  split
  all_goals
    simp only
    omega

theorem limit_setLimit (limiter : Limiter) (value : Value) :
    (limiter.setLimit value).1.limit = value := by
  have accepted : ¬ value.val ≥ border 8 := not_le.2 value.isLt
  simp only [Limiter.setLimit, dif_neg accepted]

theorem useSendCredit_spec {conn : Limiter} {size : Nat} (there : size ≤ conn.availSize) :
    (useSendCredit conn size).limit = conn.limit ∧
      (useSendCredit conn size).used = conn.used + size := by
  unfold useSendCredit
  split
  case isTrue nothing => exact ⟨rfl, by omega⟩
  case isFalse => simp only [Limiter.use, dif_neg (not_lt.2 there), and_self]

theorem used_add_le {limiter : Limiter} {size : Nat} (within : limiter.used ≤ limiter.limit)
    (there : size ≤ limiter.availSize) : limiter.used + size ≤ limiter.limit := by
  unfold Limiter.availSize at there
  split at there <;> omega

theorem updateUse_accepts {limiter : Limiter} {newUsed : Nat} (within : newUsed ≤ limiter.limit) :
    (limiter.updateUse newUsed).2 := by
  simp only [Limiter.updateUse, dif_neg (not_lt.2 within)]
  split <;> rfl

theorem limit_updateUse (limiter : Limiter) (newUsed : Nat) :
    (limiter.updateUse newUsed).1.limit = limiter.limit := by
  unfold Limiter.updateUse
  split
  · rfl
  · split <;> rfl

end Limits

section SendImpl

variable {id fairnessLimit : Nat} {s : Sending}

theorem conn_sendFrame (frame : StreamFrame) : (sendFrame frame s).1.conn = s.conn := by
  unfold sendFrame
  split
  · rfl
  · split
    · rfl
    · split <;> rfl

/-- `send_impl` does nothing, or takes credit for the frame it made. -/
theorem sendImpl_made (id fairnessLimit : Nat) (s : Sending) :
    (sendImpl id fairnessLimit s).1 = s ∨ s.state.canSend ∧ ∃ frame,
      makeFitSizeStream s.w.remain id s.data.writtenOffset
        (s.data.getRemain (sendable fairnessLimit s)) s.data.shouldFin s.data.shouldFin =
          some frame ∧
      sendImpl id fairnessLimit s =
        sendFrame frame { s with conn := useSendCredit s.conn frame.streamData.length } := by
  unfold sendImpl
  split
  · exact .inl rfl
  case isFalse open_state =>
    rw [Bool.not_eq_true', Bool.not_eq_false] at open_state
    split
    · exact .inl rfl
    · split
      · exact .inl rfl
      · split
        · exact .inl rfl
        · dsimp only
          split
          · exact .inl rfl
          · split
            · exact .inl rfl
            case h_2 frame made => exact .inr ⟨open_state, frame, made, rfl⟩

theorem sendLimit_send (state : SendUniStreamState) (sendMax : Nat) :
    (state.send sendMax).1.sendLimit = state.sendLimit := by
  have limit_eq := limit_updateUse state.limit sendMax
  unfold send
  split
  · rfl
  · split
    case h_1 limit used =>
      rw [used] at limit_eq
      exact limit_eq
    case h_2 => rfl

theorem sendLimit_sent (state : SendUniStreamState) : state.sent.1.sendLimit = state.sendLimit := by
  unfold sent
  split <;> rfl

theorem sendLimit_sendImpl (id fairnessLimit : Nat) (s : Sending) :
    (sendImpl id fairnessLimit s).1.state.sendLimit = s.state.sendLimit := by
  rcases sendImpl_made id fairnessLimit s with same | ⟨-, frame, -, result_eq⟩
  · rw [same]
  · have limit_eq := sendLimit_send s.state frame.stop
    rw [result_eq]
    unfold sendFrame
    split
    · rfl
    case h_2 state accepted =>
      rw [accepted] at limit_eq
      split
      · exact limit_eq
      · split
        · exact (sendLimit_sent _).trans limit_eq
        · exact limit_eq

/-- A frame within the limit of the stream is sent, and its fragment is saved. -/
theorem saved_sendFrame {frame : StreamFrame} (open_state : s.state.canSend)
    (within : frame.stop ≤ s.state.sendLimit)
    (writes : frame.streamID < 2 ^ 62 ∧ frame.offset < 2 ^ 62 ∧ frame.streamData.length < 2 ^ 62)
    (room : frame.encoded.length ≤ s.w.remain) :
    (sendFrame frame s).1.saved = some ⟨frame.offset, frame.streamData, frame.fin⟩ := by
  obtain ⟨_, written, -, -⟩ := @write_of_room s.w (.stream _) _
    (writes_render writes.1 writes.2.1 writes.2.2) room
  have accepted : (s.state.send frame.stop).2 := by
    have used := updateUse_accepts within
    simp only [send, open_state, Bool.not_true, Bool.false_eq_true, if_false]
    split
    · rfl
    case h_2 refused =>
      rw [refused] at used
      exact used
  obtain ⟨⟨_, _⟩, sent⟩ : ∃ all, s.state.send frame.stop = all := ⟨_, rfl⟩
  rw [sent] at accepted
  simp only at accepted
  simp only [sendFrame, sent, accepted, written]
  split <;> rfl

/-- `send_impl` takes nothing, or the credit of the connection for the bytes of the frame. -/
theorem sendImpl_credit (id_lt : id < 2 ^ 62)
    (used_eq : s.state.limit.used = s.data.writtenOffset)
    (used_le : s.state.limit.used ≤ s.state.limit.limit) (unsaved : s.saved = none) :
    Idle s (sendImpl id fairnessLimit s).1 ∧ (sendImpl id fairnessLimit s).1.conn = s.conn ∨
      ∃ frame, Wrote id fairnessLimit s frame (sendImpl id fairnessLimit s).1 ∧
        frame.streamData.length ≤ s.conn.availSize ∧
        (sendImpl id fairnessLimit s).1.conn =
          useSendCredit s.conn frame.streamData.length := by
  rcases sendImpl_made id fairnessLimit s with same | ⟨open_state, frame, made, result_eq⟩
  · rw [same]
    exact .inl ⟨⟨rfl, rfl, rfl, rfl⟩, rfl⟩
  · have cut : sendable fairnessLimit s ≤ s.conn.availSize ∧
        sendable fairnessLimit s ≤ s.state.limit.availSize := by
      simp only [sendable, payloadLimit, sendableSize]
      omega
    have sendable_lt := sendable_lt fairnessLimit s
    have data_le : (s.data.getRemain (sendable fairnessLimit s)).length ≤
        sendable fairnessLimit s := by
      rw [StreamWriteData.getRemain, length_substr]
      omega
    have fitted := makeFitSizeStream_fitted (by omega) made
    have length_le := fitted.data_prefix.length_le
    have offset_eq := fitted.offset_eq
    have within : frame.stop ≤ s.state.sendLimit := by
      have credit := used_add_le used_le cut.2
      rw [stop, sendLimit]
      omega
    have saved := @saved_sendFrame
      { s with conn := useSendCredit s.conn frame.streamData.length } _ open_state within
      ⟨by rw [fitted.id_eq]; exact id_lt,
        by rw [offset_eq, ← used_eq]; exact s.state.limit.used_lt, by omega⟩ fitted.room
    rw [← result_eq] at saved
    have conn_eq : (sendImpl id fairnessLimit s).1.conn =
        useSendCredit s.conn frame.streamData.length := by
      rw [result_eq]
      exact conn_sendFrame _
    -- The frame that `sendImpl_cases` speaks of is this one: both are the fragment saved.
    rcases @sendImpl_cases id fairnessLimit s id_lt used_eq with idle | ⟨other, wrote⟩
    · rw [idle.saved_eq, unsaved] at saved
      cases saved
    · rw [wrote.saved_eq] at saved
      have data_eq : other.streamData = frame.streamData := by
        injection saved with same
        injection same
      rw [← data_eq] at conn_eq length_le
      exact .inr ⟨other, wrote, by omega, conn_eq⟩

end SendImpl

namespace SendCredit

/-- A sending stream with what was written for it and the limits it was given. -/
structure Member where
  uni : SendUniStreamBase
  frames : List StreamFrame := []
  limits : List Nat

structure Connection where
  flow : Limiter
  limits : List Nat
  streams : List Member := []

/-- What is done with one stream.  A value that a frame of the peer carries is a variable-length
integer. -/
inductive StreamOp
  | updateData (discard : Nat) (src : Bytes) (fin : Bool)
  | sendStream (capacity fairnessLimit : Nat)
  | sendRetransmitStream (capacity offset : Nat) (fragment : Bytes) (fin : Bool)
  | sendReset (capacity : Nat)
  | sendResetIfStopRequired (capacity : Nat)
  | sendRetransmitReset (capacity : Nat)
  | recvMaxStreamData (streamID maxStreamData : Value)
  | recvStopSending (streamID code : Value)
  | requestReset (code : Nat)
  | allSendDone
  | resetDone
  deriving DecidableEq

inductive Op
  | openStream (id limit : Value)
  | recvMaxData (maxData : Value)
  | onStream (index : Nat) (op : StreamOp)
  deriving DecidableEq

def streamFrame? : Frame → Option StreamFrame
  | .stream frame => some frame
  | _ => none

namespace Member

def wrote (member : Member) (uni : SendUniStreamBase) (w : FWriter) : Member :=
  { member with uni := uni, frames := member.frames ++ w.frames.filterMap streamFrame? }

def withState (member : Member) (state : SendUniStreamState) : Member :=
  { member with uni := { member.uni with state := state } }

/-- One operation on a stream, with the credit of the connection. -/
def step (flow : Limiter) (member : Member) : StreamOp → Limiter × Member × IOResult
  | .updateData discard src fin =>
    let (uni, ok) := member.uni.updateData discard src fin
    (flow, { member with uni := uni }, if ok then .ok else .invalidData)
  | .sendStream capacity fairnessLimit =>
    let (sent, res, _) := sendImpl member.uni.id fairnessLimit
      { w := .ofCapacity capacity, conn := flow, state := member.uni.state
        data := member.uni.data }
    (sent.conn, member.wrote { member.uni with state := sent.state, data := sent.data } sent.w, res)
  | .sendRetransmitStream capacity offset fragment fin =>
    let (w, res, _) := member.uni.sendRetransmitStream (.ofCapacity capacity) offset fragment fin
    (flow, member.wrote member.uni w, res)
  | .sendReset capacity =>
    let (uni, w, res) := member.uni.sendReset (.ofCapacity capacity)
    (flow, member.wrote uni w, res)
  | .sendResetIfStopRequired capacity =>
    let (uni, w, res) := member.uni.sendResetIfStopRequired (.ofCapacity capacity)
    (flow, member.wrote uni w, res)
  | .sendRetransmitReset capacity =>
    let (w, res) := member.uni.sendRetransmitReset (.ofCapacity capacity)
    (flow, member.wrote member.uni w, res)
  | .recvMaxStreamData streamID maxStreamData =>
    if member.uni.id ≠ streamID then (flow, member, .idMismatch)
    else
      (flow, { member.withState (member.uni.state.updateSendLimit maxStreamData) with
        limits := maxStreamData :: member.limits }, .ok)
  | .recvStopSending streamID code =>
    if member.uni.id ≠ streamID then (flow, member, .idMismatch)
    else (flow, member.withState (member.uni.state.setErrorCodeImpl code true).1, .ok)
  | .requestReset code =>
    let (state, ok) := member.uni.state.setErrorCodeImpl code false
    (flow, member.withState state, if ok then .ok else .notInIoState)
  | .allSendDone =>
    let (state, ok) := member.uni.state.sentAck
    (flow, member.withState state, if ok then .ok else .notInIoState)
  | .resetDone =>
    let (state, ok) := member.uni.state.resetAck
    (flow, member.withState state, if ok then .ok else .notInIoState)

end Member

/-- One step; an operation on a stream that does not exist does nothing. -/
def step (conn : Connection) : Op → Connection × IOResult
  | .openStream id limit =>
    ({ conn with
      streams := conn.streams ++
        [{ uni := { id := id, state := setSendLimit {} limit }
           limits := [limit.val] }] }, .ok)
  | .recvMaxData maxData =>
    ({ conn with
      flow := (conn.flow.updateLimit maxData).1, limits := maxData :: conn.limits }, .ok)
  | .onStream index op =>
    match conn.streams[index]? with
    | none => (conn, .noData)
    | some member =>
      let (flow, next, res) := member.step conn.flow op
      ({ conn with flow := flow, streams := conn.streams.set index next }, res)

def start (limit : Value) : Connection where
  flow := (Limiter.setLimit {} limit).1
  limits := [limit.val]

/-- The positions of the stream that were sent. -/
def Member.sentPositions (member : Member) : Finset Nat :=
  covered StreamFrame.offset StreamFrame.stop member.frames

/-- The number of bytes of the stream that were sent for the first time. -/
def Member.firstSent (member : Member) : Nat := member.sentPositions.card

/-- The credit used is what was sent, within the limit, which is the greatest value received. -/
structure Member.Sound (member : Member) : Prop where
  id_lt : member.uni.id < 2 ^ 62
  used_eq : member.uni.state.limit.used = member.uni.data.writtenOffset
  written_le : member.uni.data.writtenOffset ≤ member.uni.state.sendLimit
  sent_eq : member.sentPositions = Finset.range member.uni.data.writtenOffset
  limit_greatest : IsGreatest {value | value ∈ member.limits} member.uni.state.sendLimit

namespace Member

variable {member : Member} {flow : Limiter}

theorem Sound.firstSent_eq (sound : member.Sound) :
    member.firstSent = member.uni.data.writtenOffset := by
  rw [firstSent, sound.sent_eq, Finset.card_range]

/-- The connection is charged for what the stream sends for the first time. -/
structure Charged (flow : Limiter) (member : Member) (result : Limiter × Member × IOResult) :
    Prop where
  sound : result.2.1.Sound
  limit_eq : result.1.limit = flow.limit
  used_eq : result.1.used + member.firstSent = flow.used + result.2.1.firstSent
  used_le : flow.used ≤ flow.limit → result.1.used ≤ flow.limit

theorem charged_of_written_eq (sound : member.Sound) {next : Member} (next_sound : next.Sound)
    (written_eq : next.uni.data.writtenOffset = member.uni.data.writtenOffset) (res : IOResult) :
    Charged flow member (flow, next, res) where
  sound := next_sound
  limit_eq := rfl
  used_eq := by rw [sound.firstSent_eq, next_sound.firstSent_eq, written_eq]
  used_le := id

theorem Sound.withState (sound : member.Sound) {state : SendUniStreamState}
    (limit_eq : state.limit = member.uni.state.limit) : (member.withState state).Sound where
  id_lt := sound.id_lt
  used_eq := by
    show state.limit.used = _
    rw [limit_eq]
    exact sound.used_eq
  written_le := by
    show _ ≤ state.limit.limit
    rw [limit_eq]
    exact sound.written_le
  sent_eq := sound.sent_eq
  limit_greatest := by
    show IsGreatest _ state.limit.limit
    rw [limit_eq]
    exact sound.limit_greatest

/-- A packet that carries only old positions of the stream leaves the books right. -/
theorem Sound.wrote (sound : member.Sound) {state : SendUniStreamState} {w : FWriter}
    (limit_eq : state.limit = member.uni.state.limit)
    (old : ∀ frame, .stream frame ∈ w.frames → frame.stop ≤ member.uni.data.writtenOffset) :
    (member.wrote { member.uni with state := state } w).Sound := by
  have kept := sound.withState limit_eq
  refine ⟨kept.id_lt, kept.used_eq, kept.written_le, ?_, kept.limit_greatest⟩
  refine covered_append_old sound.sent_eq fun frame found => ?_
  obtain ⟨any, carried, any_eq⟩ := List.mem_filterMap.1 found
  cases any with
  | stream other =>
    rw [← Option.some.inj any_eq]
    exact old _ carried
  | ack | crypto | resetStream | streamDataBlocked | dataBlocked => cases any_eq

/-- A packet that carries nothing is charged for nothing. -/
theorem charged_empty (sound : member.Sound) (capacity : Nat) (res : IOResult) :
    Charged flow member (flow, member.wrote member.uni (.ofCapacity capacity), res) :=
  charged_of_written_eq sound (sound.wrote rfl fun frame carried => by cases carried) rfl res

theorem charged_sendStream (sound : member.Sound) (capacity fairnessLimit : Nat) :
    Charged flow member (member.step flow (.sendStream capacity fairnessLimit)) := by
  have limit_eq := sendLimit_sendImpl member.uni.id fairnessLimit
    { w := .ofCapacity capacity, conn := flow, state := member.uni.state, data := member.uni.data }
  have cases := @sendImpl_credit _ fairnessLimit
    { w := .ofCapacity capacity, conn := flow, state := member.uni.state, data := member.uni.data }
    sound.id_lt sound.used_eq (le_trans (le_of_eq sound.used_eq) sound.written_le) rfl
  simp only [step]
  generalize sendImpl member.uni.id fairnessLimit
    { w := .ofCapacity capacity, conn := flow, state := member.uni.state
      data := member.uni.data } = result at *
  obtain ⟨⟨w, _, state, _, _⟩, _, _⟩ := result
  rcases cases with ⟨idle, conn_eq⟩ | ⟨frame, wrote, there, conn_eq⟩
  · obtain ⟨rfl, rfl, rfl, -⟩ := idle
    cases conn_eq
    exact charged_empty sound capacity _
  · have offset_eq := wrote.fitted.offset_eq
    have frames_eq : w.frames = [.stream frame] := wrote.frames_eq
    have data_eq := wrote.data_eq
    have stream_used := wrote.used_eq
    have stop_eq : frame.stop = member.uni.data.writtenOffset + frame.streamData.length := by
      rw [stop, offset_eq]
    have there : frame.streamData.length ≤ flow.availSize := there
    obtain ⟨flow_limit, flow_used⟩ := useSendCredit_spec there
    subst data_eq conn_eq
    have next_sound : (member.wrote { member.uni with
        state := state
        data := { member.uni.data with
          writtenOffset := frame.stop
          finWritten := member.uni.data.finWritten || frame.fin } } w).Sound := by
      refine ⟨sound.id_lt, stream_used, ?_, ?_, ?_⟩
      · exact le_trans wrote.within (le_of_eq limit_eq.symm)
      · have extended := covered_append_next sound.sent_eq offset_eq (by omega)
        simpa [sentPositions, Member.wrote, frames_eq, streamFrame?] using extended
      · have greatest := sound.limit_greatest
        rw [← limit_eq] at greatest
        exact greatest
    refine ⟨next_sound, flow_limit, ?_, fun within => ?_⟩
    · rw [sound.firstSent_eq, next_sound.firstSent_eq]
      show (useSendCredit flow _).used + _ = flow.used + frame.stop
      omega
    · show (useSendCredit flow _).used ≤ flow.limit
      rw [flow_used]
      exact used_add_le within there

/-- A retransmission carries positions that were sent before. -/
theorem stop_sendRetransmitStream {uni : SendUniStreamBase} {capacity offset : Nat}
    {fragment : Bytes} {fin : Bool} (written_lt : uni.data.writtenOffset < 2 ^ 62)
    {frame : StreamFrame}
    (carried : .stream frame ∈
      (uni.sendRetransmitStream (.ofCapacity capacity) offset fragment fin).1.frames) :
    frame.stop ≤ uni.data.writtenOffset := by
  unfold SendUniStreamBase.sendRetransmitStream at carried
  split at carried
  · cases carried
  split at carried
  · cases carried
  split at carried
  · cases carried
  split at carried
  · cases carried
  rename_i other made
  have fitted := makeFitSizeStream_fitted (by omega) made
  have length_le := fitted.data_prefix.length_le
  have frames_eq := frames_write (.ofCapacity capacity) (.stream other)
  have same : frame = other := by
    split at carried
    case h_1 w written =>
      rw [written] at frames_eq
      rw [frames_eq] at carried
      simp at carried
    case h_2 w written =>
      rw [written] at frames_eq
      rw [frames_eq] at carried
      simpa using carried
  rw [same, stop, fitted.offset_eq]
  omega

theorem sendReset_spec (uni : SendUniStreamBase) (w : FWriter) :
    uni.sendReset w = (uni, w, (uni.sendReset w).2.2) ∨
      ∃ state, state.limit = uni.state.limit ∧ (uni.sendReset w).1 = { uni with state := state } ∧
        (uni.sendReset w).2.1 = (w.write (.resetStream uni.resetFrame)).1 := by
  have closes := closes_reset uni.state
  unfold SendUniStreamBase.sendReset
  split
  · exact .inl rfl
  · split
    · exact .inl rfl
    case h_2 state accepted =>
      rw [accepted] at closes
      exact .inr ⟨state, closes.limit_eq, rfl, rfl⟩

theorem stream_not_mem_write_reset {capacity : Nat} {reset : ResetStreamFrame}
    {frame : StreamFrame} :
    .stream frame ∉ ((ofCapacity capacity).write (.resetStream reset)).1.frames := by
  rw [frames_write]
  split <;> simp

theorem charged_sendReset (sound : member.Sound) (capacity : Nat) :
    Charged flow member (member.step flow (.sendReset capacity)) := by
  simp only [step]
  rcases sendReset_spec member.uni (.ofCapacity capacity) with same | ⟨state, limit_eq, uni_eq, w_eq⟩
  · rw [same]
    exact charged_empty sound capacity _
  · rw [uni_eq, w_eq]
    have next_sound := @Sound.wrote _ sound _
      ((ofCapacity capacity).write (.resetStream member.uni.resetFrame)).1 limit_eq
      fun frame carried => absurd carried stream_not_mem_write_reset
    exact charged_of_written_eq sound next_sound rfl _

theorem charged_sendRetransmitReset (sound : member.Sound) (capacity : Nat) :
    Charged flow member (member.step flow (.sendRetransmitReset capacity)) := by
  have old : ∀ frame, .stream frame ∉
      (member.uni.sendRetransmitReset (.ofCapacity capacity)).1.frames := by
    intro frame
    unfold SendUniStreamBase.sendRetransmitReset
    split
    · simp
    · split
      · simp
      · exact stream_not_mem_write_reset
  have next_sound := sound.wrote rfl fun frame carried => absurd carried (old _)
  exact charged_of_written_eq sound next_sound rfl _

theorem charged_withState (sound : member.Sound) {state : SendUniStreamState}
    (limit_eq : state.limit = member.uni.state.limit) (res : IOResult) :
    Charged flow member (flow, member.withState state, res) :=
  charged_of_written_eq sound (sound.withState limit_eq) rfl res

theorem limit_setErrorCodeImpl (state : SendUniStreamState) (code : Nat) (byPeer : Bool) :
    (state.setErrorCodeImpl code byPeer).1.limit = state.limit := by
  unfold setErrorCodeImpl
  split
  · rfl
  · split <;> rfl

theorem Sound.updateSendLimit (sound : member.Sound) (maxStreamData : Value) :
    ({ member.withState (member.uni.state.updateSendLimit maxStreamData) with
      limits := maxStreamData :: member.limits } : Member).Sound := by
  have limit_eq := limit_updateLimit member.uni.state.limit maxStreamData
  have written_le := sound.written_le
  refine ⟨sound.id_lt, ?_, ?_, sound.sent_eq, ?_⟩
  · exact (Limiter.used_updateLimit ..).trans sound.used_eq
  · show _ ≤ (member.uni.state.limit.updateLimit maxStreamData).1.limit
    rw [limit_eq]
    exact le_trans written_le (le_max_right ..)
  · show IsGreatest _ (member.uni.state.limit.updateLimit maxStreamData).1.limit
    rw [limit_eq]
    exact isGreatest_cons sound.limit_greatest _

theorem step_charged (sound : member.Sound) (op : StreamOp) :
    Charged flow member (member.step flow op) := by
  have idle (res : IOResult) : Charged flow member (flow, member, res) :=
    charged_of_written_eq sound sound rfl res
  cases op with
  | updateData discard src fin =>
    have written_eq : (member.uni.data.update discard src fin).1.writtenOffset =
        member.uni.data.writtenOffset := by
      unfold StreamWriteData.update
      split
      all_goals split <;> rfl
    have next_sound : ({ member with
        uni := (member.uni.updateData discard src fin).1 } : Member).Sound := by
      refine ⟨sound.id_lt, ?_, ?_, ?_, sound.limit_greatest⟩
      · exact sound.used_eq.trans written_eq.symm
      · exact le_trans (le_of_eq written_eq) sound.written_le
      · exact sound.sent_eq.trans (congrArg _ written_eq.symm)
    exact charged_of_written_eq sound next_sound written_eq _
  | sendStream capacity fairnessLimit => exact charged_sendStream sound capacity fairnessLimit
  | sendRetransmitStream capacity offset fragment fin =>
    have written_lt : member.uni.data.writtenOffset < 2 ^ 62 := by
      rw [← sound.used_eq]
      exact member.uni.state.limit.used_lt
    have next_sound : (member.wrote member.uni (member.uni.sendRetransmitStream
        (.ofCapacity capacity) offset fragment fin).1).Sound :=
      sound.wrote rfl fun frame carried => stop_sendRetransmitStream written_lt carried
    exact charged_of_written_eq sound next_sound rfl _
  | sendReset capacity => exact charged_sendReset sound capacity
  | sendResetIfStopRequired capacity =>
    simp only [step, SendUniStreamBase.sendResetIfStopRequired]
    split
    · exact charged_sendReset sound _
    · exact charged_empty sound capacity _
  | sendRetransmitReset capacity => exact charged_sendRetransmitReset sound capacity
  | recvMaxStreamData streamID maxStreamData =>
    simp only [step]
    split
    · exact idle _
    · exact charged_of_written_eq sound (sound.updateSendLimit _) rfl _
  | recvStopSending streamID code =>
    simp only [step]
    split
    · exact idle _
    · exact charged_withState sound (limit_setErrorCodeImpl ..) _
  | requestReset code => exact charged_withState sound (limit_setErrorCodeImpl ..) _
  | allSendDone => exact charged_withState sound (closes_sentAck _).limit_eq _
  | resetDone => exact charged_withState sound (closes_resetAck _).limit_eq _

end Member

structure Sound (conn : Connection) : Prop where
  balanced : Balanced Member.firstSent conn.flow.used conn.streams
  used_le : conn.flow.used ≤ conn.flow.limit
  limit_greatest : IsGreatest {value | value ∈ conn.limits} conn.flow.limit
  streams : ∀ member ∈ conn.streams, member.Sound

theorem sound_start (limit : Value) : Sound (start limit) where
  balanced := by
    show Balanced _ (Limiter.setLimit {} limit.val).1.used []
    rw [Limiter.used_setLimit]
    exact .nil
  used_le := by
    show (Limiter.setLimit {} limit.val).1.used ≤ _
    rw [Limiter.used_setLimit]
    exact zero_le
  limit_greatest := by
    show IsGreatest _ (Limiter.setLimit {} limit.val).1.limit
    rw [limit_setLimit]
    exact isGreatest_singleton _
  streams := by
    intro member found
    cases found

theorem sound_opened (id limit : Value) :
    Member.Sound { uni := { id := id, state := setSendLimit {} limit }
                   limits := [limit.val] } where
  id_lt := id.isLt
  used_eq := Limiter.used_setLimit ..
  written_le := zero_le
  sent_eq := rfl
  limit_greatest := by
    show IsGreatest _ (Limiter.setLimit {} limit.val).1.limit
    rw [limit_setLimit]
    exact isGreatest_singleton _

theorem step_sound (conn : Connection) (op : Op) (sound : Sound conn) : Sound (step conn op).1 := by
  obtain ⟨balanced, used_le, limit_greatest, streams⟩ := sound
  cases op with
  | openStream id limit =>
    have opened := sound_opened id limit
    refine ⟨balanced.push opened.firstSent_eq, used_le, limit_greatest, fun member found => ?_⟩
    rcases mem_snoc.1 found with old | rfl
    · exact streams _ old
    · exact opened
  | recvMaxData maxData =>
    have limit_eq := limit_updateLimit conn.flow maxData
    have used_eq := Limiter.used_updateLimit conn.flow maxData
    refine ⟨?_, ?_, ?_, streams⟩
    · show Balanced _ (conn.flow.updateLimit maxData).1.used _
      rw [used_eq]
      exact balanced
    · show (conn.flow.updateLimit maxData).1.used ≤ (conn.flow.updateLimit maxData).1.limit
      rw [used_eq, limit_eq]
      exact le_trans used_le (le_max_right ..)
    · show IsGreatest _ (conn.flow.updateLimit maxData).1.limit
      rw [limit_eq]
      exact isGreatest_cons limit_greatest _
  | onStream index op =>
    simp only [step]
    split
    · exact ⟨balanced, used_le, limit_greatest, streams⟩
    case h_2 member found =>
      have charged := @Member.step_charged _ conn.flow (streams _ (List.mem_of_getElem? found)) op
      refine ⟨balanced.set found charged.used_eq, ?_, ?_, forall_mem_set streams charged.sound⟩
      · exact le_trans (charged.used_le used_le) (le_of_eq charged.limit_eq.symm)
      · show IsGreatest _ (member.step conn.flow op).1.limit
        rw [charged.limit_eq]
        exact limit_greatest

/-- In every run, the credit used is the number of bytes sent for the first time, within the
greatest limit received, and so on every stream. -/
theorem send_flow_controlled (limit : Value) (ops : List Op) :
    let conn := final step (start limit) ops
    conn.flow.used = (conn.streams.map Member.firstSent).sum ∧
      conn.flow.used ≤ conn.flow.limit ∧
      IsGreatest {value | value ∈ conn.limits} conn.flow.limit ∧
      ∀ member ∈ conn.streams, member.uni.data.writtenOffset ≤ member.uni.state.sendLimit ∧
        IsGreatest {value | value ∈ member.limits} member.uni.state.sendLimit := by
  intro conn
  have sound : Sound conn := invariant_final step_sound (sound_start limit) ops
  exact ⟨sound.balanced, sound.used_le, sound.limit_greatest, fun member found =>
    ⟨(sound.streams _ found).written_le, (sound.streams _ found).limit_greatest⟩⟩

end SendCredit

end Futils.Quic.Stream
