import Futils.Quic.Resend
import Futils.Quic.Frame.Writer
import Futils.Quic.Stream.Fragment
import Futils.Quic.Stream.SendState

/-!
# Sending one stream: the core

`send_impl` takes the unsent data of a stream, cuts it by the fairness limit, the credit of the
stream and the credit of the connection, and writes one STREAM frame.  `SendUniStreamBase` adds the
frames that reset a stream and the retransmission of a single fragment.
-/

namespace Futils.Quic.Stream

open Quic.Frame Varint SendUniStreamState FWriter

/-- `StreamWriteData`: what the application supplied and how much of it was sent. -/
structure StreamWriteData where
  src : Bytes := []
  /-- Position of the first buffered byte. -/
  discardedOffset : Nat := 0
  /-- Position after the last byte that was sent. -/
  writtenOffset : Nat := 0
  fin : Bool := false
  finWritten : Bool := false
  deriving DecidableEq

namespace StreamWriteData

variable (data : StreamWriteData)

def getRemain (limit : Nat) : Bytes :=
  substr data.src (sub64 data.writtenOffset data.discardedOffset) limit

def update (newDiscard : Nat) (newSrc : Bytes) (isFin : Bool) : StreamWriteData × Bool :=
  if (if data.fin then data.src.length + data.discardedOffset ≠ newSrc.length + newDiscard
      else data.src.length + data.discardedOffset > newSrc.length + newDiscard) ∨
      newDiscard > data.writtenOffset then (data, false)
  else
    ({ data with src := newSrc, discardedOffset := newDiscard, fin := data.fin || isFin }, true)

def remain : Nat := sub64 (data.src.length + data.discardedOffset) data.writtenOffset

def shouldFin : Bool := data.fin && !data.finWritten

def total : Nat := data.src.length + data.discardedOffset

end StreamWriteData

section SendImpl

/-- What `send_impl` reads and changes; `saved` is the fragment handed to `save_fragment`. -/
structure Sending where
  w : FWriter
  conn : Limiter
  state : SendUniStreamState
  data : StreamWriteData
  saved : Option Fragment := none

/-- `use_send_credit`, for the size its callback returns. -/
def useSendCredit (conn : Limiter) (reqsize : Nat) : Limiter :=
  if reqsize = 0 then conn else (conn.use reqsize).1

/-- The end of `send_impl`, once the frame is made: state, data and packet are updated. -/
def sendFrame (frame : StreamFrame) (s : Sending) : Sending × IOResult × Nat :=
  match s.state.send frame.stop with
  | (_, false) => (s, .fatal, 0)
  | (state, true) =>
    let data := { s.data with
      writtenOffset := s.data.writtenOffset + frame.streamData.length }
    match s.w.write (.stream frame) with
    | (w, false) => ({ s with w := w, state := state, data := data }, .fatal, 0)
    | (w, true) =>
      let frag := ⟨frame.offset, frame.streamData, frame.fin⟩
      if frame.fin then
        ({ s with w := w, state := state.sent.1, data := { data with finWritten := true },
                  saved := some frag }, .ok, 0)
      else ({ s with w := w, state := state, data := data, saved := some frag }, .ok, 0)

/-- The payload that fairness and flow control allow. -/
def payloadLimit (fairnessLimit : Nat) (s : Sending) : Nat :=
  min (min s.data.remain fairnessLimit) s.state.sendableSize

/-- `send_impl`: the result and, if blocked, the limit that blocks. -/
def sendImpl (id fairnessLimit : Nat) (s : Sending) : Sending × IOResult × Nat :=
  if !s.state.canSend then (s, .notInIoState, 0)
  else if s.w.remain <
      calcStreamOverhead id s.data.writtenOffset (s.data.writtenOffset != 0) then
    (s, .noCapacity, 0)
  else if s.data.remain = 0 ∧ !s.data.shouldFin then (s, .noData, 0)
  else if payloadLimit fairnessLimit s = 0 ∧ !s.data.shouldFin then
    (s, .blockByStream, s.state.sendLimit)
  else
    let flowControlLimit := min s.conn.availSize (payloadLimit fairnessLimit s)
    if flowControlLimit = 0 ∧ !s.data.shouldFin then (s, .blockByConn, s.conn.limit)
    else
      match makeFitSizeStream s.w.remain id s.data.writtenOffset
          (s.data.getRemain flowControlLimit) s.data.shouldFin s.data.shouldFin with
      | none => (s, .noCapacity, 0)
      | some frame =>
        sendFrame frame { s with conn := useSendCredit s.conn frame.streamData.length }

end SendImpl

structure SendUniStreamBase where
  id : Nat
  state : SendUniStreamState := {}
  data : StreamWriteData := {}
  deriving DecidableEq

namespace SendUniStreamBase

variable (uni : SendUniStreamBase)

def updateData (discard : Nat) (src : Bytes) (fin : Bool) : SendUniStreamBase × Bool :=
  ({ uni with data := (uni.data.update discard src fin).1 }, (uni.data.update discard src fin).2)

def resetFrame : ResetStreamFrame := ⟨uni.id, uni.state.errorCode, uni.state.sentBytes⟩

def sendReset (w : FWriter) : SendUniStreamBase × FWriter × IOResult :=
  if w.remain < fieldsLen uni.resetFrame.fields then (uni, w, .noCapacity)
  else
    match uni.state.reset with
    | (_, false) => (uni, w, .notInIoState)
    | (state, true) =>
      let (w, ok) := w.write (.resetStream uni.resetFrame)
      ({ uni with state := state }, w, if ok then .ok else .fatal)

def sendResetIfStopRequired (w : FWriter) : SendUniStreamBase × FWriter × IOResult :=
  if uni.state.isResetRequired then uni.sendReset w else (uni, w, .notInIoState)

def sendRetransmitReset (w : FWriter) : FWriter × IOResult :=
  if !uni.state.canRetransmitReset then (w, .notInIoState)
  else if w.remain < fieldsLen uni.resetFrame.fields then (w, .noCapacity)
  else
    let (w, ok) := w.write (.resetStream uni.resetFrame)
    (w, if ok then .ok else .fatal)

/-- `send_retransmit_stream`: on success, what was sent and what remains. -/
def sendRetransmitStream (w : FWriter) (offset : Nat) (fragment : Bytes) (fin : Bool) :
    FWriter × IOResult × Option (Fragment × Fragment) :=
  if !uni.state.canRetransmit then (w, .notInIoState, none)
  else if offset + fragment.length > uni.data.writtenOffset then (w, .invalidData, none)
  else if fin ∧ (!uni.data.finWritten ∨ offset + fragment.length ≠ uni.data.writtenOffset) then
    (w, .invalidData, none)
  else
    match makeFitSizeStream w.remain uni.id offset fragment fin fin with
    | none => (w, .noCapacity, none)
    | some frame =>
      match w.write (.stream frame) with
      | (w, false) => (w, .fatal, none)
      | (w, true) =>
        let remain := fragment.drop frame.streamData.length
        (w, .ok, some (⟨frame.offset, frame.streamData, frame.fin⟩,
          ⟨frame.stop, remain, fin && !frame.fin⟩))

end SendUniStreamBase

def sendStreamBlocked (w : FWriter) (id maxData : Nat) : FWriter × IOResult :=
  let blocked : StreamDataBlockedFrame := ⟨id, maxData⟩
  if maxData ≥ border 8 ∨ id ≥ border 8 then (w, .invalidData)
  else if w.remain < fieldsLen blocked.fields then (w, .noCapacity)
  else
    let (w, ok) := w.write (.streamDataBlocked blocked)
    (w, if ok then .ok else .fatal)

def sendConnBlocked (w : FWriter) (maxData : Nat) : FWriter × IOResult :=
  let blocked : DataBlockedFrame := ⟨maxData⟩
  if maxData ≥ border 8 then (w, .invalidData)
  else if w.remain < fieldsLen blocked.fields then (w, .noCapacity)
  else
    let (w, ok) := w.write (.dataBlocked blocked)
    (w, if ok then .ok else .fatal)

section Specification

variable {id fairnessLimit : Nat} {s : Sending}

def sendable (fairnessLimit : Nat) (s : Sending) : Nat :=
  min s.conn.availSize (payloadLimit fairnessLimit s)

theorem sendable_lt (fairnessLimit : Nat) (s : Sending) : sendable fairnessLimit s < 2 ^ 62 := by
  have limit_lt := s.state.limit.limit_lt
  have sendable_le : sendable fairnessLimit s ≤ s.state.limit.availSize := by
    simp only [sendable, payloadLimit, sendableSize]
    omega
  unfold Limiter.availSize at sendable_le
  split at sendable_le <;> omega

/-- `send_impl` sent nothing: only the credit of the connection may have changed. -/
structure Idle (s result : Sending) : Prop where
  w_eq : result.w = s.w
  state_eq : result.state = s.state
  data_eq : result.data = s.data
  saved_eq : result.saved = s.saved

structure Wrote (id fairnessLimit : Nat) (s : Sending) (frame : StreamFrame) (result : Sending) :
    Prop where
  open_state : s.state.canSend = true
  fitted : StreamFitted s.w.remain id s.data.writtenOffset
    (s.data.getRemain (sendable fairnessLimit s)) s.data.shouldFin frame
  frames_eq : result.w.frames = s.w.frames ++ [.stream frame]
  state_eq : result.state = { s.state with
    limit := result.state.limit, state := if frame.fin then .dataSent else .send }
  within : frame.stop ≤ s.state.sendLimit
  used_eq : result.state.limit.used = frame.stop
  data_eq : result.data = { s.data with
    writtenOffset := frame.stop, finWritten := s.data.finWritten || frame.fin }
  saved_eq : result.saved = some ⟨frame.offset, frame.streamData, frame.fin⟩

theorem sendFrame_cases {frame : StreamFrame}
    (used_eq : s.state.limit.used = s.data.writtenOffset)
    (offset_eq : frame.offset = s.data.writtenOffset)
    (writes : frame.streamID < 2 ^ 62 ∧ frame.streamData.length < 2 ^ 62)
    (room : frame.encoded.length ≤ s.w.remain) :
    Idle s (sendFrame frame s).1 ∨
      (s.state.canSend ∧ frame.stop ≤ s.state.sendLimit ∧
        ∃ (w : FWriter) (state : SendUniStreamState),
        w.frames = s.w.frames ++ [.stream frame] ∧ state.limit.used = frame.stop ∧
        state = { s.state with limit := state.limit, state := .send } ∧
        (sendFrame frame s).1 =
          { s with
            w := w
            state := { state with state := if frame.fin then .dataSent else .send }
            data := { s.data with
              writtenOffset := frame.stop, finWritten := s.data.finWritten || frame.fin }
            saved := some ⟨frame.offset, frame.streamData, frame.fin⟩ }) := by
  have offset_lt : frame.offset < 2 ^ 62 := by
    have used_lt := s.state.limit.used_lt
    omega
  have stop_eq : s.data.writtenOffset + frame.streamData.length = frame.stop := by
    rw [StreamFrame.stop, offset_eq]
  have grows : s.state.limit.used ≤ frame.stop := by
    omega
  obtain ⟨w, written, frames_eq, -⟩ := @write_of_room s.w (.stream _) _
    (StreamFrame.writes_render writes.1 offset_lt writes.2) room
  unfold sendFrame
  split
  case h_1 => exact .inl ⟨rfl, rfl, rfl, rfl⟩
  case h_2 state accepted =>
    obtain ⟨open_state, within, next_used, state_eq⟩ :=
      send_spec grows accepted
    refine .inr ⟨open_state, within, w, state, frames_eq, next_used, state_eq, ?_⟩
    have sent_eq : state.sent.1 = { state with state := .dataSent } := by
      rw [state_eq]
      rfl
    simp only [written, stop_eq]
    cases frame.fin with
    | false =>
      simp only [Bool.false_eq_true, if_false, Bool.or_false]
      rw [state_eq]
    | true => simp only [if_true, Bool.or_true, sent_eq]

/-- Everything `send_impl` can do to a stream whose credit counts what was written. -/
theorem sendImpl_cases (id_lt : id < 2 ^ 62)
    (used_eq : s.state.limit.used = s.data.writtenOffset) :
    Idle s (sendImpl id fairnessLimit s).1 ∨
      ∃ frame, Wrote id fairnessLimit s frame (sendImpl id fairnessLimit s).1 := by
  have idle : Idle s s := ⟨rfl, rfl, rfl, rfl⟩
  unfold sendImpl
  split
  · exact .inl idle
  · split
    · exact .inl idle
    · split
      · exact .inl idle
      · split
        · exact .inl idle
        · dsimp only
          split
          · exact .inl idle
          · split
            · exact .inl idle
            case h_2 frame made =>
              have data_lt : (s.data.getRemain (sendable fairnessLimit s)).length < 2 ^ 62 := by
                have lt := sendable_lt fairnessLimit s
                rw [StreamWriteData.getRemain, length_substr]
                omega
              have fitted := makeFitSizeStream_fitted data_lt made
              have frame_lt := lt_of_le_of_lt fitted.data_prefix.length_le data_lt
              rcases @sendFrame_cases
                { s with conn := useSendCredit s.conn frame.streamData.length } frame used_eq
                fitted.offset_eq ⟨by rw [fitted.id_eq]; exact id_lt, frame_lt⟩ fitted.room
                with same |
                  ⟨open_state, within, _, _, frames_eq, next_used, state_eq, result_eq⟩
              · exact .inl ⟨same.w_eq, same.state_eq, same.data_eq, same.saved_eq⟩
              · refine .inr ⟨frame, open_state, fitted, ?_, ?_, within, ?_, ?_, ?_⟩
                · rw [result_eq]
                  exact frames_eq
                · rw [result_eq]
                  rw [state_eq]
                · rw [result_eq]
                  exact next_used
                · rw [result_eq]
                · rw [result_eq]

theorem frames_sendStreamBlocked (w : FWriter) (id maxData : Nat) :
    ∃ more, (sendStreamBlocked w id maxData).1.frames = w.frames ++ more := by
  unfold sendStreamBlocked
  simp only
  split
  · exact ⟨[], by simp⟩
  · split
    · exact ⟨[], by simp⟩
    · exact ⟨_, frames_write w (.streamDataBlocked _)⟩

theorem frames_sendConnBlocked (w : FWriter) (maxData : Nat) :
    ∃ more, (sendConnBlocked w maxData).1.frames = w.frames ++ more := by
  unfold sendConnBlocked
  simp only
  split
  · exact ⟨[], by simp⟩
  · split
    · exact ⟨[], by simp⟩
    · exact ⟨_, frames_write w (.dataBlocked _)⟩

end Specification

end Futils.Quic.Stream
