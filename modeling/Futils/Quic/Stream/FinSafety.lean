import Futils.Lib.Machine
import Futils.Quic.Stream.SendStream

/-!
# FIN stands at the end of the stream

A sender is written to, receives credit and calls `send_impl` with any room and any fairness limit.
`make_fit_size_Stream` sets FIN when all of the data it was given fits, but that data was cut by
flow control before.  Where the cut data would fit as a whole, the stream ends too early; in every
run without such a call FIN stands at the end of what the application supplied.
-/

namespace Futils.Quic.Stream.FinSafety

open Lib Lib.Machine Quic.Frame Sender List SendUniStream

inductive Op
  | control (op : Control)
  /-- `send_impl` into a packet with `capacity` bytes left. -/
  | send (capacity fairnessLimit : Nat)
  deriving DecidableEq

/-- The answer to a step: the frames written and the bytes supplied so far. -/
structure Answer where
  frames : List Frame
  /-- `src.size() + discarded_offset`. -/
  total : Nat
  deriving DecidableEq

variable (sender : Sender)

def sending (capacity : Nat) : Sending where
  w := .ofCapacity capacity
  conn := sender.conn
  state := sender.stream.uni.state
  data := sender.stream.uni.data

@[simp] theorem frames_sending (capacity : Nat) : (sending sender capacity).w.frames = [] := rfl

def sendStep (capacity fairnessLimit : Nat) : Sender × Answer :=
  let sent := (sendImpl sender.stream.uni.id fairnessLimit (sending sender capacity)).1
  ({ sender with
      stream := { sender.stream with uni := { sender.stream.uni with
        state := sent.state, data := sent.data } }
      conn := sent.conn },
    ⟨sent.w.frames, sent.data.total⟩)

def step : Op → Sender × Answer
  | .control op => (sender.control op, ⟨[], (sender.control op).stream.uni.data.total⟩)
  | .send capacity fairnessLimit => sendStep sender capacity fairnessLimit

/-- The end of the stream is due, flow control leaves only a part of the data, and that part fits
the packet as a whole. -/
def CutShort (capacity fairnessLimit : Nat) : Prop :=
  let uni := sender.stream.uni
  let size := sendable fairnessLimit (sending sender capacity)
  uni.state.canSend = true ∧ uni.data.shouldFin = true ∧ size < uni.data.remain ∧
    uni.data.writtenOffset ≤ uni.state.sendLimit ∧
    StreamFits capacity uni.id uni.data.writtenOffset size
deriving Decidable

/-- `send_impl` is not called where it would end a stream that was cut. -/
def guard : Op → Prop
  | .control _ => True
  | .send capacity fairnessLimit => ¬ CutShort sender capacity fairnessLimit

instance (sender : Sender) (op : Op) : Decidable (guard sender op) := by
  cases op <;> dsimp only [guard] <;> infer_instance

/-- The sender has sent FIN only at the end of what was supplied. -/
structure EndsRight (sender : Sender) : Prop where
  backed : sender.Backed
  sent_fin : sender.stream.uni.state.state = .dataSent → sender.stream.uni.data.finWritten = true
  /-- FIN is sent once the application ended the stream and all data is sent. -/
  at_end : sender.stream.uni.data.finWritten = true → sender.stream.uni.data.fin = true ∧
    sender.stream.uni.data.writtenOffset = sender.supplied.length

/-- Every FIN frame of the answers ends where the supplied data ends. -/
def FinsAtEnd (past : List (Op × Answer)) : Prop :=
  ∀ entry ∈ past, ∀ frame, Frame.stream frame ∈ entry.2.frames → frame.fin = true →
    frame.stop = entry.2.total

theorem endsRight_control {sender : Sender} (right : EndsRight sender) (op : Control) :
    EndsRight (sender.control op) := by
  obtain ⟨kept, backed⟩ := control_kept right.backed op
  refine ⟨backed, ?_, ?_⟩
  · rw [kept.state_eq, kept.finWritten_eq]
    exact right.sent_fin
  · rw [kept.finWritten_eq, kept.written_eq]
    intro finished
    obtain ⟨ended, written_eq⟩ := right.at_end finished
    obtain ⟨_, supplied_eq, none_after⟩ := kept.supplied_eq
    rw [supplied_eq, none_after ended, append_nil]
    exact ⟨kept.fin_kept ended, written_eq⟩

/-- A frame with FIN that the guard lets through ends the supplied data. -/
theorem stop_of_fin {sender : Sender} (backed : sender.Backed) {capacity fairnessLimit : Nat}
    {frame : StreamFrame} {result : Sending}
    (wrote : Wrote sender.stream.uni.id fairnessLimit (sending sender capacity) frame result)
    (allowed : ¬ CutShort sender capacity fairnessLimit) (fin : frame.fin) :
    sender.stream.uni.data.fin ∧ frame.stop = sender.supplied.length := by
  have fin_eq := wrote.fitted.fin_eq
  rw [fin, eq_comm, Bool.and_eq_true, beq_iff_eq] at fin_eq
  obtain ⟨due, whole⟩ := fin_eq
  have offset_eq : frame.offset = sender.stream.uni.data.writtenOffset := wrote.fitted.offset_eq
  have remain_eq := Stream.Backed.remain_eq backed
  have written_le := Stream.Backed.written_le backed
  have sendable_le : sendable fairnessLimit (sending sender capacity) ≤
      sender.stream.uni.data.remain := by
    simp only [sendable, payloadLimit, sending]
    omega
  have cut_length : ((sending sender capacity).data.getRemain
      (sendable fairnessLimit (sending sender capacity))).length =
        sendable fairnessLimit (sending sender capacity) := by
    rw [show (sending sender capacity).data = sender.stream.uni.data from rfl,
      Stream.Backed.getRemain_eq backed, length_take, length_drop]
    omega
  obtain ⟨fits, -⟩ := wrote.fitted.full whole.symm
  rw [cut_length] at fits whole
  have all_sent : ¬ sendable fairnessLimit (sending sender capacity) <
      sender.stream.uni.data.remain := by
    intro cut
    have within : frame.stop ≤ sender.stream.uni.state.sendLimit := wrote.within
    refine allowed ⟨wrote.open_state, due, cut, ?_, fits⟩
    simp only [StreamFrame.stop] at within
    omega
  refine ⟨?_, ?_⟩
  · rw [StreamWriteData.shouldFin, Bool.and_eq_true] at due
    exact due.1
  · rw [StreamFrame.stop]
    omega

theorem endsRight_send {sender : Sender} (right : EndsRight sender) {capacity fairnessLimit : Nat}
    (allowed : ¬ CutShort sender capacity fairnessLimit) :
    EndsRight (sendStep sender capacity fairnessLimit).1 ∧
      FinsAtEnd [(.send capacity fairnessLimit,
        (sendStep sender capacity fairnessLimit).2)] := by
  have backed := right.backed
  have next_backed : Sender.Backed (sendStep sender capacity fairnessLimit).1 :=
    Stream.Backed.sendImpl backed rfl rfl
  rcases @sendImpl_cases sender.stream.uni.id fairnessLimit (sending sender capacity)
    (Stream.Backed.id_lt backed) (Stream.Backed.used_eq backed) with idle | ⟨frame, wrote⟩
  · refine ⟨⟨next_backed, ?_, ?_⟩, ?_⟩
    · simp only [sendStep, idle.state_eq, idle.data_eq]
      exact right.sent_fin
    · simp only [sendStep, idle.data_eq]
      exact right.at_end
    · simp [FinsAtEnd, sendStep, idle.w_eq]
  · have not_finished : sender.stream.uni.data.finWritten = false := by
      have open_state : sender.stream.uni.state.canSend := wrote.open_state
      cases finished : sender.stream.uni.data.finWritten with
      | false => rfl
      | true => simp [Stream.Backed.closed backed finished] at open_state
    have end_eq := stop_of_fin backed wrote allowed
    refine ⟨⟨next_backed, ?_, ?_⟩, ?_⟩
    · simp only [sendStep, wrote.data_eq]
      rw [wrote.state_eq]
      cases frame.fin <;> simp
    · simp only [sendStep, wrote.data_eq]
      intro finished
      rw [show (sending sender capacity).data.finWritten = false from not_finished] at finished
      exact end_eq finished
    · intro entry member other other_mem fin
      rw [mem_singleton.1 member] at other_mem ⊢
      simp only [sendStep, wrote.frames_eq] at other_mem ⊢
      obtain rfl : other = frame := by simpa using other_mem
      rw [(end_eq fin).2, wrote.data_eq]
      exact (Stream.Backed.total_eq backed).symm

theorem step_endsRight (past : List (Op × Answer)) (op : Op)
    (right : EndsRight sender ∧ FinsAtEnd past) (allowed : guard sender op) :
    EndsRight (step sender op).1 ∧ FinsAtEnd (past ++ [(op, (step sender op).2)]) := by
  have at_end : EndsRight (step sender op).1 ∧ FinsAtEnd [(op, (step sender op).2)] := by
    cases op with
    | control op =>
      exact ⟨endsRight_control right.1 op, by simp [FinsAtEnd, step]⟩
    | send capacity fairnessLimit => exact endsRight_send right.1 allowed
  refine ⟨at_end.1, fun entry member => ?_⟩
  rcases mem_append.1 member with old | new
  · exact right.2 _ old
  · exact at_end.2 _ new

/-- In every run without a call that would end a cut stream, each FIN ends where the data ends, and
`data_sent` has nothing left. -/
theorem fin_at_end {id : Nat} (id_lt : id < 2 ^ 62) (limit : Nat) (conn : Limiter) {ops : List Op}
    (guarded : Guarded step guard (.start id limit conn) ops) :
    FinsAtEnd (trace step (.start id limit conn) ops) ∧
      ((final step (.start id limit conn) ops).stream.uni.state.state = .dataSent →
        (final step (.start id limit conn) ops).stream.uni.data.remain = 0) := by
  have started : EndsRight (.start id limit conn) :=
    ⟨backed_start id_lt _ _, by simp [start, new,
      SendUniStreamState.setSendLimit], by simp [start, new]⟩
  have reached := @invariant_of_guarded _ _ _ _ _ _ step_endsRight _ [] ops
    ⟨started, by simp [FinsAtEnd]⟩ guarded
  obtain ⟨right, fins⟩ := reached
  refine ⟨by simpa using fins, fun sent => ?_⟩
  have written_eq := (right.at_end (right.sent_fin sent)).2
  rw [Stream.Backed.remain_eq right.backed, written_eq, Nat.sub_self]

/-- Three bytes, of which flow control first allows two. -/
theorem fin_at_end_credit :
    let ops := [.control (.write [1, 2, 3] false false), .send 100 2,
      .control (.write [4] true false), .control (.recvMaxStreamData 9), .send 100 50]
    Guarded step guard (.start 4 3 { limit := 10 }) ops ∧
      FinsAtEnd (trace step (.start 4 3 { limit := 10 }) ops) ∧
      ((final step (.start 4 3 { limit := 10 }) ops).stream.uni.state.state = .dataSent →
        (final step (.start 4 3 { limit := 10 }) ops).stream.uni.data.remain = 0) :=
  ⟨by decide, fin_at_end (by decide) 3 _ (by decide)⟩

/-- Three bytes and FIN against a stream limit of two: the frame carries two bytes and FIN. -/
theorem fin_before_end :
    let ops := [.control (.write [1, 2, 3] true false), .send 100 50]
    ¬ FinsAtEnd (trace step (.start 4 2 { limit := 10 }) ops) ∧
      (final step (.start 4 2 { limit := 10 }) ops).stream.uni.state.state = .dataSent ∧
      (final step (.start 4 2 { limit := 10 }) ops).stream.uni.data.remain = 1 := by
  refine ⟨?_, by decide, by decide⟩
  intro fins
  have stop_eq := fins (.send 100 50, ⟨[.stream ⟨false, true, true, 4, 0, [1, 2]⟩], 3⟩) (by decide)
    ⟨false, true, true, 4, 0, [1, 2]⟩ (by decide) rfl
  exact absurd stop_eq (by decide)

end Futils.Quic.Stream.FinSafety
