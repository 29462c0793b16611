import Futils.Lib.Machine
import Futils.Quic.Retention
import Futils.Quic.Stream.SendStream

/-!
# No stream byte is forgotten

A sending stream sends, resends and waits for acknowledgements in packets that are acknowledged and
lost in any order.  The callback of `send_retransmit` answers `not_in_io_state` also when a lost
fragment did not fit, or fitted only in part, so that the rest waits on a packet that does not carry
it.  As long as lost fragments fit, everything sent is retained.
-/

namespace Futils.Quic.Stream.Retransmission

open StreamFragment SendUniStreamBase List Sender Resend Packet
open Lib Lib.Machine Lib.Segment Quic.Frame SendUniStreamState SendUniStream

def covers (frag : StreamFragment) : Duty → Prop := Duty.Met frag.offset frag.data frag.fin
deriving DecidablePred

/-- What a frame carries for the stream `id`. -/
def carries (id : Nat) : Frame → Duty → Prop
  | .stream frame, duty =>
    frame.streamID = id ∧ Duty.Met frame.offset frame.streamData frame.fin duty
  | _, _ => False

instance (id : Nat) (frame : Frame) (duty : Duty) : Decidable (carries id frame duty) := by
  induction frame using Frame.casesOn <;> dsimp only [carries] <;> infer_instance

/-- What is due: the bytes that were written, and the end once it was. -/
def due (supplied : Bytes) (data : StreamWriteData) : Duty → Prop
  | .byte position value => position < data.writtenOffset ∧ supplied[position]? = some value
  | .fin position => data.finWritten = true ∧ position = data.writtenOffset

/-- A fragment of what was written. -/
structure Valid (supplied : Bytes) (data : StreamWriteData) (frag : StreamFragment) : Prop where
  agrees : Agrees supplied frag.offset frag.data
  stop_le : frag.stop ≤ data.writtenOffset
  at_end : frag.fin = true → data.finWritten = true ∧ frag.stop = data.writtenOffset

/-- A lost fragment can be sent in `room` bytes, if there is anything to send. -/
def Fits (id room : Nat) (frag : StreamFragment) : Prop :=
  (frag.data = [] ∧ frag.fin = false) ∨ StreamFits room id frag.offset frag.data.length
deriving Decidable

/-- The room that sending a fragment takes.  An empty one is sent only when its frame fills the
packet. -/
def cost (id room : Nat) (frag : StreamFragment) : Nat :=
  if frag.data = [] ∧ frag.fin = false then
    if calcStreamOverhead id frag.offset (frag.offset != 0) = room then room else 0
  else streamFitLen room id frag.offset frag.data.length

def ledger (id : Nat) (supplied : Bytes) (data : StreamWriteData) :
    Resend.Ledger StreamFragment FWriter Duty where
  room := FWriter.remain
  valid := Valid supplied data
  carried w frag := Carried covers (carries id) w.frames frag
  covers := covers
  fits := Fits id
  cost := cost id

section Callback

variable {supplied : Bytes} {uni : SendUniStreamBase} {frag : StreamFragment}

theorem carried_of_frame {id : Nat} {frames : List Frame} {frame : StreamFrame}
    (member : Frame.stream frame ∈ frames) (id_eq : frame.streamID = id)
    (offset_eq : frame.offset = frag.offset) (data_eq : frame.streamData = frag.data)
    (fin_eq : frame.fin = frag.fin) : Carried covers (carries id) frames frag := by
  intro duty covered
  refine ⟨_, member, id_eq, ?_⟩
  rw [offset_eq, data_eq, fin_eq]
  exact covered

theorem carried_empty {id : Nat} {frames : List Frame} (empty : frag.data = [] ∧ frag.fin = false) :
    Carried covers (carries id) frames frag := by
  intro duty covered
  cases duty <;> simp [covers, Duty.Met, empty.1, empty.2] at covered

theorem sendRetransmitStream_eq (resendable : uni.state.canRetransmit)
    (valid : Valid supplied uni.data frag) (w : FWriter) :
    uni.sendRetransmitStream w frag.offset frag.data frag.fin =
      match makeFitSizeStream w.remain uni.id frag.offset frag.data frag.fin frag.fin with
      | none => (w, .noCapacity, none)
      | some frame =>
        match w.write (.stream frame) with
        | (w, false) => (w, .fatal, none)
        | (w, true) =>
          (w, .ok, some (⟨frame.offset, frame.streamData, frame.fin⟩,
            ⟨frame.stop, frag.data.drop frame.streamData.length, frag.fin && !frame.fin⟩)) := by
  have stop_le := valid.stop_le
  have at_end := valid.at_end
  simp only [stop] at stop_le at_end
  have accepted : ¬ (frag.fin ∧ ((!uni.data.finWritten) ∨
      frag.offset + frag.data.length ≠ uni.data.writtenOffset)) := by
    rintro ⟨fin, wrong⟩
    obtain ⟨written, stop_eq⟩ := at_end fin
    simp [written, stop_eq] at wrong
  unfold sendRetransmitStream
  rw [if_neg (by simp [resendable]), if_neg (by omega)]
  exact if_neg accepted

/-- An empty frame is made only when it fills the packet. -/
theorem makeFitSizeStream_empty (toFit id offset : Nat) :
    makeFitSizeStream toFit id offset [] false false =
      if calcStreamOverhead id offset (offset != 0) = toFit then
        some (cutFrame id offset [] false false 0) else none := by
  obtain ⟨no_room, cut, -, whole⟩ := @makeFitSizeStream_cases _ id _ [] _ _ (by decide)
  have zero_len : Varint.minLen 0 = 1 := by decide
  simp only [length_nil] at cut whole
  split
  case isTrue exact_room =>
    rw [cut (by omega) (by omega)]
    congr
    omega
  case isFalse other_room =>
    by_cases short : toFit < calcStreamOverhead id offset (offset != 0)
    · exact no_room short
    · rw [whole (by omega) (by omega)]
      rfl

variable (resendable : uni.state.canRetransmit = true) (id_lt : uni.id < 2 ^ 62)
  (written_lt : uni.data.writtenOffset < 2 ^ 62)
include resendable id_lt written_lt

/-- The callback writes a frame that carries all of the fragment. -/
theorem retransmitFragment_whole
    (valid : Valid supplied uni.data frag) {w : FWriter} {frame : StreamFrame}
    (made : makeFitSizeStream w.remain uni.id frag.offset frag.data frag.fin frag.fin = some frame)
    (whole : frame.streamData = frag.data) :
    ∃ next, retransmitFragment uni w frag = (next, frag, [frag], .ok) ∧
      next.frames = w.frames ++ [.stream frame] ∧
      next.remain = w.remain - streamFitLen w.remain uni.id frag.offset frag.data.length ∧
      frame.streamID = uni.id ∧ frame.offset = frag.offset ∧ frame.fin = frag.fin := by
  have stop_le := valid.stop_le
  simp only [stop] at stop_le
  have fitted := makeFitSizeStream_fitted (by omega) made
  have fin_eq : frame.fin = frag.fin := by
    rw [fitted.fin_eq, whole, beq_self_eq_true, Bool.and_true]
  obtain ⟨-, length_eq⟩ := fitted.full (by rw [whole])
  obtain ⟨next, written, frames_eq, remain_eq⟩ := @FWriter.write_of_room w (.stream _) _
    (StreamFrame.writes_render (by rw [fitted.id_eq]; exact id_lt)
      (by rw [fitted.offset_eq]; omega) (by rw [whole]; omega)) fitted.room
  refine ⟨next, ?_, frames_eq, ?_, fitted.id_eq, fitted.offset_eq, fin_eq⟩
  · simp [retransmitFragment, sendRetransmitStream_eq resendable valid, made,
      written, whole, fin_eq, fitted.offset_eq]
  · rw [remain_eq, length_eq]

/-- The callback leaves an empty fragment that does not end the stream where it is, or sends it. -/
theorem retransmitFragment_empty (valid : Valid supplied uni.data frag)
    (empty : frag.data = [] ∧ frag.fin = false) (w : FWriter) :
    Resend.Resent (ledger uni.id supplied uni.data) w frag
      (retransmitFragment uni w frag) := by
  have made : makeFitSizeStream w.remain uni.id frag.offset frag.data frag.fin frag.fin =
      if calcStreamOverhead uni.id frag.offset (frag.offset != 0) = w.remain then
        some (cutFrame uni.id frag.offset [] false false 0) else none := by
    rw [empty.1, empty.2]
    exact makeFitSizeStream_empty _ _ _
  by_cases exact_room : calcStreamOverhead uni.id frag.offset (frag.offset != 0) = w.remain
  · rw [if_pos exact_room] at made
    obtain ⟨_, sent_eq, frames_eq, remain_eq, -⟩ := retransmitFragment_whole resendable id_lt
      written_lt valid made (by rw [empty.1]; rfl)
    rw [sent_eq]
    refine .of_self (.inl rfl) rfl valid ?_ (carried_empty empty) fun other carried => ?_
    · have all_taken : streamFitLen w.remain uni.id frag.offset frag.data.length = w.remain := by
        rw [empty.1, streamFitLen, length_nil, Nat.add_zero, if_pos exact_room]
      simp only [ledger, cost, remain_eq, all_taken]
      rw [if_pos empty, if_pos exact_room]
    · simp only [ledger, frames_eq] at carried ⊢
      exact carried.append _
  · rw [if_neg exact_room] at made
    have sent_eq : retransmitFragment uni w frag = (w, frag, [], .notInIoState) := by
      simp [retransmitFragment, sendRetransmitStream_eq resendable valid, made]
    rw [sent_eq]
    refine .of_self (.inr rfl) rfl valid ?_ (carried_empty empty) fun _ carried => carried
    simp only [ledger, cost]
    rw [if_pos empty, if_neg exact_room, Nat.sub_zero]

/-- The callback of `send_retransmit` is faithful to fragments that fit. -/
theorem retransmitFragment_faithful :
    Resend.Faithful (ledger uni.id supplied uni.data) (retransmitFragment uni) := by
  intro w frag valid fits
  by_cases empty : frag.data = [] ∧ frag.fin = false
  · exact retransmitFragment_empty resendable id_lt written_lt valid empty w
  · have some_data : frag.fin ∨ frag.data ≠ [] := by
      cases fin : frag.fin with
      | true => exact .inl rfl
      | false => exact .inr fun no_data => empty ⟨no_data, fin⟩
    have stop_le := valid.stop_le
    simp only [stop] at stop_le
    obtain ⟨frame, made, whole⟩ := @makeFitSizeStream_of_fits _ _ _ _
      _ _ (by omega) some_data (fits.resolve_left empty)
    obtain ⟨next, sent_eq, frames_eq, remain_eq, id_eq, offset_eq, fin_eq⟩ :=
      retransmitFragment_whole resendable id_lt written_lt valid made whole
    rw [sent_eq]
    have frame_mem : Frame.stream frame ∈ next.frames := by
      rw [frames_eq]
      simp
    refine .of_self (.inl rfl) rfl valid ?_
      (carried_of_frame frame_mem id_eq offset_eq whole fin_eq) fun other carried => ?_
    · simp only [ledger, cost, remain_eq]
      rw [if_neg empty]
    · simp only [ledger, frames_eq] at carried ⊢
      exact carried.append _

end Callback

/-- The invariant of a sender and its packets. -/
structure Safe (sender : Sender) (packets : List Packet) : Prop where
  backed : sender.Backed
  reset_closed : sender.stream.resetWait.isSome = true →
    sender.stream.uni.state.canSend = false ∧ sender.stream.uni.state.canRetransmit = false
  valid : ∀ item ∈ sender.stream.frags, Valid sender.supplied sender.stream.uni.data item.frag
  retained : Retained covers (carries sender.stream.uni.id) packets sender.stream.frags
    (due sender.supplied sender.stream.uni.data)

section Steps

variable {sender : Sender} {packets : List Packet}

/-- A change of the stream that closes it further and touches neither its data nor its fragments. -/
structure OnlyCloses (before after : SendUniStream) : Prop where
  closes : before.uni.state.Closes after.uni.state
  id_eq : after.uni.id = before.uni.id
  data_eq : after.uni.data = before.uni.data
  src_eq : after.src = before.src
  frags_eq : after.frags = before.frags

theorem Safe.of_onlyCloses (safe : Safe sender packets) {after : SendUniStream}
    (closes : OnlyCloses sender.stream after) (conn : Limiter)
    (reset_closed : after.resetWait.isSome →
      after.uni.state.canSend = false ∧ after.uni.state.canRetransmit = false) :
    Safe { sender with stream := after, conn := conn } packets where
  backed := by
    obtain ⟨id_lt, src_eq, buffered, discarded_le, written_le, used_eq, closed⟩ := safe.backed
    rw [← closes.data_eq] at src_eq buffered discarded_le written_le used_eq closed
    rw [← closes.src_eq] at src_eq buffered
    exact ⟨by rw [closes.id_eq]; exact id_lt, src_eq, buffered, discarded_le, written_le,
      by rw [closes.closes.limit_eq]; exact used_eq,
      fun finished => closes.closes.send_closed (closed finished)⟩
  reset_closed := reset_closed
  valid := by
    simp only [closes.frags_eq, closes.data_eq]
    exact safe.valid
  retained := by
    simp only [closes.frags_eq, closes.data_eq, closes.id_eq]
    exact safe.retained

theorem Safe.of_packets (safe : Safe sender packets) {later : List Packet}
    (retained : Retained covers (carries sender.stream.uni.id) later sender.stream.frags
      (due sender.supplied sender.stream.uni.data)) : Safe sender later :=
  ⟨safe.backed, safe.reset_closed, safe.valid, retained⟩

theorem Safe.deliver (safe : Safe sender packets) (index : Nat) (frames : List Frame) :
    Safe sender (deliver packets index frames) :=
  safe.of_packets (safe.retained.deliver _ _)

theorem canSend_congr {before after : SendUniStreamState} (state_eq : after.state = before.state) :
    after.canSend = before.canSend ∧ after.canRetransmit = before.canRetransmit := by
  simp [canSend, canRetransmit, state_eq]

theorem Safe.control (safe : Safe sender packets) (op : Control) :
    Safe (sender.control op) packets := by
  obtain ⟨kept, backed⟩ := control_kept safe.backed op
  obtain ⟨more, supplied_eq, -⟩ := kept.supplied_eq
  have written_le := Stream.Backed.written_le safe.backed
  obtain ⟨send_eq, retransmit_eq⟩ := canSend_congr kept.state_eq
  refine ⟨backed, ?_, ?_, ?_⟩
  · rw [kept.resetWait_eq, send_eq, retransmit_eq]
    exact safe.reset_closed
  · rw [kept.frags_eq, supplied_eq]
    intro item member
    obtain ⟨agrees, stop_le, at_end⟩ := safe.valid _ member
    rw [← kept.written_eq] at stop_le at_end
    rw [← kept.finWritten_eq] at at_end
    exact ⟨agrees.extend _, stop_le, at_end⟩
  · rw [kept.frags_eq, kept.id_eq, supplied_eq]
    refine safe.retained.due_mono fun duty is_due => ?_
    cases duty with
    | byte position value =>
      simp only [due, kept.written_eq] at is_due ⊢
      rwa [getElem?_append_left (by omega)] at is_due
    | fin position =>
      simpa only [due, kept.written_eq, kept.finWritten_eq] using is_due

theorem onlyCloses_maybeSendDone (stream : SendUniStream) :
    OnlyCloses stream stream.maybeSendDone ∧
      stream.maybeSendDone.resetWait = stream.resetWait := by
  unfold maybeSendDone
  split
  · exact ⟨⟨closes_sentAck _, rfl, rfl, rfl, rfl⟩, rfl⟩
  · exact ⟨⟨closes_refl _, rfl, rfl, rfl, rfl⟩, rfl⟩

theorem Safe.maybeSendDone (safe : Safe sender packets) :
    Safe { sender with stream := sender.stream.maybeSendDone } packets := by
  obtain ⟨closes, wait_eq⟩ := onlyCloses_maybeSendDone _
  refine safe.of_onlyCloses closes _ fun waits => ?_
  rw [wait_eq] at waits
  obtain ⟨send_closed, retransmit_closed⟩ := safe.reset_closed waits
  exact ⟨closes.closes.send_closed send_closed,
    closes.closes.retransmit_closed retransmit_closed⟩

theorem Safe.of_frags (safe : Safe sender packets) {frags : List (Resend StreamFragment)}
    {later : List Packet}
    (valid : ∀ item ∈ frags, Valid sender.supplied sender.stream.uni.data item.frag)
    (retained : Retained covers (carries sender.stream.uni.id) later frags
      (due sender.supplied sender.stream.uni.data)) :
    Safe { sender with stream := { sender.stream with frags := frags } } later :=
  ⟨safe.backed, safe.reset_closed, valid, retained⟩

theorem Safe.detectAckLost (safe : Safe sender packets) :
    Safe { sender with stream := (sender.stream.detectAckLost (marks packets)).1 }
      packets := by
  unfold SendUniStream.detectAckLost
  split
  case isTrue waits =>
    obtain ⟨send_closed, retransmit_closed⟩ := safe.reset_closed waits
    have closes := closes_resetAck sender.stream.uni.state
    split
    · exact @Safe.of_onlyCloses _ _ safe
        { sender.stream with uni := { sender.stream.uni with
          state := sender.stream.uni.state.resetAck.1 } }
        ⟨closes, rfl, rfl, rfl, rfl⟩ _ fun _ =>
          ⟨closes.send_closed send_closed, closes.retransmit_closed retransmit_closed⟩
    · split
      · exact safe
      · exact safe
  case isFalse =>
    refine Safe.maybeSendDone (safe.of_frags (fun item member => ?_) safe.retained.detect)
    exact safe.valid _ (mem_detectAckAndLost.1 member).1

/-- What `send_reset_unlocked` does: it closes the stream, or it lets `send` go on with a stream that
needs no reset. -/
structure ResetTried (before : SendUniStream) (w : FWriter)
    (result : SendUniStream × FWriter × IOResult) : Prop where
  closes : OnlyCloses before result.1
  reset_closed : (before.resetWait.isSome = true → before.uni.state.canSend = false ∧
      before.uni.state.canRetransmit = false) → result.1.resetWait.isSome = true →
    result.1.uni.state.canSend = false ∧ result.1.uni.state.canRetransmit = false
  /-- `send` goes on with the packet and the state as they were. -/
  goes_on : result.2.2 = .notInIoState → result.2.1 = w ∧ result.1.uni = before.uni ∧
    (before.resetWait.isSome = false → before.uni.state.canRetransmit = true →
      before.uni.state.isResetRequired = false)

theorem sendReset_tried (uni : SendUniStreamBase) (w : FWriter) :
    let result := uni.sendReset w
    uni.state.Closes result.1.state ∧ result.1.id = uni.id ∧ result.1.data = uni.data ∧
      (result.2.2 = .ok → result.1.state.canSend = false ∧
        result.1.state.canRetransmit = false) ∧
      (result.2.2 = .notInIoState → result.2.1 = w ∧ result.1 = uni ∧
        uni.state.canRetransmit = false) := by
  have closes := closes_reset uni.state
  unfold sendReset
  split
  · exact ⟨closes_refl _, rfl, rfl, by simp, by simp⟩
  · cases closed : uni.state.resetClosed with
    | true =>
      have refused : uni.state.reset = (uni.state, false) := if_pos closed
      simp only [refused]
      refine ⟨closes_refl _, trivial, trivial, by simp, fun _ =>
        ⟨trivial, trivial, ?_⟩⟩
      simp only [resetClosed, Bool.or_eq_true, decide_eq_true_eq] at closed
      rcases closed with (closed | closed) | closed <;>
        simp [canRetransmit, closed]
    | false =>
      have accepted : uni.state.reset =
          ({ uni.state with state := .resetSent, resetSentFlag := true }, true) :=
        if_neg (by simp [closed])
      rw [accepted] at closes
      simp only [accepted]
      refine ⟨closes, trivial, trivial, fun _ => ⟨rfl, rfl⟩, ?_⟩
      split <;> simp

theorem sendRetransmitReset_refused (uni : SendUniStreamBase) (w : FWriter)
    (refused : (uni.sendRetransmitReset w).2 = .notInIoState) :
    (uni.sendRetransmitReset w).1 = w := by
  unfold sendRetransmitReset at refused ⊢
  split
  · rfl
  case isFalse open_state =>
    rw [if_neg open_state] at refused
    split at refused
    · simp at refused
    · simp only at refused
      split at refused <;> simp at refused

theorem sendResetUnlocked_tried (stream : SendUniStream) (marks : Nat → ACKLostState)
    (observer : Nat) (w : FWriter) :
    ResetTried stream w (stream.sendResetUnlocked marks observer w) := by
  have same := closes_refl stream.uni.state
  unfold sendResetUnlocked
  split
  case isTrue waits =>
    split
    · refine ⟨⟨closes_resetAck _, rfl, rfl, rfl, rfl⟩, by simp, ?_⟩
      intro refused
      refine ⟨rfl, ?_, fun none => absurd (waits.symm.trans none) (by simp)⟩
      have not_acked : stream.uni.state.resetAck.2 = false := by
        by_contra acked
        simp [acked] at refused
      have state_eq : stream.uni.state.resetAck.1 = stream.uni.state := by
        unfold resetAck at not_acked ⊢
        split at not_acked
        · simp at not_acked
        · split at not_acked
          case isTrue other wrong => rw [if_neg other, if_pos wrong]
          case isFalse => simp at not_acked
      simp only [state_eq]
    · split
      · refine ⟨?_, fun closed _ => ?_, fun refused => ⟨?_, ?_, ?_⟩⟩
        · simp only
          split <;> exact ⟨same, rfl, rfl, rfl, rfl⟩
        · simp only
          split <;> exact closed waits
        · exact sendRetransmitReset_refused _ _ refused
        · simp only
          split <;> rfl
        · exact fun none => absurd (waits.symm.trans none) (by simp)
      · exact ⟨⟨same, rfl, rfl, rfl, rfl⟩, id, by simp⟩
  case isFalse waits =>
    cases required : stream.uni.state.isResetRequired with
    | true =>
      rw [show stream.uni.sendResetIfStopRequired w = stream.uni.sendReset w from
        if_pos required]
      obtain ⟨closes, id_eq, data_eq, done, refused⟩ := sendReset_tried _ w
      refine ⟨?_, fun _ => ?_, fun not_state => ⟨?_, ?_, ?_⟩⟩
      · simp only
        split <;> exact ⟨closes, id_eq, data_eq, rfl, rfl⟩
      · simp only
        split
        case isTrue sent => exact fun _ => done sent
        case isFalse => exact fun still_waits => absurd still_waits waits
      · exact (refused not_state).1
      · simp only
        split <;> exact (refused not_state).2.1
      · intro _ resendable
        rw [(refused not_state).2.2] at resendable
        contradiction
    | false =>
      rw [show stream.uni.sendResetIfStopRequired w = (stream.uni, w, .notInIoState) from
        if_neg (by simp [required])]
      exact ⟨⟨same, rfl, rfl, rfl, rfl⟩, fun _ still_waits => absurd still_waits waits,
        fun _ => ⟨rfl, rfl, fun _ _ => required⟩⟩

theorem Safe.written_lt (safe : Safe sender packets) :
    sender.stream.uni.data.writtenOffset < 2 ^ 62 := by
  rw [← Stream.Backed.used_eq safe.backed]
  exact sender.stream.uni.state.limit.used_lt

variable {observer : Nat}

theorem Safe.sendRetransmit (safe : Safe sender packets) (opened : observer < packets.length)
    {w : FWriter}
    (fit : sender.stream.uni.state.canRetransmit →
      Resend.LostFit (marks packets) (Fits sender.stream.uni.id)
        (cost sender.stream.uni.id) w.remain sender.stream.frags) :
    let result := sender.stream.sendRetransmit (marks packets) observer w
    Safe { sender with stream := result.1 }
      (Packet.deliver packets observer result.2.1.frames) := by
  unfold SendUniStream.sendRetransmit
  cases resendable : sender.stream.uni.state.canRetransmit with
  | false => exact safe.deliver observer w.frames
  | true =>
    have faithful := @retransmitFragment_faithful sender.supplied _ resendable
      (Stream.Backed.id_lt safe.backed) safe.written_lt
    have done := @retransmit_faithful _ _ _ _ observer _ _ faithful w _ safe.valid (fit resendable)
    have retained := safe.retained.retransmit opened rfl (fun _ _ carried => carried) done
    have kept := safe.of_frags (fun item member => ?_) retained
    · simp only [done.ok]
      exact kept.maybeSendDone
    · rcases done.left item member with none | old | ⟨-, valid, -⟩
      · simp at none
      · exact safe.valid _ old
      · exact valid

theorem sendNew_spec (stream : SendUniStream) (observer fairnessLimit : Nat) (conn : Limiter)
    (w : FWriter) :
    let sent := (sendImpl stream.uni.id fairnessLimit
      { w := w, conn := conn, state := stream.uni.state, data := stream.uni.data }).1
    let result := stream.sendNew observer fairnessLimit conn w
    result.1 = { stream with
        uni := { stream.uni with state := sent.state, data := sent.data }
        frags := match sent.saved with
          | none => stream.frags
          | some frag =>
            Resend.sent observer stream.frags ⟨frag.offset, frag.fragment, frag.fin⟩ } ∧
      ∃ more, result.2.2.1.frames = sent.w.frames ++ more := by
  intro sent result
  simp only [sent, result, sendNew]
  split
  · exact ⟨rfl, frames_sendStreamBlocked _ _ _⟩
  · exact ⟨rfl, frames_sendConnBlocked _ _⟩
  · exact ⟨rfl, [], by simp⟩

theorem due_of_frame {supplied : Bytes} {data : StreamWriteData} {frame : StreamFrame}
    (offset_eq : frame.offset = data.writtenOffset)
    (agrees : Agrees supplied frame.offset frame.streamData) (open_end : data.finWritten = false)
    {duty : Duty} (is_due : due supplied { data with
      writtenOffset := frame.stop, finWritten := data.finWritten || frame.fin } duty) :
    due supplied data duty ∨ covers ⟨frame.offset, frame.streamData, frame.fin⟩ duty := by
  cases duty with
  | byte position value =>
    obtain ⟨before_stop, value_eq⟩ := is_due
    by_cases old : position < data.writtenOffset
    · exact .inl ⟨old, value_eq⟩
    · refine .inr ⟨by simp only; omega, ?_⟩
      rw [agrees.getElem? ⟨by omega, before_stop⟩]
      exact value_eq
  | fin position =>
    obtain ⟨finished, position_eq⟩ := is_due
    rw [open_end] at finished
    exact .inr ⟨finished, position_eq.symm⟩

theorem Safe.sendNew {w : FWriter} (safe : Safe sender (Packet.deliver packets observer w.frames))
    (opened : observer < packets.length) (fairnessLimit : Nat) :
    let result := sender.stream.sendNew observer fairnessLimit sender.conn w
    Safe { sender with stream := result.1, conn := result.2.1 }
      (Packet.deliver packets observer result.2.2.1.frames) := by
  intro result
  obtain ⟨stream_eq, more, frames_eq⟩ :=
    sendNew_spec sender.stream observer fairnessLimit sender.conn w
  have backed := @Stream.Backed.sendImpl _ _ _ safe.backed fairnessLimit
    { w := w, conn := sender.conn, state := sender.stream.uni.state,
      data := sender.stream.uni.data } rfl rfl
  have result_backed : Sender.Backed { sender with stream := result.1, conn := result.2.1 } := by
    simp only [result, stream_eq]
    exact backed
  rcases @sendImpl_cases sender.stream.uni.id fairnessLimit
    { w := w, conn := sender.conn, state := sender.stream.uni.state, data := sender.stream.uni.data }
    (Stream.Backed.id_lt safe.backed) (Stream.Backed.used_eq safe.backed)
    with idle | ⟨frame, wrote⟩
  · rw [idle.state_eq, idle.data_eq, idle.saved_eq] at stream_eq
    rw [idle.w_eq] at frames_eq
    rw [show result.1 = sender.stream from stream_eq] at result_backed ⊢
    rw [frames_eq, ← Packet.deliver_append]
    exact (⟨result_backed, safe.reset_closed, safe.valid, safe.retained⟩ : Safe _ _).deliver _ _
  · obtain ⟨offset_eq, agrees⟩ := Stream.Backed.agrees_of_wrote safe.backed rfl wrote
    have open_state := wrote.open_state
    have open_end : sender.stream.uni.data.finWritten = false := by
      cases finished : sender.stream.uni.data.finWritten with
      | false => rfl
      | true => simp [Stream.Backed.closed safe.backed finished] at open_state
    rw [wrote.saved_eq, wrote.data_eq] at stream_eq
    rw [wrote.frames_eq] at frames_eq
    have carried : Carried covers (carries sender.stream.uni.id) [.stream frame]
        ⟨frame.offset, frame.streamData, frame.fin⟩ :=
      carried_of_frame (List.mem_singleton_self _) wrote.fitted.id_eq rfl rfl rfl
    have sent := safe.retained.sent (by simpa using opened) carried
      fun duty => due_of_frame offset_eq agrees open_end
    rw [Packet.deliver_append] at sent
    refine ⟨result_backed, ?_, ?_, ?_⟩
    · simp only [result, stream_eq]
      intro waits
      rw [(safe.reset_closed waits).1] at open_state
      contradiction
    · simp only [result, stream_eq]
      intro item member
      rcases mem_snoc.1 member with old | rfl
      · obtain ⟨item_agrees, stop_le, at_end⟩ := safe.valid _ old
        refine ⟨item_agrees, ?_, fun fin => ?_⟩
        · simp only [StreamFrame.stop]
          omega
        · rw [(at_end fin).1] at open_end
          contradiction
      · refine ⟨agrees, le_rfl, fun fin => ⟨?_, rfl⟩⟩
        simp [show frame.fin from fin]
    · simp only [result, stream_eq, frames_eq]
      rw [← Packet.deliver_append]
      exact sent.deliver _ _

/-- The lost fragments of a stream that is about to retransmit fit the packet. -/
def LostFit (sender : Sender) (packets : List Packet) (capacity : Nat) : Prop :=
  sender.stream.uni.state.canRetransmit = true → sender.stream.uni.state.isResetRequired = false →
    Resend.LostFit (Packet.marks packets) (Fits sender.stream.uni.id) (cost sender.stream.uni.id)
      capacity sender.stream.frags
deriving Decidable

theorem Safe.send (safe : Safe sender packets) (opened : observer < packets.length)
    {capacity : Nat} (fairnessLimit : Nat) (fit : LostFit sender packets capacity) :
    let result := sender.stream.send (marks packets) observer fairnessLimit sender.conn
      (.ofCapacity capacity)
    Safe { sender with stream := result.1, conn := result.2.1 }
      (Packet.deliver packets observer result.2.2.1.frames) := by
  unfold SendUniStream.send
  split
  · exact safe.deliver _ _
  · have tried := sendResetUnlocked_tried sender.stream (marks packets) observer
      (.ofCapacity capacity)
    obtain ⟨⟨stream, w, _⟩, tried_eq⟩ : ∃ all, sender.stream.sendResetUnlocked
      (marks packets) observer (.ofCapacity capacity) = all := ⟨_, rfl⟩
    rw [tried_eq] at tried
    have reset := safe.of_onlyCloses tried.closes sender.conn (tried.reset_closed safe.reset_closed)
    simp only [tried_eq]
    split
    · exact reset.deliver _ _
    case isFalse goes_on =>
      obtain ⟨w_eq, uni_eq, not_required⟩ := tried.goes_on (by simpa using goes_on)
      simp only at w_eq uni_eq
      subst w_eq
      have resent := reset.sendRetransmit opened (w := .ofCapacity _) (fun resendable => by
        simp only [uni_eq] at resendable ⊢
        rw [tried.closes.frags_eq]
        refine fit resendable (not_required ?_ resendable)
        by_contra waits
        rw [Bool.not_eq_false] at waits
        rw [(safe.reset_closed waits).2] at resendable
        contradiction)
      unfold sendStreamUnlocked
      obtain ⟨⟨_, _, _⟩, resent_eq⟩ : ∃ all,
        stream.sendRetransmit (marks packets) observer (.ofCapacity capacity) = all := ⟨_, rfl⟩
      simp only [resent_eq] at resent ⊢
      split
      · exact resent
      · exact resent.sendNew opened _

end Steps

structure World where
  sender : Sender
  packets : List Packet := []
  deriving DecidableEq

inductive Op
  | control (op : Control)
  | openPacket
  /-- `send` into the open packet, with `capacity` bytes left. -/
  | send (capacity fairnessLimit : Nat)
  | markAsAck (index : Nat)
  | markAsLost (index : Nat)
  | detectAckLost
  deriving DecidableEq

variable (world : World)

def sendStep (capacity fairnessLimit : Nat) : World × IOResult :=
  let observer := world.packets.length - 1
  let (next, conn, w, res) := world.sender.stream.send (Packet.marks world.packets) observer
    fairnessLimit world.sender.conn (.ofCapacity capacity)
  ({ sender := { world.sender with stream := next, conn := conn }
     packets := Packet.deliver world.packets observer w.frames }, res)

/-- One step; without an open packet nothing is sent. -/
def step : Op → World × IOResult
  | .control op => ({ world with sender := world.sender.control op }, .ok)
  | .openPacket => ({ world with packets := world.packets ++ [{ frames := [] }] }, .ok)
  | .send capacity fairnessLimit =>
    if world.packets.isEmpty then (world, .noCapacity)
    else sendStep world capacity fairnessLimit
  | .markAsAck index => ({ world with packets := Packet.mark world.packets index .ack }, .ok)
  | .markAsLost index => ({ world with packets := Packet.mark world.packets index .lost }, .ok)
  | .detectAckLost =>
    let (next, res) := world.sender.stream.detectAckLost (Packet.marks world.packets)
    ({ world with sender := { world.sender with stream := next } }, res)

/-- `send` is called only where every lost fragment fits the packet. -/
def guard : Op → Prop
  | .send capacity _ => LostFit world.sender world.packets capacity
  | _ => True

instance (world : World) (op : Op) : Decidable (guard world op) := by
  cases op <;> dsimp only [guard] <;> infer_instance

theorem step_safe (op : Op) (safe : Safe world.sender world.packets)
    (allowed : guard world op) : Safe (step world op).1.sender (step world op).1.packets := by
  cases op with
  | control op => exact safe.control op
  | openPacket => exact safe.of_packets safe.retained.opened
  | send capacity fairnessLimit =>
    simp only [step]
    split
    · exact safe
    case isFalse some_packet =>
      rw [List.isEmpty_iff, ← List.length_eq_zero_iff] at some_packet
      exact safe.send (show world.packets.length - 1 < world.packets.length by omega) _ allowed
  | markAsAck index => exact safe.of_packets (safe.retained.mark index .ack)
  | markAsLost index => exact safe.of_packets (safe.retained.mark index .lost)
  | detectAckLost => exact safe.detectAckLost

/-- Everything sent is held by a fragment or was carried by an acknowledged packet. -/
def Remembered : Prop :=
  let uni := world.sender.stream.uni
  ∀ duty, due world.sender.supplied uni.data duty →
    (∃ item ∈ world.sender.stream.frags, covers item.frag duty) ∨
      ∃ packet ∈ world.packets, packet.acked = true ∧
        ∃ frame ∈ packet.frames, carries uni.id frame duty

/-- Every fragment waits on the record of a packet that carries it. -/
def WaitsOnCarrier : Prop :=
  ∀ item ∈ world.sender.stream.frags, ∃ (index : Nat) (packet : Packet),
    item.wait = some index ∧ world.packets[index]? = some packet ∧
      Carried covers (carries world.sender.stream.uni.id) packet.frames item.frag

/-- In every run in which lost fragments fit the packet, no byte written is forgotten, nor the end
of the stream. -/
theorem stream_data_retained {id : Nat} (id_lt : id < 2 ^ 62) (limit : Nat) (conn : Limiter)
    {ops : List Op} (guarded : Guarded step guard { sender := .start id limit conn } ops) :
    Remembered (final step { sender := .start id limit conn } ops) ∧
      WaitsOnCarrier (final step { sender := .start id limit conn } ops) := by
  have started : Safe (.start id limit conn) [] := by
    refine ⟨backed_start id_lt _ _, ?_, ?_, ?_, ?_, ?_⟩
    · simp [start, new]
    · simp [start, new]
    · simp [Recorded]
    · simp [start, new]
    · intro duty is_due
      cases duty <;> simp [due, start, new] at is_due
  have safe := @invariant_of_guarded _ _ _ _ _ _
    (fun world _ op => step_safe _ op) _ [] ops started guarded
  exact ⟨safe.retained.kept, safe.retained.waits⟩

/-- A fragment is lost, sent again and acknowledged. -/
theorem stream_data_retained_resent :
    let ops := [.control (.write [1, 2, 3] true false), .openPacket, .send 50 50, .markAsLost 0,
      .openPacket, .send 50 50, .markAsAck 1, .detectAckLost]
    Guarded step guard { sender := .start 4 9 { limit := 9 } } ops ∧
      Remembered (final step { sender := .start 4 9 { limit := 9 } } ops) ∧
      WaitsOnCarrier (final step { sender := .start 4 9 { limit := 9 } } ops) :=
  ⟨by decide, stream_data_retained (by decide) 9 _ (by decide)⟩

/-- Of three bytes sent again one fits: the other two wait on a packet without them and are dropped
with it. -/
theorem stream_data_forgotten :
    let ops := [.control (.write [1, 2, 3] false false), .openPacket, .send 50 50, .markAsLost 0,
      .openPacket, .send 3 50, .markAsAck 1, .detectAckLost]
    ¬ Remembered (final step { sender := .start 4 9 { limit := 9 } } ops) := by
  intro ops remembered
  exact absurd (remembered (.byte 1 2) ⟨by decide, by decide⟩) (by decide)

end Futils.Quic.Stream.Retransmission
