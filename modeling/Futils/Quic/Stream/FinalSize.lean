import Futils.Lib.Machine
import Futils.Quic.Stream.RecvState

/-!
# The final size of a stream

The final size of a stream is given by the end of a frame with FIN or by RESET_STREAM, and no frame
may contradict the frames before it.  The frames that a stream took in are recorded here beside its
state machine, which keeps one number for the highest offset and for the final size.
-/

namespace Futils.Quic.Stream.FinalSize

open Quic.Frame Varint Lib.Machine RecvUniStreamState RecvUniStreamBase

/-- A frame that says something about the size of a stream. -/
inductive SizeFrame
  | stream (offset : Value) (data : Bytes) (fin : Bool)
  | reset (code finalSize : Value)
  deriving DecidableEq

namespace SizeFrame

def dataEnd : SizeFrame → Nat
  | .stream offset data _ => offset + data.length
  | .reset _ _ => 0

def finalSize? : SizeFrame → Option Nat
  | .stream offset data fin => if fin then some (offset + data.length) else none
  | .reset _ finalSize => some finalSize

end SizeFrame

/-- The frame carries data past a known final size, gives another one, or one below the highest
offset. -/
def Contradicts (before : List SizeFrame) (frame : SizeFrame) : Prop :=
  (∃ earlier ∈ before, ∃ known ∈ earlier.finalSize?,
      known < frame.dataEnd ∨ ∃ given ∈ frame.finalSize?, given ≠ known) ∨
    ∃ given ∈ frame.finalSize?, ∃ earlier ∈ before, given < earlier.dataEnd
deriving Decidable

/-- A receiving stream, the credit of its connection and the frames that the stream took in. -/
structure History where
  base : RecvUniStreamBase
  flow : Limiter
  frames : List SizeFrame := []
  deriving DecidableEq

inductive Op
  | frame (frame : SizeFrame) (delivery : Delivery)
  | user (op : RecvUserOp)
  /-- `update_max_data` of the connection. -/
  | updateMaxData (newLimit : Nat)
  | useRecvCredit (size : Nat)
  deriving DecidableEq

/-- The state machine of the stream takes the frame in, or ignores it. -/
def accepts (state : RecvUniStreamState) : SizeFrame → Bool
  | .stream offset data _ => !state.canRecv || (state.recv (offset + data.length)).2
  | .reset code finalSize => (state.reset finalSize code).2

def receive (history : History) (delivery : Delivery) :
    SizeFrame → Limiter × RecvUniStreamBase × IOResult × Option Error
  | .stream offset data fin =>
    history.base.recvStream history.flow ⟨true, true, fin, history.base.id, offset, data⟩ delivery
  | .reset code finalSize =>
    history.base.recvReset history.flow ⟨history.base.id, code, finalSize⟩

def step (history : History) : Op → History × Option Error
  | .frame frame delivery =>
    let (flow, base, _, err) := receive history delivery frame
    ({ base := base, flow := flow
       frames := if accepts history.base.state frame then history.frames ++ [frame]
         else history.frames }, err)
  | .user op =>
    ({ history with base := { history.base with state := op.apply history.base.state } }, none)
  | .updateMaxData newLimit =>
    ({ history with flow := (history.flow.updateLimit newLimit).1 }, none)
  | .useRecvCredit size => ({ history with flow := (Stream.useRecvCredit history.flow size).1 }, none)

def start (id limit connLimit : Value) : History where
  base := { id := id, state := (setRecvLimit {} limit).1 }
  flow := (Limiter.setLimit {} connLimit).1

/-- While the stream receives, a final size is not below the highest offset, has credit with FIN,
and is within the limit with RESET_STREAM.  Afterwards STREAM keeps to it, and RESET_STREAM repeats
it, or is past the limit with nothing read. -/
def guard (history : History) : Op → Prop
  | .frame (.stream offset data fin) _ =>
    let stop := offset + data.length
    let state := history.base.state
    if state.isRecv then
      fin = true → state.recvBytes ≤ stop ∧
        (stop ≤ state.recvLimit → stop - state.recvBytes ≤ history.flow.availSize)
    else stop ≤ state.recvBytes ∧ (fin = true → stop = state.recvBytes)
  | .frame (.reset _ finalSize) _ =>
    let state := history.base.state
    match state.state with
    | .preRecv | .recv => state.recvBytes ≤ finalSize ∧ finalSize ≤ state.recvLimit
    | .sizeKnown | .resetRecved => True
    | .dataRecved => finalSize = state.recvBytes ∨ state.recvLimit < finalSize
    | .dataRead | .resetRead => finalSize = state.recvBytes
  | _ => True

instance (history : History) (op : Op) : Decidable (guard history op) := by
  unfold guard
  split
  · dsimp only
    split <;> infer_instance
  · dsimp only
    split <;> infer_instance
  · infer_instance

/-- A frame is answered with FINAL_SIZE_ERROR exactly if it contradicts the frames before it. -/
def Answered (history : History) : Op → Prop
  | .frame frame delivery =>
    transportError? (receive history delivery frame).2.2.2 = some .finalSizeError ↔
      Contradicts history.frames frame
  | _ => True

/-- What the state machine knows about the frames it took in. -/
structure Consistent (history : History) : Prop where
  used_le : history.base.state.recvBytes ≤ history.base.state.recvLimit
  ends_le : ∀ frame ∈ history.frames, frame.dataEnd ≤ history.base.state.recvBytes
  known_eq : ∀ frame ∈ history.frames, ∀ known ∈ frame.finalSize?,
    history.base.state.recvBytes = known ∧ history.base.state.isRecv = false
  known : history.base.state.isRecv = false → ∃ frame ∈ history.frames, frame.finalSize?.isSome = true

variable {history : History}

theorem Consistent.contradicts_open (consistent : Consistent history)
    (receiving : history.base.state.isRecv) {frame : SizeFrame}
    (grows : ∀ given ∈ frame.finalSize?, history.base.state.recvBytes ≤ given) :
    ¬ Contradicts history.frames frame := by
  rintro (⟨earlier, found, known, gives, -⟩ | ⟨given, gives, earlier, found, below⟩)
  · have closed := (consistent.known_eq _ found _ gives).2
    exact absurd (closed.symm.trans receiving) (by simp)
  · have end_le := consistent.ends_le _ found
    have given_ge := grows _ gives
    omega

/-- Once a final size is known, it is the highest offset, and frames are compared with it. -/
theorem Consistent.contradicts_known (consistent : Consistent history)
    (closed : history.base.state.isRecv = false) (frame : SizeFrame) :
    Contradicts history.frames frame ↔
      history.base.state.recvBytes < frame.dataEnd ∨
        ∃ given ∈ frame.finalSize?, given ≠ history.base.state.recvBytes := by
  constructor
  · rintro (⟨earlier, found, known, gives, contradicts⟩ | ⟨given, gives, earlier, found, below⟩)
    · rw [(consistent.known_eq _ found _ gives).1]
      exact contradicts
    · have end_le := consistent.ends_le _ found
      exact .inr ⟨given, gives, by omega⟩
  · intro contradicts
    obtain ⟨earlier, found, gives⟩ := consistent.known closed
    obtain ⟨known, gives⟩ := Option.isSome_iff_exists.1 gives
    refine .inl ⟨earlier, found, known, gives, ?_⟩
    rw [(consistent.known_eq _ found _ gives).1] at contradicts
    exact contradicts

/-- A frame that is taken in is recorded, and the state knows its final size. -/
theorem Consistent.logged (consistent : Consistent history) {after : RecvUniStreamState}
    {frame : SizeFrame} (flow : Limiter) (used_le : after.recvBytes ≤ after.recvLimit)
    (grows : history.base.state.recvBytes ≤ after.recvBytes)
    (end_le : frame.dataEnd ≤ after.recvBytes)
    (closed : history.base.state.isRecv = false →
      after.recvBytes = history.base.state.recvBytes ∧ after.isRecv = false)
    (gives : ∀ known ∈ frame.finalSize?, after.recvBytes = known ∧ after.isRecv = false)
    (closes : after.isRecv = false →
      history.base.state.isRecv = false ∨ frame.finalSize?.isSome) :
    Consistent { base := { history.base with state := after }, flow := flow
                 frames := history.frames ++ [frame] } where
  used_le := used_le
  ends_le := fun other found => by
    rcases mem_snoc.1 found with old | rfl
    · exact le_trans (consistent.ends_le _ old) grows
    · exact end_le
  known_eq := fun other found known other_gives => by
    rcases mem_snoc.1 found with old | rfl
    · obtain ⟨known_eq, was_closed⟩ := consistent.known_eq _ old _ other_gives
      obtain ⟨used_eq, is_closed⟩ := closed was_closed
      exact ⟨used_eq.trans known_eq, is_closed⟩
    · exact gives _ other_gives
  known := fun is_closed => by
    rcases closes is_closed with was_closed | given
    · obtain ⟨other, found, other_gives⟩ := consistent.known was_closed
      exact ⟨other, List.mem_append_left _ found, other_gives⟩
    · exact ⟨frame, by simp, given⟩

section StreamFrames

variable {offset : Value} {data : Bytes} {fin : Bool}

/-- A STREAM frame within the condition contradicts nothing. -/
theorem stream_agrees (consistent : Consistent history) {delivery : Delivery}
    (allowed : guard history (.frame (.stream offset data fin) delivery)) :
    ¬ Contradicts history.frames (.stream offset data fin) := by
  simp only [guard] at allowed
  split at allowed
  case isTrue receiving =>
    refine consistent.contradicts_open receiving fun given gives => ?_
    cases fin with
    | false => cases gives
    | true =>
      cases gives
      exact (allowed rfl).1
  case isFalse closed =>
    rw [consistent.contradicts_known (by simpa using closed)]
    rintro (past | ⟨_, gives, other⟩)
    · exact absurd allowed.1 (not_le.2 past)
    · cases fin with
      | false => cases gives
      | true =>
        cases gives
        exact other (allowed.2 rfl)

theorem stream_received {before state after : RecvUniStreamState} {delivery : Delivery}
    {frame : StreamFrame}
    (received : Received before frame.stop
      (if before.state = .sizeKnown then .sizeKnown else .recv) state)
    (after_eq : after = (deliver state frame delivery).1) :
    after.recvLimit = before.recvLimit ∧ after.recvBytes = max before.recvBytes frame.stop ∧
      (after.isRecv ↔ before.state ≠ .sizeKnown ∧ frame.fin = false) := by
  obtain ⟨limit_eq, state_eq, -⟩ := deliver_spec _ _ _
  rw [← after_eq] at limit_eq state_eq
  refine ⟨?_, ?_, ?_⟩
  · rw [← received.limit_eq, recvLimit, recvLimit, limit_eq]
  · rw [← received.used_eq, recvBytes, recvBytes, limit_eq]
  · rw [isRecv, state_eq, received.state_eq]
    by_cases known : before.state = .sizeKnown <;> cases frame.fin <;> cases delivery <;>
      simp [known]

theorem stream_spec (consistent : Consistent history) {delivery : Delivery}
    (allowed : guard history (.frame (.stream offset data fin) delivery)) :
    Consistent (step history (.frame (.stream offset data fin) delivery)).1 ∧
      Answered history (.frame (.stream offset data fin) delivery) := by
  have agrees := stream_agrees consistent allowed
  have used_le := consistent.used_le
  have outcome := @recvStream_outcome _
    ⟨true, true, fin, history.base.id, offset, data⟩ rfl history.flow delivery
  have stop_eq : (⟨true, true, fin, history.base.id, offset, data⟩ : StreamFrame).stop =
      offset + data.length := rfl
  simp only [guard] at allowed
  simp only [step, Answered, receive, agrees]
  generalize history.base.recvStream history.flow
    ⟨true, true, fin, history.base.id, offset, data⟩ delivery = result at outcome
  cases outcome with
  | ignored shut =>
    have closed : history.base.state.isRecv = false := by
      rw [canRecv, Bool.or_eq_false_iff] at shut
      exact shut.1
    rw [if_neg (by simp [closed])] at allowed
    have taken : accepts history.base.state (.stream offset data fin) := by
      simp [accepts, shut]
    rw [if_pos taken]
    refine ⟨consistent.logged _ used_le (le_rfl) allowed.1 (fun _ => ⟨rfl, closed⟩) ?_
      (fun _ => .inl closed), by simp [transportError?]⟩
    intro known gives
    cases fin with
    | false => cases gives
    | true =>
      cases gives
      exact ⟨(allowed.2 rfl).symm, closed⟩
  | refused open_state past =>
    have refused : accepts history.base.state (.stream offset data fin) = false := by
      simp only [accepts, open_state, Bool.not_true, Bool.false_or]
      rw [Bool.eq_false_iff, Ne, recv_iff _ open_state]
      rintro ⟨within, before_end⟩
      rcases past with past | ⟨known, past⟩
      · omega
      · have := before_end known
        omega
    rw [refused]
    exact ⟨consistent, by simp [transportError?, streamOverflow]⟩
  | overdrawn open_state state before_end received overdraws =>
    have taken : accepts history.base.state (.stream offset data fin) := by
      simp only [accepts, open_state]
      exact (recv_iff _ open_state _).2 ⟨received.within, before_end⟩
    have grown := received.used_eq
    have within := received.within
    have limit_eq := received.limit_eq
    have unknown : history.base.state.state ≠ .sizeKnown := by
      intro known
      have := before_end known
      omega
    have receiving : history.base.state.isRecv := by
      simpa [canRecv, unknown] using open_state
    rw [if_pos receiving] at allowed
    have open_end : fin = false := by
      cases fin with
      | false => rfl
      | true =>
        obtain ⟨-, there⟩ := allowed rfl
        omega
    have still : state.isRecv := by
      simp [isRecv, received.state_eq, unknown]
    rw [if_pos taken]
    refine ⟨consistent.logged _ (by omega) (by omega) ?_ (fun closed => ?_) (fun known gives => ?_)
      (fun closed => ?_), by simp [transportError?, connOverflow]⟩
    · exact le_trans (Nat.le_max_right ..) (le_of_eq grown.symm)
    · exact absurd (closed.symm.trans receiving) (by simp)
    · rw [open_end] at gives
      cases gives
    · exact absurd (closed.symm.trans still) (by simp)
  | delivered open_state state next before_end received there limit_eq used_eq =>
    have taken : accepts history.base.state (.stream offset data fin) := by
      simp only [accepts, open_state]
      exact (recv_iff _ open_state _).2 ⟨received.within, before_end⟩
    obtain ⟨-, -, answer⟩ := deliver_spec state
      ⟨true, true, fin, history.base.id, offset, data⟩ delivery
    have within := received.within
    obtain ⟨after_limit, after_used, after_open⟩ :=
      @stream_received _ _ _ delivery _ received rfl
    rw [if_pos taken]
    refine ⟨consistent.logged _ (by omega) (by omega) ?_ (fun closed => ?_) (fun known gives => ?_)
      (fun closed => ?_), ?_⟩
    · exact le_trans (Nat.le_max_right ..) (le_of_eq after_used.symm)
    · have known : history.base.state.state = .sizeKnown := by
        simpa [canRecv, closed] using open_state
      refine ⟨?_, Bool.eq_false_iff.2 fun still => (after_open.1 still).1 known⟩
      have := before_end known
      omega
    · cases fin with
      | false => cases gives
      | true =>
        cases gives
        refine ⟨?_, Bool.eq_false_iff.2 fun still => absurd (after_open.1 still).2 (by simp)⟩
        split at allowed
        · have := (allowed rfl).1
          omega
        · have := allowed.2 rfl
          omega
    · by_contra neither
      rw [not_or] at neither
      obtain ⟨receiving, unfinished⟩ := neither
      have open_end : fin = false := by
        cases fin with
        | false => rfl
        | true => exact absurd rfl unfinished
      have unknown : history.base.state.state ≠ .sizeKnown := by
        intro known
        simp [isRecv, known] at receiving
      exact absurd (closed.symm.trans (after_open.2 ⟨unknown, open_end⟩)) (by simp)
    · rcases answer with answer | answer
      · rw [answer]
        simp [transportError?]
      · rw [answer]
        simp [transportError?, RecvSorter.fragmentError]

end StreamFrames

section ResetFrames

variable {code finalSize : Value} {delivery : Delivery}

/-- In a state that receives no more, RESET_STREAM contradicts the frames before it exactly if it gives
another size. -/
theorem reset_contradicts (consistent : Consistent history)
    (closed : history.base.state.isRecv = false) :
    Contradicts history.frames (.reset code finalSize) ↔
      finalSize.val ≠ history.base.state.recvBytes := by
  rw [consistent.contradicts_known closed]
  simp [SizeFrame.dataEnd, SizeFrame.finalSize?]

variable (consistent : Consistent history)
  (allowed : guard history (.frame (.reset code finalSize) delivery))
include consistent allowed

/-- RESET_STREAM within the condition, where the state machine accepts it. -/
theorem reset_agrees (accepted : accepts history.base.state (.reset code finalSize)) :
    history.base.state.recvBytes ≤ finalSize ∧ finalSize ≤ history.base.state.recvLimit ∧
      (history.base.state.isRecv = false → finalSize = history.base.state.recvBytes) ∧
      ¬ Contradicts history.frames (.reset code finalSize) := by
  have used_le := consistent.used_le
  simp only [accepts] at accepted
  rw [reset_iff] at accepted
  have same (closed : history.base.state.isRecv = false)
      (size_eq : finalSize = history.base.state.recvBytes) :
      history.base.state.recvBytes ≤ finalSize ∧ finalSize ≤ history.base.state.recvLimit ∧
        (history.base.state.isRecv = false → finalSize = history.base.state.recvBytes) ∧
        ¬ Contradicts history.frames (.reset code finalSize) :=
    ⟨by omega, by omega, fun _ => size_eq, by simp [reset_contradicts consistent closed, size_eq]⟩
  simp only [guard] at allowed
  split at allowed
  case h_1 found | h_2 found =>
    have receiving : history.base.state.isRecv := by
      simp [isRecv, found]
    refine ⟨allowed.1, allowed.2, fun closed => absurd (closed.symm.trans receiving) (by simp), ?_⟩
    refine consistent.contradicts_open receiving fun given gives => ?_
    cases gives
    exact allowed.1
  case h_3 found | h_4 found =>
    refine same (by simp [isRecv, found]) ?_
    rcases accepted with terminal | ⟨-, matching⟩
    · simp [isTerminalState, found] at terminal
    · exact matching (by simp [isSizeKnown, found])
  case h_5 found =>
    refine same (by simp [isRecv, found]) ?_
    rcases accepted with terminal | ⟨within, -⟩
    · simp [isTerminalState, found] at terminal
    · omega
  case h_6 found | h_7 found => exact same (by simp [isRecv, found]) allowed

/-- RESET_STREAM within the condition, where the state machine refuses it. -/
theorem reset_refused
    (mismatch : history.base.state.recvLimit < finalSize ∨
      history.base.state.isSizeKnown ∧ finalSize.val ≠ history.base.state.recvBytes) :
    Contradicts history.frames (.reset code finalSize) := by
  have used_le := consistent.used_le
  have other : finalSize.val ≠ history.base.state.recvBytes := by
    rcases mismatch with past | ⟨-, other⟩
    · omega
    · exact other
  simp only [guard] at allowed
  split at allowed
  case h_1 found | h_2 found =>
    rcases mismatch with past | ⟨known, -⟩
    · omega
    · simp [isSizeKnown, found] at known
  all_goals
    rename_i found
    exact (reset_contradicts consistent (by simp [isRecv, found])).2 other

/-- RESET_STREAM is answered with FINAL_SIZE_ERROR exactly if it contradicts the frames before it. -/
theorem reset_spec :
    Consistent (step history (.frame (.reset code finalSize) delivery)).1 ∧
      Answered history (.frame (.reset code finalSize) delivery) := by
  have outcome := @recvReset_outcome _ ⟨history.base.id, code, finalSize⟩ rfl history.flow
  have agrees := reset_agrees consistent allowed
  simp only [step, Answered, receive]
  generalize history.base.recvReset history.flow ⟨history.base.id, code, finalSize⟩ = result
    at outcome
  -- A frame that is taken in, whatever the connection says to it.
  have taken {state : RecvUniStreamState} (flow : Limiter)
      (accepted : accepts history.base.state (.reset code finalSize))
      (received : Received history.base.state finalSize .resetRecved state) :
      Consistent { base := { history.base with state := state }, flow := flow
                   frames := history.frames ++ [.reset code finalSize] } := by
    obtain ⟨grows, within, matching, -⟩ := agrees accepted
    have used_eq := received.used_eq
    have limit_eq := received.limit_eq
    have closed : state.isRecv = false := by simp [isRecv, received.state_eq]
    refine consistent.logged _ (by omega) (by omega) zero_le (fun was_closed => ?_)
      (fun known gives => ?_) (fun _ => .inr rfl)
    · have := matching was_closed
      exact ⟨by omega, closed⟩
    · cases gives
      exact ⟨by omega, closed⟩
  cases outcome with
  | needless terminal =>
    have accepted : accepts history.base.state (.reset code finalSize) :=
      (reset_iff ..).2 (.inl terminal)
    obtain ⟨-, -, matching, contradicts⟩ := agrees accepted
    have closed : history.base.state.isRecv = false := by
      simp only [isTerminalState, Bool.or_eq_true, decide_eq_true_eq]
        at terminal
      rcases terminal with found | found <;> simp [isRecv, found]
    rw [if_pos accepted]
    refine ⟨consistent.logged _ consistent.used_le (le_rfl) zero_le
      (fun _ => ⟨rfl, closed⟩) (fun known gives => ?_) (fun _ => .inl closed),
      by simp [transportError?, contradicts]⟩
    cases gives
    exact ⟨(matching closed).symm, closed⟩
  | refused live mismatch =>
    have refused : accepts history.base.state (.reset code finalSize) = false := by
      rw [Bool.eq_false_iff]
      intro accepted
      rcases (reset_iff ..).1 accepted with terminal | ⟨within, matching⟩
      · exact absurd (live.symm.trans terminal) (by simp)
      · rcases mismatch with past | ⟨known, other⟩
        · exact absurd within (not_le.2 past)
        · exact other (matching known)
    rw [refused]
    exact ⟨consistent, fun _ => reset_refused consistent allowed mismatch, fun _ => rfl⟩
  | overdrawn live state matching received overdraws =>
    have accepted : accepts history.base.state (.reset code finalSize) :=
      (reset_iff ..).2 (.inr ⟨received.within, matching⟩)
    rw [if_pos accepted]
    exact ⟨taken _ accepted received, by
      simp [transportError?, resetOverflow, (agrees accepted).2.2.2]⟩
  | done live state next matching received there limit_eq used_eq =>
    have accepted : accepts history.base.state (.reset code finalSize) :=
      (reset_iff ..).2 (.inr ⟨received.within, matching⟩)
    rw [if_pos accepted]
    exact ⟨taken _ accepted received, by simp [transportError?, (agrees accepted).2.2.2]⟩

end ResetFrames

theorem step_spec (history : History) (op : Op) (consistent : Consistent history)
    (allowed : guard history op) : Consistent (step history op).1 ∧ Answered history op := by
  cases op with
  | frame frame delivery =>
    cases frame with
    | stream offset data fin => exact stream_spec consistent allowed
    | reset code finalSize => exact reset_spec consistent allowed
  | user op =>
    obtain ⟨used_eq, limit_le, recv_eq, -⟩ := op.apply_spec history.base.state
    have used_le := consistent.used_le
    refine ⟨⟨?_, fun frame found => ?_, fun frame found known gives => ?_, fun closed => ?_⟩,
      trivial⟩
    · show (op.apply history.base.state).recvBytes ≤ (op.apply history.base.state).recvLimit
      omega
    · exact le_trans (consistent.ends_le _ found) (le_of_eq used_eq.symm)
    · obtain ⟨known_eq, closed⟩ := consistent.known_eq _ found _ gives
      exact ⟨used_eq.trans known_eq, recv_eq.trans closed⟩
    · exact consistent.known (recv_eq.symm.trans closed)
  | updateMaxData newLimit | useRecvCredit size =>
    exact ⟨⟨consistent.used_le, consistent.ends_le, consistent.known_eq, consistent.known⟩, trivial⟩

theorem consistent_start (id limit connLimit : Value) : Consistent (start id limit connLimit) := by
  have accepted : ¬ limit.val ≥ border 8 := not_le.2 limit.isLt
  have state_eq : (start id limit connLimit).base.state =
      { limit := { limit := limit, limit_lt := limit.isLt }, iniLimit := limit } := by
    simp only [start, setRecvLimit, Limiter.setLimit, dif_neg accepted]
  refine ⟨?_, ?_, ?_, fun closed => ?_⟩
  · rw [state_eq]
    exact zero_le
  · intro frame found
    cases found
  · intro frame found
    cases found
  · rw [state_eq] at closed
    cases closed

/-- In every run that meets the condition, FINAL_SIZE_ERROR answers exactly the frames that
contradict those before, and the recorded size is every final size given. -/
theorem final_size_checked {id limit connLimit : Value} {ops : List Op}
    (guarded : Guarded step guard (start id limit connLimit) ops) :
    let history := final step (start id limit connLimit) ops
    Guarded step Answered (start id limit connLimit) ops ∧
      ∀ frame ∈ history.frames, ∀ known ∈ frame.finalSize?,
        history.base.state.recvBytes = known := by
  have started := consistent_start id limit connLimit
  refine ⟨@guarded_of_invariant _ _ _ _ _ _ _ step_spec _ _ started guarded, ?_⟩
  have holds := @invariant_of_guarded _ _ _ _ _ _
    (fun history _ op consistent allowed => (step_spec history op consistent allowed).1) _ [] ops
    started guarded
  exact fun frame found known gives => (holds.known_eq _ found _ gives).1

/-- Reordered data, FIN, and then RESET_STREAM with the wrong and with the right size. -/
theorem final_size_checked_reset :
    let ops : List Op := [.frame (.stream 4 [1, 2] true) .more, .frame (.stream 0 [5, 6] false) .more,
      .frame (.reset 7 9) .more, .frame (.reset 7 6) .more]
    let wrong := final step (start 0 100 100) (ops.take 2)
    Guarded step guard (start 0 100 100) ops ∧
      (transportError? (receive wrong .more (.reset 7 9)).2.2.2 = some .finalSizeError ∧
        Contradicts wrong.frames (.reset 7 9)) ∧
      Guarded step Answered (start 0 100 100) ops ∧
      ∀ frame ∈ (final step (start 0 100 100) ops).frames, ∀ known ∈ frame.finalSize?,
        (final step (start 0 100 100) ops).base.state.recvBytes = known := by
  intro ops wrong
  have checked := @final_size_checked 0 100 100 ops (by decide +kernel)
  exact ⟨by decide +kernel, by decide +kernel, checked.1, checked.2⟩

/-- After FIN at 2, data up to 3 is a FLOW_CONTROL_ERROR.  After data up to 4, FIN and RESET_STREAM
at 2 are accepted, and the latter is then refused.  RESET_STREAM past the limit is a
FINAL_SIZE_ERROR. -/
theorem final_size_confused :
    let answer (ops : List Op) (frame : SizeFrame) :=
      let history := final step (start 0 100 100) ops
      ((transportError? (receive history .more frame).2.2.2 = some .finalSizeError : Bool),
        (Contradicts history.frames frame : Bool))
    let ended : Op := .frame (.stream 0 [1, 2] true) .more
    let data : Op := .frame (.stream 0 [1, 2, 3, 4] false) .more
    answer [ended] (.stream 2 [3] false) = (false, true) ∧
      answer [data] (.stream 0 [1, 2] true) = (false, true) ∧
      answer [data] (.reset 7 2) = (false, true) ∧
      answer [data, .frame (.reset 7 2) .more] (.reset 7 2) = (true, true) ∧
      answer [] (.reset 7 101) = (true, false) := by
  decide +kernel

end Futils.Quic.Stream.FinalSize
