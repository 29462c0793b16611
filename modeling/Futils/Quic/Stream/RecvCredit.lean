import Futils.Lib.Machine
import Futils.Lib.Shares
import Futils.Quic.Stream.RecvState

/-!
# Credit of a receiving connection

The peer uses the credit of a stream and of the connection for the highest offset it reaches on every
stream.  A connection is run here with any number of receiving streams; what the peer has reached is
recorded from the frames that were accepted, beside the limiters of the code.
-/

namespace Futils.Quic.Stream.RecvCredit

open Quic.Frame Varint Lib.Machine Lib.Shares RecvUniStreamState Nat Option List

/-- A receiving stream with what was accepted on it. -/
structure Member where
  base : RecvUniStreamBase
  ends : List Nat := []
  finalSize : Option Nat := none
  deriving DecidableEq

/-- The highest offset reached on the stream, the final size once it is reset. -/
def Member.reached (member : Member) : Nat := member.finalSize.getD (member.ends.foldr max 0)

structure Connection where
  flow : Limiter
  streams : List Member := []
  failed : Bool := false
  deriving DecidableEq

inductive Op
  | openStream (id limit : Value)
  | updateMaxData (newLimit : Nat)
  | recvStream (index : Nat) (offset : Value) (data : Bytes) (fin : Bool)
      (delivery : Delivery)
  | recvReset (index : Nat) (code finalSize : Value)
  | user (index : Nat) (op : RecvUserOp)
  deriving DecidableEq

namespace Member

def streamFrame (member : Member) (offset : Nat) (data : Bytes) (fin : Bool) : StreamFrame :=
  ⟨true, true, fin, member.base.id, offset, data⟩

def recvStream (flow : Limiter) (member : Member) (offset : Nat) (data : Bytes) (fin : Bool)
    (delivery : Delivery) : Limiter × Member × Option Error :=
  let (flow, base, res, err) :=
    member.base.recvStream flow (member.streamFrame offset data fin) delivery
  (flow, { member with
    base := base
    ends := if res = .ok then (offset + data.length) :: member.ends else member.ends }, err)

def recvReset (flow : Limiter) (member : Member) (code finalSize : Nat) :
    Limiter × Member × Option Error :=
  let (flow, base, res, err) := member.base.recvReset flow ⟨member.base.id, code, finalSize⟩
  (flow, { member with
    base := base
    finalSize :=
      if res = .ok ∧ member.base.state.isTerminalState = false then some finalSize
      else member.finalSize }, err)

end Member

/-- The connection after a call on one of its streams. -/
def Connection.called (conn : Connection) (index : Nat)
    (result : Limiter × Member × Option Error) : Connection × Option Error :=
  ({ flow := result.1
     streams := conn.streams.set index result.2.1
     failed := conn.failed || result.2.2.isSome }, result.2.2)

/-- One step; an operation on a stream that does not exist does nothing. -/
def step (conn : Connection) : Op → Connection × Option Error
  | .openStream id limit =>
    ({ conn with
      streams := conn.streams ++
        [{ base := { id := id, state := (setRecvLimit {} limit).1 } }] }, none)
  | .updateMaxData newLimit =>
    ({ conn with flow := (conn.flow.updateLimit newLimit).1 }, none)
  | .recvStream index offset data fin delivery =>
    match conn.streams[index]? with
    | none => (conn, none)
    | some member =>
      conn.called index (member.recvStream conn.flow offset data fin delivery)
  | .recvReset index code finalSize =>
    match conn.streams[index]? with
    | none => (conn, none)
    | some member => conn.called index (member.recvReset conn.flow code finalSize)
  | .user index op =>
    match conn.streams[index]? with
    | none => (conn, none)
    | some member =>
      conn.called index (conn.flow, { member with
        base := { member.base with state := op.apply member.base.state } }, none)

def start (limit : Value) : Connection where
  flow := (Limiter.setLimit {} limit).1

def ExceedsConn (conn : Connection) (member : Member) (stop : Nat) : Prop :=
  conn.flow.limit < (conn.streams.map Member.reached).sum + (stop - member.reached)
deriving Decidable

/-- The frame goes past the limit of the stream or of the connection. -/
def Exceeds (conn : Connection) (member : Member) (stop : Nat) : Prop :=
  member.base.state.recvLimit < stop ∨ ExceedsConn conn member stop
deriving Decidable

/-- The state in which `reset` compares sizes, or does nothing. -/
def Member.settled (member : Member) : Bool :=
  member.base.state.isSizeKnown || member.base.state.isTerminalState

/-- STREAM past a limit comes while the stream receives; RESET_STREAM keeps to the limit of the
stream, takes nothing back, and passes the limit of the connection only where it is not compared. -/
def Fair (conn : Connection) : Op → Prop
  | .recvStream index offset data _ _ => ∀ member ∈ conn.streams[index]?,
      member.base.state.canRecv = true ∨ ¬ Exceeds conn member (offset + data.length)
  | .recvReset index _ finalSize => ∀ member ∈ conn.streams[index]?,
      finalSize ≤ member.base.state.recvLimit ∧
        (member.settled = false → member.reached ≤ finalSize) ∧
        (member.settled = true → ¬ ExceedsConn conn member finalSize)
  | _ => True

instance (conn : Connection) (op : Op) : Decidable (Fair conn op) := by
  cases op <;> dsimp only [Fair] <;> infer_instance

/-- Every call so far succeeded, and the frame meets the condition. -/
def guard (conn : Connection) (op : Op) : Prop := conn.failed = false ∧ Fair conn op
deriving Decidable

/-- A frame past a limit is answered with FLOW_CONTROL_ERROR. -/
def Answered (conn : Connection) (op : Op) : Prop :=
  let answer := transportError? (step conn op).2
  match op with
  | .recvStream index offset data _ _ => ∀ member ∈ conn.streams[index]?,
      Exceeds conn member (offset + data.length) → answer = some .flowControlError
  | .recvReset index _ finalSize => ∀ member ∈ conn.streams[index]?,
      Exceeds conn member finalSize → answer = some .flowControlError
  | _ => True

/-- The credit that the connection counts is what the peer has reached, within all limits. -/
structure Accounted (conn : Connection) : Prop where
  used_eq : conn.flow.used = (conn.streams.map Member.reached).sum
  used_le : conn.flow.used ≤ conn.flow.limit
  reached_le : ∀ member ∈ conn.streams, member.reached ≤ member.base.state.recvLimit

/-- A stream whose limiter counts what was reached. -/
structure Member.Sound (member : Member) : Prop where
  used_eq : member.base.state.recvBytes = member.reached
  used_le : member.base.state.recvBytes ≤ member.base.state.recvLimit
  reset_closed : member.finalSize.isSome = true →
    member.base.state.state = .resetRecved ∨ member.base.state.state = .resetRead

/-- A connection whose streams are sound and add up. -/
structure Sound (conn : Connection) : Prop where
  balanced : Balanced Member.reached conn.flow.used conn.streams
  used_le : conn.flow.used ≤ conn.flow.limit
  streams : ∀ member ∈ conn.streams, member.Sound

theorem Sound.accounted {conn : Connection} (sound : Sound conn) : Accounted conn where
  used_eq := sound.balanced
  used_le := sound.used_le
  reached_le := fun member found => by
    have member_sound := sound.streams _ found
    rw [← member_sound.used_eq]
    exact member_sound.used_le

namespace Member

variable {member : Member}

theorem Sound.finalSize_none (sound : member.Sound) (open_state : member.base.state.canRecv) :
    member.finalSize = none := by
  cases reset : member.finalSize with
  | none => rfl
  | some size =>
    rcases sound.reset_closed (by simp [reset]) with closed | closed
    all_goals simp [canRecv, isRecv, closed] at open_state

theorem Sound.delivered (sound : member.Sound) {state after : RecvUniStreamState} {stop : Nat}
    {next : RecvState} (open_state : member.base.state.canRecv)
    (received : Received member.base.state stop next state) (limit_eq : after.limit = state.limit) :
    ({ member with
      base := { member.base with state := after }, ends := stop :: member.ends } : Member).Sound := by
  have none := sound.finalSize_none open_state
  have used_eq := sound.used_eq
  have within := received.within
  have used_le := sound.used_le
  have after_used : after.recvBytes = max member.base.state.recvBytes stop := by
    rw [← received.used_eq, recvBytes, recvBytes, limit_eq]
  have after_limit : after.recvLimit = member.base.state.recvLimit := by
    rw [← received.limit_eq, recvLimit, recvLimit, limit_eq]
  refine ⟨?_, ?_, by simp [none]⟩
  · simp only [reached, none, getD_none, foldr_cons] at used_eq ⊢
    rw [after_used, used_eq, max_comm]
  · show after.recvBytes ≤ after.recvLimit
    omega

theorem Sound.done {after : RecvUniStreamState} {size : Nat}
    (received : Received member.base.state size .resetRecved after)
    (grows : member.base.state.recvBytes ≤ size) :
    ({ member with
      base := { member.base with state := after }, finalSize := some size } : Member).Sound := by
  have used_eq := received.used_eq
  have within := received.within
  have limit_eq := received.limit_eq
  refine ⟨?_, ?_, fun _ => .inl received.state_eq⟩
  · show after.recvBytes = size
    omega
  · show after.recvBytes ≤ after.recvLimit
    omega

end Member

/-- What a call on a stream does to the books, unless it fails. -/
structure Charged (conn : Connection) (member : Member)
    (result : Limiter × Member × Option Error) : Prop where
  sound : result.2.1.Sound
  limit_eq : result.1.limit = conn.flow.limit
  used_eq : result.1.used + member.reached = conn.flow.used + result.2.1.reached
  used_le : result.1.used ≤ conn.flow.limit

variable {conn : Connection} {member : Member} {index : Nat}

theorem Sound.called (sound : Sound conn) (found : conn.streams[index]? = some member)
    {result : Limiter × Member × Option Error} (charged : Charged conn member result) :
    Sound (conn.called index result).1 where
  balanced := sound.balanced.set found charged.used_eq
  used_le := le_trans charged.used_le (le_of_eq charged.limit_eq.symm)
  streams := forall_mem_set sound.streams charged.sound

section Calls

variable (sound : Sound conn) (member_sound : member.Sound)
include sound member_sound

theorem exceedsConn_iff {stop : Nat} :
    ExceedsConn conn member stop ↔
      conn.flow.availSize < max member.base.state.recvBytes stop - member.base.state.recvBytes := by
  have used_le := sound.used_le
  have balanced := sound.balanced
  rw [ExceedsConn, ← balanced, ← member_sound.used_eq, Limiter.availSize]
  split <;> omega

theorem charged_same (err : Option Error) :
    Charged conn member (conn.flow, member, err) :=
  ⟨member_sound, rfl, rfl, sound.used_le⟩

theorem charged_received {stop : Nat}
    {next : RecvState} {state : RecvUniStreamState} {flow : Limiter} {after : Member}
    (received : Received member.base.state stop next state) (after_sound : after.Sound)
    (reached_eq : after.base.state.recvBytes = state.recvBytes)
    (there : state.recvBytes - member.base.state.recvBytes ≤ conn.flow.availSize)
    (limit_eq : flow.limit = conn.flow.limit)
    (used_eq : flow.used = conn.flow.used + (state.recvBytes - member.base.state.recvBytes))
    (err : Option Error) : Charged conn member (flow, after, err) := by
  have grown := received.used_eq
  have before := member_sound.used_eq
  have reached := after_sound.used_eq
  have used_le := sound.used_le
  refine ⟨after_sound, limit_eq, ?_, ?_⟩
  · show flow.used + member.reached = conn.flow.used + after.reached
    omega
  · show flow.used ≤ conn.flow.limit
    unfold Limiter.availSize at there
    split at there <;> omega

theorem recvStream_spec {offset : Nat}
    {data : Bytes} {fin : Bool} {delivery : Delivery}
    (fair : member.base.state.canRecv ∨ ¬ Exceeds conn member (offset + data.length)) :
    let result := member.recvStream conn.flow offset data fin delivery
    (Exceeds conn member (offset + data.length) →
        transportError? result.2.2 = some .flowControlError) ∧
      (result.2.2 = none → Charged conn member result) := by
  have exceeds_conn := @exceedsConn_iff _ _ sound member_sound (offset + data.length)
  have outcome := @RecvUniStreamBase.recvStream_outcome _
    (member.streamFrame offset data fin) rfl conn.flow delivery
  simp only [Member.recvStream]
  generalize member.base.recvStream conn.flow (member.streamFrame offset data fin) delivery =
    result at outcome
  cases outcome with
  | ignored closed =>
    refine ⟨fun exceeds => ?_, fun _ => charged_same sound member_sound _⟩
    rcases fair with open_state | within
    · exact absurd (closed.symm.trans open_state) (by simp)
    · exact absurd exceeds within
  | refused open_state past => exact ⟨fun _ => rfl, by simp⟩
  | overdrawn open_state state before_end received overdraws => exact ⟨fun _ => rfl, by simp⟩
  | delivered open_state state next before_end received there limit_eq used_eq =>
    obtain ⟨state_limit, -, answer⟩ := RecvUniStreamBase.deliver_spec _ _ _
    refine ⟨fun exceeds => ?_, fun succeeded => ?_⟩
    · rw [received.used_eq] at there
      rcases exceeds with past | past
      · exact absurd received.within (not_le.2 past)
      · exact absurd there (not_le.2 (exceeds_conn.1 past))
    · have ok : (RecvUniStreamBase.deliver state (member.streamFrame offset data fin)
          delivery).2.1 = .ok := by
        rcases answer with answer | answer
        · rw [answer]
        · rw [answer] at succeeded
          cases succeeded
      rw [if_pos ok]
      exact charged_received sound member_sound received
        (member_sound.delivered open_state received state_limit)
        (congrArg Limiter.used state_limit) there limit_eq used_eq _

theorem recvReset_spec {code finalSize : Nat}
    (fair : finalSize ≤ member.base.state.recvLimit ∧
      (member.settled = false → member.reached ≤ finalSize) ∧
      (member.settled → ¬ ExceedsConn conn member finalSize)) :
    let result := member.recvReset conn.flow code finalSize
    (Exceeds conn member finalSize → transportError? result.2.2 = some .flowControlError) ∧
      (result.2.2 = none → Charged conn member result) := by
  obtain ⟨within, not_below, not_past⟩ := fair
  have exceeds_conn := @exceedsConn_iff _ _ sound member_sound finalSize
  have outcome := @RecvUniStreamBase.recvReset_outcome _
    ⟨member.base.id, code, finalSize⟩ rfl conn.flow
  have only_conn : Exceeds conn member finalSize → ExceedsConn conn member finalSize := by
    rintro (past | past)
    · exact absurd within (not_le.2 past)
    · exact past
  simp only [Member.recvReset]
  generalize member.base.recvReset conn.flow ⟨member.base.id, code, finalSize⟩ = result at outcome
  cases outcome with
  | needless terminal =>
    refine ⟨fun exceeds => absurd (only_conn exceeds) (not_past (by simp [Member.settled, terminal])),
      fun _ => ?_⟩
    rw [if_neg (by simp [terminal])]
    exact charged_same sound member_sound _
  | refused live mismatch =>
    refine ⟨fun exceeds => ?_, by simp⟩
    rcases mismatch with past | ⟨known, -⟩
    · exact absurd within (not_le.2 past)
    · exact absurd (only_conn exceeds) (not_past (by simp [Member.settled, known]))
  | overdrawn live state matching received overdraws => exact ⟨fun _ => rfl, by simp⟩
  | done live state next matching received there limit_eq used_eq =>
    refine ⟨fun exceeds => ?_, fun _ => ?_⟩
    · rw [received.used_eq] at there
      exact absurd there (not_le.2 (exceeds_conn.1 (only_conn exceeds)))
    · have grows : member.base.state.recvBytes ≤ finalSize := by
        cases known : member.base.state.isSizeKnown with
        | true => exact le_of_eq (matching known).symm
        | false =>
          rw [member_sound.used_eq]
          exact not_below (by simp [Member.settled, known, live])
      rw [if_pos ⟨rfl, live⟩]
      exact charged_received sound member_sound received (Member.Sound.done received grows) rfl
        there limit_eq used_eq _

theorem charged_user (op : RecvUserOp) :
    Charged conn member (conn.flow, { member with
      base := { member.base with state := op.apply member.base.state } }, none) := by
  obtain ⟨used_eq, limit_le, -, closed⟩ := op.apply_spec _
  have before := member_sound.used_le
  refine ⟨⟨?_, ?_, fun reset => closed (member_sound.reset_closed reset)⟩, rfl, rfl, sound.used_le⟩
  · exact used_eq.trans member_sound.used_eq
  · show (op.apply member.base.state).recvBytes ≤ (op.apply member.base.state).recvLimit
    omega

end Calls

theorem sound_opened (id limit : Value) :
    Member.Sound
      { base := { id := id, state := (setRecvLimit {} limit).1 } } := by
  have accepted : ¬ limit.val ≥ border 8 := not_le.2 limit.isLt
  have state_eq : (setRecvLimit {} limit.val).1 =
      { limit := { limit := limit, limit_lt := limit.isLt }, iniLimit := limit } := by
    simp only [setRecvLimit, Limiter.setLimit, dif_neg accepted]
  rw [state_eq]
  exact ⟨rfl, zero_le, by simp⟩

theorem step_spec (sound : Sound conn) {op : Op} (fair : Fair conn op) :
    Answered conn op ∧ ((step conn op).2 = none → Sound (step conn op).1) := by
  cases op with
  | openStream id limit =>
    have opened := sound_opened id limit
    refine ⟨trivial, fun _ => ⟨sound.balanced.push rfl, sound.used_le, fun member found => ?_⟩⟩
    rcases mem_snoc.1 found with old | rfl
    · exact sound.streams _ old
    · exact opened
  | updateMaxData newLimit =>
    have used_eq := Limiter.used_updateLimit conn.flow newLimit
    have used_le := sound.used_le
    refine ⟨trivial, fun _ => ⟨?_, ?_, sound.streams⟩⟩
    · show Balanced _ (conn.flow.updateLimit newLimit).1.used _
      rw [used_eq]
      exact sound.balanced
    · show (conn.flow.updateLimit newLimit).1.used ≤ (conn.flow.updateLimit newLimit).1.limit
      rw [used_eq]
      exact le_trans used_le (Limiter.limit_le_updateLimit ..)
  | recvStream index offset data fin delivery =>
    rcases eq_none_or_eq_some conn.streams[index]? with absent | ⟨member, found⟩
    · simp only [Answered, step, absent]
      exact ⟨by simp, fun _ => sound⟩
    · have spec := @recvStream_spec _ _ sound
        (sound.streams _ (mem_of_getElem? found)) _ _ fin delivery
        (fair _ found)
      simp only [Answered, step, found]
      refine ⟨fun other same => ?_, fun succeeded => sound.called found (spec.2 succeeded)⟩
      cases same
      exact spec.1
  | recvReset index code finalSize =>
    rcases eq_none_or_eq_some conn.streams[index]? with absent | ⟨member, found⟩
    · simp only [Answered, step, absent]
      exact ⟨by simp, fun _ => sound⟩
    · have spec := @recvReset_spec _ _ sound
        (sound.streams _ (mem_of_getElem? found)) code _ (fair _ found)
      simp only [Answered, step, found]
      refine ⟨fun other same => ?_, fun succeeded => sound.called found (spec.2 succeeded)⟩
      cases same
      exact spec.1
  | user index op =>
    refine ⟨trivial, fun _ => ?_⟩
    simp only [step]
    split
    · exact sound
    case h_2 member found =>
      exact sound.called found (charged_user sound (sound.streams _ (mem_of_getElem? found)) op)

theorem failed_step (conn : Connection) (op : Op) :
    (step conn op).1.failed = (conn.failed || (step conn op).2.isSome) := by
  cases op with
  | openStream | updateMaxData => simp [step]
  | recvStream | recvReset | user =>
    simp only [step]
    split
    · simp
    · rfl

theorem sound_start (limit : Value) : Sound (start limit) where
  balanced := by
    show Balanced _ (Limiter.setLimit {} limit.val).1.used []
    rw [Limiter.used_setLimit]
    exact .nil
  used_le := by
    show (Limiter.setLimit {} limit.val).1.used ≤ _
    rw [Limiter.used_setLimit]
    exact zero_le
  streams := by
    intro member found
    cases found

theorem step_sound (conn : Connection) (op : Op) (sound : conn.failed = false → Sound conn)
    (allowed : guard conn op) :
    ((step conn op).1.failed = false → Sound (step conn op).1) ∧ Answered conn op := by
  obtain ⟨answered, kept⟩ := step_spec (sound allowed.1) allowed.2
  refine ⟨fun succeeded => kept ?_, answered⟩
  rw [failed_step, allowed.1, Bool.false_or, isSome_eq_false_iff] at succeeded
  exact isNone_iff_eq_none.1 succeeded

/-- In every run that meets the condition, frames past a limit are answered with FLOW_CONTROL_ERROR,
and the connection counts what the peer has reached. -/
theorem recv_flow_controlled {limit : Value} {ops : List Op}
    (guarded : Guarded step guard (start limit) ops) :
    Guarded step Answered (start limit) ops ∧
      ((final step (start limit) ops).failed = false → Accounted (final step (start limit) ops)) := by
  have started : (start limit).failed = false → Sound (start limit) := fun _ => sound_start limit
  refine ⟨@guarded_of_invariant _ _ _ _ _ _ _ step_sound _ _ started guarded, fun succeeded => ?_⟩
  have holds := @invariant_of_guarded _ _ _ _ _ _
    (fun conn _ op sound allowed => (step_sound conn op sound allowed).1) _ [] ops started guarded
  exact (holds succeeded).accounted

/-- Two streams with overlapping frames, one of them reset, and then a frame past the credit. -/
theorem recv_flow_controlled_overlap :
    let ops : List Op := [.openStream 0 8, .openStream 4 8, .recvStream 0 2 [1, 2] false .more,
      .recvStream 0 0 [5, 6, 1] false .more, .recvReset 1 7 5]
    let past : Op := .recvStream 0 4 [1, 1] true .more
    Accounted (final step (start 10) ops) ∧ (final step (start 10) ops).flow.used = 9 ∧
      Guarded step Answered (start 10) (ops ++ [past]) ∧
      transportError? (step (final step (start 10) ops) past).2 = some .flowControlError :=
  ⟨(recv_flow_controlled (by decide +kernel)).2 (by decide +kernel), by decide +kernel,
    (recv_flow_controlled (by decide +kernel)).1, by decide +kernel⟩

/-- RESET_STREAM past the limit is a FINAL_SIZE_ERROR.  One below the highest offset succeeds
uncounted.  STREAM past the limit is ignored once the stream is reset. -/
theorem resets_past_limit :
    let opened := final step (start 10) [.openStream 0 8, .recvStream 0 0 [1, 2, 3, 4] false .more]
    let below := step opened (.recvReset 0 7 3)
    transportError? (step opened (.recvReset 0 7 9)).2 = some .finalSizeError ∧
      (below.2 = none ∧ below.1.flow.used = 4 ∧
        (below.1.streams.map Member.reached).sum = 3) ∧
      (step below.1 (.recvStream 0 8 [9] false .more)).2 = none := by
  decide +kernel

end Futils.Quic.Stream.RecvCredit
