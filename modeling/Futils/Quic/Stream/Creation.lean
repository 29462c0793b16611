import Mathlib.Data.List.Nodup
import Futils.Lib.Machine
import Futils.Quic.Types
import Futils.Quic.Stream.RecvState
import Futils.Quic.Stream.StreamId

/-!
# Streams that the peer opens

A frame that names a stream of the peer opens that stream and all streams of its type with smaller
numbers.  `StreamIDAcceptor` counts the streams of one type; `accept_impl` creates those between the
old and the new count, and `check_creation` puts them into the map of streams.
-/

namespace Futils.Quic

namespace FrameType

def isUniStreamSenderOK : FrameType → Bool
  | .stream _ _ _ | .streamDataBlocked | .resetStream => true
  | _ => false

def isUniStreamReceiverOK : FrameType → Bool
  | .maxStreamData | .stopSending => true
  | _ => false

def isBidiStreamOK (type : FrameType) : Bool :=
  type.isUniStreamReceiverOK || type.isUniStreamSenderOK

end FrameType

namespace Stream

open Varint Lib.Machine List Limiter
open StreamID hiding type origin

/-- Counts streams of the peer. -/
structure StreamIDAcceptor where
  limit : Limiter := {}
  type : StreamType
  origin : Origin := .unknown
  shouldSendLimitUpdate : Bool := false
  deriving DecidableEq

structure StreamIDIssuer where
  limit : Limiter := {}
  type : StreamType
  origin : Origin := .unknown
  deriving DecidableEq

namespace StreamIDAcceptor

def accept (acceptor : StreamIDAcceptor) (newId : Nat) : StreamIDAcceptor × Option Error :=
  if !valid newId || StreamID.type newId ≠ acceptor.type then
    (acceptor, some (.quic { msg := "invalid stream_id or type not matched. library bug!" }))
  else if StreamID.origin newId ≠ acceptor.origin then
    (acceptor, some (.quic
      { msg := "stream id provided by peer has not valid direction flag"
        transportError := .streamStateError }))
  else
    match acceptor.limit.updateUse (seqCount newId + 1) with
    | (_, false) =>
      (acceptor, some (.quic
        { msg := "stream over concurrency limit received", transportError := .flowControlError }))
    | (limit, true) => ({ acceptor with limit := limit }, none)

def updateLimit (acceptor : StreamIDAcceptor) (newLimit : Nat) : StreamIDAcceptor :=
  let (limit, raised) := acceptor.limit.updateLimit newLimit
  { acceptor with
    limit := limit, shouldSendLimitUpdate := raised || acceptor.shouldSendLimitUpdate }

end StreamIDAcceptor

namespace StreamIDIssuer

/-- `issue`: the new identifier, if there is one. -/
def issue (issuer : StreamIDIssuer) : StreamIDIssuer × Option Nat :=
  let id := makeId issuer.limit.used issuer.origin issuer.type
  if !valid id then (issuer, none)
  else
    match issuer.limit.use 1 with
    | (_, false) => (issuer, none)
    | (limit, true) => ({ issuer with limit := limit }, some id)

def isIssued (issuer : StreamIDIssuer) (id : Nat) : Bool :=
  StreamID.origin id = issuer.origin && StreamID.type id = issuer.type &&
    seqCount id < issuer.limit.used

end StreamIDIssuer

/-- The streams of the peer of one type. -/
structure Remote where
  acceptor : StreamIDAcceptor
  /-- The keys of `remote_bidi` or `remote_uni`. -/
  streams : List Nat := []
  created : List Nat := []
  deriving DecidableEq

/-- The message of a creation that fails. -/
def creationFailure : StreamType → Error
  | .bidi => .lib "unexpected creation failure on bidi stream!"
  | _ => .lib "unexpected creation failure on uni stream!"

namespace Remote

/-- One call of the callback of `check_creation`. -/
def create (remote : Remote) (oerr : Option Error) (id : Nat) : Remote × Option Error :=
  if oerr.isSome then (remote, oerr)
  else if id ∈ remote.streams then (remote, some (creationFailure (StreamID.type id)))
  else ({ remote with streams := remote.streams ++ [id], created := remote.created ++ [id] }, none)

/-- The loop of `accept_impl`, from sequence number `seq` on. -/
def createAll (remote : Remote) (oerr : Option Error) (seq : Nat) : Nat → Remote × Option Error
  | 0 => (remote, oerr)
  | count + 1 =>
    let (remote, oerr) := remote.create oerr
      (makeId seq remote.acceptor.origin remote.acceptor.type)
    createAll remote oerr (seq + 1) count

/-- `accept_impl`, with the callback of `check_creation`. -/
def acceptImpl (remote : Remote) (oerr : Option Error) (id : Nat) : Remote × Option Error :=
  let currentUsage := remote.acceptor.limit.used
  match remote.acceptor.accept id with
  | (acceptor, some err) => ({ remote with acceptor := acceptor }, some err)
  | (acceptor, none) =>
    createAll { remote with acceptor := acceptor } oerr currentUsage
      (acceptor.limit.used - currentUsage)

end Remote

/-- The streams of a connection, as far as their identifiers are concerned. -/
structure StreamsState where
  uniIssuer : StreamIDIssuer
  bidiIssuer : StreamIDIssuer
  uni : Remote
  bidi : Remote
  deriving DecidableEq

namespace StreamsState

variable (state : StreamsState) (type : FrameType) (id : Nat)

def localOrigin : Origin := state.uniIssuer.origin

def peerOrigin : Origin := state.uni.acceptor.origin

def remote : StreamType → Remote
  | .bidi => state.bidi
  | _ => state.uni

def setRemote (type : StreamType) (remote : Remote) : StreamsState :=
  match type with
  | .bidi => { state with bidi := remote }
  | _ => { state with uni := remote }

/-- A frame on a stream on which it may not be sent, or on one that does not exist. -/
def frameError (msg : String) (error : TransportError) (type : FrameType) : Error :=
  .quic { msg := msg, transportError := error, frameType := type }

/-- `check_recv_frame`: whether the stream was opened locally, and the error. -/
def checkRecvFrame : Bool × Option Error :=
  if StreamID.origin id = state.localOrigin then
    match StreamID.type id with
    | .bidi =>
      if !state.bidiIssuer.isIssued id then
        (true, some (frameError "not created stream id on bidirectional stream"
          .protocolViolation type))
      else if !type.isBidiStreamOK then
        (true, some (frameError "not allowed frame type for bidirectional stream. library bug!"
          .streamStateError type))
      else (true, none)
    | .uni =>
      if !state.uniIssuer.isIssued id then
        (true, some (frameError "not created stream id on unidirectional stream"
          .protocolViolation type))
      else if !type.isUniStreamReceiverOK then
        (true, some (frameError "not allowed frame type for sending unidirectional stream."
          .streamStateError type))
      else (true, none)
    | .unknown => (false, some (.quic { msg := "unexpected stream type. library bug!!" }))
  else if StreamID.origin id = state.peerOrigin then
    match StreamID.type id with
    | .bidi =>
      if !type.isBidiStreamOK then
        (true, some (frameError "not allowed frame type for bidirectional stream. library bug!"
          .streamStateError type))
      else (false, none)
    | _ =>
      if !type.isUniStreamSenderOK then
        (true, some (frameError "not allowed frame type for receiving unidirectional stream."
          .streamStateError type))
      else (false, none)
  else (false, some (.quic { msg := "unexpected stream type. library bug!!" }))

/-- `ConnectionBase::accept`, with the callback of `check_creation`. -/
def accept : StreamsState × Option Error :=
  let type := StreamID.type id
  let oerr := if type = .unknown then
      some (.quic { msg := "invalid stream id by peer? or library bug"
                    transportError := .protocolViolation })
    else none
  let (remote, oerr) := (state.remote type).acceptImpl oerr id
  (state.setRemote type remote, oerr)

/-- `check_creation`: the streams and the error. -/
def checkCreation : StreamsState × Option Error :=
  match state.checkRecvFrame type id with
  | (_, some err) => (state, some err)
  | (true, none) => (state, none)
  | (false, none) => state.accept id

end StreamsState

inductive CreationOp
  | reference (type : FrameType) (id : Value)
  /-- `update_max_uni_streams` or `update_max_bidi_streams`. -/
  | updateMaxStreams (type : StreamType) (newLimit : Nat)
  /-- `remove`, if the stream is removable. -/
  | remove (id : Nat) (removable : Bool)
  | openStream (type : StreamType)
  deriving DecidableEq

namespace StreamsState

def step (state : StreamsState) : CreationOp → StreamsState × Option Error
  | .reference type id => state.checkCreation type id
  | .updateMaxStreams type newLimit =>
    let remote := state.remote type
    (state.setRemote type { remote with acceptor := remote.acceptor.updateLimit newLimit }, none)
  | .remove id removable =>
    let remote := state.remote (StreamID.type id)
    if StreamID.origin id = state.peerOrigin ∧ removable then
      (state.setRemote (StreamID.type id)
        { remote with streams := remote.streams.filter (· ≠ id) }, none)
    else (state, none)
  | .openStream type =>
    match type with
    | .bidi => ({ state with bidiIssuer := state.bidiIssuer.issue.1 }, none)
    | _ => ({ state with uniIssuer := state.uniIssuer.issue.1 }, none)

def start (isServer : Bool) (uniLimit bidiLimit : Value) : StreamsState :=
  let side : Origin := if isServer then .server else .client
  { uniIssuer := { type := .uni, origin := side }
    bidiIssuer := { type := .bidi, origin := side }
    uni := { acceptor :=
      { limit := (Limiter.setLimit {} uniLimit).1, type := .uni, origin := side.inverse } }
    bidi := { acceptor :=
      { limit := (Limiter.setLimit {} bidiLimit).1, type := .bidi, origin := side.inverse } } }

end StreamsState

section Specification

variable {peer : Origin} {type : StreamType} {remote : Remote}

/-- The streams of the peer of one type: all up to the count were created, each once. -/
structure Remote.Complete (peer : Origin) (type : StreamType) (remote : Remote) : Prop where
  origin_eq : remote.acceptor.origin = peer
  type_eq : remote.acceptor.type = type
  used_le : remote.acceptor.limit.used ≤ 2 ^ 60
  created_eq : remote.created =
    (List.range remote.acceptor.limit.used).map (makeId · peer type)
  streams_subset : ∀ id ∈ remote.streams, id ∈ remote.created

theorem nodup_makeId (peer_known : peer ≠ .unknown) (type_known : type ≠ .unknown) {count : Nat}
    (count_le : count ≤ 2 ^ 60) :
    ((range count).map (makeId · peer type)).Nodup := by
  refine Nodup.map_on (fun seq seq_lt other other_lt same => ?_) nodup_range
  rw [mem_range] at seq_lt other_lt
  exact makeId_inj (by omega) (by omega) peer_known type_known same

theorem Remote.createAll_eq (peer_known : peer ≠ .unknown) (type_known : type ≠ .unknown)
    {seq count : Nat} (origin_eq : remote.acceptor.origin = peer)
    (type_eq : remote.acceptor.type = type) (count_le : seq + count ≤ 2 ^ 60)
    (created_eq : remote.created = (range seq).map (makeId · peer type))
    (streams_subset : ∀ id ∈ remote.streams, id ∈ remote.created) :
    let new := (range' seq count).map (makeId · peer type)
    remote.createAll none seq count =
      ({ remote with streams := remote.streams ++ new, created := remote.created ++ new }, none) := by
  induction count generalizing remote seq with
  | zero => simp [createAll]
  | succ count ih =>
    have fresh : makeId seq peer type ∉ remote.streams := by
      intro found
      have before := streams_subset _ found
      rw [created_eq, mem_map] at before
      obtain ⟨_, other_lt, same⟩ := before
      rw [mem_range] at other_lt
      have := makeId_inj (by omega) (by omega) peer_known type_known same
      omega
    have created : remote.create none (makeId seq peer type) =
        ({ remote with
          streams := remote.streams ++ [makeId seq peer type]
          created := remote.created ++ [makeId seq peer type] }, none) := by
      simp [create, fresh]
    have rest := @ih { remote with
        streams := remote.streams ++ [makeId seq _ _]
        created := remote.created ++ [makeId seq peer type] } (seq + 1) origin_eq type_eq
      (by omega) (by simp [created_eq, range_succ]) fun id found => by
        rcases mem_append.1 found with old | new
        · exact mem_append_left _ (streams_subset id old)
        · exact mem_append_right _ new
    rw [createAll, origin_eq, type_eq, created]
    simp only
    rw [rest]
    simp [range'_succ]

variable {id : Nat}

/-- A reference within the limit creates what is missing; one past it is refused. -/
theorem Remote.acceptImpl_spec (peer_known : peer ≠ .unknown) (type_known : type ≠ .unknown)
    (complete : remote.Complete peer type) (is_valid : valid id)
    (id_type : StreamID.type id = type) (id_origin : StreamID.origin id = peer) :
    let result := remote.acceptImpl none id
    (seqCount id < remote.acceptor.limit.limit →
      result.2 = none ∧ result.1.Complete peer type ∧
        result.1.acceptor.limit.used =
          max remote.acceptor.limit.used (seqCount id + 1) ∧
        ∃ new, result.1.streams = remote.streams ++ new ∧
          result.1.created = remote.created ++ new) ∧
    (remote.acceptor.limit.limit ≤ seqCount id →
      result.2.isSome ∧ result.1 = remote) := by
  have seq_lt := seqCount_lt is_valid
  have used_le := complete.used_le
  have matching : (!valid id || StreamID.type id ≠ remote.acceptor.type) = false := by
    simp [is_valid, id_type, complete.type_eq]
  have same_side : ¬ StreamID.origin id ≠ remote.acceptor.origin := by
    simp [id_origin, complete.origin_eq]
  simp only [acceptImpl, StreamIDAcceptor.accept, matching, Bool.false_eq_true, if_false,
    if_neg same_side]
  refine ⟨fun within => ?_, fun past => ?_⟩
  · obtain ⟨limit, accepted, -, used_eq⟩ := @Limiter.updateUse_of_le _ _ within
    rw [accepted]
    simp only
    have all := @createAll_eq _ _
      { remote with acceptor := { remote.acceptor with limit := limit } } peer_known type_known
      _ (limit.used - remote.acceptor.limit.used) complete.origin_eq
      complete.type_eq (by omega) complete.created_eq complete.streams_subset
    rw [all]
    refine ⟨rfl, ⟨complete.origin_eq, complete.type_eq, ?_, ?_, fun other found => ?_⟩, used_eq, _,
      rfl, rfl⟩
    · show limit.used ≤ 2 ^ 60
      omega
    · show remote.created ++ _ = (List.range limit.used).map _
      have joined := @List.range'_append_1 0 remote.acceptor.limit.used
        (limit.used - remote.acceptor.limit.used)
      rw [Nat.zero_add, Nat.add_sub_cancel' (by omega)] at joined
      rw [complete.created_eq, ← List.map_append, List.range_eq_range', joined,
        ← List.range_eq_range']
    · rcases List.mem_append.1 found with old | new
      · exact List.mem_append_left _ (complete.streams_subset _ old)
      · exact List.mem_append_right _ new
  · rw [Limiter.updateUse_of_lt (by omega)]
    exact ⟨rfl, rfl⟩

end Specification

namespace StreamsState

/-- The frame may be sent by the peer on a stream that it opened. -/
def allowed (type : FrameType) : StreamType → Bool
  | .bidi => type.isBidiStreamOK
  | _ => type.isUniStreamSenderOK

/-- A reference within the limit leaves every stream up to its number created once; one past the
limit is refused without effect. -/
def Answered (state : StreamsState) (op : CreationOp) : Prop :=
  match op with
  | .reference type id =>
    let kind := StreamID.type id
    let before := state.remote kind
    let after := (state.step op).1.remote kind
    StreamID.origin id = state.peerOrigin → allowed type kind = true →
      (seqCount id < before.acceptor.limit.limit →
        (state.step op).2 = none ∧
          (∀ seq ≤ seqCount id,
            after.created.count (makeId seq state.peerOrigin kind) = 1) ∧
          id.val ∈ after.created ∧
          (∃ new, after.streams = before.streams ++ new ∧ after.created = before.created ++ new) ∧
          (state.step op).1 = state.setRemote kind after) ∧
      (before.acceptor.limit.limit ≤ seqCount id →
        (state.step op).2.isSome = true ∧ (state.step op).1 = state)
  | _ => True

/-- All streams of the peer up to the counts were created, each once. -/
structure Complete (side : Origin) (state : StreamsState) : Prop where
  local_eq : state.localOrigin = side
  uni : state.uni.Complete side.inverse .uni
  bidi : state.bidi.Complete side.inverse .bidi

variable {side : Origin} {state : StreamsState} {kind : StreamType}

theorem Complete.peer_eq (complete : Complete side state) : state.peerOrigin = side.inverse :=
  complete.uni.origin_eq

theorem Complete.remote (complete : Complete side state) (known : kind ≠ .unknown) :
    (state.remote kind).Complete side.inverse kind := by
  cases kind with
  | bidi => exact complete.bidi
  | uni => exact complete.uni
  | unknown => exact absurd rfl known

theorem Complete.setRemote (complete : Complete side state) (known : kind ≠ .unknown)
    {remote : Remote} (remote_complete : remote.Complete side.inverse kind) :
    Complete side (state.setRemote kind remote) := by
  cases kind with
  | bidi => exact ⟨complete.local_eq, complete.uni, remote_complete⟩
  | uni => exact ⟨complete.local_eq, remote_complete, complete.bidi⟩
  | unknown => exact absurd rfl known

theorem Complete.update (complete : Complete side state) (kind : StreamType) {f : Remote → Remote}
    (keeps : ∀ {kind : StreamType} {remote : Remote}, remote.Complete side.inverse kind →
      (f remote).Complete side.inverse kind) :
    Complete side (state.setRemote kind (f (state.remote kind))) := by
  cases kind with
  | bidi => exact ⟨complete.local_eq, complete.uni, keeps complete.bidi⟩
  | uni | unknown => exact ⟨complete.local_eq, keeps complete.uni, complete.bidi⟩

@[simp] theorem remote_setRemote (remote : Remote) :
    (state.setRemote kind remote).remote kind = remote := by
  cases kind <;> rfl

@[simp] theorem setRemote_remote : state.setRemote kind (state.remote kind) = state := by
  cases kind <;> rfl

/-- A reference to a stream of the peer by a frame that may be sent on it goes to `accept_impl`. -/
theorem checkCreation_eq (remote_origin : state.localOrigin ≠ state.peerOrigin) {type : FrameType}
    {id : Nat} (known : StreamID.type id ≠ .unknown)
    (of_peer : StreamID.origin id = state.peerOrigin)
    (may : allowed type (StreamID.type id)) :
    state.checkCreation type id =
      (state.setRemote (StreamID.type id) ((state.remote (StreamID.type id)).acceptImpl none id).1,
        ((state.remote (StreamID.type id)).acceptImpl none id).2) := by
  have not_local : ¬ StreamID.origin id = state.localOrigin := by
    rw [of_peer]
    exact remote_origin.symm
  have passed : state.checkRecvFrame type id = (false, none) := by
    rw [checkRecvFrame, if_neg not_local, if_pos of_peer]
    cases kind_eq : StreamID.type id with
    | bidi =>
      rw [kind_eq] at may
      simp [show type.isBidiStreamOK from may]
    | uni =>
      rw [kind_eq] at may
      simp [show type.isUniStreamSenderOK from may]
    | unknown => exact absurd kind_eq known
  simp only [checkCreation, passed, accept, if_neg known]

theorem checkRecvFrame_passed {type : FrameType} {id : Nat} (known : StreamID.type id ≠ .unknown)
    (passed : state.checkRecvFrame type id = (false, none)) :
    StreamID.origin id = state.peerOrigin ∧ allowed type (StreamID.type id) := by
  unfold checkRecvFrame at passed
  split at passed
  · split at passed
    · split at passed
      · simp at passed
      · split at passed <;> simp at passed
    · split at passed
      · simp at passed
      · split at passed <;> simp at passed
    · simp at passed
  · split at passed
    case isTrue of_peer =>
      refine ⟨of_peer, ?_⟩
      split at passed
      case h_1 bidi =>
        split at passed
        · simp at passed
        case isFalse may => simpa [bidi, allowed] using may
      case h_2 =>
        split at passed
        · simp at passed
        case isFalse not_bidi may =>
          cases kind_eq : StreamID.type id with
          | bidi => exact absurd kind_eq not_bidi
          | uni => simpa [allowed] using may
          | unknown => exact absurd kind_eq known
    case isFalse => simp at passed

theorem valid_value (id : Value) : valid id := by
  simp only [valid, decide_eq_true_eq]
  omega

theorem type_known (id : Value) : StreamID.type id ≠ .unknown := by
  rw [StreamID.type, if_pos (valid_value id)]
  split <;> decide

theorem origin_known (known : side ≠ .unknown) : side.inverse ≠ .unknown ∧ side ≠ side.inverse := by
  cases side with
  | client | server => decide
  | unknown => exact absurd rfl known

theorem reference_spec (known : side ≠ .unknown) (complete : Complete side state)
    (type : FrameType) (id : Value) :
    Complete side (state.step (.reference type id)).1 ∧ Answered state (.reference type id) := by
  obtain ⟨peer_known, other_side⟩ := origin_known known
  have kind_known := type_known id
  have remote_origin : state.localOrigin ≠ state.peerOrigin := by
    rw [complete.local_eq, complete.peer_eq]
    exact other_side
  by_cases accepted : StreamID.origin id = state.peerOrigin ∧ allowed type (StreamID.type id)
  · obtain ⟨of_peer, may⟩ := accepted
    have spec := Remote.acceptImpl_spec peer_known kind_known (complete.remote kind_known)
      (valid_value id) rfl (of_peer.trans complete.peer_eq)
    have result_eq := checkCreation_eq remote_origin kind_known of_peer may
    obtain ⟨within, past⟩ := spec
    simp only [Answered, step, result_eq, remote_setRemote]
    refine ⟨?_, fun _ _ => ⟨fun below => ?_, fun over_limit => ?_⟩⟩
    · by_cases below : seqCount id < (state.remote (StreamID.type id)).acceptor.limit.limit
      · exact complete.setRemote kind_known (within below).2.1
      · rw [(past (not_lt.1 below)).2, setRemote_remote]
        exact complete
    · obtain ⟨no_error, after_complete, -, added⟩ := within below
      have created (seq : Nat) (seq_le : seq ≤ seqCount id) :
          makeId seq state.peerOrigin (StreamID.type id) ∈
            ((state.remote (StreamID.type id)).acceptImpl none id).1.created := by
        rw [after_complete.created_eq, complete.peer_eq]
        exact mem_map_of_mem (mem_range.2 (by omega))
      refine ⟨no_error, fun seq seq_le => ?_, ?_, added, trivial⟩
      · refine count_eq_one_of_mem ?_ (created seq seq_le)
        rw [after_complete.created_eq]
        exact nodup_makeId peer_known kind_known after_complete.used_le
      · have itself := created _ (le_rfl)
        rwa [← of_peer, makeId_parts (valid_value id)] at itself
    · obtain ⟨refused, same⟩ := past over_limit
      rw [same, setRemote_remote]
      exact ⟨refused, rfl⟩
  · have same : (state.step (.reference type id)).1 = state := by
      simp only [step, checkCreation]
      split
      · rfl
      · rfl
      case h_3 passed => exact absurd (checkRecvFrame_passed kind_known passed) accepted
    refine ⟨by rw [same]; exact complete, fun of_peer may => absurd ⟨of_peer, may⟩ accepted⟩

theorem used_updateLimit (acceptor : StreamIDAcceptor) (newLimit : Nat) :
    (acceptor.updateLimit newLimit).limit.used = acceptor.limit.used :=
  Limiter.used_updateLimit ..

theorem origin_issue (issuer : StreamIDIssuer) : issuer.issue.1.origin = issuer.origin := by
  simp only [StreamIDIssuer.issue]
  split
  · rfl
  · split <;> rfl

theorem step_spec (known : side ≠ .unknown) (complete : Complete side state) (op : CreationOp) :
    Complete side (state.step op).1 ∧ Answered state op := by
  cases op with
  | reference type id => exact reference_spec known complete type id
  | updateMaxStreams type newLimit =>
    have keeps {kind : StreamType} {remote : Remote}
        (remote_complete : remote.Complete side.inverse kind) :
        Remote.Complete side.inverse kind
          { remote with acceptor := remote.acceptor.updateLimit newLimit } := by
      refine ⟨remote_complete.origin_eq, remote_complete.type_eq, ?_, ?_,
        remote_complete.streams_subset⟩
      · rw [used_updateLimit]
        exact remote_complete.used_le
      · rw [used_updateLimit]
        exact remote_complete.created_eq
    exact ⟨complete.update _ keeps, trivial⟩
  | remove id removable =>
    have keeps {kind : StreamType} {remote : Remote} (remote_complete : remote.Complete _ _) :
        Remote.Complete side.inverse kind
          { remote with streams := remote.streams.filter (· ≠ id) } :=
      ⟨remote_complete.origin_eq, remote_complete.type_eq, remote_complete.used_le,
        remote_complete.created_eq, fun other found =>
          remote_complete.streams_subset _ (mem_filter.1 found).1⟩
    refine ⟨?_, trivial⟩
    simp only [step]
    split
    · exact complete.update _ keeps
    · exact complete
  | openStream type =>
    refine ⟨?_, trivial⟩
    cases type with
    | bidi => exact ⟨complete.local_eq, complete.uni, complete.bidi⟩
    | uni | unknown =>
      exact ⟨(origin_issue _).trans complete.local_eq, complete.uni, complete.bidi⟩

theorem complete_start (isServer : Bool) (uniLimit bidiLimit : Value) :
    Complete (if isServer then .server else .client) (start isServer uniLimit bidiLimit) := by
  have fresh (side : Origin) (kind : StreamType) (limit : Value) : Remote.Complete side.inverse kind
      { acceptor := { limit := (setLimit {} limit).1, type := kind
                      origin := side.inverse } } := by
    refine ⟨rfl, rfl, ?_, ?_, by simp⟩
    · rw [used_setLimit]
      exact zero_le
    · rw [used_setLimit]
      rfl
  exact ⟨rfl, fresh _ _ _, fresh _ _ _⟩

/-- In every run, references to streams of the peer create all up to the one named, each once, or
are refused. -/
theorem streams_created_once (isServer : Bool) (uniLimit bidiLimit : Value)
    (ops : List CreationOp) :
    let state := final step (start isServer uniLimit bidiLimit) ops
    Guarded step Answered (start isServer uniLimit bidiLimit) ops ∧
      state.uni.created.Nodup ∧ state.bidi.created.Nodup := by
  intro state
  have known : (if isServer then .server else .client : Origin) ≠ .unknown := by
    cases isServer <;> decide
  have started := complete_start isServer uniLimit bidiLimit
  have free : Guarded step (fun _ _ => True) (start isServer uniLimit bidiLimit) ops :=
    guarded_of_forall fun _ _ _ => trivial
  have answered := @guarded_of_invariant _ _ _ _ _ (Complete _) _
    (fun state op complete _ => step_spec known complete op) _ _ started free
  have complete :=
    @invariant_final _ _ _ _ (Complete _)
      (fun state op complete => (step_spec known complete op).1) _ started ops
  obtain ⟨peer_known, -⟩ := origin_known known
  refine ⟨answered, ?_, ?_⟩
  · rw [complete.uni.created_eq]
    exact nodup_makeId peer_known (by decide) complete.uni.used_le
  · rw [complete.bidi.created_eq]
    exact nodup_makeId peer_known (by decide) complete.bidi.used_le

end StreamsState

end Stream

end Futils.Quic
