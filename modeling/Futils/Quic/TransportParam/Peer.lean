import Futils.Quic.TransportParam.Param

/-!
# The parameters that are accepted from a peer

`parse_peer` reads one parameter after the other and stores each in its field.  A list that goes
through has every defined parameter at most once and in its format, and none that only a server may
send when a server reads it.  The values are checked after every change, except that the error for a
delay over `2^14` has no text and is taken for no error, and that remembered limits may shrink.
-/

namespace Futils.Quic.TransportParam

open DefinedTransportParams List TransportParamValue Option
open Binary Varint Wire TransportParameter TransportParameters DefinedTransportParams

section Reading

/-- The parameters that a byte string consists of. -/
inductive Carries : Bytes → List TransportParameter → Prop
  | nil : Carries [] []
  | cons {input rest : Bytes} {param : TransportParameter} {params : List TransportParameter} :
      parse input = some (param, rest) → Carries rest params →
        Carries input (param :: params)

variable {input : Bytes}

theorem length_readValue {rest : Bytes} {value : LenValue}
    (read : readValue input = some (value, rest)) : rest.length < input.length := by
  cases input with
  | nil => cases read
  | cons first tail =>
    have positive : 0 < maskToLen first := by
      unfold maskToLen
      repeat' split
      all_goals decide
    rw [readValue, Parser.take] at read
    split at read
    · cases read
    rename_i taken
    split at taken
    · cases taken
    cases taken
    cases read
    rw [length_drop]
    omega

theorem parse_some {rest : Bytes} {param : TransportParameter}
    (parsed : parse input = some (param, rest)) :
    rest.length < input.length ∧ ∃ data, param.data = .byts data := by
  obtain ⟨_, _, id_read, parsed⟩ := Parser.bind_eq_some.1 parsed
  obtain ⟨_, _, length_read, parsed⟩ := Parser.bind_eq_some.1 parsed
  obtain ⟨_, _, data_read, parsed⟩ := Parser.bind_eq_some.1 parsed
  cases parsed
  have id_shorter := length_readValue id_read
  have length_shorter := length_readValue length_read
  rw [Parser.take] at data_read
  split at data_read
  · cases data_read
  cases data_read
  refine ⟨?_, _, rfl⟩
  rw [length_drop]
  omega

theorem Carries.byts {params : List TransportParameter} (carries : Carries input params) :
    ∀ param ∈ params, ∃ data, param.data = .byts data := by
  induction carries with
  | nil => simp
  | cons parsed _ ih =>
    intro param member
    rcases mem_cons.1 member with rfl | member
    · exact (parse_some parsed).2
    · exact ih _ member

end Reading

namespace TransportParameters

variable {isServer acceptZeroRtt : Bool}

/-- `set_peer` for one parameter after the other, up to the first error. -/
def setAll (isServer acceptZeroRtt : Bool) :
    TransportParameters → List TransportParameter → TransportParameters × Option PeerError
  | suite, [] => (suite, none)
  | suite, param :: params =>
    match suite.setPeer isServer acceptZeroRtt param with
    | (suite, some err) => (suite, some err)
    | (suite, none) => setAll isServer acceptZeroRtt suite params

variable {input : Bytes} {suite : TransportParameters}

theorem parseLoop_of_carries {params : List TransportParameter} (carries : Carries input params)
    {fuel : Nat} (enough : input.length ≤ fuel) (suite : TransportParameters) :
    parseLoop isServer acceptZeroRtt fuel suite input =
      some (setAll isServer acceptZeroRtt suite params) := by
  induction carries generalizing fuel suite with
  | nil => simp [parseLoop, setAll]
  | @cons input rest param params parsed _ ih =>
    have shorter := (parse_some parsed).1
    match input, fuel with
    | [], _ => cases parsed
    | first :: tail, 0 => exact absurd enough (by simp)
    | first :: tail, fuel + 1 =>
      simp only [parseLoop, parsed, setAll]
      rcases suite.setPeer isServer acceptZeroRtt param with ⟨suite, _ | -⟩
      · exact ih (by omega) _
      · rfl

/-- What is accepted consists of parameters that are all stored. -/
theorem carries_of_parseLoop {fuel : Nat} {final : TransportParameters}
    (accepted : parseLoop isServer acceptZeroRtt fuel suite input = some (final, none)) :
    ∃ params, Carries input params ∧
      setAll isServer acceptZeroRtt suite params = (final, none) := by
  induction fuel generalizing suite input with
  | zero =>
    cases input with
    | nil =>
      cases accepted
      exact ⟨[], .nil, rfl⟩
    | cons => cases accepted
  | succ fuel ih =>
    cases input with
    | nil =>
      cases accepted
      exact ⟨[], .nil, rfl⟩
    | cons first tail =>
      rw [parseLoop] at accepted
      split at accepted
      · cases accepted
      rename_i param rest parsed
      split at accepted
      · cases accepted
      rename_i stored
      obtain ⟨params, carries, all_stored⟩ := ih accepted
      refine ⟨param :: params, .cons parsed carries, ?_⟩
      rw [setAll, stored]
      exact all_stored

/-- The suite with the fields of `peer`, and the parameter marked as set. -/
def stored (suite : TransportParameters) (id : DefinedID) (peer : DefinedTransportParams) :
    TransportParameters :=
  { suite with
    peer := peer
    peerChecker := { suite.peerChecker with
      check := Function.update suite.peerChecker.check id.index true } }

/-- A parameter that is accepted is unknown, or is set for the first time, in its format, and to
values without an error text. -/
theorem setPeer_ok {next : TransportParameters} {param : TransportParameter}
    (accepted : suite.setPeer isServer acceptZeroRtt param = (next, none)) :
    checkRecv param.id.value isServer = none ∧
      ((param.defined = none ∧ next = suite) ∨
        ∃ id peer, param.defined = some id ∧ suite.peerChecker.check id.index = false ∧
          suite.peer.assign id param.data false = some peer ∧
          (validateTransportParam peer).toString = none ∧ next = suite.stored id peer) := by
  cases allowed : checkRecv param.id.value isServer with
  | some err => simp [setPeer, set, allowed] at accepted
  | none =>
    refine ⟨rfl, ?_⟩
    cases known : param.defined with
    | none =>
      simp only [setPeer, set, allowed, fromTransportParam, known,
        Bool.not_true, Bool.false_eq_true, if_false, Prod.mk.injEq, and_true] at accepted
      exact .inl ⟨rfl, accepted.symm⟩
    | some id =>
      refine .inr ⟨id, ?_⟩
      cases marked : suite.peerChecker.check id.index with
      | true =>
        simp [setPeer, set, allowed, fromTransportParam, known,
          marked] at accepted
      | false =>
        cases assigned : suite.peer.assign id param.data false with
        | none =>
          simp [setPeer, set, allowed, fromTransportParam, known,
            marked, assigned] at accepted
        | some peer =>
          simp only [setPeer, set, allowed, fromTransportParam,
            known, marked, assigned, Bool.not_true, Bool.false_eq_true, if_false, if_true,
            Prod.mk.injEq, map_eq_none_iff] at accepted
          exact ⟨peer, rfl, rfl, rfl, accepted.2, accepted.1.symm⟩

end TransportParameters

section Legality

/-- The parameters that only a server may send. -/
def DefinedID.ServerOnly : DefinedID → Prop
  | rdata .originalDstConnectionId | rdata .retrySrcConnectionId => True
  | statelessResetToken | preferredAddress => True
  | _ => False

/-- The format of a parameter. -/
def DefinedID.WellFormed (data : Bytes) : DefinedID → Prop
  | vlint _ => ∃ value, readValue data = some (value, [])
  | rdata _ => True
  | bool _ => data = []
  | statelessResetToken => data.length = 16
  | preferredAddress => ∃ address, PreferredAddress.parse data = some (address, [])

/-- The values that a peer may choose. -/
structure Legal (params : DefinedTransportParams) : Prop where
  ackDelayExponent : params.ints .ackDelayExponent ≤ 20
  maxAckDelay : params.ints .maxAckDelay < 2 ^ 14
  activeConnectionIdLimit : 2 ≤ params.ints .activeConnectionIdLimit
  maxUdpPayloadSize : 1200 ≤ params.ints .maxUdpPayloadSize
  initialMaxStreamsBidi : params.ints .initialMaxStreamsBidi ≤ 2 ^ 60
  initialMaxStreamsUni : params.ints .initialMaxStreamsUni ≤ 2 ^ 60
  preferredAddress : params.preferredAddress.enable = true →
    params.preferredAddress.connectionID ≠ []

theorem legal_default : Legal {} := by
  constructor <;> decide

def TransportParamValue.integer (data : TransportParamValue) : Option Nat :=
  if data.asQvarint.2 then some data.asQvarint.1.qvarint else none

/-- No delay of `2^14` or more is among the parameters. -/
def DelaysWithin (params : List TransportParameter) : Prop :=
  ∀ param ∈ params, param.defined = some (.vlint .maxAckDelay) →
    ∀ value ∈ param.data.integer, value < 2 ^ 14

/-- No remembered limit is among the parameters with a smaller value. -/
def NotShrinking (remembered : DefinedTransportParams) (params : List TransportParameter) : Prop :=
  ∀ param ∈ params, ∀ field, (DefinedID.vlint field).mustGreaterOrEqualIf0RTT = true →
    param.defined = some (.vlint field) →
      ∀ value ∈ param.data.integer, remembered.ints field ≤ value

variable {params changed : DefinedTransportParams} {id : DefinedID}

theorem legal_of_validate (passed : (validateTransportParam params).toString = none)
    (delay : params.ints .maxAckDelay < 2 ^ 14) : Legal params := by
  unfold validateTransportParam at passed
  split at passed
  · cases passed
  split at passed
  · cases passed
  split at passed
  · cases passed
  split at passed
  · omega
  split at passed
  · cases passed
  rename_i address
  split at passed
  · cases passed
  split at passed
  · cases passed
  constructor
  case preferredAddress =>
    rintro enabled empty
    simp [enabled, empty] at address
  all_goals omega

/-- A field of an integer takes the value that is sent for it and keeps the one it has otherwise. -/
theorem assign_ints {data : TransportParamValue} {acceptZeroRtt : Bool}
    (assigned : params.assign id data acceptZeroRtt = some changed) (field : IntParam) :
    (id ≠ .vlint field ∧ changed.ints field = params.ints field) ∨
      (id = .vlint field ∧ data.integer = some (changed.ints field)) := by
  cases id with
  | vlint target =>
    obtain ⟨_, taken, rfl⟩ := map_eq_some_iff.1 assigned
    by_cases same : field = target
    · subst same
      rw [vlint] at taken
      split at taken
      · cases taken
      rename_i is_integer
      split at taken
      · cases taken
      cases taken
      rw [integer, if_pos (by simpa using is_integer)]
      simp
    · exact .inl ⟨fun eq => same (DefinedID.vlint.inj eq).symm, by simp [Function.update_of_ne same]⟩
  | rdata _ | bool _ | statelessResetToken | preferredAddress =>
    obtain ⟨_, _, rfl⟩ := map_eq_some_iff.1 assigned
    exact .inl ⟨nofun, rfl⟩

theorem wellFormed_of_assign {data : Bytes} {acceptZeroRtt : Bool}
    (assigned : params.assign id (.byts data) acceptZeroRtt = some changed) :
    id.WellFormed data := by
  cases id with
  | vlint field =>
    obtain ⟨_, taken, -⟩ := map_eq_some_iff.1 assigned
    rw [vlint] at taken
    split at taken
    · cases taken
    rename_i is_integer
    simp only [asQvarint, Bool.not_eq_true', Bool.not_eq_false] at is_integer
    split at is_integer
    case h_1 value read => exact ⟨value, read⟩
    case h_2 => cases is_integer
  | rdata field => trivial
  | bool field =>
    obtain ⟨_, taken, -⟩ := map_eq_some_iff.1 assigned
    rw [DefinedTransportParams.bool] at taken
    split at taken
    · cases taken
    rename_i empty
    exact length_eq_zero_iff.1 (Decidable.not_not.1 empty)
  | statelessResetToken =>
    obtain ⟨_, taken, -⟩ := map_eq_some_iff.1 assigned
    rw [wdata, if_neg (by simp [asBytes])] at taken
    split at taken
    case isTrue same => exact same
    case isFalse => cases taken
  | preferredAddress =>
    obtain ⟨_, taken, -⟩ := map_eq_some_iff.1 assigned
    rw [addr] at taken
    split at taken
    case h_1 address parsed => exact ⟨address, parsed⟩
    case h_2 => cases taken

theorem not_serverOnly {param : TransportParameter} (known : param.defined = some id)
    (allowed : checkRecv param.id.value true = none) : ¬ id.ServerOnly := by
  rw [checkRecv, isDefined_of_ofValue known] at allowed
  split at allowed
  · cases allowed
  rename_i both
  rw [isDefinedBothSetAllowed] at both
  rw [defined] at known
  rcases id with _ | (_ | _ | _) | _ | _ | _ <;> simp_all [DefinedID.ServerOnly]

end Legality

namespace TransportParameters

variable {isServer acceptZeroRtt : Bool}

variable {suite next final : TransportParameters} {param : TransportParameter}
  {params : List TransportParameter}

theorem param_of_setPeer {data : Bytes} (is_bytes : param.data = .byts data)
    (accepted : suite.setPeer isServer acceptZeroRtt param = (next, none)) :
    (isServer → ∀ id, param.defined = some id → ¬ id.ServerOnly) ∧
      ∀ id, param.defined = some id → id.WellFormed data := by
  obtain ⟨allowed, outcome⟩ := setPeer_ok accepted
  refine ⟨fun is_server id known => not_serverOnly known (is_server ▸ allowed), ?_⟩
  intro id known
  rcases outcome with ⟨unknown, -⟩ | ⟨_, _, found_eq, -, assigned, -⟩
  · cases unknown.symm.trans known
  · cases found_eq.symm.trans known
    exact wellFormed_of_assign (is_bytes ▸ assigned)

theorem legal_of_setPeer (legal : Legal suite.peer)
    (delay : param.defined = some (.vlint .maxAckDelay) →
      ∀ value ∈ param.data.integer, value < 2 ^ 14)
    (accepted : suite.setPeer isServer acceptZeroRtt param = (next, none)) : Legal next.peer := by
  rcases (setPeer_ok accepted).2 with ⟨-, rfl⟩ | ⟨_, _, known, -, assigned, passed, rfl⟩
  · exact legal
  · refine legal_of_validate passed ?_
    rcases assign_ints assigned .maxAckDelay with ⟨-, kept⟩ | ⟨rfl, sent⟩
    · exact lt_of_le_of_lt (le_of_eq kept) legal.maxAckDelay
    · exact delay known _ sent

variable (accepted : setAll isServer acceptZeroRtt suite params = (final, none))
include accepted

/-- Every accepted list meets what its parameters meet one by one. -/
theorem param_of_setAll (bytes : ∀ param ∈ params, ∃ data, param.data = .byts data) :
    ∀ param ∈ params, (isServer → ∀ id, param.defined = some id → ¬ id.ServerOnly) ∧
      ∀ id, param.defined = some id → id.WellFormed param.data.bytes := by
  induction params generalizing suite with
  | nil => simp
  | cons first params ih =>
    rw [setAll] at accepted
    split at accepted
    · cases accepted
    rename_i stored
    intro param member
    rcases mem_cons.1 member with rfl | member
    · obtain ⟨_, is_bytes⟩ := bytes _ mem_cons_self
      rw [is_bytes]
      exact param_of_setPeer is_bytes stored
    · exact ih accepted (forall_mem_cons.1 bytes).2 _ member

/-- No parameter is accepted twice, nor when it was marked before. -/
theorem nodup_of_setAll : (params.filterMap defined).Nodup ∧
    ∀ id ∈ params.filterMap defined, suite.peerChecker.check id.index = false := by
  induction params generalizing suite with
  | nil => simp
  | cons first params ih =>
    rw [setAll] at accepted
    split at accepted
    · cases accepted
    rename_i stored_eq
    obtain ⟨nodup, unmarked⟩ := ih accepted
    rcases (setPeer_ok stored_eq).2 with ⟨unknown, rfl⟩ | ⟨id, _, known, first_time, -, -, rfl⟩
    · rw [filterMap_cons_none unknown]
      exact ⟨nodup, unmarked⟩
    · rw [filterMap_cons_some known]
      -- The table keeps the mark, so the same parameter cannot come later.
      have later : ∀ other ∈ params.filterMap defined,
          other ≠ id ∧ suite.peerChecker.check other.index = false := by
        intro other member
        have free := unmarked _ member
        by_cases same : other = id
        · simp [stored, same] at free
        · refine ⟨same, ?_⟩
          have apart := fun eq => same (DefinedID.index_inj.1 eq)
          simpa [stored, Function.update_of_ne apart] using free
      refine ⟨nodup_cons.2 ⟨fun again => (later id again).1 rfl, nodup⟩, ?_⟩
      intro other member
      rcases mem_cons.1 member with rfl | member
      · exact first_time
      · exact (later _ member).2

theorem legal_of_setAll (legal : Legal suite.peer) (delays : DelaysWithin params) :
    Legal final.peer := by
  induction params generalizing suite with
  | nil =>
    cases accepted
    exact legal
  | cons first params ih =>
    rw [setAll] at accepted
    split at accepted
    · cases accepted
    rename_i stored
    have next_legal := legal_of_setPeer legal (delays _ mem_cons_self) stored
    exact ih accepted next_legal (forall_mem_cons.1 delays).2

/-- An integer at the end is the one from the start or was sent. -/
theorem ints_of_setAll (field : IntParam) :
    final.peer.ints field = suite.peer.ints field ∨
      ∃ param ∈ params, param.defined = some (.vlint field) ∧
        param.data.integer = some (final.peer.ints field) := by
  induction params generalizing suite with
  | nil =>
    cases accepted
    exact .inl rfl
  | cons first params ih =>
    rw [setAll] at accepted
    split at accepted
    · cases accepted
    rename_i stored_eq
    rcases ih accepted with kept | ⟨param, member, known, sent⟩
    · rcases (setPeer_ok stored_eq).2 with ⟨-, rfl⟩ | ⟨_, _, known, -, assigned, -, rfl⟩
      · exact .inl kept
      · rcases assign_ints assigned field with ⟨-, same⟩ | ⟨rfl, sent⟩
        · exact .inl (kept.trans same)
        · exact .inr ⟨first, mem_cons_self, known, kept ▸ sent⟩
    · exact .inr ⟨param, mem_cons_of_mem _ member, known, sent⟩

/-- An integer that was sent is the one at the end: a second one would have been refused. -/
theorem ints_of_mem {field : IntParam} {value : Nat} (member : param ∈ params)
    (known : param.defined = some (.vlint field))
    (sent : value ∈ param.data.integer) : final.peer.ints field = value := by
  induction params generalizing suite with
  | nil => cases member
  | cons first params ih =>
    rw [setAll] at accepted
    split at accepted
    · cases accepted
    rename_i stored_eq
    rcases mem_cons.1 member with rfl | member
    · rcases (setPeer_ok stored_eq).2 with ⟨unknown, -⟩ | ⟨id, _, found, -, assigned, -, rfl⟩
      · cases unknown.symm.trans known
      cases found.symm.trans known
      rcases ints_of_setAll accepted field with kept | ⟨again, later, twice, -⟩
      · rcases assign_ints assigned field with ⟨other, -⟩ | ⟨-, taken⟩
        · exact absurd rfl other
        · exact kept.trans (some.inj (taken.symm.trans sent))
      · have free := (nodup_of_setAll accepted).2 _ (mem_filterMap.2 ⟨again, later, twice⟩)
        simp [stored] at free
    · exact ih accepted member

end TransportParameters

/-- Accepted bytes carry every parameter at most once, in its format and for the right role; values
are legal exactly when no delay of `2^14` or more was sent, and remembered limits are kept exactly
when no smaller one was sent. -/
theorem accepted_parameters_legal {isServer acceptZeroRtt : Bool}
    {suite final : TransportParameters} (remembered : Legal suite.peer) {input : Bytes}
    (accepted : suite.parsePeer isServer acceptZeroRtt input = some (final, none)) :
    ∃ params, Carries input params ∧
      (params.filterMap defined).Nodup ∧
      (isServer = true → ∀ param ∈ params, ∀ id, param.defined = some id → ¬ id.ServerOnly) ∧
      (∀ param ∈ params, ∀ id, param.defined = some id → id.WellFormed param.data.bytes) ∧
      (Legal final.peer ↔ DelaysWithin params) ∧
      (acceptZeroRtt = true →
        ((∀ field, (DefinedID.vlint field).mustGreaterOrEqualIf0RTT = true →
          suite.peer.ints field ≤ final.peer.ints field) ↔ NotShrinking suite.peer params)) := by
  obtain ⟨params, carries, stored⟩ := carries_of_parseLoop accepted
  have each := param_of_setAll stored carries.byts
  refine ⟨params, carries, (nodup_of_setAll stored).1,
    fun is_server param member => (each _ member).1 is_server,
    fun param member => (each _ member).2,
    ⟨?_, fun delays => legal_of_setAll stored remembered delays⟩, fun _ => ⟨?_, ?_⟩⟩
  · intro legal param member known value sent
    exact ints_of_mem stored member known sent ▸ legal.maxAckDelay
  · intro kept param member field limit known value sent
    exact ints_of_mem stored member known sent ▸ kept field limit
  · intro not_shrinking field limit
    rcases ints_of_setAll stored field with kept | ⟨param, member, known, sent⟩
    · exact le_of_eq kept.symm
    · exact not_shrinking _ member _ limit known _ sent

/-- A server accepts a delay of 20, an unknown parameter and a limit of 100 bytes. -/
theorem accepted_parameters_legal_client :
    ∃ params final, ({} : TransportParameters).parsePeer true false
        [0x0b, 1, 20, 0x40, 0x99, 0, 0x04, 2, 0x40, 100] = some (final, none) ∧
      Carries [0x0b, 1, 20, 0x40, 0x99, 0, 0x04, 2, 0x40, 100] params ∧
      (params.filterMap defined).Nodup := by
  obtain ⟨params, carries, nodup, -⟩ := accepted_parameters_legal legal_default
    (rfl : ({} : TransportParameters).parsePeer true false
      [0x0b, 1, 20, 0x40, 0x99, 0, 0x04, 2, 0x40, 100] = some (_, none))
  exact ⟨params, _, rfl, carries, nodup⟩

/-- A delay of `2^14 + 1` is accepted, and with it a bad preferred address; a remembered limit of
100 becomes 5. -/
theorem accepted_parameters_illegal :
    (∃ final, ({} : TransportParameters).parsePeer false false
        ([0x0b, 4, 0x80, 0x00, 0x40, 0x01] ++ 0x0d :: 41 :: replicate 41 0) =
          some (final, none) ∧ final.peer.ints .maxAckDelay = 2 ^ 14 + 1 ∧
        final.peer.preferredAddress.enable = true ∧
        final.peer.preferredAddress.connectionID = []) ∧
      ∃ final, ({ peer := { ints := Function.update IntParam.initial .initialMaxData 100 } } :
          TransportParameters).parsePeer false true [0x04, 1, 5] = some (final, none) ∧
        final.peer.ints .initialMaxData = 5 :=
  ⟨⟨_, rfl, by decide +kernel, by decide +kernel, by decide +kernel⟩,
    ⟨_, rfl, by decide +kernel⟩⟩

end Futils.Quic.TransportParam
