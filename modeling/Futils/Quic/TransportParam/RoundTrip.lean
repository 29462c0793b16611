import Futils.Quic.TransportParam.Peer
import Futils.Quic.Wire.RoundTrip

/-!
# Transport parameters are read back as they were written

`render_local` writes the fields that its role may send and that differ from their defaults.  A
fresh peer of the opposite role reads them back: every parameter that was written gives its field
the value of the sender, and a field that was left out has the value of the sender already.
-/

namespace Futils.Quic.TransportParam

open List Function
open Binary Varint Wire Lib.BigEndian DefinedTransportParams TransportParameters Writer

section Wire

theorem codes_port (port : UInt16) : Codes false (writePort port) 2 readPort port := by
  have coded := codes_toBytes 2 port.toNat UInt16.ofNat
  rw [Nat.mod_eq_of_lt (show port.toNat < 256 ^ 2 from port.toNat_lt), UInt16.ofNat_toNat] at coded
  exact coded

variable {address : PreferredAddress} {writer : Writer}

theorem PreferredAddress.codes (enabled : address.enable) :
    Codes false address.render (41 + address.connectionID.length) parse address := by
  rw [render]
  split
  case isTrue => exact codes_fail
  case isFalse sized =>
    obtain ⟨ipv4Address, ipv4Port, ipv6Address, ipv6Port, connectionID, token, enable⟩ := address
    obtain rfl : enable := enabled
    have short : connectionID.length ≤ 0xff := by
      simp only [not_or] at sized
      omega
    refine Codes.of_len ((codes_array _).andThen ((codes_port _).andThen
      ((codes_array _).andThen ((codes_port _).andThen
        ((NewConnectionIDFrame.codes_id short).andThen ((codes_array _).map _)))))) ?_
    simp only
    omega

theorem writes_port (port : UInt16) : Writer.Writes (writePort port) (toBytes 2 port.toNat) := by
  intro writer room
  have enough := room
  rw [length_toBytes] at enough
  rw [writePort, if_neg (by omega)]
  exact writes_write _ _ _

/-- The buffer of `visit_each_param` has room for an address with a connection ID of 20 bytes. -/
theorem PreferredAddress.render_ok (nonempty : address.connectionID ≠ [])
    (short : address.connectionID.length ≤ 20) :
    (address.render (.ofCapacity enoughToStore)).2 := by
  have positive := length_pos_iff.2 nonempty
  have writes := (writes_write address.ipv4Address.val).andThen
    ((writes_port address.ipv4Port).andThen ((writes_write address.ipv6Address.val).andThen
      ((writes_port address.ipv6Port).andThen
        (((writes_write [UInt8.ofNat address.connectionID.length]).andThen
          (writes_write address.connectionID)).andThen
            (writes_write address.statelessResetToken.val)))))
  have ipv4_length := address.ipv4Address.property
  have ipv6_length := address.ipv6Address.property
  have token_length := address.statelessResetToken.property
  rw [render, if_neg (by omega), writes _ (by
    simp only [length_append, length_toBytes, length_singleton, remain_ofCapacity,
      enoughToStore]
    omega)]

theorem PreferredAddress.parse_written (enabled : address.enable)
    (nonempty : address.connectionID ≠ []) (short : address.connectionID.length ≤ 20) :
    parse (address.render (.ofCapacity enoughToStore)).1.written = some (address, []) := by
  obtain ⟨_, room, render_eq, -, reads⟩ :=
    PreferredAddress.codes enabled _ (render_ok nonempty short)
  have parsed := reads [] nofun
  rw [append_nil] at parsed
  rw [render_eq]
  exact parsed

/-- What a parameter is read back as. -/
structure Received (param back : TransportParameter) : Prop where
  id : back.id.value = param.id.value
  data : match param.data with
    | .byts bytes => back.data = .byts bytes
    | .qvint value => ∃ bytes, back.data = .byts bytes ∧
        readValue bytes = some (⟨value.value, minLen value.value⟩, [])

theorem codes_param {id : DefinedID} {render : Writer → Writer × Bool} {data : Bytes}
    (coded : Codes false render data.length (Parser.take data.length) data) :
    Codes false (andThen (LenValue.write ⟨id.value, 0⟩)
        (andThen (write data.length) render))
      (minLen id.value + (minLen data.length + data.length)) TransportParameter.parse
      ⟨⟨id.value, minLen id.value⟩, .byts data⟩ :=
  (codes_value _).andThen ((codes_shortest _).andThen (coded.map _))

theorem received_of_render {id : DefinedID} {data : TransportParamValue}
    (shortest : ∀ value, data = .qvint value → value.len = 0)
    (rendered : ((makeTransportParam id data).render writer).2) :
    ∃ back, Received (makeTransportParam id data) back ∧
      ∃ bytes, ∃ room : bytes.length ≤ writer.remain,
        ((makeTransportParam id data).render writer).1 = writer.append bytes room ∧
          ∀ rest, TransportParameter.parse (bytes ++ rest) = some (back, rest) := by
  cases data with
  | byts data =>
    obtain ⟨bytes, room, render_eq, -, reads⟩ := codes_param (codes_bytes _) _ rendered
    exact ⟨⟨⟨id.value, minLen _⟩, .byts _⟩, ⟨rfl, rfl⟩, bytes, room, render_eq,
      fun rest => reads _ nofun⟩
  | qvint value =>
    obtain ⟨value, len⟩ := value
    obtain rfl : len = 0 := shortest _ rfl
    have known : minLen value ≠ 0 := by
      intro unknown
      rw [TransportParameter.render] at rendered
      obtain ⟨-, id_eq⟩ := andThen_ok rendered
      rw [id_eq] at rendered
      obtain ⟨-, length_eq⟩ := andThen_ok rendered
      rw [length_eq, makeTransportParam, TransportParamValue.render, LenValue.write, Varint.write,
        if_pos unknown] at rendered
      cases rendered
    have coded : Codes false (LenValue.write ⟨value, 0⟩) (encode value (minLen value)).length
        (Parser.take (encode value (minLen value)).length) (encode value (minLen value)) := by
      have written := codes_written ⟨value, 0⟩ fun _ =>
        Parser.reads_take _
      rwa [length_encode] at written ⊢
    have param_coded := @codes_param id _ _ coded
    rw [length_encode] at param_coded
    obtain ⟨bytes, room, render_eq, -, reads⟩ := param_coded _ rendered
    refine ⟨⟨⟨id.value, minLen _⟩, .byts _⟩,
      ⟨rfl, _, rfl, ?_⟩, bytes, room, render_eq, fun rest => reads _ nofun⟩
    have read := reads_value (inRange_minLen known) []
    rwa [append_nil] at read

/-- The integers of the fields do not ask for a length. -/
theorem visitParam_eq (params : DefinedTransportParams) (id : DefinedID) :
    ∃ data, (params.visitParam id).1 = makeTransportParam id data ∧
      ∀ value, data = .qvint value → value.len = 0 := by
  cases id with
  | vlint field => exact ⟨_, rfl, by rintro - ⟨⟩; rfl⟩
  | rdata _ | bool _ | statelessResetToken | preferredAddress => exact ⟨_, rfl, nofun⟩

variable {params : DefinedTransportParams}

theorem received_of_visitParam {id : DefinedID}
    (rendered : ((params.visitParam id).1.render writer).2) :
    ∃ back, Received (params.visitParam id).1 back ∧
      ∃ bytes, ∃ room : bytes.length ≤ writer.remain,
        ((params.visitParam id).1.render writer).1 = writer.append bytes room ∧
          ∀ rest, TransportParameter.parse (bytes ++ rest) = some (back, rest) := by
  obtain ⟨_, param_eq, shortest⟩ := visitParam_eq _ id
  rw [param_eq] at rendered ⊢
  exact received_of_render shortest rendered

/-- The fields that are written. -/
def DefinedTransportParams.written (params : DefinedTransportParams)
    (shouldRender : TransportParameter → Bool) (ids : List DefinedID) : List DefinedID :=
  ids.filter fun id => (params.visitParam id).2 && shouldRender (params.visitParam id).1

/-- What is rendered carries the written fields. -/
theorem carries_renderEach {shouldRender : TransportParameter → Bool} {ids : List DefinedID}
    (rendered : (params.renderEach shouldRender ids writer).2) :
    ∃ bytes, ∃ room : bytes.length ≤ writer.remain,
      (params.renderEach shouldRender ids writer).1 = writer.append bytes room ∧
        ∃ backs, Carries bytes backs ∧
          List.Forall₂ (fun id back => Received (params.visitParam id).1 back)
            (params.written shouldRender ids) backs := by
  induction ids generalizing writer with
  | nil => exact ⟨[], zero_le, by simp [renderEach, append], [],
      .nil, .nil⟩
  | cons id ids ih =>
    rw [renderEach] at rendered ⊢
    obtain ⟨done, chain_eq⟩ := andThen_ok rendered
    rw [chain_eq] at rendered ⊢
    obtain ⟨others, room_left, later_eq, backs, carries, received⟩ := ih rendered
    cases sent : (params.visitParam id).2 && shouldRender (params.visitParam id).1 with
    | false =>
      have skipped : params.written shouldRender (id :: ids) =
          params.written shouldRender ids := filter_cons_of_neg (by simp [sent])
      simp only [sent] at later_eq room_left ⊢
      exact ⟨others, room_left, later_eq, backs, carries, skipped ▸ received⟩
    | true =>
      have kept : params.written shouldRender (id :: ids) =
          id :: params.written shouldRender ids := filter_cons_of_pos sent
      simp only [sent] at done later_eq room_left ⊢
      obtain ⟨back, back_received, bytes, room, first_eq, reads⟩ := received_of_visitParam done
      obtain ⟨room_both, joined⟩ := append_chain first_eq later_eq
      refine ⟨bytes ++ others, room_both, joined, back :: backs, .cons (reads _) carries, ?_⟩
      rw [kept]
      exact .cons back_received received

end Wire

section Fields

/-- Both have the same value in the field of `id`. -/
def SameField (left right : DefinedTransportParams) : DefinedID → Prop
  | .vlint field => left.ints field = right.ints field
  | .rdata field => left.byteStrings field = right.byteStrings field
  | .bool field => left.flags field = right.flags field
  | .statelessResetToken => left.statelessResetToken = right.statelessResetToken
  | .preferredAddress => left.preferredAddress = right.preferredAddress

theorem SameField.refl (params : DefinedTransportParams) (id : DefinedID) :
    SameField params params id := by
  cases id <;> rfl

variable {id : DefinedID} {params sender peer : DefinedTransportParams} {isServer hasRetry : Bool}
  {data : TransportParamValue}

theorem SameField.trans {first second third : DefinedTransportParams}
    (left : SameField first second id) (right : SameField second third id) :
    SameField first third id := by
  cases id <;> exact Eq.trans left right

/-- What `validate_transport_param` asks of one field. -/
def FieldValid (params : DefinedTransportParams) : DefinedID → Prop
  | .vlint .ackDelayExponent => params.ints .ackDelayExponent ≤ 20
  | .vlint .activeConnectionIdLimit => 2 ≤ params.ints .activeConnectionIdLimit
  | .vlint .maxUdpPayloadSize => 1200 ≤ params.ints .maxUdpPayloadSize
  | .vlint .maxAckDelay => params.ints .maxAckDelay ≤ 2 ^ 14
  | .vlint .initialMaxStreamsBidi => params.ints .initialMaxStreamsBidi < 2 ^ 60
  | .vlint .initialMaxStreamsUni => params.ints .initialMaxStreamsUni < 2 ^ 60
  | .preferredAddress => params.preferredAddress.enable = true →
      params.preferredAddress.connectionID ≠ []
  | _ => True

theorem FieldValid.congr {changed : DefinedTransportParams} (valid : FieldValid params id)
    (same : SameField params changed id) : FieldValid changed id := by
  unfold FieldValid at valid ⊢
  split at valid <;> simp_all [SameField]

theorem validate_eq_none : validateTransportParam params = .none ↔ ∀ id, FieldValid params id := by
  constructor
  · intro valid id
    unfold validateTransportParam at valid
    unfold FieldValid
    split <;> grind
  · intro valid
    have exponent := valid (.vlint .ackDelayExponent)
    have limit := valid (.vlint .activeConnectionIdLimit)
    have payload := valid (.vlint .maxUdpPayloadSize)
    have delay := valid (.vlint .maxAckDelay)
    have bidi := valid (.vlint .initialMaxStreamsBidi)
    have uni := valid (.vlint .initialMaxStreamsUni)
    have address := valid .preferredAddress
    simp only [FieldValid] at exponent limit payload delay bidi uni address
    rw [validateTransportParam, if_neg (by omega), if_neg (by omega), if_neg (by omega),
      if_neg (by omega), if_neg (by simpa using address), if_neg (by omega), if_neg (by omega)]

theorem validate_default : validateTransportParam {} = .none := rfl

/-- A parameter that is read back gives its field the value of the sender and no other field. -/
theorem assign_received {params peer : DefinedTransportParams} {id : DefinedID}
    {back : TransportParameter} (valid : ∀ id, FieldValid params id)
    (short : params.preferredAddress.connectionID.length ≤ 20)
    (present : (params.visitParam id).2)
    (received : Received (params.visitParam id).1 back) :
    ∃ changed, peer.assign id back.data false = some changed ∧ SameField params changed id ∧
      ∀ other, other ≠ id → SameField peer changed other := by
  have data := received.data
  cases id with
  | vlint field =>
    obtain ⟨_, data_eq, read⟩ := data
    refine ⟨{ peer with ints := update peer.ints field (params.ints field) }, ?_, ?_, ?_⟩
    · simp [assign, vlint, data_eq,
        TransportParamValue.asQvarint, read, TransportParamValue.qvarint]
    · simp [SameField]
    · rintro (_ | _ | _ | _ | _) apart
      · exact (update_of_ne (fun same => apart (congrArg _ same)) _ _).symm
      all_goals rfl
  | rdata field =>
    refine ⟨{ peer with
      byteStrings := update peer.byteStrings field (params.byteStrings field) },
      ?_, ?_, ?_⟩
    · rw [data]
      rfl
    · simp [SameField]
    · rintro (_ | _ | _ | _ | _) apart
      case rdata => exact (update_of_ne (fun same => apart (congrArg _ same)) _ _).symm
      all_goals rfl
  | bool field =>
    refine ⟨{ peer with flags := update peer.flags field true }, ?_, ?_, ?_⟩
    · rw [data]
      rfl
    · have set : params.flags field := present
      simp [SameField, set]
    · rintro (_ | _ | _ | _ | _) apart
      case bool => exact (update_of_ne (fun same => apart (congrArg _ same)) _ _).symm
      all_goals rfl
  | statelessResetToken =>
    refine ⟨{ peer with statelessResetToken := params.statelessResetToken }, ?_, rfl, ?_⟩
    · rw [data]
      simp [assign, wdata,
        TransportParamValue.asBytes, TransportParamValue.bytes,
        params.statelessResetToken.property]
    · rintro (_ | _ | _ | _ | _) apart
      case statelessResetToken => exact absurd rfl apart
      all_goals rfl
  | preferredAddress =>
    refine ⟨{ peer with preferredAddress := params.preferredAddress }, ?_, rfl, ?_⟩
    · have parsed := PreferredAddress.parse_written present (valid .preferredAddress present) short
      rw [data]
      simp [assign, addr,
        TransportParamValue.bytes, parsed]
    · rintro (_ | _ | _ | _ | _) apart
      case preferredAddress => exact absurd rfl apart
      all_goals rfl

/-- The fields that a role sends, if they differ from their defaults. -/
def Sendable (isServer hasRetry : Bool) (id : DefinedID) : Prop :=
  (isServer = false → ¬ id.ServerOnly) ∧ (hasRetry = false → id ≠ .rdata .retrySrcConnectionId)

/-- The peer has the value of the sender; the parts of a disabled address do not count. -/
def Delivered (sender peer : DefinedTransportParams) : DefinedID → Prop
  | .preferredAddress => peer.preferredAddress.enable = sender.preferredAddress.enable ∧
      (sender.preferredAddress.enable = true → peer.preferredAddress = sender.preferredAddress)
  | id => SameField sender peer id

theorem delivered_of_same (same : SameField sender peer id) : Delivered sender peer id := by
  cases id with
  | preferredAddress =>
    have address_eq := same
    exact ⟨by rw [address_eq], fun _ => address_eq.symm⟩
  | vlint _ | rdata _ | bool _ | statelessResetToken => exact same

theorem isDefaultValue_vlint (field : IntParam) (value : LenValue) :
    isDefaultValue (makeTransportParam (.vlint field) (.qvint value)) =
      (value.value == field.initial) := by
  cases field <;> rfl

/-- Only integers have a default that is left out. -/
theorem isDefaultValue_byts (id : DefinedID) (data : Bytes) :
    isDefaultValue (makeTransportParam id (.byts data)) = false := by
  have defined_eq : (makeTransportParam id (.byts data)).defined = some id :=
    DefinedID.ofValue_value id
  rw [isDefaultValue, defined_eq]
  cases id with
  | vlint field => cases field <;> rfl
  | rdata _ | bool _ | statelessResetToken | preferredAddress => rfl

theorem isDefinedBothSetAllowed_value (both : ¬ id.ServerOnly) :
    isDefinedBothSetAllowed id.value := by
  rw [isDefinedBothSetAllowed, DefinedID.ofValue_value]
  rcases id with _ | (_ | _ | _) | _ | _ | _ <;> simp_all [DefinedID.ServerOnly]

open TransportParameters (shouldRender)

theorem shouldRender_eq (sendable : Sendable isServer hasRetry id) :
    shouldRender isServer hasRetry (makeTransportParam id data) =
      !isDefaultValue (makeTransportParam id data) := by
  have defined_eq : (makeTransportParam id data).defined = some id := DefinedID.ofValue_value id
  rw [shouldRender, if_neg, if_neg]
  · cases isDefaultValue (makeTransportParam id data) <;> rfl
  · rintro is_retry
    rw [defined_eq] at is_retry
    cases hasRetry with
    | true => cases is_retry
    | false => exact sendable.2 rfl (by simpa using is_retry)
  · intro refused
    cases isServer with
    | true => cases refused
    | false =>
      have both := isDefinedBothSetAllowed_value (sendable.1 rfl)
      simp [makeTransportParam, both] at refused

/-- A field that may be sent and is left out has its default. -/
theorem delivered_of_omitted (sendable : Sendable isServer hasRetry id)
    (omitted : ((sender.visitParam id).2 &&
      shouldRender isServer hasRetry (sender.visitParam id).1) = false)
    (fresh : SameField {} peer id) : Delivered sender peer id := by
  cases id with
  | vlint field =>
    simp only [visitParam, Bool.true_and, shouldRender_eq sendable,
      isDefaultValue_vlint, Bool.not_eq_false', beq_iff_eq] at omitted
    exact omitted.trans fresh
  | rdata _ | statelessResetToken =>
    rw [visitParam, shouldRender_eq sendable,
      isDefaultValue_byts] at omitted
    cases omitted
  | bool field =>
    have unset : sender.flags field = false := by
      rwa [visitParam, shouldRender_eq sendable,
        isDefaultValue_byts, Bool.not_false, Bool.and_true] at omitted
    exact unset.trans fresh
  | preferredAddress =>
    have disabled : sender.preferredAddress.enable = false := by
      rwa [visitParam, shouldRender_eq sendable,
        isDefaultValue_byts, Bool.not_false, Bool.and_true] at omitted
    have address_eq := fresh
    refine ⟨?_, fun enabled => ?_⟩
    · rw [disabled, ← address_eq]
    · rw [disabled] at enabled
      cases enabled

/-- The opposite role may receive what is sent. -/
theorem checkRecv_of_shouldRender
    (sent : shouldRender isServer hasRetry (makeTransportParam id data)) :
    checkRecv id.value (!isServer) = none := by
  cases isServer with
  | true => rfl
  | false =>
    rw [shouldRender] at sent
    split at sent
    · cases sent
    rename_i both
    have allowed : isDefinedBothSetAllowed id.value := by
      simpa [makeTransportParam] using both
    simp [checkRecv, allowed]

end Fields

namespace TransportParameters

variable {isServer acceptZeroRtt : Bool} {suite : TransportParameters}
  {sender : DefinedTransportParams}

theorem setPeer_of_assign {param : TransportParameter} {id : DefinedID}
    {changed : DefinedTransportParams} (known : param.defined = some id)
    (allowed : checkRecv param.id.value isServer = none)
    (unmarked : suite.peerChecker.check id.index = false)
    (assigned : suite.peer.assign id param.data false = some changed)
    (valid : validateTransportParam changed = .none) :
    suite.setPeer isServer acceptZeroRtt param = (suite.stored id changed, none) := by
  simp [setPeer, set, allowed, fromTransportParam, known, unmarked, assigned,
    valid, TransportParamError.toString, stored]

/-- All that was sent is accepted: the sent fields have the values of the sender, the others are as
they were. -/
theorem setAll_received {ids : List DefinedID} {backs : List TransportParameter}
    (received : List.Forall₂ (fun id back => Received (sender.visitParam id).1 back) ids backs)
    (sender_valid : ∀ id, FieldValid sender id)
    (short : sender.preferredAddress.connectionID.length ≤ 20)
    (present : ∀ id ∈ ids, (sender.visitParam id).2)
    (allowed : ∀ id ∈ ids, checkRecv id.value isServer = none) (nodup : ids.Nodup)
    (unmarked : ∀ id ∈ ids, suite.peerChecker.check id.index = false)
    (valid : ∀ id, FieldValid suite.peer id) :
    ∃ final, setAll isServer acceptZeroRtt suite backs = (final, none) ∧
      (∀ id ∈ ids, SameField sender final.peer id) ∧
      ∀ id, id ∉ ids → SameField suite.peer final.peer id := by
  induction received generalizing suite with
  | nil => exact ⟨suite, rfl, by simp, fun id _ => .refl _ id⟩
  | @cons id back ids backs first later ih =>
    obtain ⟨changed, assigned, changed_same, changed_other⟩ :=
      @assign_received _ _ id _ sender_valid short (present id mem_cons_self) first
    obtain ⟨_, param_eq, -⟩ := visitParam_eq _ id
    have id_eq : back.id.value = id.value := by
      rw [first.id, param_eq]
      rfl
    have known : back.defined = some id := by
      rw [TransportParameter.defined, id_eq, DefinedID.ofValue_value]
    -- Every field is the sender's or was valid before.
    have changed_valid : ∀ other, FieldValid changed other := by
      intro other
      by_cases same : other = id
      · exact same ▸ (sender_valid id).congr changed_same
      · exact (valid _).congr (changed_other _ same)
    have stored_eq := @setPeer_of_assign _ acceptZeroRtt _ _ id _ known
      (id_eq ▸ allowed id mem_cons_self) (unmarked id mem_cons_self) assigned
      (validate_eq_none.2 changed_valid)
    obtain ⟨absent, later_nodup⟩ := nodup_cons.1 nodup
    obtain ⟨final, all_stored, sent_same, other_same⟩ := @ih (suite.stored id _)
      (forall_mem_cons.1 present).2
      (forall_mem_cons.1 allowed).2 later_nodup
      (fun other member => by
        have apart : other.index ≠ id.index := fun eq =>
          absent (DefinedID.index_inj.1 eq ▸ member)
        simpa [stored, update_of_ne apart] using unmarked _ (mem_cons_of_mem _ member))
      changed_valid
    refine ⟨final, ?_, ?_, ?_⟩
    · rw [setAll, stored_eq]
      exact all_stored
    · intro other member
      rcases mem_cons.1 member with rfl | member
      · exact changed_same.trans (other_same _ absent)
      · exact sent_same _ member
    · intro other outside
      have apart : other ≠ id := fun same => outside (same ▸ mem_cons_self)
      have not_later : other ∉ ids := fun member => outside (mem_cons_of_mem _ member)
      exact (changed_other _ apart).trans (other_same _ not_later)

end TransportParameters

/-- A fresh peer of the opposite role reads what was rendered, and has the values of the sender in
all fields that are sent. -/
theorem parameters_round_trip {isServer hasRetry acceptZeroRtt : Bool}
    {suite : TransportParameters}
    (valid : validateTransportParam suite.localParams = .none)
    (short : suite.localParams.preferredAddress.connectionID.length ≤ 20) {capacity : Nat}
    (rendered : (suite.renderLocal isServer hasRetry (.ofCapacity capacity)).2 = true)
    (own : DefinedTransportParams) :
    ∃ final, ({ localParams := own } : TransportParameters).parsePeer (!isServer) acceptZeroRtt
        (suite.renderLocal isServer hasRetry (.ofCapacity capacity)).1.written =
          some (final, none) ∧
      ∀ id, Sendable isServer hasRetry id → Delivered suite.localParams final.peer id := by
  obtain ⟨bytes, room, written_eq, _, carries, received⟩ := carries_renderEach rendered
  have written : (suite.renderLocal isServer hasRetry (.ofCapacity capacity)).1.written = bytes := by
    rw [renderLocal, render, written_eq]
    rfl
  have sent : ∀ id ∈ suite.localParams.written
      (shouldRender isServer hasRetry) DefinedID.visited,
      (suite.localParams.visitParam id).2 ∧
        shouldRender isServer hasRetry
          (suite.localParams.visitParam id).1 := by
    intro id member
    simpa using (mem_filter.1 member).2
  obtain ⟨final, stored, sent_same, other_same⟩ :=
    @setAll_received _ _ { localParams := own } _ _ _ received (validate_eq_none.1 valid) short
      (fun id member => (sent id member).1)
      (fun id member => by
        obtain ⟨_, param_eq, -⟩ := visitParam_eq _ id
        exact checkRecv_of_shouldRender (param_eq ▸ (sent id member).2))
      (DefinedID.nodup_visited.filter _) (fun _ _ => rfl)
      (validate_eq_none.1 validate_default)
  refine ⟨final, ?_, fun id sendable => ?_⟩
  · rw [written, parsePeer,
      parseLoop_of_carries carries (le_rfl), stored]
  · by_cases member : id ∈ suite.localParams.written
        (shouldRender isServer hasRetry) DefinedID.visited
    · exact delivered_of_same (sent_same id member)
    · refine delivered_of_omitted sendable ?_ (other_same id member)
      rw [← Bool.not_eq_true]
      exact fun exists_sent => member (mem_filter.2 ⟨id.mem_visited, exists_sent⟩)

/-- A server with a token, a preferred address and a small limit, after a retry. -/
theorem parameters_round_trip_server :
    let sender : TransportParameters :=
      { localParams :=
          { ints := update IntParam.initial .initialMaxData 5
            byteStrings := fun _ => [1, 2, 3]
            preferredAddress := { connectionID := [7], ipv4Port := 443, enable := true } } }
    (sender.renderLocal true true (.ofCapacity 100)).2 ∧
      ∃ final, ({} : TransportParameters).parsePeer false false
          (sender.renderLocal true true (.ofCapacity 100)).1.written = some (final, none) ∧
        ∀ id, Sendable true true id → Delivered sender.localParams final.peer id := by
  intro sender
  have rendered : (sender.renderLocal true true (.ofCapacity 100)).2 := by decide +kernel
  exact ⟨rendered, @parameters_round_trip _ _ _ _ (by decide +kernel)
    (by decide +kernel) 100 rendered {}⟩

/-- The connection ID of a retry is not sent without a retry, nor the parts of a disabled preferred
address. -/
theorem parameters_round_trip_unsent :
    let sender : TransportParameters :=
      { localParams :=
          { byteStrings := update (fun _ => []) .retrySrcConnectionId [1]
            preferredAddress := { ipv4Port := 443 } } }
    validateTransportParam sender.localParams = .none ∧
      (sender.renderLocal true false (.ofCapacity 100)).2 ∧
      ∃ final, ({} : TransportParameters).parsePeer false false
          (sender.renderLocal true false (.ofCapacity 100)).1.written = some (final, none) ∧
        final.peer.byteStrings .retrySrcConnectionId = [] ∧
        final.peer.preferredAddress.ipv4Port = 0 :=
  ⟨by decide +kernel, by decide +kernel, _, rfl, by decide +kernel, by decide +kernel⟩

end Futils.Quic.TransportParam
