import Futils.Quic.Ack.Skipped

/-!
# Exactness of the count of ack-eliciting packets

Each packet number issuer counts the ack-eliciting packets in flight in its space, away from the map
that records them.  A `Tally` ties the two together; the number stays below the packet numbers of the
space, so that it does not overflow.
-/

namespace Futils.Quic.Ack

open Lib.Machine Status PacketNumberIssuer List PerSpace

def isTallied (entry : Nat × SentPacket) : Bool :=
  entry.2.status.isAckEliciting && entry.2.status.isByteCounted

structure Tally (issuer : PacketNumberIssuer) (packets : SentPackets) : Prop where
  count_eq : issuer.ackElicitingInFlightSentPacketCount = packets.countP isTallied
  le_highest : (packets.countP isTallied : Int) ≤ issuer.highestSent + 1
  skipped : ∀ entry ∈ packets, entry.2.status.isSkipped = true → isTallied entry = false

section Tally

variable {Alg : Type} {control : Algorithm Alg} {status : Status Alg} {issuer : PacketNumberIssuer}
  {packets : PerSpace SentPackets} {space : PacketNumberSpace} {now : Int}

theorem count_decrement (entry : Nat × SentPacket) :
    (issuer.decrementAckElicitingInFlight entry.2.status).ackElicitingInFlightSentPacketCount =
      if isTallied entry then sub64 issuer.ackElicitingInFlightSentPacketCount 1
      else issuer.ackElicitingInFlightSentPacketCount := by
  rw [decrementAckElicitingInFlight, isTallied]
  split <;> rfl

/-- An entry that leaves the map is not counted any more. -/
theorem Tally.take {before behind : SentPackets} {entry : Nat × SentPacket}
    (tally : Tally issuer (before ++ entry :: behind)) :
    Tally (issuer.decrementAckElicitingInFlight entry.2.status) (before ++ behind) := by
  have count_eq := tally.count_eq
  have le_highest := tally.le_highest
  rw [countP_append, countP_cons] at count_eq le_highest
  have highest_eq := (issuer.sameNumbers_decrement entry.2.status).highestSent_eq
  refine ⟨?_, ?_, fun other member => tally.skipped _ ?_⟩
  · rw [count_decrement, countP_append]
    split
    case isTrue tallied =>
      rw [if_pos tallied] at count_eq
      rw [sub64_of_le (by omega)]
      omega
    case isFalse other =>
      rw [if_neg other] at count_eq
      omega
  · rw [countP_append]
    omega
  · exact ((sublist_cons_self _ _).append_left _).subset member

/-- Acknowledgements and losses keep every tally. -/
theorem tally_preserved (space : PacketNumberSpace) : Preserved space
    fun (status : Status Alg) packets => ∀ other, Tally (status.issuers.get other) (packets.get other)
    where
  aside tallies _ same other := by
    obtain ⟨-, highest_eq, count_eq⟩ := same _
    obtain ⟨tallied, le_highest, skipped⟩ := tallies _
    exact ⟨count_eq.trans tallied, highest_eq ▸ le_highest, skipped⟩
  told tallies := tallies
  take split_eq tallies other := by
    simp only [modifyIssuer, get_set]
    split
    case isTrue => exact (split_eq ▸ tallies _).take
    case isFalse => exact tallies _
  refuse {status _ entry} member skipped tallies other := by
    have quiet := (tallies _).skipped _ member skipped
    rw [isTallied] at quiet
    have same : status.modifyIssuer space (·.decrementAckElicitingInFlight entry.2.status) =
        status := by
      simp [modifyIssuer, decrementAckElicitingInFlight, quiet]
    rw [same]
    exact tallies _

/-- A packet that is sent is counted. -/
theorem tally_onPacketSent {sent : SentPacket} (recorded : Recorded status packets)
    (tallies : ∀ other, Tally (status.issuers.get other) (packets.get other))
    (sent_status : sent.status.isSkipped = false) (in_range : sent.packetNumber < 2 ^ 63)
    (other : PacketNumberSpace) :
    let outcome := onPacketSent control status packets now space sent
    Tally (outcome.status.issuers.get other) (outcome.packets.get other) := by
  have cases := @onPacketSent_cases _ _ _ _ now sent control (recorded.sent _)
    (recorded.highest_ge space)
  split at cases
  case isTrue =>
    obtain ⟨_, outcome_eq⟩ := cases
    rw [outcome_eq]
    exact tallies _
  case isFalse =>
    obtain ⟨_, skipped, registered, outcome_eq⟩ := cases
    obtain ⟨count_eq, le_highest, quiet⟩ := tallies _
    have skipped_quiet : ∀ entry ∈ skipped, isTallied entry = false := fun entry member => by
      rw [isTallied, (registered.skips _ member).2]
      rfl
    have none_skipped : skipped.countP isTallied = 0 :=
      countP_eq_zero.2 fun entry member => by simp [skipped_quiet _ member]
    simp only [outcome_eq, registered.issuers_eq, get_set]
    split
    case isFalse => exact tallies _
    case isTrue =>
      refine ⟨?_, ?_, ?_⟩
      · rw [countP_append, countP_append, none_skipped, countP_singleton]
        have last : isTallied (sent.packetNumber, { sent with timeSent := now }) =
          (sent.status.isAckEliciting && sent.status.isByteCounted) := rfl
        rw [last]
        cases sent.status.isAckEliciting && sent.status.isByteCounted
        · exact count_eq
        · simp only [if_true]
          rw [add64_of_lt (by omega)]
          omega
      · rw [countP_append, countP_append, countP_singleton]
        split <;> simp only <;> omega
      · intro entry member flagged
        rcases mem_snoc.1 member with earlier | rfl
        · rcases mem_append.1 earlier with old | skip
          · exact quiet _ old flagged
          · exact skipped_quiet _ skip
        · simp [sent_status] at flagged

end Tally

namespace Recovery

variable {Alg : Type} (control : Algorithm Alg)

/-- Sent packets are not flagged as skipped, and the issuer compares their numbers as signed 64-bit
ones. -/
def Op.isRegular : Op → Bool
  | .onPacketSent _ _ sent => !sent.status.isSkipped && sent.packetNumber < 2 ^ 63
  | _ => true

theorem step_tally (world : World Alg) (op : Op) (recorded : Recorded world.status world.packets)
    (tallies : ∀ space, Tally (world.status.issuers.get space) (world.packets.get space))
    (regular : op.isRegular) (other : PacketNumberSpace) :
    Tally ((step control world op).1.status.issuers.get other)
      ((step control world op).1.packets.get other) := by
  have started := recorded.highest_ge other
  cases op with
  | onPacketSent now space sent =>
    simp only [Op.isRegular, Bool.and_eq_true, Bool.not_eq_true', decide_eq_true_eq] at regular
    exact tally_onPacketSent recorded tallies regular.1 regular.2 _
  | onAckReceived now space frame limited => exact (tally_preserved space).onAckReceived tallies other
  | maybeLossDetectionTimeout now =>
    exact Preserved.maybeLossDetectionTimeout tally_preserved tallies _
  | onPacketNumberSpaceDiscarded now space =>
    simp only [step, ofOutcome, onPacketNumberSpaceDiscarded]
    split
    · exact tallies _
    simp only [issuers_setLossDetectionTimer, PerSpace.get_set]
    split
    case isTrue same => exact ⟨rfl, by rw [← same]; simp only [List.countP_nil,
        PacketNumberIssuer.onPacketNumberSpaceDiscard]; omega, by simp⟩
    case isFalse => exact tallies _
  | onRetryReceived now =>
    cases other with
    | initial | application => exact ⟨rfl, Int.le_refl _, by rintro _ ⟨⟩⟩
    | handshake => exact tallies .handshake
  | consumePacketNumber space =>
    obtain ⟨count_eq, le_highest, skipped⟩ := tallies _
    simp only [step, modifyIssuer, PerSpace.get_set]
    split
    case isTrue same => exact same ▸ ⟨count_eq, le_highest, skipped⟩
    case isFalse => exact tallies _
  | onDatagramReceived now recvBytes =>
    simp only [step, Status.onDatagramReceived]
    split <;> exact tallies _
  | onPacketDecrypted space | onHandshakeConfirmed | onTransportParameterReceived _ _ =>
    exact tallies _
  | onHandshakeComplete =>
    simp only [step, Status.onHandshakeComplete]
    split <;> exact tallies _
  | onPayloadSizeUpdate size =>
    simp only [step, Status.onPayloadSizeUpdate]
    split <;> exact tallies _
  | rehash space order =>
    simp only [step]
    split
    case isFalse => exact tallies _
    case isTrue reordered =>
      obtain ⟨count_eq, le_highest, skipped⟩ := tallies _
      simp only [PerSpace.get_set]
      split
      case isFalse => exact tallies _
      case isTrue same =>
        subst same
        exact ⟨by rw [reordered.countP_eq, count_eq], by rw [reordered.countP_eq]; exact le_highest,
          fun entry member => skipped _ (reordered.subset member)⟩

/-- In every run, each issuer counts the recorded packets of its space that are ack-eliciting and
byte-counted. -/
theorem ack_eliciting_count_exact {config : Config} {alg : Alg} {isServer : Bool}
    {maxUdpPayload : Nat} {ops : List Op} (regular : ∀ op ∈ ops, op.isRegular = true)
    (space : PacketNumberSpace) :
    let world := final (step control) { status := .reset config alg isServer maxUdpPayload } ops
    (world.status.issuers.get space).ackElicitingInFlightSentPacketCount =
        (world.packets.get space).countP isTallied ∧
      ((world.status.issuers.get space).noAckElicitingInFlight ↔
        ∀ entry ∈ world.packets.get space, isTallied entry = false) := by
  have started : ∀ space, Tally ((Status.reset config alg isServer maxUdpPayload).issuers.get space)
      ((.all [] : PerSpace SentPackets).get space) := fun space => by
    cases space <;> exact ⟨rfl, Int.le_refl _, by rintro _ ⟨⟩⟩
  have tallies := (@invariant_of_guarded _ _ _ _ _
    (fun world _ => Recorded _ _ ∧ ∀ space, Tally _ _)
    (fun world _ op holds regular => ⟨step_recorded _ _ op holds.1 (by
      rintro _ _ _ rfl
      simp only [Op.isRegular, Bool.and_eq_true, Bool.not_eq_true'] at regular
      exact regular.1), step_tally control world op holds.1 holds.2 regular⟩)
    { status := .reset _ alg _ _ } [] ops ⟨recorded_reset, started⟩
    (guarded_of_forall fun op member _ => regular op member)).2 space
  refine ⟨tallies.count_eq, ?_⟩
  rw [PacketNumberIssuer.noAckElicitingInFlight, tallies.count_eq]
  simp

/-- Two packets are sent around a skipped number, and the second one is acknowledged. -/
theorem ack_eliciting_count_skipped :
    let sent (pn : Nat) : Op := .onPacketSent 5 .initial
      { status := .ofFrames [.ping], packetNumber := pn, sentBytes := 100 }
    let ops : List Op := [sent 0, .consumePacketNumber .initial, .consumePacketNumber .initial,
      sent 2, .onAckReceived 5 .initial
        { largestAck := 2, ackRangeCount := 0, firstAckRange := 0, ackRanges := [] } false]
    let world := final (step newReno) { status := .reset {} {} false 1200 } ops
    (world.status.issuers.get .initial).ackElicitingInFlightSentPacketCount = 1 ∧
      (world.packets.get .initial).countP isTallied = 1 :=
  have exact := ack_eliciting_count_exact _ (by decide) _
  ⟨by decide, exact.1.symm.trans (by decide)⟩

end Recovery

end Futils.Quic.Ack
