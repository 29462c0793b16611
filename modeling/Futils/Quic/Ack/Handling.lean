import Futils.Quic.Ack.SentHistory

/-!
# Rules for the walks over sent packets

`remove_acked` and `remove_lost_callback` walk over one map and thread a scan through it.  What
holds behind a walk follows from what a single acknowledged, refused or lost packet does, and
`Preserved` carries this over to the handlers around the walks.
-/

namespace Futils.Quic.Ack

open Quic.Frame Status List PacketStatus PerSpace LossScan

variable {Alg : Type} {control : Algorithm Alg} {space : PacketNumberSpace}

section Sending

variable {status next : Status Alg} {packets : PerSpace SentPackets} {now : Int} {sent : SentPacket}
  {skipped : SentPackets}

/-- Every packet number of a map was sent. -/
def Sent (issuer : PacketNumberIssuer) (packets : SentPackets) : Prop :=
  ∀ entry ∈ packets, (entry.1 : Int) ≤ issuer.highestSent

theorem tryEmplace_of_lt {entries : SentPackets} {key : Nat} {sent : SentPacket}
    (fresh : ∀ entry ∈ entries, entry.1 < key) :
    tryEmplace entries key sent = some (entries ++ [(key, sent)]) := by
  refine if_neg ?_
  rw [any_eq_true]
  rintro ⟨entry, member, same⟩
  have below := fresh _ member
  simp only [decide_eq_true_eq] at same
  omega

theorem registerSkipped_spec {first count : Nat} {entries : SentPackets}
    (fresh : ∀ entry ∈ entries, entry.1 < first) :
    ∃ skipped, registerSkipped now first count entries = some (entries ++ skipped) ∧
      ∀ entry ∈ skipped, entry.1 < first + count ∧
        entry.2 = { status := setSkipped {}, timeSent := now } := by
  induction count generalizing first entries with
  | zero => exact ⟨[], by simp [registerSkipped], by simp⟩
  | succ count ih =>
    simp only [registerSkipped, tryEmplace_of_lt fresh]
    obtain ⟨skipped, registered_eq, spec⟩ := @ih (first + 1)
      (entries ++ [(first, { status := setSkipped {}, timeSent := now })]) (by
        grind [Nat.lt_succ_of_lt])
    refine ⟨(first, { status := setSkipped {}, timeSent := now }) :: skipped,
      by simpa [ofFrames] using registered_eq,
      forall_mem_cons.2 ⟨⟨by simp, rfl⟩, fun entry member => ?_⟩⟩
    have := spec _ member
    exact ⟨by omega, this.2⟩

/-- A packet was accepted and registered, behind the packet numbers it skips. -/
structure Registered (status : Status Alg) (now : Int) (space : PacketNumberSpace)
    (sent : SentPacket) (next : Status Alg) (skipped : SentPackets) : Prop where
  fresh : (status.issuers.get space).highestSent < sent.packetNumber
  skips : ∀ entry ∈ skipped, entry.1 < sent.packetNumber ∧
    entry.2 = { status := PacketStatus.setSkipped {}, timeSent := now }
  hs_eq : next.hs = status.hs.onPacketSent space sent.sentBytes
  bytes_eq : next.cong.bytesInFlight = if sent.status.isByteCounted then
    add64 status.cong.bytesInFlight sent.sentBytes else status.cong.bytesInFlight
  issuers_eq : next.issuers = status.issuers.set
    { status.issuers.get space with
      highestSent := sent.packetNumber
      lastAckElicitingPacketSentTime := if sent.status.isAckEliciting then now
        else (status.issuers.get space).lastAckElicitingPacketSentTime
      ackElicitingInFlightSentPacketCount :=
        if sent.status.isAckEliciting && sent.status.isByteCounted then
          add64 (status.issuers.get space).ackElicitingInFlightSentPacketCount 1
        else (status.issuers.get space).ackElicitingInFlightSentPacketCount } space

/-- Sending is refused when the packet number is out of order, and registers the packet otherwise. -/
theorem onPacketSent_cases (control : Algorithm Alg)
    (before : Sent (status.issuers.get space) (packets.get space))
    (started : -1 ≤ (status.issuers.get space).highestSent) :
    let outcome := onPacketSent control status packets now space sent
    if (sent.packetNumber : Int) ≤ (status.issuers.get space).highestSent ∨
        (status.issuers.get space).issuePacketNumber < sent.packetNumber then
      ∃ msg, outcome = { status := status, packets := packets, error := some (.lib msg) }
    else ∃ next skipped, Registered status now space sent next skipped ∧
      outcome = { status := next, packets := packets.set (packets.get space ++ skipped ++
        [(sent.packetNumber, { sent with timeSent := now })]) space } := by
  split
  case isTrue refused =>
    simp only [onPacketSent, Status.onPacketSent, PacketNumberIssuer.onPacketSent, if_pos refused]
    exact ⟨_, rfl⟩
  case isFalse accepted =>
    obtain ⟨skipped, registered_eq, skips⟩ := @registerSkipped_spec now
      ((status.issuers.get space).highestSent + 1).toNat
      ((sent.packetNumber : Int) - ((status.issuers.get space).highestSent + 1)).toNat
      _ (fun entry member => by
        have := before _ member
        omega)
    have emplaced := @tryEmplace_of_lt _ sent.packetNumber
      { sent with timeSent := now } (fun entry member => by
        rcases List.mem_append.1 member with old | new
        · have := before _ old
          omega
        · have := skips _ new
          omega)
    simp only [onPacketSent, Status.onPacketSent, PacketNumberIssuer.onPacketSent, if_neg accepted]
    have below : ∀ entry ∈ skipped, entry.1 < sent.packetNumber ∧
        entry.2 = { status := PacketStatus.setSkipped {}, timeSent := now } := fun entry member => by
      have := skips _ member
      exact ⟨by omega, this.2⟩
    by_cases counted : sent.status.isByteCounted
    · simp only [if_pos counted, registered_eq, emplaced]
      refine ⟨_, skipped, ?_, rfl⟩
      exact ⟨by omega, below, rfl, (if_pos counted).symm, rfl⟩
    · simp only [if_neg counted, registered_eq, emplaced]
      refine ⟨_, skipped, ?_, rfl⟩
      exact ⟨by omega, below, rfl, (if_neg counted).symm, rfl⟩

theorem Registered.highestSent_eq (registered : Registered status now space sent next skipped)
    (other : PacketNumberSpace) : (next.issuers.get other).highestSent =
      if other = space then (sent.packetNumber : Int) else (status.issuers.get other).highestSent := by
  rw [registered.issuers_eq, get_set]
  split <;> rfl

/-- The packet numbers behind a packet that was sent are sent, too. -/
theorem Registered.all_sent (registered : Registered status now space sent next skipped)
    (before : ∀ other, Sent (status.issuers.get other) (packets.get other)) (other) :
    Sent (next.issuers.get other) ((packets.set (packets.get space ++ skipped ++
      [(sent.packetNumber, { sent with timeSent := now })]) space).get other) := by
  intro entry member
  rw [registered.highestSent_eq]
  rw [get_set] at member
  split at member
  case isFalse other_space => exact if_neg other_space ▸ before _ _ member
  case isTrue same =>
    have fresh := registered.fresh
    rw [if_pos same]
    rcases mem_snoc.1 member with earlier | rfl
    · rcases mem_append.1 earlier with old | skip
      · have := before _ _ old
        omega
      · have := registered.skips _ skip
        omega
    · exact Int.le_refl _

end Sending

section Loss

variable {delay timeBeforeIsLost : Int} {largestAck : Nat} {scan : LossScan Alg}
  {Q : LossScan Alg → SentPackets → List SentPacket → Prop}

def retime (scan : LossScan Alg) (loss : LossTimer) : LossScan Alg :=
  { scan with status := { scan.status with loss := loss } }

/-- The scan behind the loss of a packet. -/
def lose (space : PacketNumberSpace) (scan : LossScan Alg) (sent : SentPacket) : LossScan Alg :=
  let (cong, last) := scan.status.cong.onPacketLost scan.sentTimeOfLastLoss sent.sentBytes
    sent.timeSent sent.status
  { scan with
    status := { scan.status.modifyIssuer space fun issuer =>
      issuer.decrementAckElicitingInFlight sent.status with cong := cong }
    sentTimeOfLastLoss := last
    callLostOnce := true }

theorem isLost_of_notLost (started : scan.callCongCbOnce = false) {sent : SentPacket}
    (reason : lostReason scan.status.config largestAck timeBeforeIsLost sent.packetNumber
      sent.timeSent = .notLost) :
    ∃ loss, scan.isLost space delay largestAck timeBeforeIsLost sent.packetNumber sent.sentBytes
      sent.timeSent sent.status = (retime scan loss, .notLost) := by
  rw [isLost, if_neg (by simp [started])]
  simp only [reason]
  split
  · exact ⟨scan.status.loss, rfl⟩
  · exact ⟨_, rfl⟩

theorem isLost_of_lost (started : scan.callCongCbOnce = false) {sent : SentPacket}
    (reason : lostReason scan.status.config largestAck timeBeforeIsLost sent.packetNumber
      sent.timeSent ≠ .notLost) :
    scan.isLost space delay largestAck timeBeforeIsLost sent.packetNumber sent.sentBytes
      sent.timeSent sent.status = (lose space scan sent, lostReason scan.status.config largestAck
        timeBeforeIsLost sent.packetNumber sent.timeSent) := by
  rw [isLost, if_neg (by simp [started])]
  split
  case h_1 not_lost => exact absurd not_lost reason
  case h_2 => rfl

theorem lostReason_ne_invalid {config : Config} {pn : Nat} {timeSent : Int} :
    lostReason config largestAck timeBeforeIsLost pn timeSent ≠ .invalid := by
  unfold lostReason
  grind

/-- What each lost packet preserves holds behind the walk, of the packets that are kept and those
that are lost. -/
theorem removeLost_induct (retimes : ∀ {scan entries lost} loss, Q scan entries lost →
      Q (retime scan loss) entries lost)
    (loses : ∀ {scan before key sent behind lost}, lostReason scan.status.config largestAck
      timeBeforeIsLost sent.packetNumber sent.timeSent ≠ .notLost →
      Q scan (before ++ (key, sent) :: behind) lost →
      Q (lose space scan sent) (before ++ behind) (lost ++ [sent]))
    {before entries : SentPackets} {earlier : List SentPacket}
    (started : scan.callCongCbOnce = false) (start : Q scan (before ++ entries) earlier) :
    let (kept, lost, last, ok) := removeLost space delay largestAck timeBeforeIsLost entries scan
    ok ∧ last.callCongCbOnce = false ∧ Q last (before ++ kept) (earlier ++ lost) := by
  induction entries generalizing scan before earlier with
  | nil => exact ⟨rfl, started, by simpa [removeLost] using start⟩
  | cons entry rest ih =>
    obtain ⟨key, sent⟩ := entry
    by_cases reason : lostReason scan.status.config largestAck timeBeforeIsLost sent.packetNumber
      sent.timeSent = .notLost
    · obtain ⟨loss, answered⟩ := @isLost_of_notLost _ space delay _ _ _ started _ reason
      have behind := @ih (retime _ loss) (before ++ [(key, sent)]) _ started
        (by simpa using retimes _ start)
      simp only [removeLost, answered]
      simpa using behind
    · have answered := @isLost_of_lost _ space delay _ _ _ started _ reason
      have behind := @ih (lose _ _ _) _ _ started (loses reason start)
      have valid := @lostReason_ne_invalid timeBeforeIsLost largestAck scan.status.config
        sent.packetNumber sent.timeSent
      simp only [removeLost, answered]
      simpa using behind

/-- Loss detection is a walk and the congestion callback behind it. -/
theorem detect_cases {status : Status Alg} {packets : PerSpace SentPackets} {now : Int}
    {mustLost : Bool} (retimes : ∀ {scan entries lost} loss, Q scan entries lost →
      Q (retime scan loss) entries lost)
    (loses : ∀ {scan before key sent behind lost}, lostReason scan.status.config
      (status.issuers.get space).largestAckedPacket (now - lossDelay status.config status.rtt)
      sent.packetNumber sent.timeSent ≠ .notLost → Q scan (before ++ (key, sent) :: behind) lost →
      Q (lose space scan sent) (before ++ behind) (lost ++ [sent]))
    (start : Q { status := status } (packets.get space) []) :
    let detected := detectAndRemoveLostPacket control status packets now space mustLost
    detected = ({ status := status, packets := packets }, false) ∨
      ∃ scan kept lost, Q scan kept lost ∧ scan.callCongCbOnce = false ∧
        detected = ({
          status := (scan.congestionCallback control).status
          packets := packets.set kept space
          lost := lost }, !mustLost || scan.callLostOnce) := by
  simp only [detectAndRemoveLostPacket]
  split
  · exact .inl rfl
  · have walked := @removeLost_induct _ _ (lossDelay status.config status.rtt) _ _
      (retime _ (status.loss.resetLossTime space)) Q retimes loses []
      (packets.get _) [] rfl (retimes _ start)
    obtain ⟨⟨kept, lost, last, _⟩, removed⟩ : ∃ all, removeLost space
      (lossDelay status.config status.rtt) (status.issuers.get space).largestAckedPacket
      (now - lossDelay status.config status.rtt) (packets.get space)
      (retime { status := status } (status.loss.resetLossTime space)) = all := ⟨_, rfl⟩
    simp only [removed] at walked
    obtain ⟨rfl, started, holds⟩ := walked
    rw [retime] at removed
    simp only [removed]
    exact .inr ⟨last, kept, lost, holds, started, rfl⟩

end Loss

/-- The packet numbers and the count of packets in flight are the same. -/
structure SameCounts (issuer next : PacketNumberIssuer) : Prop where
  issue_eq : next.issuePacketNumber = issuer.issuePacketNumber
  highest_eq : next.highestSent = issuer.highestSent
  count_eq : next.ackElicitingInFlightSentPacketCount = issuer.ackElicitingInFlightSentPacketCount

/-- What the handlers of acknowledgements and losses in a space preserve. -/
structure Preserved (space : PacketNumberSpace) (P : Status Alg → PerSpace SentPackets → Prop) :
    Prop where
  aside : ∀ {status next packets}, P status packets → next.hs = status.hs →
    (∀ other, SameCounts (status.issuers.get other) (next.issuers.get other)) → P next packets
  told : ∀ {status packets}, P status packets →
    P { status with hs := status.hs.onAckReceived space } packets
  take : ∀ {status packets before key sent behind},
    packets.get space = before ++ (key, sent) :: behind → P status packets →
    P (status.modifyIssuer space (·.decrementAckElicitingInFlight sent.status))
      (packets.set (before ++ behind) space)
  refuse : ∀ {status packets} {entry : Nat × SentPacket}, entry ∈ packets.get space →
    entry.2.status.isSkipped = true → P status packets →
    P (status.modifyIssuer space (·.decrementAckElicitingInFlight entry.2.status)) packets

namespace Preserved

variable {P : Status Alg → PerSpace SentPackets → Prop} {status next : Status Alg}
  {packets : PerSpace SentPackets} {now : Int}

section

variable (preserved : Preserved space P)
include preserved

theorem beside (holds : P status packets)
    (hs_eq : next.hs = status.hs) (issuers_eq : next.issuers = status.issuers) : P next packets :=
  preserved.aside holds hs_eq fun _ => issuers_eq ▸ ⟨rfl, rfl, rfl⟩

theorem modify {f : PacketNumberIssuer → PacketNumberIssuer}
    (same : ∀ issuer, SameCounts issuer (f issuer)) (holds : P status packets) :
    P (status.modifyIssuer space f) packets := by
  refine preserved.aside holds rfl fun other => ?_
  simp only [modifyIssuer, get_set]
  split
  case isTrue equal => exact equal ▸ same _
  case isFalse => exact ⟨rfl, rfl, rfl⟩

theorem removeAcked {ranges : List ACKRange} {before entries : SentPackets} {scan : AckScan Alg}
    (split_eq : packets.get space = before ++ entries) (holds : P scan.status packets) :
    let (kept, _, last, _) := Ack.removeAcked space ranges entries scan
    P last.status (packets.set (before ++ kept) space) := by
  fun_induction Ack.removeAcked _ _ entries scan generalizing before packets with
  | case1 => simpa [← split_eq] using holds
  | case2 key sent rest scan =>
    rename_i skipped
    have refused := @refuse _ _ _ preserved _ _ (key, sent) (by simp [split_eq]) skipped holds
    simp only [← split_eq, set_get]
    exact preserved.beside refused rfl rfl
  | case3 key sent rest scan =>
    rename_i rest_eq ih
    have behind := @ih _ before (by simp) (preserved.beside (preserved.take split_eq holds) rfl rfl)
    simpa [rest_eq] using behind
  | case4 key sent rest scan _ _ _ _ _ rest_eq ih =>
    have behind := @ih _ (before ++ [(key, sent)]) (by simpa using split_eq) holds
    simpa [rest_eq] using behind

theorem detect {mustLost : Bool} (holds : P status packets) :
    let detected := (detectAndRemoveLostPacket control status packets now space mustLost).1
    P detected.status detected.packets := by
  obtain unchanged | ⟨_, _, _, behind, -, detected_eq⟩ := @detect_cases _ _ _
    (fun scan entries _ => P scan.status (packets.set entries _)) _ packets now _
    (fun _ holds => preserved.beside holds rfl rfl)
    (fun _ holds => by
      have taken := preserved.take (PerSpace.get_set_self ..) holds
      rw [PerSpace.set_set] at taken
      exact preserved.beside taken rfl rfl)
    (by simpa using holds)
  · rwa [unchanged]
  · rw [detected_eq]
    refine preserved.beside behind ?_ ?_
    all_goals
      simp only [LossScan.congestionCallback]
      split <;> rfl

theorem sampledStatus {scan : AckScan Alg} {rtt : RTT}
    {frame : ACKFrame} (holds : P scan.status packets) :
    P (Ack.sampledStatus control scan rtt space frame) packets := by
  have sampled : P { scan.status with rtt := rtt } packets := preserved.beside holds rfl rfl
  simp only [Ack.sampledStatus]
  split
  · have counted := @modify _ _ _ _ _ preserved
      (fun issuer => (issuer.isEcnCeUpdated frame.ecnCounts.ecnCe).1) (fun issuer => by
        simp only [PacketNumberIssuer.isEcnCeUpdated]
        split <;> exact ⟨rfl, rfl, rfl⟩) sampled
    simp only [processEcn]
    split <;> exact preserved.beside counted rfl rfl
  · exact sampled

theorem afterRemoveAcked {frame : ACKFrame} {largestAckPn : Nat}
    {acked : List SentPacket} {scan : AckScan Alg} {limited : Bool} (holds : P scan.status packets) :
    let outcome := Ack.afterRemoveAcked control packets now space frame largestAckPn acked scan limited
    P outcome.status outcome.packets := by
  simp only [Ack.afterRemoveAcked]
  split
  case h_1 => exact holds
  case h_2 rtt _ =>
    have detected := @detect _ control _ P _ _ now preserved false
      (@sampledStatus _ control _ P _ preserved _ rtt frame holds)
    split
    · exact detected
    · exact preserved.beside detected rfl rfl

theorem onAckReceived {frame : ACKFrame} {limited : Bool} (holds : P status packets) :
    let outcome := Ack.onAckReceived control status packets now space frame limited
    P outcome.status outcome.packets := by
  simp only [Ack.onAckReceived]
  split
  · exact holds
  split
  · exact preserved.told holds
  rename_i first rest _
  have walked := @removeAcked _ _ P _ preserved (first :: rest) [] _
    { status := modifyIssuer _ _ _ } rfl
    (@modify _ _ P _ _ preserved (·.onAckReceived first.largest) (fun issuer => by
      simp only [PacketNumberIssuer.onAckReceived]
      split <;> exact ⟨rfl, rfl, rfl⟩) (preserved.told holds))
  split
  · exact walked
  · exact preserved.afterRemoveAcked walked

end

theorem maybeLossDetectionTimeout (preserved : ∀ space, Preserved space P)
    (holds : P status packets) :
    let outcome := Ack.maybeLossDetectionTimeout control status packets now
    P outcome.status outcome.packets := by
  simp only [Ack.maybeLossDetectionTimeout]
  split
  · exact holds
  split
  · rename_i space _
    have detected := @detect _ control _ P _ _ now (preserved space) true holds
    split
    · exact detected
    · exact (preserved space).beside detected rfl rfl
  · exact (preserved .initial).beside holds rfl rfl
  all_goals exact holds

end Preserved

end Futils.Quic.Ack
