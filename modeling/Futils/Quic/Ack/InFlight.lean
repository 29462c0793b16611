import Futils.Lib.Machine
import Futils.Quic.Ack.Handling

/-!
# Exactness of the bytes in flight

The congestion controller counts the bytes in flight in one number, which every handler of the
history moves on its own.  `Exact` ties the number to the packets that are recorded.  It breaks at
a loss, which subtracts ack-eliciting packets instead of counted ones, and at a Retry, which
forgets packets without subtracting anything.
-/

namespace Futils.Quic.Ack

open Lib.Machine Quic.Frame Status PerSpace Congestion List PacketNumberIssuer

variable (sent : SentPacket) (packets : PerSpace SentPackets)

/-- What a recorded packet contributes to the bytes in flight. -/
def weight : Nat := if sent.status.isByteCounted then sent.sentBytes else 0

def counted (packets : SentPackets) : Nat := (packets.map fun entry => weight entry.2).sum

def inFlight : Nat :=
  counted packets.initial + counted packets.handshake + counted packets.application

@[simp] theorem counted_nil : counted [] = 0 := rfl

@[simp] theorem counted_cons (key : Nat) (sent : SentPacket) (packets : SentPackets) :
    counted ((key, sent) :: packets) = weight sent + counted packets := rfl

@[simp] theorem counted_append (left right : SentPackets) :
    counted (left ++ right) = counted left + counted right := by
  simp [counted]

theorem inFlight_set (next : SentPackets) (space : PacketNumberSpace) :
    inFlight (packets.set next space) + counted (packets.get space) =
      inFlight packets + counted next := by
  cases space <;> simp only [inFlight, PerSpace.set, PerSpace.get] <;> omega

theorem counted_get_le (space : PacketNumberSpace) :
    counted (packets.get space) ≤ inFlight packets := by
  cases space <;> simp only [inFlight, PerSpace.get] <;> omega

/-- A loss subtracts from the counter what the packet contributes. -/
def CountedAlike : Prop :=
  sent.status.isByteCounted = true → sent.status.isAckEliciting = true ∨ sent.sentBytes = 0
deriving Decidable

theorem CountedAlike.weight_eq {sent : SentPacket} (alike : CountedAlike sent) :
    weight sent = if sent.status.isAckEliciting then sent.sentBytes else 0 := by
  have of_eliciting := sent.status.counted_of_eliciting
  rw [weight]
  grind [CountedAlike]

/-- The counter is the sum over the recorded packets and `pending`, the packets that were removed
and not yet subtracted. -/
structure Exact {Alg : Type} (status : Status Alg) (packets : PerSpace SentPackets)
    (pending : Nat) : Prop where
  bytes_eq : status.cong.bytesInFlight = inFlight packets + pending
  sent : ∀ space, Sent (status.issuers.get space) (packets.get space)
  highest_ge : ∀ space, -1 ≤ (status.issuers.get space).highestSent

section Status

variable {Alg : Type} (status : Status Alg)

@[simp] theorem cong_setLossDetectionTimer (now : Int) :
    (status.setLossDetectionTimer now).cong = status.cong := rfl

@[simp] theorem issuers_setLossDetectionTimer (now : Int) :
    (status.setLossDetectionTimer now).issuers = status.issuers := rfl

/-- The counter, the packet numbers and the thresholds of loss detection are the same. -/
structure SameFlight {Alg : Type} (status next : Status Alg) : Prop where
  bytes_eq : next.cong.bytesInFlight = status.cong.bytesInFlight
  config_eq : next.config = status.config
  numbers : ∀ space, (status.issuers.get space).SameNumbers (next.issuers.get space)

variable {status} {next : Status Alg} {packets : PerSpace SentPackets} {pending : Nat}

theorem SameFlight.refl : SameFlight status status :=
  ⟨rfl, rfl, fun _ => ⟨rfl, rfl⟩⟩

theorem SameFlight.trans {last : Status Alg} (first : SameFlight status next)
    (second : SameFlight next last) : SameFlight status last := by
  refine ⟨second.bytes_eq.trans first.bytes_eq, second.config_eq.trans first.config_eq,
    fun space => ?_⟩
  obtain ⟨highest, largest⟩ := first.numbers _
  obtain ⟨highest_next, largest_next⟩ := second.numbers _
  exact ⟨highest_next.trans highest, largest_next.trans largest⟩

theorem Exact.congr (exact : Exact status packets pending)
    (bytes_eq : next.cong.bytesInFlight = status.cong.bytesInFlight)
    (highest_eq : ∀ space, (next.issuers.get space).highestSent =
      (status.issuers.get space).highestSent) : Exact next packets pending := by
  refine ⟨bytes_eq.trans exact.bytes_eq, fun space entry member => ?_, fun space => ?_⟩
  · rw [highest_eq]
    exact exact.sent _ _ member
  · rw [highest_eq]
    exact exact.highest_ge _

theorem sameFlight_modifyIssuer (space : PacketNumberSpace)
    {f : PacketNumberIssuer → PacketNumberIssuer}
    (keeps : ∀ issuer : PacketNumberIssuer, issuer.SameNumbers (f issuer)) :
    SameFlight status (status.modifyIssuer space f) := by
  refine ⟨rfl, rfl, fun other => ?_⟩
  simp only [modifyIssuer, get_set]
  split
  case isTrue same =>
    rw [same]
    exact keeps _
  case isFalse => exact ⟨rfl, rfl⟩

theorem sameFlight_processEcn (control : Algorithm Alg) (space : PacketNumberSpace)
    (ecn : ECNCounts) (timeSent : Int) :
    SameFlight status (status.processEcn control space ecn timeSent) := by
  have issuer := @sameFlight_modifyIssuer _ status space _
    (fun issuer => issuer.sameNumbers_isEcnCeUpdated ecn.ecnCe)
  rw [processEcn]
  simp only
  split
  · exact ⟨bytesInFlight_onCongestionEvent _, rfl, issuer.numbers⟩
  · exact ⟨rfl, rfl, issuer.numbers⟩

end Status

section Loss

variable {Alg : Type} {control : Algorithm Alg} {scan : LossScan Alg} {space : PacketNumberSpace}
  {largestAck : Nat}

/-- The packets that are declared lost are counted alike. -/
def LossesCounted (config : Config) (rtt : RTT) (largestAck : Nat) (now : Int)
    (packets : SentPackets) : Prop :=
  ∀ entry ∈ packets, lostReason config largestAck (now - lossDelay config rtt) entry.2.packetNumber
    entry.2.timeSent ≠ .notLost → CountedAlike entry.2
deriving Decidable

theorem bytesInFlight_congestionCallback :
    (scan.congestionCallback control).status.cong.bytesInFlight =
      scan.status.cong.bytesInFlight := by
  rw [LossScan.congestionCallback]
  split
  · rfl
  · exact bytesInFlight_onPacketsLost _

theorem issuers_congestionCallback :
    (scan.congestionCallback control).status.issuers = scan.status.issuers := by
  rw [LossScan.congestionCallback]
  split <;> rfl

theorem Sent.sublist {issuer next : PacketNumberIssuer} {kept packets : SentPackets}
    (sent : Sent issuer packets) (sublist : kept.Sublist packets)
    (highest_eq : next.highestSent = issuer.highestSent) : Sent next kept := by
  intro entry member
  rw [highest_eq]
  exact sent _ (sublist.subset member)

/-- One map was replaced by a part of it, and the rest of it was subtracted or is pending. -/
theorem Exact.replace {status next : Status Alg} {packets : PerSpace SentPackets}
    {pending left : Nat} {kept : SentPackets} (exact : Exact status packets pending)
    (sublist : kept.Sublist (packets.get space))
    (highest_eq : ∀ other, (next.issuers.get other).highestSent =
      (status.issuers.get other).highestSent)
    (bytes_eq : next.cong.bytesInFlight + counted (packets.get space) =
      inFlight packets + counted kept + left) :
    Exact next (packets.set kept space) left := by
  have moved := inFlight_set packets kept space
  refine ⟨by omega, fun other => ?_, fun other => ?_⟩
  · rw [get_set]
    split
    case isTrue same =>
      subst same
      exact (exact.sent _).sublist sublist (highest_eq _)
    case isFalse => exact (exact.sent _).sublist (Sublist.refl _) (highest_eq _)
  · rw [highest_eq]
    exact exact.highest_ge _

/-- Losing a packet that is counted alike keeps the counter exact. -/
theorem Exact.lose {packets : PerSpace SentPackets} {pending key : Nat} {before behind : SentPackets}
    {sent : SentPacket} (exact : Exact scan.status packets pending)
    (split_eq : packets.get space = before ++ (key, sent) :: behind) (alike : CountedAlike sent) :
    Exact (Ack.lose space scan sent).status (packets.set (before ++ behind) space) pending := by
  have issuer := @sameFlight_modifyIssuer _ scan.status space _
    (fun issuer => issuer.sameNumbers_decrement sent.status)
  refine exact.replace ?_ (fun other => (issuer.numbers _).highestSent_eq) ?_
  · rw [split_eq]
    exact (sublist_cons_self _ _).append_left _
  · have bytes_eq := exact.bytes_eq
    have le := counted_get_le packets space
    have weight_eq := alike.weight_eq
    simp only [Ack.lose, bytesInFlight_onPacketLost]
    rw [split_eq, counted_append, counted_cons] at *
    rw [counted_append]
    split
    case isTrue eliciting =>
      rw [if_pos eliciting] at weight_eq
      rw [sub64_of_le (by omega)]
      omega
    case isFalse other =>
      rw [if_neg other] at weight_eq
      omega

/-- Loss detection keeps the counter exact where the lost packets are counted alike. -/
theorem Exact.detect {status : Status Alg} {packets : PerSpace SentPackets} {pending : Nat}
    {now : Int} {mustLost : Bool} (exact : Exact status packets pending)
    (alike : 0 ≤ lossDelay status.config status.rtt →
      LossesCounted status.config status.rtt (status.issuers.get space).largestAckedPacket now
        (packets.get space)) :
    let detected := (detectAndRemoveLostPacket control status packets now space mustLost).1
    Exact detected.status detected.packets pending := by
  by_cases no_delay : lossDelay status.config status.rtt < 0
  · simp only [detectAndRemoveLostPacket, if_pos no_delay]
    exact exact
  obtain unchanged | ⟨_, _, _, ⟨behind, -⟩, -, detected_eq⟩ := @detect_cases _ _ _
    (fun scan entries _ => Exact scan.status (packets.set entries space) pending ∧
      scan.status.config = status.config ∧ LossesCounted status.config status.rtt _ now entries)
    _ _ now _ (fun _ holds => ⟨holds.1.congr rfl fun _ => rfl, holds.2⟩)
    (fun {scan before key sent behind} _ reason holds => by
      obtain ⟨exact, config_eq, alike⟩ := holds
      rw [config_eq] at reason
      have lost := exact.lose (get_set_self ..) (alike (key, sent) (by simp) reason)
      refine ⟨by simpa using lost, config_eq, fun entry member => alike _ ?_⟩
      exact ((sublist_cons_self _ _).append_left _).subset member)
    ⟨by simpa using exact, rfl, alike (by omega)⟩
  · rwa [unchanged]
  · rw [detected_eq]
    exact behind.congr bytesInFlight_congestionCallback fun _ => by rw [issuers_congestionCallback]

end Loss

section Acks

variable {Alg : Type} {control : Algorithm Alg} {space : PacketNumberSpace}
  {ranges : List ACKRange}

def pendingOf (acked : List SentPacket) : Nat := (acked.map weight).sum

@[simp] theorem pendingOf_nil : pendingOf [] = 0 := rfl

@[simp] theorem pendingOf_cons (acked : List SentPacket) :
    pendingOf (sent :: acked) = weight sent + pendingOf acked := rfl

theorem sameFlight_onAck {scan : AckScan Alg} {pn largestSentAck : Nat} {timeSent : Int}
    {pstatus : PacketStatus} :
    SameFlight scan.status (scan.onAck space pn timeSent pstatus largestSentAck).status := by
  have issuer := @sameFlight_modifyIssuer _ scan.status space _
    (fun issuer => issuer.sameNumbers_decrement pstatus)
  exact ⟨rfl, rfl, issuer.numbers⟩

/-- Acknowledged packets leave the map; the counter is not touched yet. -/
theorem removeAcked_spec {packets : SentPackets} {scan : AckScan Alg} :
    let (kept, acked, last, ok) := removeAcked space ranges packets scan
    SameFlight scan.status last.status ∧ kept.Sublist packets ∧
      counted packets = counted kept + pendingOf acked ∧
      (ok → kept = packets.filter fun entry => !isAck ranges entry.2.packetNumber) := by
  fun_induction removeAcked _ _ packets scan with
  | case1 => exact ⟨.refl, .slnil, rfl, fun _ => rfl⟩
  | case2 => exact ⟨sameFlight_onAck, .refl _, by simp, by simp⟩
  | case3 key sent rest scan acked_here _ _ kept acked last ok rest_eq ih =>
    simp only [rest_eq] at ih ⊢
    obtain ⟨same, sublist, counted_eq, kept_eq⟩ := ih
    refine ⟨sameFlight_onAck.trans same, sublist.cons _, ?_, fun ok_eq => ?_⟩
    · rw [counted_cons, pendingOf_cons]
      omega
    · rw [filter_cons_of_neg (by simpa using acked_here)]
      exact kept_eq ok_eq
  | case4 key sent rest scan not_acked kept acked last ok rest_eq ih =>
    simp only [rest_eq] at ih ⊢
    obtain ⟨same, sublist, counted_eq, kept_eq⟩ := ih
    refine ⟨same, sublist.cons_cons _, ?_, fun ok_eq => ?_⟩
    · rw [counted_cons, counted_cons]
      omega
    · rw [filter_cons_of_pos (by simpa using not_acked), kept_eq ok_eq]

/-- Subtracting the weights of a list, one after the other, leaves the rest of the counter. -/
theorem bytesInFlight_foldl {α : Type} {subtract : Congestion Alg → α → Congestion Alg}
    {size : α → Nat} {items : List α} {cong : Congestion Alg} {others : Nat}
    (subtracts : ∀ cong item, (subtract cong item).bytesInFlight = sub64 cong.bytesInFlight (size item))
    (bytes_eq : cong.bytesInFlight = others + (items.map size).sum) :
    (items.foldl subtract cong).bytesInFlight = others := by
  induction items generalizing cong with
  | nil => simpa using bytes_eq
  | cons item rest ih =>
    rw [map_cons, sum_cons] at bytes_eq
    refine ih ?_
    rw [subtracts, sub64_of_le (by omega)]
    omega

theorem sub64_weight {bytes : Nat} {sent : SentPacket} :
    (if sent.status.isByteCounted then sub64 bytes sent.sentBytes else bytes) =
      sub64 bytes (weight sent) := by
  rw [weight]
  split
  · rfl
  · simp [sub64]

/-- The packets of `frame` that `on_ack_received` declares lost are counted alike. -/
def AckLossesCounted (status : Status Alg) (packets : SentPackets) (now : Int)
    (space : PacketNumberSpace) (frame : ACKFrame) : Prop :=
  let ranges := (convertFromACKFrame frame).1
  ∀ first ∈ ranges.head?,
    let status := { status with hs := status.hs.onAckReceived space }
    let status := status.modifyIssuer space fun issuer => issuer.onAckReceived first.largest
    let scan := (removeAcked space ranges packets { status := status }).2.2.1
    ∀ rtt ∈ scan.sampleRtt now first.largest frame.ackDelay,
      0 ≤ lossDelay status.config rtt →
        LossesCounted status.config rtt (status.issuers.get space).largestAckedPacket now
          (packets.filter fun entry => !isAck ranges entry.2.packetNumber)
deriving Decidable

theorem sameFlight_sampledStatus {scan : AckScan Alg} {rtt : RTT} {frame : ACKFrame} :
    SameFlight scan.status (sampledStatus control scan rtt space frame) ∧
      (sampledStatus control scan rtt space frame).rtt = rtt := by
  rw [sampledStatus]
  split
  · have ecn := @sameFlight_processEcn _ { scan.status with rtt := rtt } control space
      frame.ecnCounts scan.largestRemovedSentTime
    refine ⟨⟨ecn.bytes_eq, ecn.config_eq, ecn.numbers⟩, ?_⟩
    rw [processEcn]
    simp only
    split <;> rfl
  · exact ⟨⟨rfl, rfl, fun _ => ⟨rfl, rfl⟩⟩, rfl⟩

/-- Behind the removal of the acknowledged packets, a successful call subtracts them and the lost
ones. -/
theorem Exact.afterRemoveAcked {packets : PerSpace SentPackets} {now : Int} {frame : ACKFrame}
    {largestAckPn : Nat} {acked : List SentPacket} {scan : AckScan Alg} {limited : Bool}
    (exact : Exact scan.status packets (pendingOf acked))
    (succeeds : (Ack.afterRemoveAcked control packets now space frame largestAckPn acked scan
      limited).error = none)
    (alike : ∀ rtt ∈ scan.sampleRtt now largestAckPn frame.ackDelay,
      0 ≤ lossDelay scan.status.config rtt → LossesCounted scan.status.config rtt
        (scan.status.issuers.get space).largestAckedPacket now (packets.get space)) :
    let outcome := Ack.afterRemoveAcked control packets now space frame largestAckPn acked scan limited
    Exact outcome.status outcome.packets 0 := by
  rw [Ack.afterRemoveAcked] at succeeds ⊢
  split at succeeds
  case h_1 => simp at succeeds
  case h_2 rtt sampled =>
    have losses := alike rtt sampled
    obtain ⟨same, rtt_eq⟩ := @sameFlight_sampledStatus _ _ _ _ rtt _
    have started := exact.congr same.bytes_eq fun other => (same.numbers _).highestSent_eq
    rw [← same.config_eq, ← (same.numbers _).largestAckedPacket_eq] at losses
    generalize sampledStatus control scan rtt space frame = status at *
    subst rtt_eq
    have detected := @Exact.detect _ control _ _ _ _ now false started losses
    obtain ⟨⟨outcome, ok⟩, detected_eq⟩ : ∃ all,
      detectAndRemoveLostPacket control status packets now space false = all := ⟨_, rfl⟩
    simp only [detected_eq] at detected succeeds ⊢
    cases ok with
    | false => simp at succeeds
    | true =>
      refine ⟨?_, detected.sent, detected.highest_ge⟩
      have subtracted := @bytesInFlight_foldl Alg _
        (fun cong sent => cong.onPacketAck control outcome.status.config
          outcome.status.payloadSize _ sent.timeSent _ limited)
        _ _ _ _
        (fun cong sent => by rw [bytesInFlight_onPacketAck, sub64_weight])
        detected.bytes_eq
      exact subtracted

/-- A successful `on_ack_received` keeps the counter exact where the lost packets are counted
alike. -/
theorem Exact.onAckReceived {status : Status Alg} {packets : PerSpace SentPackets} {now : Int}
    {frame : ACKFrame} {limited : Bool} (exact : Exact status packets 0)
    (succeeds : (Ack.onAckReceived control status packets now space frame limited).error = none)
    (alike : AckLossesCounted status (packets.get space) now space frame) :
    let outcome := Ack.onAckReceived control status packets now space frame limited
    Exact outcome.status outcome.packets 0 := by
  rw [Ack.onAckReceived] at succeeds ⊢
  split at succeeds
  case h_1 => simp at succeeds
  case h_2 ranges converted =>
    cases ranges with
    | nil => simp at succeeds
    | cons first rest =>
      have losses := alike
      simp only [AckLossesCounted, converted, head?_cons, Option.mem_def,
        Option.some.injEq, forall_eq'] at losses
      -- The status that the scan starts from.
      obtain ⟨scanned, scanned_eq⟩ : ∃ scanned, modifyIssuer
        { status with hs := status.hs.onAckReceived space } space
          (fun issuer => issuer.onAckReceived first.largest) = scanned := ⟨_, rfl⟩
      have started : Exact scanned packets 0 := by
        subst scanned_eq
        refine exact.congr rfl fun other => ?_
        simp only [modifyIssuer, get_set]
        split
        case isTrue same => rw [highestSent_onAckReceived, same]
        case isFalse => rfl
      have spec := @removeAcked_spec _ space (first :: rest) (packets.get space)
        { status := scanned }
      simp only [scanned_eq] at losses succeeds ⊢
      obtain ⟨⟨kept, acked, last, ok⟩, removed⟩ : ∃ all, removeAcked space (first :: rest)
        (packets.get space) { status := scanned } = all := ⟨_, rfl⟩
      simp only [removed] at spec losses succeeds ⊢
      obtain ⟨same, sublist, counted_eq, kept_eq⟩ := spec
      cases ok with
      | false => simp at succeeds
      | true =>
        have pending : Exact last.status (packets.set kept space) (pendingOf acked) := by
          refine started.replace sublist (fun other => (same.numbers _).highestSent_eq) ?_
          rw [same.bytes_eq, started.bytes_eq]
          omega
        refine pending.afterRemoveAcked succeeds ?_
        rw [same.config_eq, (same.numbers _).largestAckedPacket_eq, get_set,
          if_pos rfl, kept_eq rfl]
        exact losses

end Acks

section Events

variable {Alg : Type} {control : Algorithm Alg} {status : Status Alg}
  {packets : PerSpace SentPackets} {space : PacketNumberSpace} {now : Int}

/-- Sending a packet adds it to the counter and to the map. -/
theorem Exact.onPacketSent {sent : SentPacket} (exact : Exact status packets 0)
    (fits : sent.status.isByteCounted → inFlight packets + sent.sentBytes < 2 ^ 64) :
    let outcome := Ack.onPacketSent control status packets now space sent
    Exact outcome.status outcome.packets 0 := by
  have cases := @onPacketSent_cases _ _ _ _ now sent control (exact.sent _) (exact.highest_ge space)
  split at cases
  case isTrue =>
    obtain ⟨_, outcome_eq⟩ := cases
    rwa [outcome_eq]
  case isFalse =>
    obtain ⟨_, skipped, registered, outcome_eq⟩ := cases
    rw [outcome_eq]
    refine ⟨?_, registered.all_sent exact.sent, fun other => ?_⟩
    · have moved := inFlight_set packets (packets.get space ++ skipped ++ [(sent.packetNumber,
        { sent with timeSent := now })]) space
      have old_bytes := exact.bytes_eq
      have uncounted : counted skipped = 0 := by
        refine List.sum_eq_zero_iff_forall_eq_nat.2 fun size member => ?_
        obtain ⟨entry, listed, rfl⟩ := List.mem_map.1 member
        rw [(registered.skips _ listed).2]
        rfl
      simp only [counted_append, counted_cons, counted_nil, weight] at moved ⊢
      rw [registered.bytes_eq]
      by_cases is_counted : sent.status.isByteCounted
      · have room := fits is_counted
        rw [if_pos is_counted] at moved ⊢
        rw [add64_of_lt (by omega)]
        omega
      · rw [if_neg is_counted] at moved ⊢
        omega
    · rw [registered.highestSent_eq]
      have started := exact.highest_ge other
      split <;> omega

/-- Discarding a space subtracts its packets. -/
theorem Exact.onPacketNumberSpaceDiscarded (exact : Exact status packets 0) :
    let outcome := Ack.onPacketNumberSpaceDiscarded status packets now space
    Exact outcome.status outcome.packets 0 := by
  rw [Ack.onPacketNumberSpaceDiscarded]
  split
  case isTrue => exact exact
  case isFalse =>
    have le := counted_get_le packets space
    have subtracted := @bytesInFlight_foldl Alg _ _
      (fun entry => weight entry.2) (packets.get space) status.cong
      (inFlight packets - counted (packets.get space))
      (fun cong entry => by rw [bytesInFlight_onPacketNumberSpaceDiscard, sub64_weight])
      (by
        have bytes_eq := exact.bytes_eq
        simp only [counted] at le ⊢
        omega)
    refine exact.replace (nil_sublist _) (fun other => ?_) ?_
    · simp only [issuers_setLossDetectionTimer, get_set]
      split
      case isTrue same => rw [same]; rfl
      case isFalse => rfl
    · rw [cong_setLossDetectionTimer]
      simp only [counted_nil]
      omega

/-- A Retry keeps the counter exact when nothing it forgets is counted. -/
theorem Exact.onRetryReceived (exact : Exact status packets 0)
    (uncounted : counted packets.initial + counted packets.application = 0) :
    let outcome := Ack.onRetryReceived status packets now
    Exact outcome.status outcome.packets 0 := by
  have bytes_eq := exact.bytes_eq
  rw [inFlight] at bytes_eq
  refine ⟨?_, fun other => ?_, fun other => ?_⟩
  · simp only [Ack.onRetryReceived, inFlight, counted_nil]
    omega
  · cases other with
    | initial | application => intro entry member; cases member
    | handshake => exact exact.sent .handshake
  · cases other with
    | initial | application => exact Int.le_refl _
    | handshake => exact exact.highest_ge .handshake

/-- The packets that a timeout of the loss timer declares lost are counted alike. -/
def TimeoutLossesCounted (status : Status Alg) (packets : PerSpace SentPackets) (now : Int) : Prop :=
  timerTimeout status.loss.deadline now = true → ∀ space ∈ status.loss.state.lossSpace,
    0 ≤ lossDelay status.config status.rtt →
      LossesCounted status.config status.rtt (status.issuers.get space).largestAckedPacket now
        (packets.get space)
deriving Decidable

/-- A loss timeout keeps the counter exact where the lost packets are counted alike. -/
theorem Exact.maybeLossDetectionTimeout (exact : Exact status packets 0)
    (alike : TimeoutLossesCounted status packets now) :
    let outcome := Ack.maybeLossDetectionTimeout control status packets now
    Exact outcome.status outcome.packets 0 := by
  rw [Ack.maybeLossDetectionTimeout]
  by_cases timeout : timerTimeout status.loss.deadline now
  swap
  · rw [if_pos (by simpa using timeout)]
    exact exact
  rw [if_neg (by simpa using timeout)]
  split
  case h_1 space waits =>
    have detected := @Exact.detect _ control _ _ _ _ now true exact
      (alike timeout _ (by rw [waits]; rfl))
    obtain ⟨⟨_, ok⟩, detected_eq⟩ : ∃ all,
      detectAndRemoveLostPacket control status packets now space true = all := ⟨_, rfl⟩
    simp only [detected_eq] at detected ⊢
    cases ok with
    | false => exact detected
    | true => exact detected.congr rfl fun _ => rfl
  case h_2 => exact exact.congr rfl fun _ => rfl
  all_goals exact exact

end Events

namespace Recovery

/-- A connection status and the history of sent packets next to it. -/
structure World (Alg : Type) where
  status : Status Alg
  packets : PerSpace SentPackets := .all []

/-- One step of the world.  Those that have a time read the clock. -/
inductive Op
  | onPacketSent (now : Int) (space : PacketNumberSpace) (sent : SentPacket)
  | onAckReceived (now : Int) (space : PacketNumberSpace) (frame : ACKFrame)
      (isFlowControlLimited : Bool)
  | maybeLossDetectionTimeout (now : Int)
  | onPacketNumberSpaceDiscarded (now : Int) (space : PacketNumberSpace)
  | onRetryReceived (now : Int)
  | consumePacketNumber (space : PacketNumberSpace)
  | onDatagramReceived (now : Int) (recvBytes : Nat)
  | onPacketDecrypted (space : PacketNumberSpace)
  | onHandshakeConfirmed
  | onHandshakeComplete
  | onTransportParameterReceived (maxAckDelay : Int) (ackDelayExponent : Nat)
  | onPayloadSizeUpdate (size : Nat)
  /-- The hash map iterates in another order from now on. -/
  | rehash (space : PacketNumberSpace) (order : SentPackets)
  deriving DecidableEq

variable {Alg : Type} (control : Algorithm Alg)

def ofOutcome (outcome : Outcome Alg) : World Alg × Option Error :=
  (⟨outcome.status, outcome.packets⟩, outcome.error)

def step (world : World Alg) : Op → World Alg × Option Error
  | .onPacketSent now space sent =>
    ofOutcome (onPacketSent control world.status world.packets now space sent)
  | .onAckReceived now space frame limited =>
    ofOutcome (onAckReceived control world.status world.packets now space frame limited)
  | .maybeLossDetectionTimeout now =>
    ofOutcome (maybeLossDetectionTimeout control world.status world.packets now)
  | .onPacketNumberSpaceDiscarded now space =>
    ofOutcome (onPacketNumberSpaceDiscarded world.status world.packets now space)
  | .onRetryReceived now => ofOutcome (onRetryReceived world.status world.packets now)
  | .consumePacketNumber space => ({ world with
      status := world.status.modifyIssuer space PacketNumberIssuer.consumePacketNumber }, none)
  | .onDatagramReceived now recvBytes =>
    ({ world with status := world.status.onDatagramReceived now recvBytes }, none)
  | .onPacketDecrypted space => ({ world with
      status := { world.status with hs := world.status.hs.onPacketDecrypted space } }, none)
  | .onHandshakeConfirmed => ({ world with status := world.status.onHandshakeConfirmed }, none)
  | .onHandshakeComplete => ({ world with status := world.status.onHandshakeComplete }, none)
  | .onTransportParameterReceived maxAckDelay ackDelayExponent => ({ world with
      status := world.status.onTransportParameterReceived maxAckDelay ackDelayExponent }, none)
  | .onPayloadSizeUpdate size =>
    ({ world with status := world.status.onPayloadSizeUpdate size }, none)
  | .rehash space order =>
    if order.Perm (world.packets.get space) then
      ({ world with packets := world.packets.set order space }, none)
    else (world, none)

/-- ACK frames are accepted, nothing overflows, lost packets are counted alike, and a Retry forgets
nothing counted. -/
def guard (world : World Alg) : Op → Prop
  | .onPacketSent _ _ sent =>
    sent.status.isByteCounted = true → inFlight world.packets + sent.sentBytes < 2 ^ 64
  | .onAckReceived now space frame limited =>
    (onAckReceived control world.status world.packets now space frame limited).error = none ∧
      AckLossesCounted world.status (world.packets.get space) now space frame
  | .maybeLossDetectionTimeout now => TimeoutLossesCounted world.status world.packets now
  | .onRetryReceived _ => counted world.packets.initial + counted world.packets.application = 0
  | _ => True

instance (world : World Alg) (op : Op) : Decidable (guard control world op) := by
  cases op <;> dsimp only [guard] <;> infer_instance

theorem step_exact (world : World Alg) (op : Op) (exact : Exact world.status world.packets 0)
    (allowed : guard control world op) :
    Exact (step control world op).1.status (step control world op).1.packets 0 := by
  cases op with
  | onPacketSent now space sent => exact exact.onPacketSent allowed
  | onAckReceived now space frame limited => exact exact.onAckReceived allowed.1 allowed.2
  | maybeLossDetectionTimeout now => exact exact.maybeLossDetectionTimeout allowed
  | onPacketNumberSpaceDiscarded now space => exact exact.onPacketNumberSpaceDiscarded
  | onRetryReceived now => exact exact.onRetryReceived allowed
  | consumePacketNumber space =>
    have same := @sameFlight_modifyIssuer _ world.status space
      consumePacketNumber fun _ => ⟨rfl, rfl⟩
    exact exact.congr same.bytes_eq fun other => (same.numbers _).highestSent_eq
  | onDatagramReceived now recvBytes =>
    simp only [step, onDatagramReceived]
    split <;> exact exact.congr rfl fun _ => rfl
  | onPacketDecrypted space => exact exact.congr rfl fun _ => rfl
  | onHandshakeConfirmed => exact exact.congr rfl fun _ => rfl
  | onHandshakeComplete =>
    simp only [step, onHandshakeComplete]
    split <;> exact exact.congr rfl fun _ => rfl
  | onTransportParameterReceived maxAckDelay ackDelayExponent => exact exact.congr rfl fun _ => rfl
  | onPayloadSizeUpdate size =>
    simp only [step, onPayloadSizeUpdate]
    split
    · exact exact
    · exact exact.congr bytesInFlight_onUpdateMaxUdpPayloadSize fun _ => rfl
  | rehash space order =>
    simp only [step]
    split
    case isFalse => exact exact
    case isTrue reordered =>
      have moved := inFlight_set world.packets order space
      have counted_eq : counted order = counted (world.packets.get space) :=
        (reordered.map _).sum_nat
      have bytes_eq := exact.bytes_eq
      refine ⟨by simp only; omega, fun other entry member => ?_, exact.highest_ge⟩
      rw [get_set] at member
      split at member
      case isTrue same =>
        subst same
        exact exact.sent _ _ (reordered.subset member)
      case isFalse => exact exact.sent _ _ member

/-- The counter of the bytes in flight is the sum over the recorded packets that are counted, and
zero when none is recorded. -/
structure ExactFlight (world : World Alg) : Prop where
  bytes_eq : world.status.cong.bytesInFlight = inFlight world.packets
  zero_of_empty : world.packets = .all [] → world.status.cong.bytesInFlight = 0

/-- In every run with accepted ACK frames, lost packets counted alike and no counted packet
forgotten by a Retry, the bytes in flight are exact. -/
theorem bytes_in_flight_exact {config : Config} {alg : Alg} {isServer : Bool} {maxUdpPayload : Nat}
    {ops : List Op}
    (guarded : Guarded (step control) (guard control)
      { status := .reset config alg isServer maxUdpPayload } ops) :
    ExactFlight (final (step control) { status := .reset config alg isServer maxUdpPayload } ops) := by
  have started : Exact (reset config alg isServer maxUdpPayload) (.all []) 0 := by
    refine ⟨rfl, fun space entry member => ?_, fun space => ?_⟩
    · rw [get_all] at member
      cases member
    · cases space <;> exact Int.le_refl _
  have exact := @invariant_of_guarded _ _ _ _ _ _
    (fun world _ op => step_exact _ _ op) _ [] ops started guarded
  refine ⟨exact.bytes_eq, fun empty => ?_⟩
  rw [exact.bytes_eq, empty]
  rfl

/-- Five packets are sent and the last one is acknowledged: the oldest ones, which are ack-eliciting,
are lost. -/
theorem bytes_in_flight_exact_lost :
    let start : World NewReno := { status := .reset {} {} false 1200 }
    let ping := PacketStatus.ofFrames [.ping]
    let ops := (range 5).flatMap fun pn =>
      [.onPacketSent pn .initial { status := ping, packetNumber := pn, sentBytes := 100 },
        .consumePacketNumber .initial]
    let ack := Op.onAckReceived 20 .initial
      { largestAck := 4, ackRangeCount := 0, firstAckRange := 0, ackRanges := [] } false
    Guarded (step newReno) (guard newReno) start (ops ++ [ack]) ∧
      ExactFlight (final (step newReno) start (ops ++ [ack])) :=
  ⟨by decide, bytes_in_flight_exact _ (by decide)⟩

/-- The bytes of a lost packet with only PADDING stay in flight, and those of an Initial packet when
a Retry arrives. -/
theorem bytes_in_flight_leak :
    let start : World NewReno := { status := .reset {} {} false 1200 }
    let sent (pn : Nat) (type : FrameType) : List Op :=
      [.onPacketSent pn .initial
        { status := .ofFrames [type], packetNumber := pn, sentBytes := 100 },
        .consumePacketNumber .initial]
    let ack := Op.onAckReceived 20 .initial
      { largestAck := 3, ackRangeCount := 0, firstAckRange := 2, ackRanges := [] } false
    let lost := sent 0 .padding ++ sent 1 .ping ++ sent 2 .ping ++ sent 3 .ping ++ [ack]
    let retried := sent 0 .ping ++ [.onRetryReceived 20]
    (final (step newReno) start lost).packets = .all [] ∧
      (final (step newReno) start lost).status.cong.bytesInFlight = 100 ∧
      (final (step newReno) start retried).packets = .all [] ∧
      (final (step newReno) start retried).status.cong.bytesInFlight = 100 := by
  decide

end Recovery

end Futils.Quic.Ack
