import Futils.Quic.Ack.InFlight
import Mathlib.Tactic.Linarith

/-!
# What losses and probe timeouts are answered with

One call of loss detection collects the latest send time of the packets it declares lost and hands it
to the congestion controller; the flag that should leave MTU probes out is read from the wrong bit.
Consecutive probe timeouts count up an exponent, which multiplies the clock granularity and the delay
of acknowledgements, but not the round-trip time.
-/

namespace Futils.Quic.Ack

open Lib.Machine Quic.Frame Status List LossTimer PTOStatus

section Congestion

variable {Alg : Type} {control : Algorithm Alg}

/-- The packets of a space that one call declares lost. -/
def declared (status : Status Alg) (packets : PerSpace SentPackets) (now : Int)
    (space : PacketNumberSpace) : List SentPacket :=
  let delay := lossDelay status.config status.rtt
  if delay < 0 then []
  else ((packets.get space).map Prod.snd).filter fun sent => lostReason status.config
    (status.issuers.get space).largestAckedPacket (now - delay) sent.packetNumber sent.timeSent ≠
      .notLost

/-- The send times of the ack-eliciting packets that are no MTU probes, as `isProbe` tells them. -/
def lossTimes (isProbe : PacketStatus → Bool) (lost : List SentPacket) : List Int :=
  (lost.filter fun sent => sent.status.isAckEliciting && !isProbe sent.status).map (·.timeSent)

/-- The congestion controller behind the loss of packets, before it responds. -/
def withdraw (cong : Congestion Alg) (lost : List SentPacket) : Congestion Alg :=
  lost.foldl (fun cong sent => (cong.onPacketLost 0 sent.sentBytes sent.timeSent sent.status).1) cong

/-- No ack-eliciting packet was sent later than all those that one flag leaves over, the MTU probe
flag as well as the one that `is_mtu_probe` reads. -/
def ProbesTold (lost : List SentPacket) : Prop :=
  (∀ time ∈ lossTimes (·.isMtuProbe) lost, ∃ other ∈ lossTimes (·.mtuProbe) lost, time ≤ other) ∧
    ∀ time ∈ lossTimes (·.mtuProbe) lost, ∃ other ∈ lossTimes (·.isMtuProbe) lost, time ≤ other
deriving Decidable

theorem max?_eq_iff {left right : List Int} : left.max? = right.max? ↔
    (∀ x ∈ left, ∃ y ∈ right, x ≤ y) ∧ ∀ y ∈ right, ∃ x ∈ left, y ≤ x := by
  cases left_eq : left.max? with
  | none =>
    rw [max?_eq_none_iff] at left_eq
    subst left_eq
    cases right with
    | nil => simp
    | cons head tail => simpa using ⟨head, fun other => absurd rfl other⟩
  | some top =>
    obtain ⟨top_mem, top_le⟩ := max?_eq_some_iff.1 left_eq
    rw [eq_comm, max?_eq_some_iff]
    constructor
    · exact fun ⟨member, le⟩ => ⟨fun x inside => ⟨top, member, top_le x inside⟩,
        fun y inside => ⟨top, top_mem, le y inside⟩⟩
    · rintro ⟨up, down⟩
      have le : ∀ y ∈ right, y ≤ top := fun y inside => by
        obtain ⟨x, x_mem, y_le⟩ := down y inside
        exact Int.le_trans y_le (top_le x x_mem)
      obtain ⟨y, y_mem, le_y⟩ := up top top_mem
      exact ⟨Int.le_antisymm le_y (le y y_mem) ▸ y_mem, le⟩

/-- One more packet is lost: it is withdrawn, and its send time counts where `is_mtu_probe` denies
it. -/
theorem onPacketLost_eq {cong : Congestion Alg} {lost : List SentPacket} {sent : SentPacket} :
    (withdraw cong lost).onPacketLost ((lossTimes (·.isMtuProbe) lost).foldl max 0) sent.sentBytes
        sent.timeSent sent.status =
      (withdraw cong (lost ++ [sent]), (lossTimes (·.isMtuProbe) (lost ++ [sent])).foldl max 0) := by
  simp only [withdraw, lossTimes, Congestion.onPacketLost]
  cases eliciting : sent.status.isAckEliciting with
  | false => simp [eliciting]
  | true => cases probe : sent.status.isMtuProbe <;> simp [eliciting, probe]

theorem lost_removeLost {space : PacketNumberSpace} {delay before : Int} {largestAck : Nat}
    {packets : SentPackets} {scan : LossScan Alg} (started : scan.callCongCbOnce = false) :
    (removeLost space delay largestAck before packets scan).2.1 =
      (packets.map Prod.snd).filter fun sent => lostReason scan.status.config largestAck before
        sent.packetNumber sent.timeSent ≠ .notLost := by
  induction packets generalizing scan with
  | nil => rfl
  | cons entry packets ih =>
    obtain ⟨key, sent⟩ := entry
    by_cases reason : lostReason scan.status.config largestAck before sent.packetNumber
        sent.timeSent = .notLost
    · obtain ⟨loss, answered⟩ := @isLost_of_notLost _ space delay _ _ _ started _ reason
      simp only [removeLost, answered, map_cons, filter_cons, reason]
      exact @ih (retime scan loss) started
    · have answered := @isLost_of_lost _ space delay _ _ _ started _ reason
      have valid := @lostReason_ne_invalid before largestAck scan.status.config sent.packetNumber
        sent.timeSent
      have later : (removeLost space delay largestAck before packets (lose space scan sent)).2.1 =
          (packets.map Prod.snd).filter fun sent => lostReason scan.status.config largestAck before
            sent.packetNumber sent.timeSent ≠ .notLost := ih started
      simp only [removeLost, answered, map_cons, filter_cons]
      simpa [reason] using later

theorem lost_detect {status : Status Alg} {packets : PerSpace SentPackets}
    {space : PacketNumberSpace} {now : Int} {mustLost : Bool} :
    (detectAndRemoveLostPacket control status packets now space mustLost).1.lost =
      declared status packets now space := by
  simp only [detectAndRemoveLostPacket, declared]
  split
  · rfl
  · refine Eq.trans ?_ (@lost_removeLost _ space (lossDelay status.config status.rtt) _ _ _
      { status := { status with loss := status.loss.resetLossTime space } } rfl)
    split <;> rfl

/-- Loss detection hands the latest send time that `is_mtu_probe` leaves over to the congestion
controller, and it is the latest of the packets that are no MTU probes exactly if probes are told. -/
theorem responds_to_loss {status : Status Alg} {packets : PerSpace SentPackets}
    {space : PacketNumberSpace} {now : Int} {mustLost : Bool}
    (positive : ∀ sent ∈ declared status packets now space, 0 < sent.timeSent) :
    let detected := (detectAndRemoveLostPacket control status packets now space mustLost).1
    let event := (lossTimes (·.isMtuProbe) detected.lost).max?
    detected.lost = declared status packets now space ∧
      (detected.status.cong = match event with
        | none => withdraw status.cong detected.lost
        | some latest => (withdraw status.cong detected.lost).onCongestionEvent control status.config
            status.payloadSize latest) ∧
      (event = (lossTimes (·.mtuProbe) detected.lost).max? ↔
        ProbesTold (declared status packets now space)) := by
  have lost_eq := @lost_detect _ control status packets space now mustLost
  refine ⟨lost_eq, ?_, by rw [lost_eq, max?_eq_iff, ProbesTold]⟩
  obtain unchanged | ⟨_, _, lost, holds, started, detected_eq⟩ := @detect_cases _ _ _
    (fun scan _ lost => scan.status.config = status.config ∧
      scan.status.payloadSize = status.payloadSize ∧ scan.callLostOnce = !lost.isEmpty ∧
      (scan.status.cong, scan.sentTimeOfLastLoss) =
        (withdraw status.cong lost, (lossTimes (·.isMtuProbe) lost).foldl max 0))
    status packets now mustLost (fun _ => id)
    (fun _ holds => by
      obtain ⟨config_eq, payload_eq, -, scan_eq⟩ := holds
      obtain ⟨cong_eq, last_eq⟩ := Prod.mk.inj scan_eq
      refine ⟨config_eq, payload_eq, by simp [lose], ?_⟩
      rw [← onPacketLost_eq, ← cong_eq, ← last_eq]
      rfl)
    ⟨rfl, rfl, rfl, rfl⟩
  · rw [unchanged]
    rfl
  · obtain ⟨config_eq, payload_eq, once_eq, scan_eq⟩ := holds
    obtain ⟨cong_eq, last_eq⟩ := Prod.mk.inj scan_eq
    rw [detected_eq] at lost_eq
    rw [foldl_max] at last_eq
    simp only [detected_eq, LossScan.congestionCallback, started, Bool.false_or, once_eq,
      Bool.not_not, Congestion.onPacketsLost, last_eq, cong_eq, config_eq, payload_eq]
    cases latest_eq : (lossTimes (·.isMtuProbe) lost).max? with
    | none => cases lost <;> simp [cong_eq]
    | some latest =>
      obtain ⟨sent, member, time_eq⟩ := mem_map.1 (max?_mem latest_eq)
      have sent_mem := (mem_filter.1 member).1
      have after := positive sent (lost_eq ▸ sent_mem)
      rw [if_neg (by simp [ne_nil_of_mem sent_mem]), Option.getD_some, Int.max_eq_right (by omega),
        if_pos (by omega)]

/-- A status that waits for one packet below the largest acknowledged one. -/
def waiting : Status NewReno :=
  { Status.reset {} {} false 1200 with issuers := .all { largestAckedPacket := 3 } }

/-- A lost packet with a PATH_CHALLENGE frame is responded to. -/
theorem responds_to_path_challenge :
    let sent : SentPacket := { status := .ofFrames [.pathChallenge], sentBytes := 100, timeSent := 1 }
    let detected := (detectAndRemoveLostPacket newReno waiting (.all [(0, sent)]) 20 .initial true).1
    detected.status.cong = (withdraw waiting.cong [sent]).onCongestionEvent newReno {} 1200 1 ∧
      (lossTimes (·.isMtuProbe) detected.lost).max? = (lossTimes (·.mtuProbe) detected.lost).max? :=
  ⟨(responds_to_loss (by decide)).2.1, (responds_to_loss (by decide)).2.2.2 (by decide)⟩

/-- A lost packet with a PING frame halves the window when it is responded to, and is not. -/
theorem ignores_lost_ping :
    let sent : SentPacket := { status := .ofFrames [.ping], sentBytes := 100, timeSent := 1 }
    let detected := (detectAndRemoveLostPacket newReno waiting (.all [(0, sent)]) 20 .initial true).1
    (lossTimes (·.mtuProbe) detected.lost).max? = some 1 ∧
      detected.status.cong.congestionWindow = 12000 ∧
      ((withdraw waiting.cong [sent]).onCongestionEvent newReno {} 1200 1).congestionWindow = 6000 := by
  decide

end Congestion

section ProbeTimeouts

/-- How long after the packet it waits for the probe timeout of a space is armed. -/
def probeTimeout (config : Config) (pto : PTOStatus) (rtt : RTT) (space : PacketNumberSpace) : Int :=
  if space = .application then
    (pto.probeTimeoutDuration config rtt + rtt.maxAckDelay * pto.ptoExponent).bmod (2 ^ 64)
  else pto.probeTimeoutDuration config rtt

theorem getPtoAndSpace_armed {config : Config} {now time : Int} {hs : HandshakeStatus}
    {pto : PTOStatus} {rtt : RTT} {issuers : PerSpace PacketNumberIssuer} {space : PacketNumberSpace}
    (armed : getPtoAndSpace config now hs pto rtt issuers = (time, some space))
    (valid : time ≠ invalid) :
    time = (if noAckElicitingInFlight issuers then now
      else (issuers.get space).lastAckElicitingPacketSentTime) + probeTimeout config pto rtt space := by
  simp only [getPtoAndSpace, ptoLoop] at armed
  simp only [probeTimeout]
  grind

variable {Alg : Type} (control : Algorithm Alg)

namespace Recovery

/-- Neither an acknowledgement nor a discard nor a Retry. -/
def Op.isUndisturbed : Op → Bool
  | .onAckReceived .. | .onPacketNumberSpaceDiscarded .. | .onRetryReceived _ => false
  | _ => true

def expires (world : World Alg) : Op → Nat
  | .maybeLossDetectionTimeout now =>
    match timerTimeout world.status.loss.deadline now, world.status.loss.state with
    | true, .waitForPto _ => 1
    | _, _ => 0
  | _ => 0

def expirations : World Alg → List Op → Nat
  | _, [] => 0
  | world, op :: ops => expires world op + expirations (step control world op).1 ops

theorem ptoCount_onPacketSent {status next : Status Alg} {now : Int} {space : PacketNumberSpace}
    {pn sentBytes : Nat} {pstatus : PacketStatus} {skipped : Int × Int}
    (accepted : status.onPacketSent control now space pn sentBytes pstatus = .ok (next, skipped)) :
    next.pto.ptoCount = status.pto.ptoCount := by
  have sends : (status.pto.onPacketSent pstatus.isAckEliciting).ptoCount = status.pto.ptoCount := by
    rw [PTOStatus.onPacketSent]
    split <;> rfl
  rw [Status.onPacketSent] at accepted
  split at accepted
  · cases accepted
  · split at accepted <;> cases accepted <;> exact sends

theorem pto_detect {status : Status Alg} {packets : PerSpace SentPackets} {space : PacketNumberSpace}
    {now : Int} {mustLost : Bool} :
    (detectAndRemoveLostPacket control status packets now space mustLost).1.status.pto =
      status.pto := by
  obtain unchanged | ⟨_, _, _, holds, -, detected_eq⟩ := @detect_cases _ _ _
    (fun scan _ _ => scan.status.pto = status.pto) status packets now mustLost (fun _ => id)
    (fun _ => id) rfl
  · rw [unchanged]
  · rw [detected_eq, ← holds]
    simp only [LossScan.congestionCallback]
    split <;> rfl

theorem step_ptoCount (world : World Alg) (op : Op) (undisturbed : op.isUndisturbed) :
    (step control world op).1.status.pto.ptoCount =
      world.status.pto.ptoCount + expires world op := by
  cases op with
  | onPacketSent now space sent =>
    simp only [step, Ack.onPacketSent]
    split
    · rfl
    · rename_i accepted
      split
      · exact ptoCount_onPacketSent _ accepted
      split <;> exact ptoCount_onPacketSent _ accepted
  | maybeLossDetectionTimeout now =>
    simp only [step, Ack.maybeLossDetectionTimeout, expires]
    cases timerTimeout world.status.loss.deadline now with
    | false => rfl
    | true =>
      cases world.status.loss.state with
      | waitForLoss space =>
        have kept := @pto_detect _ control world.status world.packets space now true
        simp only [Bool.not_true, Bool.false_eq_true, if_false]
        split <;> exact congrArg _ kept
      | waitForPto space =>
        simp only [Bool.not_true, Bool.false_eq_true, if_false, Status.onPtoTimeout]
        split
        · split <;> rfl
        · rfl
      | noTimer | atAntiAmplificationLimit => rfl
  | onAckReceived | onPacketNumberSpaceDiscarded | onRetryReceived => cases undisturbed
  | onDatagramReceived now recvBytes =>
    simp only [step, Status.onDatagramReceived]
    split <;> rfl
  | onHandshakeComplete =>
    simp only [step, Status.onHandshakeComplete]
    split <;> rfl
  | onPayloadSizeUpdate size =>
    simp only [step, Status.onPayloadSizeUpdate]
    split <;> rfl
  | rehash space order =>
    simp only [step]
    split <;> rfl
  | _ => rfl

theorem final_ptoCount {world : World Alg} {ops : List Op}
    (undisturbed : ∀ op ∈ ops, op.isUndisturbed) :
    (final (step control) world ops).status.pto.ptoCount =
      world.status.pto.ptoCount + expirations control world ops := by
  induction ops generalizing world with
  | nil => rfl
  | cons op ops ih =>
    obtain ⟨first, later⟩ := forall_mem_cons.1 undisturbed
    rw [final_cons, ih later, step_ptoCount _ _ op first, expirations, Nat.add_assoc]

/-- The times are not negative, and neither the shift nor the timeout after `k` of them leaves its
type. -/
structure InRange (config : Config) (rtt : RTT) (k : Nat) : Prop where
  smoothed_nonneg : 0 ≤ rtt.smoothedRtt
  rttvar_nonneg : 0 ≤ rtt.rttvar
  granularity_nonneg : 0 ≤ config.toClockGranularity 1
  shift_lt : k < 64
  timeout_lt : 2 ^ k * (rtt.smoothedRtt + max (rtt.rttvar * 4) (config.toClockGranularity 1) +
    rtt.maxAckDelay) < 2 ^ 63

/-- In range the timeout is computed without wrapping around. -/
theorem InRange.probeTimeout_eq {config : Config} {rtt : RTT} {pto : PTOStatus}
    (range : InRange config rtt pto.ptoCount) (space : PacketNumberSpace) :
    probeTimeout config pto rtt space = rtt.smoothedRtt +
      max (rtt.rttvar * 4) (config.toClockGranularity 1 * 2 ^ pto.ptoCount) +
        if space = .application then rtt.maxAckDelay * 2 ^ pto.ptoCount else 0 := by
  obtain ⟨smoothed_nonneg, rttvar_nonneg, granularity_nonneg, shift_lt, timeout_lt⟩ := range
  have delay_nonneg : 0 ≤ rtt.maxAckDelay := by
    rw [RTT.maxAckDelay]
    split <;> omega
  have shift_pos : (1 : Int) ≤ 2 ^ pto.ptoCount := Int.pow_pos (by decide)
  have shift_small : (2 : Int) ^ pto.ptoCount < 2 ^ 64 :=
    pow_lt_pow_right₀ (by decide) shift_lt
  rw [probeTimeout, probeTimeoutDuration, ptoExponent, Int.emod_eq_of_lt (by omega) shift_small]
  generalize config.toClockGranularity 1 = granularity at *
  generalize (2 : Int) ^ pto.ptoCount = shift at *
  have smoothed_le : rtt.smoothedRtt ≤ shift * rtt.smoothedRtt := by nlinarith
  have variance_le : max (rtt.rttvar * 4) (granularity * shift) ≤
      shift * max (rtt.rttvar * 4) granularity := by
    have left := Int.le_max_left (rtt.rttvar * 4) granularity
    have right := Int.le_max_right (rtt.rttvar * 4) granularity
    exact Int.max_le.2 ⟨by nlinarith, by nlinarith⟩
  have granularity_nonneg : 0 ≤ granularity * shift := Int.mul_nonneg granularity_nonneg (by omega)
  have delay_nonneg : 0 ≤ rtt.maxAckDelay * shift := Int.mul_nonneg delay_nonneg (by omega)
  have sum_lt : rtt.smoothedRtt + max (rtt.rttvar * 4) (granularity * shift) +
      rtt.maxAckDelay * shift < 2 ^ 63 := by
    rw [Int.mul_add, Int.mul_add, Int.mul_comm shift rtt.maxAckDelay] at timeout_lt
    omega
  have duration_eq : (rtt.smoothedRtt + max (rtt.rttvar * 4) (granularity * shift)).bmod (2 ^ 64) =
      rtt.smoothedRtt + max (rtt.rttvar * 4) (granularity * shift) :=
    Int.bmod_eq_of_le (by omega) (by omega)
  rw [Int.emod_eq_of_lt (by omega) (by omega), Int.emod_eq_of_lt (by omega) (by omega), duration_eq,
    Int.bmod_eq_of_le (by omega) (by omega)]
  split <;> omega

/-- Multiplying one part of the timeout is multiplying it all only without the other parts. -/
theorem scaled_iff {smoothed variance granularity shift : Int} (smoothed_nonneg : 0 ≤ smoothed)
    (granularity_nonneg : 0 ≤ granularity) (shift_pos : 1 ≤ shift) :
    smoothed + max variance (granularity * shift) = shift * (smoothed + max variance granularity) ↔
      shift = 1 ∨ smoothed = 0 ∧ variance ≤ granularity := by
  constructor
  · intro same
    by_contra neither
    obtain ⟨more, apart⟩ := not_or.1 neither
    have twice : 2 ≤ shift := by omega
    rcases Int.le_total variance granularity with small | large
    · have grows : granularity ≤ granularity * shift := by nlinarith
      rw [Int.max_eq_right small, Int.max_eq_right (by omega)] at same
      exact apart ⟨by nlinarith, small⟩
    · rw [Int.max_eq_left large] at same
      rcases Int.le_total variance (granularity * shift) with less | greater
      · rw [Int.max_eq_right less] at same
        exact apart ⟨by nlinarith, by nlinarith⟩
      · rw [Int.max_eq_left greater] at same
        exact apart ⟨by nlinarith, by nlinarith⟩
  · rintro (rfl | ⟨rfl, small⟩)
    · rw [Int.mul_one, Int.one_mul]
    · have grows : granularity ≤ granularity * shift := by nlinarith
      rw [Int.max_eq_right small, Int.max_eq_right (by omega), Int.zero_add, Int.zero_add,
        Int.mul_comm]

/-- After `k` probe timeouts in a row the next one is armed with `2 ^ k` times the timeout exactly if
`k` or all but the granularity is zero: the exponent does not multiply the round-trip time. -/
theorem probe_timeout_backs_off {world : World Alg} {ops : List Op}
    (reset : world.status.pto.ptoCount = 0) (undisturbed : ∀ op ∈ ops, op.isUndisturbed = true)
    {now time : Int} {space : PacketNumberSpace} (valid : time ≠ invalid) :
    let k := expirations control world ops
    let status := (final (step control) world ops).status
    let granularity := status.config.toClockGranularity 1
    InRange status.config status.rtt k →
    getPtoAndSpace status.config now status.hs status.pto status.rtt status.issuers =
      (time, some space) →
    (time = (if noAckElicitingInFlight status.issuers then now
        else (status.issuers.get space).lastAckElicitingPacketSentTime) +
      2 ^ k * (status.rtt.smoothedRtt + max (status.rtt.rttvar * 4) granularity +
        if space = .application then status.rtt.maxAckDelay else 0) ↔
      k = 0 ∨ status.rtt.smoothedRtt = 0 ∧ status.rtt.rttvar * 4 ≤ granularity) := by
  intro k status granularity range armed
  have count_eq : status.pto.ptoCount = k := by
    rw [final_ptoCount _ undisturbed, reset, Nat.zero_add]
  have one_iff : ∀ {n : Nat}, (2 : Int) ^ n = 1 ↔ n = 0
    | 0 => by decide
    | n + 1 => by rw [Int.pow_succ]; omega
  rw [← count_eq] at range
  rw [getPtoAndSpace_armed armed valid, range.probeTimeout_eq, count_eq, Int.add_right_inj,
    ← one_iff, ← scaled_iff range.smoothed_nonneg range.granularity_nonneg
      (Int.pow_pos (by decide)), Int.mul_add]
  split
  · rw [Int.mul_comm _ status.rtt.maxAckDelay, Int.add_left_inj]
  · rw [Int.mul_zero, Int.add_zero, Int.add_zero]

/-- A packet is sent and its probe timeout expires once. -/
def probed (now : Int) : List Op :=
  [.onPacketSent 5 .initial { status := .ofFrames [.ping], sentBytes := 100 },
    .maybeLossDetectionTimeout now]

def unmeasured : World NewReno :=
  ⟨{ Status.reset {} {} false 1200 with rtt := { smoothedRtt := 0, rttvar := 0 } }, .all []⟩

/-- Without a round-trip time, the second probe timeout is twice the clock granularity. -/
theorem probe_timeout_of_granularity :
    let k := expirations newReno unmeasured (probed 10)
    let status := (final (step newReno) unmeasured (probed 10)).status
    k = 1 ∧ (7 : Int) = (if noAckElicitingInFlight status.issuers then 10
        else (status.issuers.get .initial).lastAckElicitingPacketSentTime) +
      2 ^ k * (status.rtt.smoothedRtt +
        max (status.rtt.rttvar * 4) (status.config.toClockGranularity 1) +
        if PacketNumberSpace.initial = .application then status.rtt.maxAckDelay else 0) :=
  ⟨by decide +kernel, (probe_timeout_backs_off newReno rfl (by decide) (by decide)
    ⟨by decide +kernel, by decide +kernel, by decide +kernel, by decide +kernel, by decide +kernel⟩
    (by decide +kernel)).2 (by decide +kernel)⟩

/-- With the initial round-trip time, the probe timeout is 997 before and after it expires. -/
theorem probe_timeout_stays :
    let world : World NewReno := { status := .reset {} {} false 1200 }
    let status := (final (step newReno) world (probed 2000)).status
    expirations newReno world (probed 2000) = 1 ∧
      getPtoAndSpace status.config 2000 status.hs status.pto status.rtt status.issuers =
        (5 + 997, some .initial) ∧
      status.rtt.smoothedRtt + max (status.rtt.rttvar * 4) (status.config.toClockGranularity 1) =
        997 := by
  decide

/-- A packet between two datagrams of 100 bytes. -/
def between (sentBytes : Nat) : List Op :=
  [.onDatagramReceived 1 100,
    .onPacketSent 2 .initial { status := .ofFrames [.ping], sentBytes := sentBytes },
    .onDatagramReceived 3 100]

end Recovery

end ProbeTimeouts

end Futils.Quic.Ack
