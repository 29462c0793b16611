import Futils.Quic.Types

/-!
# Round-trip time and congestion control

Times are signed numbers of clock ticks, and the clock is read once per event: every function that
asks for the current time takes it as `now`.  `Congestion` counts the bytes in flight in an unsigned
64-bit counter; the algorithm behind it only moves the window.
-/

namespace Futils.Quic.Status

structure Ratio where
  num : Int
  den : Int
  deriving DecidableEq

def invalid : Int := -1

/-- `InternalConfig`, and the ticks of the clock in a millisecond. -/
structure Config where
  windowInitialFactor : Nat := 10
  windowMinimumFactor : Nat := 2
  /-- Initial round-trip time, in milliseconds. -/
  initialRtt : Int := 333
  /-- Distance in packet numbers at which a packet is lost. -/
  packetOrderThreshold : Nat := 3
  /-- Multiple of the round-trip time after which a packet is lost. -/
  timeThreshold : Ratio := ⟨9, 8⟩
  /-- Time between pings, in milliseconds. -/
  pingDuration : Int := 0
  millisecond : Int := 1
  deriving DecidableEq

namespace Config

variable (config : Config)

def toClockGranularity (millisec : Int) : Int := millisec * config.millisecond

def minWindow (maxUdpPayloadSize : Nat) : Nat := config.windowMinimumFactor * maxUdpPayloadSize

end Config

structure RTT where
  latestRtt : Int := 0
  minRtt : Int := 0
  smoothedRtt : Int := -1
  rttvar : Int := -1
  peerMaxAckDelay : Int := invalid
  firstAckSample : Int := 0
  deriving DecidableEq

namespace RTT

variable (rtt : RTT)

def reset (config : Config) : RTT :=
  let smoothed := config.toClockGranularity config.initialRtt
  { smoothedRtt := smoothed, rttvar := smoothed / 2 }

/-- `sample_rtt`; it fails when the packet was sent in the future. -/
def sampleRtt (now timeSent ackDelay : Int) : Option RTT :=
  let latest := now - timeSent
  if latest < 0 then none
  else if rtt.firstAckSample = 0 then
    some { rtt with
      latestRtt := latest
      minRtt := latest
      smoothedRtt := latest
      rttvar := latest / 2
      firstAckSample := now }
  else
    let minRtt := min rtt.minRtt latest
    let ackDelay := if 0 ≤ rtt.peerMaxAckDelay then min ackDelay rtt.peerMaxAckDelay else ackDelay
    let adjusted := if minRtt + ackDelay ≤ latest then latest - ackDelay else latest
    some { rtt with
      latestRtt := latest
      minRtt := minRtt
      rttvar := (3 * rtt.rttvar + (rtt.smoothedRtt - adjusted).natAbs) / 4
      smoothedRtt := (7 * rtt.smoothedRtt + adjusted) / 8 }

def applyMaxAckDelay (time : Int) : RTT := { rtt with peerMaxAckDelay := time }

def maxAckDelay : Int := if rtt.peerMaxAckDelay ≤ 0 then 0 else rtt.peerMaxAckDelay

end RTT

/-- `WindowModifier`: the window an algorithm may move, in one direction. -/
structure WindowModifier where
  window : Nat
  minWindow : Nat
  maxPayload : Nat
  incr : Bool
  deriving DecidableEq

def WindowModifier.update (modif : WindowModifier) (newWindow : Nat) : WindowModifier × Bool :=
  if modif.incr then
    if newWindow < modif.window then (modif, false) else ({ modif with window := newWindow }, true)
  else
    if modif.window < newWindow then (modif, false) else ({ modif with window := newWindow }, true)

/-- What a congestion control algorithm with state `Alg` does at each event. -/
structure Algorithm (Alg : Type) where
  onPacketSent : Alg → (sentBytes : Nat) → (timeSent : Int) → Alg
  onPacketAck : Alg → WindowModifier → (sentBytes : Nat) → (timeSent : Int) → Alg × WindowModifier
  onCongestionEvent : Alg → WindowModifier → (timeSent : Int) → Alg × WindowModifier

structure NewReno where
  ssthresh : Nat := max64
  lossReductionFactor : Nat × Nat := (1, 2)
  deriving DecidableEq

/-- The events of `NewReno`; sending does nothing, as in `NullAlgorithm`. -/
def newReno : Algorithm NewReno where
  onPacketSent alg _ _ := alg
  onPacketAck alg modif sentBytes _ :=
    if modif.window < alg.ssthresh then (alg, (modif.update (add64 modif.window sentBytes)).1)
    else (alg, (modif.update (modif.maxPayload * sentBytes / modif.window)).1)
  onCongestionEvent alg modif _ :=
    let ssthresh := alg.lossReductionFactor.1 * modif.window / alg.lossReductionFactor.2
    ({ alg with ssthresh := ssthresh }, (modif.update (max ssthresh modif.minWindow)).1)

structure Congestion (Alg : Type) where
  congestionWindow : Nat := 0
  bytesInFlight : Nat := 0
  congestionRecoveryStartTime : Int := 0
  shouldSendAny : Bool := false
  algorithm : Alg
  deriving DecidableEq

namespace Congestion

variable {Alg : Type} (control : Algorithm Alg) (cong : Congestion Alg)

def reset (config : Config) (payloadSize : Nat) (alg : Alg) : Congestion Alg :=
  { congestionWindow := config.windowInitialFactor * payloadSize, algorithm := alg }

def onPacketSent (sentBytes : Nat) (timeSent : Int) : Congestion Alg :=
  { cong with
    bytesInFlight := add64 cong.bytesInFlight sentBytes
    shouldSendAny := false
    algorithm := control.onPacketSent cong.algorithm sentBytes timeSent }

def inCongestionRecovery (time : Int) : Bool := time ≤ cong.congestionRecoveryStartTime

def onPacketAck (config : Config) (payloadSize sentBytes : Nat) (timeSent : Int)
    (status : PacketStatus) (isFlowControlLimited : Bool) : Congestion Alg :=
  if !status.isByteCounted then cong
  else
    let cong := { cong with bytesInFlight := sub64 cong.bytesInFlight sentBytes }
    if isFlowControlLimited then cong
    else if cong.inCongestionRecovery timeSent then cong
    else
      let (alg, modif) := control.onPacketAck cong.algorithm
        ⟨cong.congestionWindow, config.minWindow payloadSize, payloadSize, true⟩ sentBytes timeSent
      { cong with algorithm := alg, congestionWindow := modif.window }

/-- `on_packet_lost`, with the time the last lost packet was sent. -/
def onPacketLost (sentTimeOfLastLoss : Int) (sentBytes : Nat) (timeSent : Int)
    (status : PacketStatus) : Congestion Alg × Int :=
  if !status.isAckEliciting then (cong, sentTimeOfLastLoss)
  else
    ({ cong with bytesInFlight := sub64 cong.bytesInFlight sentBytes },
      if status.isMtuProbe then sentTimeOfLastLoss else max sentTimeOfLastLoss timeSent)

def onCongestionEvent (config : Config) (payloadSize : Nat) (timeSent : Int) : Congestion Alg :=
  if cong.inCongestionRecovery timeSent then cong
  else
    let (alg, modif) := control.onCongestionEvent cong.algorithm
      ⟨cong.congestionWindow, config.minWindow payloadSize, payloadSize, false⟩ timeSent
    { cong with
      congestionRecoveryStartTime := timeSent
      algorithm := alg
      congestionWindow := modif.window
      shouldSendAny := true }

/-- `on_packets_lost`; its callers ignore persistent congestion. -/
def onPacketsLost (timeSent : Int) (config : Config) (payloadSize : Nat) : Congestion Alg :=
  if 0 < timeSent then cong.onCongestionEvent control config payloadSize timeSent else cong

def onUpdateMaxUdpPayloadSize (config : Config) (current new : Nat) : Congestion Alg :=
  if config.minWindow current = cong.congestionWindow then
    { cong with congestionWindow := config.minWindow new }
  else cong

def onPacketNumberSpaceDiscard (decrease : Nat) (status : PacketStatus) : Congestion Alg :=
  if status.isByteCounted then { cong with bytesInFlight := sub64 cong.bytesInFlight decrease }
  else cong

variable {cong} {config : Config} {payloadSize sentBytes : Nat} {timeSent : Int}
  {status : PacketStatus}

@[simp] theorem bytesInFlight_onPacketAck {limited : Bool} :
    (cong.onPacketAck control config payloadSize sentBytes timeSent status limited).bytesInFlight =
      if status.isByteCounted then sub64 cong.bytesInFlight sentBytes else cong.bytesInFlight := by
  cases counted : status.isByteCounted
  · simp [onPacketAck, counted]
  · simp only [onPacketAck, counted, Bool.not_true, Bool.false_eq_true, if_false]
    split
    · rfl
    split <;> rfl

@[simp] theorem bytesInFlight_onPacketLost {last : Int} :
    (cong.onPacketLost last sentBytes timeSent status).1.bytesInFlight =
      if status.isAckEliciting then sub64 cong.bytesInFlight sentBytes else cong.bytesInFlight := by
  cases eliciting : status.isAckEliciting <;> simp [onPacketLost, eliciting]

@[simp] theorem bytesInFlight_onCongestionEvent :
    (cong.onCongestionEvent control config payloadSize timeSent).bytesInFlight =
      cong.bytesInFlight := by
  rw [onCongestionEvent]
  split <;> rfl

@[simp] theorem bytesInFlight_onPacketsLost :
    (cong.onPacketsLost control timeSent config payloadSize).bytesInFlight =
      cong.bytesInFlight := by
  rw [onPacketsLost]
  split
  · exact bytesInFlight_onCongestionEvent _
  · rfl

@[simp] theorem bytesInFlight_onUpdateMaxUdpPayloadSize {current new : Nat} :
    (cong.onUpdateMaxUdpPayloadSize config current new).bytesInFlight = cong.bytesInFlight := by
  rw [onUpdateMaxUdpPayloadSize]
  split <;> rfl

@[simp] theorem bytesInFlight_onPacketNumberSpaceDiscard :
    (cong.onPacketNumberSpaceDiscard sentBytes status).bytesInFlight =
      if status.isByteCounted then sub64 cong.bytesInFlight sentBytes else cong.bytesInFlight := by
  rw [onPacketNumberSpaceDiscard]
  split <;> rfl

end Congestion

end Futils.Quic.Status
