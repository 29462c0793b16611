import Futils.Quic.Status.Congestion

/-!
# Packet number spaces and the loss timer

Each of the three packet number spaces has an issuer of packet numbers.  The loss timer waits for
the earliest loss time of the spaces or for a probe timeout; the handshake status decides whether
the peer may be probed at all.
-/

namespace Futils.Quic.Status

/-- `PacketNumberSpace`; `no_space` is the missing space of an `Option`. -/
inductive PacketNumberSpace
  | initial
  | handshake
  | application
  deriving DecidableEq

/-- An array with one entry per packet number space. -/
structure PerSpace (α : Type) where
  initial : α
  handshake : α
  application : α
  deriving DecidableEq

namespace PerSpace

variable {α : Type} (array : PerSpace α) (value : α) (space : PacketNumberSpace)

def all : PerSpace α := ⟨value, value, value⟩

def get : PacketNumberSpace → α
  | .initial => array.initial
  | .handshake => array.handshake
  | .application => array.application

def set : PacketNumberSpace → PerSpace α
  | .initial => { array with initial := value }
  | .handshake => { array with handshake := value }
  | .application => { array with application := value }

@[simp] theorem get_all : (all value).get space = value := by
  cases space <;> rfl

@[simp] theorem get_set (space other : PacketNumberSpace) :
    (array.set value space).get other = if other = space then value else array.get other := by
  cases space <;> cases other <;> rfl

theorem get_set_self : (array.set value space).get space = value := by
  simp

@[simp] theorem set_get : array.set (array.get space) space = array := by
  cases space <;> rfl

@[simp] theorem set_set (value last : α) (space : PacketNumberSpace) :
    (array.set value space).set last space = array.set last space := by
  cases space <;> rfl

end PerSpace

structure PacketNumberIssuer where
  issuePacketNumber : Int := 0
  highestSent : Int := -1
  largestAckedPacket : Nat := max64
  lastAckElicitingPacketSentTime : Int := 0
  ackElicitingInFlightSentPacketCount : Nat := 0
  ecnCeCounter : Nat := 0
  deriving DecidableEq

namespace PacketNumberIssuer

variable (issuer : PacketNumberIssuer)

/-- `decrement_ack_eliciting_in_flight`: the body of `on_packet_ack` and of `on_packet_lost`. -/
def decrementAckElicitingInFlight (status : PacketStatus) : PacketNumberIssuer :=
  if status.isAckEliciting && status.isByteCounted then
    { issuer with
      ackElicitingInFlightSentPacketCount := sub64 issuer.ackElicitingInFlightSentPacketCount 1 }
  else issuer

def consumePacketNumber : PacketNumberIssuer :=
  { issuer with issuePacketNumber := issuer.issuePacketNumber + 1 }

/-- `on_packet_sent`: the packet numbers that were skipped, from the first one to `pn`. -/
def onPacketSent (now : Int) (pn : Nat) (status : PacketStatus) :
    Except Error (PacketNumberIssuer × Int × Int) :=
  if (pn : Int) ≤ issuer.highestSent ∨ issuer.issuePacketNumber < pn then
    .error (.lib ("packet number is not valid in order. " ++
      "use status.next_packet_number() to get next packet number"))
  else
    .ok ({ issuer with
      highestSent := pn
      lastAckElicitingPacketSentTime :=
        if status.isAckEliciting then now else issuer.lastAckElicitingPacketSentTime
      ackElicitingInFlightSentPacketCount :=
        if status.isAckEliciting && status.isByteCounted then
          add64 issuer.ackElicitingInFlightSentPacketCount 1
        else issuer.ackElicitingInFlightSentPacketCount }, issuer.highestSent + 1, pn)

def onAckReceived (newLargestAckPn : Nat) : PacketNumberIssuer :=
  if issuer.largestAckedPacket = max64 ∨ issuer.largestAckedPacket < newLargestAckPn then
    { issuer with largestAckedPacket := newLargestAckPn }
  else issuer

def onPacketNumberSpaceDiscard : PacketNumberIssuer :=
  { issuer with lastAckElicitingPacketSentTime := 0, ackElicitingInFlightSentPacketCount := 0 }

def noAckElicitingInFlight : Bool := issuer.ackElicitingInFlightSentPacketCount = 0

def onRetryReceived : PacketNumberIssuer :=
  { issuer with
    lastAckElicitingPacketSentTime := 0
    ackElicitingInFlightSentPacketCount := 0
    highestSent := -1
    largestAckedPacket := max64 }

def isEcnCeUpdated (ecnCe : Nat) : PacketNumberIssuer × Bool :=
  if issuer.ecnCeCounter < ecnCe then ({ issuer with ecnCeCounter := ecnCe }, true)
  else (issuer, false)

/-- Only the counters of the issuer differ. -/
structure SameNumbers (issuer next : PacketNumberIssuer) : Prop where
  highestSent_eq : next.highestSent = issuer.highestSent
  largestAckedPacket_eq : next.largestAckedPacket = issuer.largestAckedPacket

theorem sameNumbers_decrement (status : PacketStatus) :
    SameNumbers issuer (issuer.decrementAckElicitingInFlight status) := by
  rw [decrementAckElicitingInFlight]
  split <;> exact ⟨rfl, rfl⟩

theorem sameNumbers_isEcnCeUpdated (ecnCe : Nat) :
    SameNumbers issuer (issuer.isEcnCeUpdated ecnCe).1 := by
  rw [isEcnCeUpdated]
  split <;> exact ⟨rfl, rfl⟩

theorem highestSent_onAckReceived (pn : Nat) :
    (issuer.onAckReceived pn).highestSent = issuer.highestSent := by
  rw [onAckReceived]
  split <;> rfl

end PacketNumberIssuer

/-- `no_ack_eliciting_in_flight` of all spaces. -/
def noAckElicitingInFlight (issuers : PerSpace PacketNumberIssuer) : Bool :=
  issuers.initial.noAckElicitingInFlight && issuers.handshake.noAckElicitingInFlight &&
    issuers.application.noAckElicitingInFlight

structure HandshakeStatus where
  sentBytes : Nat := 0
  recvBytes : Nat := 0
  isServer : Bool
  handshakePacketIsSent : Bool := false
  handshakePacketIsReceived : Bool := false
  handshakePacketAckIsReceived : Bool := false
  handshakeConfirmed : Bool := false
  handshakeComplete : Bool := false
  hasReceivedRetry : Bool := false
  peerAddressValidatedByToken : Bool := false
  deriving DecidableEq

namespace HandshakeStatus

variable (hs : HandshakeStatus)

def onPacketSent (space : PacketNumberSpace) (size : Nat) : HandshakeStatus :=
  { hs with
    sentBytes := add64 hs.sentBytes size
    handshakePacketIsSent := hs.handshakePacketIsSent || space = .handshake }

def onDatagramReceived (size : Nat) : HandshakeStatus :=
  { hs with recvBytes := add64 hs.recvBytes size }

def onPacketDecrypted (space : PacketNumberSpace) : HandshakeStatus :=
  { hs with handshakePacketIsReceived := hs.handshakePacketIsReceived || space = .handshake }

def onAckReceived (space : PacketNumberSpace) : HandshakeStatus :=
  { hs with handshakePacketAckIsReceived := hs.handshakePacketAckIsReceived || space = .handshake }

def peerAddressValidated : Bool :=
  !hs.isServer || hs.handshakePacketIsReceived || hs.peerAddressValidatedByToken

def isAtAntiAmplificationLimit : Bool :=
  !hs.peerAddressValidated && 3 * hs.recvBytes ≤ hs.sentBytes

def peerCompletedAddressValidation : Bool :=
  hs.isServer || hs.handshakePacketAckIsReceived || hs.handshakeConfirmed

end HandshakeStatus

structure PTOStatus where
  ptoCount : Nat := 0
  probeRequired : Nat := 0
  ptoSpace : Option PacketNumberSpace := none
  deriving DecidableEq

namespace PTOStatus

variable (pto : PTOStatus)

/-- `pto_exponent`, a `uint64_t`; the shift is undefined from 64 on. -/
def ptoExponent : Int := 2 ^ pto.ptoCount % 2 ^ 64

/-- `probe_timeout_duration`: the exponent makes it unsigned until it is returned. -/
def probeTimeoutDuration (config : Config) (rtt : RTT) : Int :=
  (rtt.smoothedRtt + max (rtt.rttvar * 4 % 2 ^ 64)
    (config.toClockGranularity 1 * pto.ptoExponent % 2 ^ 64)).bmod (2 ^ 64)

def onPacketSent (ackEliciting : Bool) : PTOStatus :=
  if ackEliciting then { pto with probeRequired := pto.probeRequired - 1 } else pto

def onPtoNoFlight (space : PacketNumberSpace) : PTOStatus :=
  { ptoCount := pto.ptoCount + 1, probeRequired := pto.probeRequired + 1, ptoSpace := some space }

def onPtoTimeout (space : Option PacketNumberSpace) : PTOStatus :=
  { ptoCount := pto.ptoCount + 1, probeRequired := pto.probeRequired + 2, ptoSpace := space }

def onAckReceived (hs : HandshakeStatus) : PTOStatus :=
  { pto with
    probeRequired := 0
    ptoCount := if hs.peerCompletedAddressValidation then 0 else pto.ptoCount }

/-- `on_retry_received`, with the round-trip time it samples. -/
def onRetryReceived (rtt : RTT) (now firstSentTime : Int) : PTOStatus × RTT :=
  ({ pto with ptoCount := 0 },
    if pto.ptoCount = 0 then (rtt.sampleRtt now firstSentTime 0).getD rtt else rtt)

end PTOStatus

/-- `LossTimerState`, with the space the timer waits for. -/
inductive LossTimerState
  | noTimer
  | waitForLoss (space : PacketNumberSpace)
  | atAntiAmplificationLimit
  | waitForPto (space : Option PacketNumberSpace)
  deriving DecidableEq

/-- The space whose loss time the timer waits for. -/
def LossTimerState.lossSpace : LossTimerState → Option PacketNumberSpace
  | .waitForLoss space => some space
  | .noTimer | .atAntiAmplificationLimit | .waitForPto _ => none

structure LossTimer where
  lossTime : PerSpace Int := .all 0
  deadline : Int := invalid
  state : LossTimerState := .noTimer
  deriving DecidableEq

def timerDeadline (time : Int) : Int := if time < 0 then invalid else time

def timerTimeout (deadline now : Int) : Bool := deadline ≠ invalid ∧ deadline < now

namespace LossTimer

variable (loss : LossTimer)

def getLossTimeAndSpace : Int × PacketNumberSpace :=
  [PacketNumberSpace.initial, .handshake, .application].foldl
    (fun (time, space) next =>
      if time = 0 ∨ loss.lossTime.get next < time then (loss.lossTime.get next, next)
      else (time, space))
    (0, .initial)

def ptoLoop (pto : PTOStatus) (rtt : RTT) (hs : HandshakeStatus)
    (issuers : PerSpace PacketNumberIssuer) :
    List PacketNumberSpace → Int → Int × Option PacketNumberSpace → Int × Option PacketNumberSpace
  | [], _, best => best
  | space :: rest, duration, (timeout, best) =>
    if (issuers.get space).noAckElicitingInFlight then
      ptoLoop pto rtt hs issuers rest duration (timeout, best)
    else if space = .application ∧ !hs.handshakeConfirmed then (timeout, best)
    else
      let duration := if space = .application then
        (duration + rtt.maxAckDelay * pto.ptoExponent).bmod (2 ^ 64) else duration
      let time := (issuers.get space).lastAckElicitingPacketSentTime + duration
      if timeout = invalid ∨ time < timeout then
        ptoLoop pto rtt hs issuers rest duration (time, some space)
      else ptoLoop pto rtt hs issuers rest duration (timeout, best)

def getPtoAndSpace (config : Config) (now : Int) (hs : HandshakeStatus) (pto : PTOStatus)
    (rtt : RTT) (issuers : PerSpace PacketNumberIssuer) : Int × Option PacketNumberSpace :=
  let duration := pto.probeTimeoutDuration config rtt
  if duration < 0 then (invalid, some .initial)
  else if noAckElicitingInFlight issuers then
    if hs.peerCompletedAddressValidation then (invalid, some .initial)
    else if hs.handshakePacketIsSent then (now + duration, some .handshake)
    else (now + duration, some .initial)
  else ptoLoop pto rtt hs issuers [.initial, .handshake, .application] duration (invalid, none)

def resetLossTime (space : PacketNumberSpace) : LossTimer :=
  { loss with lossTime := loss.lossTime.set 0 space }

def updateLossTime (space : PacketNumberSpace) (time : Int) : LossTimer :=
  if loss.lossTime.get space = 0 ∨ time < loss.lossTime.get space then
    { loss with lossTime := loss.lossTime.set time space }
  else loss

def currentSpace : Option PacketNumberSpace :=
  match loss.state with
  | .waitForLoss space => some space
  | .waitForPto space => space
  | .noTimer | .atAntiAmplificationLimit => none

/-- `set_loss_detection_timer`, with the deadline of the ping timer. -/
def setLossDetectionTimer (config : Config) (now : Int) (pto : PTOStatus) (rtt : RTT)
    (hs : HandshakeStatus) (issuers : PerSpace PacketNumberIssuer) (ping : Int) : LossTimer × Int :=
  let setPing := if config.pingDuration ≠ 0 then
    timerDeadline (now + config.toClockGranularity config.pingDuration) else ping
  let (earliest, space) := loss.getLossTimeAndSpace
  if earliest ≠ 0 then
    ({ loss with deadline := timerDeadline earliest, state := .waitForLoss space }, invalid)
  else if hs.isAtAntiAmplificationLimit then
    ({ loss with deadline := invalid, state := .atAntiAmplificationLimit }, invalid)
  else if noAckElicitingInFlight issuers && hs.peerCompletedAddressValidation then
    ({ loss with deadline := invalid, state := .noTimer }, setPing)
  else
    let (timeout, space) := getPtoAndSpace config now hs pto rtt issuers
    if timeout = invalid then ({ loss with deadline := invalid, state := .noTimer }, setPing)
    else ({ loss with deadline := timerDeadline timeout, state := .waitForPto space }, ping)

/-- The timers that calls reach; `on_packet_number_space_discard` is a reset of one loss time. -/
inductive Reached : LossTimer → Prop
  | reset : Reached {}
  | updateLossTime {timer} (space) {time : Int} (valid : 0 ≤ time) :
    Reached timer → Reached (timer.updateLossTime space time)
  | resetLossTime {timer} (space) : Reached timer → Reached (timer.resetLossTime space)
  | setLossDetectionTimer {timer} (config now pto rtt hs issuers ping) :
    Reached timer → Reached (timer.setLossDetectionTimer config now pto rtt hs issuers ping).1

theorem lossTime_setLossDetectionTimer (config now pto rtt hs issuers ping) :
    (loss.setLossDetectionTimer config now pto rtt hs issuers ping).1.lossTime = loss.lossTime := by
  simp only [setLossDetectionTimer]
  split_ifs <;> rfl

variable {loss}

theorem Reached.lossTime_nonneg (reached : Reached loss) (space : PacketNumberSpace) :
    0 ≤ loss.lossTime.get space := by
  induction reached with
  | reset => cases space <;> exact Int.le_refl 0
  | updateLossTime updated valid _ ih =>
    rw [LossTimer.updateLossTime]
    grind [PerSpace.get_set]
  | resetLossTime cleared _ ih =>
    rw [LossTimer.resetLossTime]
    grind [PerSpace.get_set]
  | setLossDetectionTimer _ _ _ _ _ _ _ _ ih => rwa [lossTime_setLossDetectionTimer]

/-- No unset loss time hides the earliest one from a scan that takes zero for an earlier time. -/
def EarliestInSight (times : PerSpace Int) : Prop :=
  (times.application = 0 → times.initial = 0 ∧ times.handshake = 0) ∧
    (times.handshake = 0 → times.initial ≠ 0 → times.application ≤ times.initial)

theorem getLossTimeAndSpace_spec (nonneg : ∀ space, 0 ≤ loss.lossTime.get space) :
    let (earliest, space) := loss.getLossTimeAndSpace
    earliest = loss.lossTime.get space ∧
      ((∀ other, loss.lossTime.get other ≠ 0 → earliest ≠ 0 ∧ earliest ≤ loss.lossTime.get other) ↔
        EarliestInSight loss.lossTime) := by
  have initial := nonneg .initial
  have handshake := nonneg .handshake
  have application := nonneg .application
  have each {P : PacketNumberSpace → Prop} :
      (∀ other, P other) ↔ P .initial ∧ P .handshake ∧ P .application :=
    ⟨fun all => ⟨all _, all _, all _⟩, fun ⟨_, _, _⟩ other => by cases other <;> assumption⟩
  simp only [EarliestInSight, each, getLossTimeAndSpace, List.foldl, true_or, PerSpace.get] at *
  split_ifs <;> exact ⟨rfl, by omega⟩

/-- The timer waits exactly for the smallest time that is set, if and only if the earliest loss time
is in sight. -/
theorem waits_for_earliest_loss (reached : Reached loss) (config : Config) (now : Int)
    (pto : PTOStatus) (rtt : RTT) (hs : HandshakeStatus) (issuers : PerSpace PacketNumberIssuer)
    (ping : Int) :
    let armed := (loss.setLossDetectionTimer config now pto rtt hs issuers ping).1
    ((armed.state.lossSpace.isSome ↔ ∃ space, loss.lossTime.get space ≠ 0) ∧
      ∀ space ∈ armed.state.lossSpace, armed.deadline = loss.lossTime.get space ∧
        armed.deadline ≠ 0 ∧
        ∀ other, loss.lossTime.get other ≠ 0 → armed.deadline ≤ loss.lossTime.get other) ↔
      EarliestInSight loss.lossTime := by
  have spec := getLossTimeAndSpace_spec reached.lossTime_nonneg
  simp only [setLossDetectionTimer]
  obtain ⟨⟨_, space⟩, scanned⟩ : ∃ all, loss.getLossTimeAndSpace = all := ⟨_, rfl⟩
  simp only [scanned] at spec ⊢
  obtain ⟨rfl, least_iff⟩ := spec
  rw [← least_iff]
  by_cases unset : loss.lossTime.get space = 0
  · rw [if_neg (not_not.2 unset)]
    have unarmed : (∀ other, loss.lossTime.get other ≠ 0 → loss.lossTime.get space ≠ 0 ∧
        loss.lossTime.get space ≤ loss.lossTime.get other) ↔
        ¬ ∃ other, loss.lossTime.get other ≠ 0 :=
      ⟨fun least ⟨other, set⟩ => (least _ set).1 unset, fun none_set other set =>
        absurd ⟨other, set⟩ none_set⟩
    rw [unarmed]
    split_ifs <;> simp [LossTimerState.lossSpace]
  · have valid := reached.lossTime_nonneg space
    rw [if_pos unset]
    simp only [LossTimerState.lossSpace, Option.mem_some_iff, forall_eq', timerDeadline,
      if_neg (not_lt.2 valid)]
    exact ⟨fun waits other set => ⟨unset, waits.2.2.2 other set⟩, fun least =>
      ⟨iff_of_true rfl ⟨space, unset⟩, trivial, unset, fun other set => (least _ set).2⟩⟩

/-- The Handshake space has the earlier one of two loss times. -/
theorem waits_for_handshake_loss :
    let loss := (LossTimer.updateLossTime {} .application 7).updateLossTime .handshake 5
    let armed := (loss.setLossDetectionTimer {} 3 {} (.reset {}) { isServer := false } (.all {})
      invalid).1
    armed.state = .waitForLoss .handshake ∧ armed.deadline = 5 ∧
      (armed.state.lossSpace.isSome ↔ ∃ space, loss.lossTime.get space ≠ 0) :=
  ⟨rfl, rfl, ((waits_for_earliest_loss (.updateLossTime _ (by decide) (.updateLossTime _ (by decide)
    .reset)) {} 3 {} _ _ _ _).2 ⟨by decide, by decide⟩).1⟩

/-- The loss time of the Initial space alone is lost in the scan: no timer waits for it. -/
theorem initial_loss_out_of_sight :
    let loss := LossTimer.updateLossTime {} .initial 5
    Reached loss ∧ loss.lossTime.get .initial = 5 ∧
      (loss.setLossDetectionTimer {} 3 {} (.reset {}) { isServer := false, handshakeConfirmed := true }
        (.all {}) invalid).1.state = .noTimer :=
  ⟨.updateLossTime _ (by decide) .reset, rfl, rfl⟩

end LossTimer

end Futils.Quic.Status
