import Futils.Quic.Status.Status

/-!
# The history of sent packets

`SentPacketHistory` keeps every packet that was sent and neither acknowledged nor lost, in one map
per packet number space.  A map is a list of entries with distinct keys, in the order in which the
map is iterated.
-/

namespace Futils.Quic.Ack

open Quic.Frame Status

structure SentPacket where
  status : PacketStatus := {}
  packetNumber : Nat := 0
  sentBytes : Nat := 0
  timeSent : Int := Status.invalid
  largestAck : Nat := max64
  deriving DecidableEq

/-- One map of packet numbers to packets. -/
abbrev SentPackets := List (Nat × SentPacket)

/-- `try_emplace`; it fails when the key is there. -/
def tryEmplace (packets : SentPackets) (key : Nat) (packet : SentPacket) : Option SentPackets :=
  if packets.any fun entry => entry.1 = key then none else some (packets ++ [(key, packet)])

/-- The loop of `on_packet_sent` over the skipped packet numbers, `count` of them from `first` on. -/
def registerSkipped (timeSent : Int) : Nat → Nat → SentPackets → Option SentPackets
  | _, 0, packets => some packets
  | first, count + 1, packets =>
    match tryEmplace packets first
      { status := (PacketStatus.ofFrames []).setSkipped, timeSent := timeSent } with
    | none => none
    | some packets => registerSkipped timeSent (first + 1) count packets

variable {Alg : Type} (control : Algorithm Alg)

/-- The loop of `remove_acked`: the packets left, the acknowledged ones, and whether no skipped
packet number was acknowledged. -/
def removeAcked (space : PacketNumberSpace) (ranges : List ACKRange) :
    SentPackets → AckScan Alg → SentPackets × List SentPacket × AckScan Alg × Bool
  | [], scan => ([], [], scan, true)
  | (key, sent) :: rest, scan =>
    if isAck ranges sent.packetNumber then
      let scan := scan.onAck space sent.packetNumber sent.timeSent sent.status sent.largestAck
      if sent.status.isSkipped then ((key, sent) :: rest, [], scan, false)
      else
        let (kept, acked, scan, ok) := removeAcked space ranges rest scan
        (kept, sent :: acked, scan, ok)
    else
      let (kept, acked, scan, ok) := removeAcked space ranges rest scan
      ((key, sent) :: kept, acked, scan, ok)

/-- The loop of `remove_lost_callback`: the packets left, the lost ones, and whether every answer
of `is_lost` was valid. -/
def removeLost (space : PacketNumberSpace) (delay : Int) (largestAck : Nat)
    (timeBeforeIsLost : Int) :
    SentPackets → LossScan Alg → SentPackets × List SentPacket × LossScan Alg × Bool
  | [], scan => ([], [], scan, true)
  | (key, sent) :: rest, scan =>
    match scan.isLost space delay largestAck timeBeforeIsLost sent.packetNumber sent.sentBytes
      sent.timeSent sent.status with
    | (scan, .notLost) =>
      let (kept, lost, scan, ok) :=
        removeLost space delay largestAck timeBeforeIsLost rest scan
      ((key, sent) :: kept, lost, scan, ok)
    | (scan, .invalid) => ((key, sent) :: rest, [], scan, false)
    | (scan, _) =>
      let (kept, lost, scan, ok) :=
        removeLost space delay largestAck timeBeforeIsLost rest scan
      (kept, sent :: lost, scan, ok)

/-- A status, the history next to it and the answer of a call. -/
structure Outcome (Alg : Type) where
  status : Status Alg
  packets : PerSpace SentPackets
  acked : List SentPacket := []
  lost : List SentPacket := []
  error : Option Error := none

variable (status : Status Alg) (packets : PerSpace SentPackets) (now : Int)

def onPacketSent (space : PacketNumberSpace) (sent : SentPacket) : Outcome Alg :=
  let sent := { sent with timeSent := now }
  match status.onPacketSent control now space sent.packetNumber sent.sentBytes sent.status with
  | .error err => { status := status, packets := packets, error := some err }
  | .ok (status, first, last) =>
    match registerSkipped now first.toNat (last - first).toNat (packets.get space) with
    | none => { status := status, packets := packets, error := some (.quic
        { msg := "failed to register skipped packet number. already registered?" }) }
    | some registered =>
      match tryEmplace registered sent.packetNumber sent with
      | none => { status := status, packets := packets.set registered space, error := some (.quic
          { msg := "failed to register sent packet number. already registered?" }) }
      | some registered => { status := status, packets := packets.set registered space }

/-- `detect_and_remove_lost_packet`, and whether it succeeded. -/
def detectAndRemoveLostPacket (space : PacketNumberSpace) (mustLost : Bool) : Outcome Alg × Bool :=
  let delay := lossDelay status.config status.rtt
  if delay < 0 then ({ status := status, packets := packets }, false)
  else
    let largestAck := (status.issuers.get space).largestAckedPacket
    let status := { status with loss := status.loss.resetLossTime space }
    let (kept, lost, scan, ok) := removeLost space delay largestAck (now - delay)
      (packets.get space) { status := status }
    let packets := packets.set kept space
    if !ok then
      ({ status := scan.status, packets := packets, lost := lost, error := some (.quic
        { msg := "internal state error (loss detection). library bug!!" }) }, false)
    else
      ({ status := (scan.congestionCallback control).status, packets := packets, lost := lost },
        !mustLost || scan.callLostOnce)

/-- The error of a call whose status reported a failure. -/
def internalError : Error := .quic { msg := "internal state error. library bug!!" }

/-- The status that loss detection starts from, with the sampled round-trip time. -/
def sampledStatus (scan : AckScan Alg) (rtt : RTT) (space : PacketNumberSpace) (frame : ACKFrame) :
    Status Alg :=
  let status := { scan.status with rtt := rtt }
  if frame.ecn then
    status.processEcn control space frame.ecnCounts scan.largestRemovedSentTime
  else status

/-- `on_ack_received`, behind the removal of the acknowledged packets `acked`. -/
def afterRemoveAcked (space : PacketNumberSpace) (frame : ACKFrame) (largestAckPn : Nat)
    (acked : List SentPacket) (scan : AckScan Alg) (isFlowControlLimited : Bool) : Outcome Alg :=
  match scan.sampleRtt now largestAckPn frame.ackDelay with
  | none => { status := scan.status, packets := packets, acked := acked, error := some internalError }
  | some rtt =>
    let (detected, ok) := detectAndRemoveLostPacket control (sampledStatus control scan rtt space frame)
      packets now space false
    if !ok then
      { detected with acked := acked, error := some (detected.error.getD internalError) }
    else
      let cong := acked.foldl (fun cong sent =>
        cong.onPacketAck control detected.status.config detected.status.payloadSize sent.sentBytes
          sent.timeSent sent.status isFlowControlLimited) detected.status.cong
      let status := { detected.status with
        cong := cong
        pto := detected.status.pto.onAckReceived detected.status.hs }
      { detected with
        status := status.setLossDetectionTimer now
        acked := acked
        error := if scan.ackCount ≠ acked.length then some internalError else none }

def onAckReceived (space : PacketNumberSpace) (frame : ACKFrame) (isFlowControlLimited : Bool) :
    Outcome Alg :=
  match convertFromACKFrame frame with
  | (_, false) => { status := status, packets := packets, error := some (.quic
      { msg := "ACK range validation failed", transportError := .frameEncodingError,
        frameType := frame.type }) }
  | (ranges, true) =>
    let status := { status with hs := status.hs.onAckReceived space }
    match ranges with
    | [] => { status := status, packets := packets, error := some internalError }
    | first :: _ =>
      let status := status.modifyIssuer space fun issuer => issuer.onAckReceived first.largest
      let (kept, acked, scan, ok) := removeAcked space ranges (packets.get space)
        { status := status }
      let packets := packets.set kept space
      if !ok then
        { status := scan.status, packets := packets, acked := acked, error := some (.quic
          { msg := "skipped packet number is acknoledged",
            transportError := .protocolViolation, frameType := frame.type }) }
      else
        afterRemoveAcked control packets now space frame first.largest acked scan
          isFlowControlLimited

def maybeLossDetectionTimeout : Outcome Alg :=
  if !timerTimeout status.loss.deadline now then { status := status, packets := packets }
  else
    match status.loss.state with
    | .waitForLoss space =>
      let (detected, ok) := detectAndRemoveLostPacket control status packets now space true
      if !ok then { detected with error := some (detected.error.getD internalError) }
      else { detected with status := detected.status.setLossDetectionTimer now }
    | .waitForPto _ =>
      { status := status.onPtoTimeout.setLossDetectionTimer now, packets := packets }
    | .noTimer | .atAntiAmplificationLimit =>
      { status := status, packets := packets, error := some internalError }

def onPacketNumberSpaceDiscarded (space : PacketNumberSpace) : Outcome Alg :=
  if space = .application then { status := status, packets := packets }
  else
    let cong := (packets.get space).foldl (fun cong entry =>
      cong.onPacketNumberSpaceDiscard entry.2.sentBytes entry.2.status) status.cong
    let status := { status with
      cong := cong
      issuers := status.issuers.set (status.issuers.get space).onPacketNumberSpaceDiscard space
      loss := status.loss.resetLossTime space
      pto := {} }
    { status := status.setLossDetectionTimer now
      packets := packets.set [] space
      lost := (packets.get space).map Prod.snd }

def onRetryReceived : Outcome Alg :=
  let initial := (packets.initial.map Prod.snd).filter fun sent => !sent.status.isSkipped
  let firstSentTime := initial.foldl
    (fun first sent => if first < 0 then sent.timeSent else first) Status.invalid
  let (pto, rtt) := status.pto.onRetryReceived status.rtt now firstSentTime
  { status := { status with
      hs := { status.hs with hasReceivedRetry := true }
      pto := pto
      rtt := rtt
      loss := {}
      issuers := ⟨status.issuers.initial.onRetryReceived, status.issuers.handshake,
        status.issuers.application.onRetryReceived⟩ }
    packets := ⟨[], packets.handshake, []⟩
    lost := initial ++ packets.application.map Prod.snd }

end Futils.Quic.Ack
