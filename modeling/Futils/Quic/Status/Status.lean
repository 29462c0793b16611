import Futils.Quic.Frame.Ack
import Futils.Quic.Status.LossTimer

/-!
# The status of a connection

`Status` ties the packet number issuers, the round-trip time, congestion control and the loss timer
together.  The history of sent packets calls back into it for every packet that is acknowledged or
examined for loss; `AckScan` and `LossScan` are the local variables of the two calls.
-/

namespace Futils.Quic

open Quic.Frame

structure Status (Alg : Type) where
  config : Status.Config := {}
  hs : Status.HandshakeStatus
  payloadSize : Nat
  peerAckDelayExponent : Nat := 3
  rtt : Status.RTT
  cong : Status.Congestion Alg
  loss : Status.LossTimer := {}
  pto : Status.PTOStatus := {}
  pingTimer : Int := Status.invalid
  issuers : Status.PerSpace Status.PacketNumberIssuer := .all {}
  /-- `largest_one_rtt_acked_sent_ack` of the `SentAckTracker`. -/
  largestOneRttAckedSentAck : Nat := 0
  deriving DecidableEq

namespace Status

inductive LostReason
  | notLost
  | timeThreshold
  | packetOrderThreshold
  | invalid
  deriving DecidableEq

/-- Why a packet is lost, when it is: both thresholds only apply up to the largest acknowledged
packet number. -/
def lostReason (config : Config) (largestAck : Nat) (timeBeforeIsLost : Int) (pn : Nat)
    (timeSent : Int) : LostReason :=
  if largestAck < pn then .notLost
  else if timeSent ≤ timeBeforeIsLost then .timeThreshold
  else if add64 pn config.packetOrderThreshold ≤ largestAck then .packetOrderThreshold
  else .notLost

def lossDelay (config : Config) (rtt : RTT) : Int :=
  if config.timeThreshold.den = 0 then invalid
  else
    let k := config.timeThreshold.num * min rtt.smoothedRtt rtt.latestRtt
    let candidate := if config.timeThreshold.den = 8 then k / 8 else k.tdiv config.timeThreshold.den
    if candidate < 0 then invalid else max candidate (config.toClockGranularity 1)

/-- `is_ack`, without its bookkeeping: the packet number is in one of the ranges, which are in
descending order. -/
def isAck (ranges : List ACKRange) (pn : Nat) : Bool :=
  match ranges.head?, ranges.getLast? with
  | some first, some last =>
    if pn < last.smallest ∨ first.largest < pn then false
    else if 1 < ranges.length then
      !(ranges.reverse.find? fun range => pn ≤ range.largest).any fun range => pn < range.smallest
    else true
  | _, _ => false

def decodeAckDelay (base exponent : Nat) : Nat := base * 2 ^ exponent

variable {Alg : Type} (control : Algorithm Alg) (status : Status Alg)

def reset (config : Config) (alg : Alg) (isServer : Bool) (maxUdpPayload : Nat) : Status Alg where
  config := config
  hs := { isServer := isServer }
  payloadSize := maxUdpPayload
  rtt := .reset config
  cong := .reset config maxUdpPayload alg

def setLossDetectionTimer (now : Int) : Status Alg :=
  let (loss, ping) := status.loss.setLossDetectionTimer status.config now status.pto status.rtt
    status.hs status.issuers status.pingTimer
  { status with loss := loss, pingTimer := ping }

def onPtoTimeout : Status Alg :=
  { status with
    pto :=
      if noAckElicitingInFlight status.issuers && !status.hs.peerCompletedAddressValidation then
        if status.hs.handshakePacketIsSent then status.pto.onPtoNoFlight .handshake
        else status.pto.onPtoNoFlight .initial
      else status.pto.onPtoTimeout status.loss.currentSpace }

def modifyIssuer (space : PacketNumberSpace) (f : PacketNumberIssuer → PacketNumberIssuer) :
    Status Alg :=
  { status with issuers := status.issuers.set (f (status.issuers.get space)) space }

/-- `on_packet_sent`: the packet numbers that were skipped. -/
def onPacketSent (now : Int) (space : PacketNumberSpace) (pn sentBytes : Nat)
    (pstatus : PacketStatus) : Except Error (Status Alg × Int × Int) :=
  match (status.issuers.get space).onPacketSent now pn pstatus with
  | .error err => .error err
  | .ok (issuer, range) =>
    let status := { status with
      issuers := status.issuers.set issuer space
      hs := status.hs.onPacketSent space sentBytes
      pto := status.pto.onPacketSent pstatus.isAckEliciting }
    if pstatus.isByteCounted then
      .ok (setLossDetectionTimer
        { status with cong := status.cong.onPacketSent control sentBytes now } now, range)
    else .ok (status, range)

/-- The local variables of `detect_and_remove_lost_packet`. -/
structure LossScan (Alg : Type) where
  status : Status Alg
  sentTimeOfLastLoss : Int := 0
  callLostOnce : Bool := false
  callCongCbOnce : Bool := false

def LossScan.isLost (scan : LossScan Alg) (space : PacketNumberSpace) (delay : Int)
    (largestAck : Nat) (timeBeforeIsLost : Int) (pn sentBytes : Nat) (timeSent : Int)
    (pstatus : PacketStatus) : LossScan Alg × LostReason :=
  if scan.callCongCbOnce then (scan, .invalid)
  else
    match lostReason scan.status.config largestAck timeBeforeIsLost pn timeSent with
    | .notLost =>
      if largestAck < pn then (scan, .notLost)
      else
        ({ scan with status := { scan.status with
            loss := scan.status.loss.updateLossTime space (timeSent + delay) } }, .notLost)
    | reason =>
      let (cong, last) := scan.status.cong.onPacketLost scan.sentTimeOfLastLoss sentBytes timeSent
        pstatus
      ({ scan with
        status := { scan.status.modifyIssuer space fun issuer =>
          issuer.decrementAckElicitingInFlight pstatus with cong := cong }
        sentTimeOfLastLoss := last
        callLostOnce := true }, reason)

/-- `congestion_callback`, with a callback that ignores persistent congestion. -/
def LossScan.congestionCallback (scan : LossScan Alg) : LossScan Alg :=
  if scan.callCongCbOnce || !scan.callLostOnce then scan
  else
    { scan with
      status := { scan.status with
        cong := scan.status.cong.onPacketsLost control scan.sentTimeOfLastLoss scan.status.config
          scan.status.payloadSize }
      callCongCbOnce := true }

/-- The local variables of `on_ack_received`. -/
structure AckScan (Alg : Type) where
  status : Status Alg
  hasAckEliciting : Bool := false
  largestRemoved : Nat := max64
  largestRemovedSentTime : Int := 0
  ackCount : Nat := 0

/-- The bookkeeping of `is_ack` for an acknowledged packet. -/
def AckScan.onAck (scan : AckScan Alg) (space : PacketNumberSpace) (pn : Nat) (timeSent : Int)
    (pstatus : PacketStatus) (largestSentAck : Nat) : AckScan Alg :=
  let later := scan.largestRemoved = max64 ∨ scan.largestRemoved < pn
  { status := { scan.status.modifyIssuer space fun issuer =>
      issuer.decrementAckElicitingInFlight pstatus with
      largestOneRttAckedSentAck :=
        if space = .application ∧ largestSentAck ≠ max64 then
          max scan.status.largestOneRttAckedSentAck (largestSentAck + 1)
        else scan.status.largestOneRttAckedSentAck }
    hasAckEliciting := scan.hasAckEliciting || pstatus.isAckEliciting
    largestRemoved := if later then pn else scan.largestRemoved
    largestRemovedSentTime := if later then timeSent else scan.largestRemovedSentTime
    ackCount := scan.ackCount + 1 }

/-- The round-trip time is sampled when the largest acknowledged packet is among the removed and one
is ack-eliciting. -/
def AckScan.sampleRtt (scan : AckScan Alg) (now : Int) (largestAckPn ackDelayWire : Nat) :
    Option RTT :=
  let status := scan.status
  if scan.largestRemoved = largestAckPn ∧ scan.hasAckEliciting then
    status.rtt.sampleRtt now scan.largestRemovedSentTime
      (status.config.toClockGranularity (decodeAckDelay ackDelayWire status.peerAckDelayExponent))
  else some status.rtt

def processEcn (space : PacketNumberSpace) (ecn : ECNCounts) (timeSent : Int) : Status Alg :=
  let (issuer, updated) := (status.issuers.get space).isEcnCeUpdated ecn.ecnCe
  let status := { status with issuers := status.issuers.set issuer space }
  if updated then
    { status with
      cong := status.cong.onCongestionEvent control status.config status.payloadSize timeSent }
  else status

def onDatagramReceived (now : Int) (recvBytes : Nat) : Status Alg :=
  let next := { status with hs := status.hs.onDatagramReceived recvBytes }
  if status.hs.isAtAntiAmplificationLimit && next.hs.isAtAntiAmplificationLimit then
    next.setLossDetectionTimer now
  else next

def onHandshakeConfirmed : Status Alg :=
  { status with hs := { status.hs with handshakeConfirmed := true } }

def onHandshakeComplete : Status Alg :=
  let next := { status with hs := { status.hs with handshakeComplete := true } }
  if next.hs.isServer then next.onHandshakeConfirmed else next

/-- `on_transport_parameter_received`, without the idle timer. -/
def onTransportParameterReceived (maxAckDelay : Int) (ackDelayExponent : Nat) : Status Alg :=
  { status with
    rtt := status.rtt.applyMaxAckDelay (status.config.toClockGranularity maxAckDelay)
    peerAckDelayExponent := ackDelayExponent }

def onPayloadSizeUpdate (size : Nat) : Status Alg :=
  if size < status.payloadSize then status
  else
    { status with
      payloadSize := size
      cong := status.cong.onUpdateMaxUdpPayloadSize status.config status.payloadSize size }

end Status

end Futils.Quic
