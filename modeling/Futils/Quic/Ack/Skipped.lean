import Futils.Quic.Ack.InFlight

/-!
# Skipped packet numbers and exact acknowledgement

A packet number that is skipped on purpose is recorded next to the packets that were sent, so that
an ACK frame that covers it shows a peer that guesses.  The record of a skipped number keeps the
number as the key of the map only: its own field stays zero, and the scan of an ACK frame reads the
field.  `Recorded` says what the fields hold in every reachable history; a scan then answers by
packet number zero, and by the number itself exactly where the two agree.
-/

namespace Futils.Quic.Ack

open Lib.Machine Quic.Frame Status List PerSpace Recovery

section Ranges

variable {prev : ACKRange} {ranges : List ACKRange}

/-- Ranges whose two ends fall from each one to the next; they may overlap. -/
structure Falling (ranges : List ACKRange) : Prop where
  ordered : ∀ range ∈ ranges, range.smallest ≤ range.largest
  falls : ranges.Pairwise fun upper lower =>
    lower.smallest < upper.smallest ∧ lower.largest < upper.largest

theorem falling_of_isSortedBehind (prev_ordered : prev.smallest ≤ prev.largest)
    (sorted : isSortedBehind prev ranges) : Falling (prev :: ranges) := by
  induction ranges generalizing prev with
  | nil => exact ⟨by simpa using prev_ordered, pairwise_singleton ..⟩
  | cons range rest ih =>
    rw [isSortedBehind] at sorted
    split at sorted
    · cases sorted
    split at sorted
    · cases sorted
    have falling := ih (by omega) sorted
    refine ⟨forall_mem_cons.2 ⟨prev_ordered, falling.ordered⟩,
      pairwise_cons.2 ⟨forall_mem_cons.2 ⟨by omega, fun lower member => ?_⟩,
        falling.falls⟩⟩
    have := (pairwise_cons.1 falling.falls).1 _ member
    omega

theorem falling_of_isSortedAckRanges (sorted : isSortedAckRanges ranges) :
    Falling ranges := by
  cases ranges with
  | nil => cases sorted
  | cons range rest =>
    rw [isSortedAckRanges] at sorted
    split at sorted
    · cases sorted
    exact falling_of_isSortedBehind (by omega) sorted

/-- The search of `is_ack` from the lowest range on decides membership. -/
theorem Falling.find?_reverse (falling : Falling ranges) {pn : Nat} {found : ACKRange}
    (first_reaching : ranges.reverse.find? (fun range => pn ≤ range.largest) = some found) :
    Acknowledged ranges pn ↔ found.smallest ≤ pn := by
  obtain ⟨reaches, _, _, split_eq, below⟩ :=
    find?_eq_some_iff_append.1 first_reaching
  have found_mem : found ∈ ranges := by
    rw [← mem_reverse, split_eq]
    simp
  constructor
  · rintro ⟨range, member, from_smallest, to_largest⟩
    rw [← mem_reverse, split_eq, mem_append, mem_cons] at member
    rcases member with before | rfl | after
    · have := below _ before
      simp only [Bool.not_eq_true', decide_eq_false_iff_not] at this
      exact absurd to_largest this
    · exact from_smallest
    · have rising := pairwise_reverse.2 falling.falls
      rw [split_eq] at rising
      have := (pairwise_cons.1 (pairwise_append.1 rising).2.1).1 _ after
      omega
  · intro starts
    exact ⟨found, found_mem, starts, by simpa using reaches⟩

/-- On ranges that were accepted, `is_ack` is membership. -/
theorem isAck_iff (sorted : isSortedAckRanges ranges) {pn : Nat} :
    isAck ranges pn ↔ Acknowledged ranges pn := by
  have falling := falling_of_isSortedAckRanges sorted
  cases ranges with
  | nil => cases sorted
  | cons first rest =>
    obtain ⟨_, last, last_eq⟩ := eq_nil_or_concat' (first :: rest) |>.resolve_left (by simp)
    have highest : ∀ range ∈ first :: rest, range.largest ≤ first.largest :=
      forall_mem_cons.2 ⟨le_rfl, fun range member =>
        le_of_lt ((pairwise_cons.1 falling.falls).1 _ member).2⟩
    have lowest : ∀ range ∈ first :: rest, last.smallest ≤ range.smallest := by
      have falls := falling.falls
      rw [last_eq] at falls ⊢
      intro range member
      rcases mem_snoc.1 member with earlier | rfl
      · exact le_of_lt ((pairwise_append.1 falls).2.2 _ earlier _ (by simp)).1
      · exact le_rfl
    have getLast_eq : (first :: rest).getLast? = some last := by
      rw [last_eq]
      simp
    simp only [isAck, head?_cons, getLast_eq]
    by_cases outside : pn < last.smallest ∨ first.largest < pn
    · rw [if_pos outside]
      refine iff_of_false (by simp) ?_
      rintro ⟨range, member, from_smallest, to_largest⟩
      have := highest _ member
      have := lowest _ member
      omega
    rw [if_neg outside]
    split
    case isTrue =>
      cases search : (first :: rest).reverse.find? fun range => pn ≤ range.largest with
      | none =>
        have := find?_eq_none.1 search first (by simp)
        simp only [decide_eq_true_eq] at this
        omega
      | some found =>
        rw [falling.find?_reverse search]
        simp
    case isFalse short =>
      have rest_nil : rest = [] := by
        rw [length_cons] at short
        exact eq_nil_of_length_eq_zero (by omega)
      subst rest_nil
      have last_first : last = first := by simpa using getLast_eq.symm
      subst last_first
      simp
      omega

end Ranges

section Scan

variable {Alg : Type} {space : PacketNumberSpace} {ranges : List ACKRange}

/-- The scan fails at a skipped entry whose packet number field is in the ranges, and otherwise
takes the entries whose field is. -/
theorem removeAcked_exact {packets : SentPackets} {scan : AckScan Alg} :
    let (_, acked, _, ok) := removeAcked space ranges packets scan
    (ok ↔ ∀ entry ∈ packets, isAck ranges entry.2.packetNumber →
      entry.2.status.isSkipped = false) ∧
      (ok → acked =
        (packets.filter fun entry => isAck ranges entry.2.packetNumber).map Prod.snd) := by
  fun_induction removeAcked _ _ packets scan with
  | case1 => exact ⟨by simp, fun _ => rfl⟩
  | case2 key sent rest scan acked_here _ skipped =>
    refine ⟨iff_of_false (by simp) fun all => ?_, by simp⟩
    have := all _ mem_cons_self acked_here
    simp [skipped] at this
  | case3 key sent rest scan acked_here _ skipped kept acked last ok rest_eq ih =>
    simp only [rest_eq] at ih ⊢
    rw [forall_mem_cons, filter_cons_of_pos (by simpa using acked_here), map_cons]
    exact ⟨ih.1.trans ⟨fun all => ⟨fun _ => by simpa using skipped, all⟩, And.right⟩,
      fun ok_eq => by rw [ih.2 ok_eq]⟩
  | case4 key sent rest scan not_acked kept acked last ok rest_eq ih =>
    simp only [rest_eq] at ih ⊢
    rw [forall_mem_cons, filter_cons_of_neg (by simpa using not_acked)]
    exact ⟨ih.1.trans ⟨fun all => ⟨fun taken => absurd taken not_acked, all⟩, And.right⟩, ih.2⟩

end Scan

section Shrinking

/-- Recorded packets were only removed, and nothing was sent. -/
structure Shrinks {Alg : Type} (status next : Status Alg) (packets kept : PerSpace SentPackets) :
    Prop where
  subset : ∀ space, kept.get space ⊆ packets.get space
  highest_eq : ∀ space,
    (next.issuers.get space).highestSent = (status.issuers.get space).highestSent

variable {Alg : Type} {control : Algorithm Alg} {status next last : Status Alg}
  {packets kept fewer : PerSpace SentPackets} {space : PacketNumberSpace} {now : Int}

theorem Shrinks.refl : Shrinks status status packets packets :=
  ⟨fun _ => Subset.refl _, fun _ => rfl⟩

theorem Shrinks.trans (first : Shrinks status next packets kept)
    (second : Shrinks next last kept fewer) : Shrinks status last packets fewer :=
  ⟨fun _ => Subset.trans (second.subset _) (first.subset _),
    fun _ => (second.highest_eq _).trans (first.highest_eq _)⟩

/-- A change of the status that sends nothing. -/
theorem shrinks_of_highest (highest_eq : ∀ space,
    (next.issuers.get space).highestSent = (status.issuers.get space).highestSent) :
    Shrinks status next packets packets :=
  ⟨fun _ => Subset.refl _, highest_eq⟩

theorem shrinks_set {entries : SentPackets} (subset : entries ⊆ packets.get space)
    (highest_eq : ∀ space,
      (next.issuers.get space).highestSent = (status.issuers.get space).highestSent) :
    Shrinks status next packets (packets.set entries space) := by
  refine ⟨fun other => ?_, highest_eq⟩
  rw [get_set]
  split
  case isTrue same => exact same ▸ subset
  case isFalse => exact Subset.refl _

/-- Acknowledgements and losses only remove records. -/
theorem shrinks_preserved (space : PacketNumberSpace) :
    Preserved space fun next kept => Shrinks status next packets kept where
  aside shrinks _ same := shrinks.trans (shrinks_of_highest fun _ => (same _).highest_eq)
  told shrinks := shrinks.trans (shrinks_of_highest fun _ => rfl)
  take split_eq shrinks := shrinks.trans <| shrinks_set
    (split_eq ▸ ((sublist_cons_self _ _).append_left _).subset)
    fun _ => ((sameFlight_modifyIssuer _ fun issuer =>
      issuer.sameNumbers_decrement _).numbers _).highestSent_eq
  refuse _ _ shrinks := shrinks.trans <| shrinks_of_highest
    fun _ => ((sameFlight_modifyIssuer _ fun issuer =>
      issuer.sameNumbers_decrement _).numbers _).highestSent_eq

theorem detect_error {mustLost : Bool} :
    (detectAndRemoveLostPacket control status packets now space mustLost).1.error = none := by
  obtain unchanged | ⟨_, _, _, -, -, detected_eq⟩ := @detect_cases _ _ _
    (fun _ _ _ => True) _ _ now _ (fun _ => id) (fun _ => id) trivial
  · rw [unchanged]
  · rw [detected_eq]

def isProtocolViolation : Error → Bool
  | .quic error => error.transportError = .protocolViolation
  | .lib _ => false

/-- Behind the removal of the acknowledged packets, they are reported as they are, and no violation
is. -/
theorem afterRemoveAcked_answer {frame : ACKFrame} {largestAckPn : Nat} {acked : List SentPacket}
    {scan : AckScan Alg} {limited : Bool} :
    let outcome := afterRemoveAcked control packets now space frame largestAckPn acked scan limited
    outcome.acked = acked ∧ outcome.error.any isProtocolViolation = false := by
  simp only [afterRemoveAcked]
  split
  · exact ⟨rfl, rfl⟩
  split
  · rw [detect_error]
    exact ⟨rfl, rfl⟩
  · refine ⟨rfl, ?_⟩
    split <;> rfl

/-- What `on_ack_received` does with ranges that are accepted. -/
theorem onAckReceived_spec {frame : ACKFrame} {limited : Bool} :
    let ranges := (convertFromACKFrame frame).1
    let outcome := onAckReceived control status packets now space frame limited
    Shrinks status outcome.status packets outcome.packets ∧
      ((convertFromACKFrame frame).2 →
        if ∃ entry ∈ packets.get space, isAck ranges entry.2.packetNumber ∧
            entry.2.status.isSkipped then
          outcome.error.any isProtocolViolation
        else
          outcome.error.any isProtocolViolation = false ∧
          outcome.acked = ((packets.get space).filter fun entry =>
            isAck ranges entry.2.packetNumber).map Prod.snd ∧
          ∀ entry ∈ outcome.packets.get space, isAck ranges entry.2.packetNumber = false) := by
  refine ⟨(shrinks_preserved _).onAckReceived .refl, ?_⟩
  obtain ⟨⟨ranges, sorted⟩, converted⟩ : ∃ all, convertFromACKFrame frame = all := ⟨_, rfl⟩
  simp only [onAckReceived, converted]
  cases sorted with
  | false => simp
  | true =>
    simp only [forall_const]
    cases ranges with
    | nil => simp [convertFromACKFrame] at converted
    | cons first rest =>
      simp only
      generalize modifyIssuer { status with hs := status.hs.onAckReceived space } space
        (fun issuer => issuer.onAckReceived first.largest) = scanned at *
      have spec := @removeAcked_spec _ space (first :: rest) (packets.get space)
        { status := scanned }
      have exact := @removeAcked_exact _ space (first :: rest) (packets.get space)
        { status := scanned }
      obtain ⟨⟨kept, acked, last, ok⟩, removed⟩ : ∃ all, removeAcked space (first :: rest)
        (packets.get space) { status := scanned } = all := ⟨_, rfl⟩
      simp only [removed] at spec exact ⊢
      obtain ⟨-, -, -, kept_eq⟩ := spec
      obtain ⟨ok_iff, acked_eq⟩ := exact
      cases ok with
      | false =>
        rw [if_pos (by simpa using ok_iff)]
        simp [isProtocolViolation]
      | true =>
        obtain ⟨after_acked, after_error⟩ := @afterRemoveAcked_answer _ _ _ _ now _ _ _ _ _
        rw [if_neg (by simpa using ok_iff)]
        refine ⟨after_error, after_acked.trans (acked_eq rfl), fun entry member => ?_⟩
        have shrinks := @Preserved.afterRemoveAcked _ control _ _ _ now
          (shrinks_preserved space) frame first.largest acked last limited
          (.refl : Shrinks _ _ (packets.set kept space) _)
        have left := shrinks.subset _ member
        rw [get_set, if_pos rfl, kept_eq rfl, mem_filter] at left
        simpa using left.2

end Shrinking

section Recorded

/-- The record of a sent packet has its packet number, the record of a skipped number has zero. -/
structure Recorded {Alg : Type} (status : Status Alg) (packets : PerSpace SentPackets) : Prop where
  sent : ∀ space, Sent (status.issuers.get space) (packets.get space)
  highest_ge : ∀ space, -1 ≤ (status.issuers.get space).highestSent
  field_eq : ∀ space, ∀ entry ∈ packets.get space,
    entry.2.packetNumber = if entry.2.status.isSkipped then 0 else entry.1

variable {Alg : Type} {control : Algorithm Alg} {status next : Status Alg}
  {packets kept : PerSpace SentPackets} {space : PacketNumberSpace} {now : Int}

theorem recorded_reset {config : Config} {alg : Alg} {isServer : Bool} {maxUdpPayload : Nat} :
    Recorded (.reset config alg isServer maxUdpPayload) (.all []) := by
  refine ⟨fun space => ?_, fun space => ?_, fun space => ?_⟩
  · cases space <;> exact nofun
  · cases space <;> exact Int.le_refl _
  · cases space <;> exact nofun

theorem Recorded.shrink (recorded : Recorded status packets)
    (shrinks : Shrinks status next packets kept) : Recorded next kept := by
  refine ⟨fun other entry member => ?_, fun other => ?_, fun other entry member =>
    recorded.field_eq _ _ (shrinks.subset _ member)⟩
  · rw [shrinks.highest_eq]
    exact recorded.sent _ _ (shrinks.subset _ member)
  · rw [shrinks.highest_eq]
    exact recorded.highest_ge _

def isAlreadyRegistered : Error → Bool
  | .quic error => error.msg = "failed to register skipped packet number. already registered?" ||
      error.msg = "failed to register sent packet number. already registered?"
  | .lib _ => false

/-- Sending a packet registers the skipped numbers below it and the packet. -/
theorem Recorded.onPacketSent {sent : SentPacket} (recorded : Recorded status packets)
    (sent_status : sent.status.isSkipped = false) :
    let outcome := Ack.onPacketSent control status packets now space sent
    Recorded outcome.status outcome.packets ∧ outcome.error.any isAlreadyRegistered = false := by
  have cases := @onPacketSent_cases _ _ _ _ now sent control (recorded.sent _)
    (recorded.highest_ge space)
  split at cases
  case isTrue =>
    obtain ⟨_, outcome_eq⟩ := cases
    rw [outcome_eq]
    exact ⟨recorded, rfl⟩
  case isFalse =>
    obtain ⟨_, _, registered, outcome_eq⟩ := cases
    rw [outcome_eq]
    refine ⟨⟨registered.all_sent recorded.sent, fun other => ?_, fun other entry member => ?_⟩, rfl⟩
    · rw [registered.highestSent_eq]
      have started := recorded.highest_ge other
      split <;> omega
    · rw [get_set] at member
      split at member
      case isFalse => exact recorded.field_eq _ _ member
      case isTrue =>
        rcases mem_snoc.1 member with earlier | rfl
        · rcases mem_append.1 earlier with old | skip
          · exact recorded.field_eq _ _ old
          · rw [(registered.skips _ skip).2]
            rfl
        · simp [sent_status]

theorem Recorded.onRetryReceived (recorded : Recorded status packets) :
    let outcome := Ack.onRetryReceived status packets now
    Recorded outcome.status outcome.packets := by
  refine ⟨fun other => ?_, fun other => ?_, fun other => ?_⟩
  · cases other with
    | initial | application => intro entry member; cases member
    | handshake => exact recorded.sent .handshake
  · cases other with
    | initial | application => exact Int.le_refl _
    | handshake => exact recorded.highest_ge .handshake
  · cases other with
    | initial | application => intro entry member; cases member
    | handshake => exact recorded.field_eq .handshake

theorem discarded_shrinks :
    let outcome := onPacketNumberSpaceDiscarded status packets now space
    Shrinks status outcome.status packets outcome.packets := by
  rw [onPacketNumberSpaceDiscarded]
  split
  case isTrue => exact .refl
  case isFalse =>
    refine shrinks_set (nil_subset _) fun other => ?_
    simp only [issuers_setLossDetectionTimer, get_set]
    split
    case isTrue same => rw [same]; rfl
    case isFalse => rfl

theorem timeout_shrinks :
    let outcome := maybeLossDetectionTimeout control status packets now
    Shrinks status outcome.status packets outcome.packets :=
  Preserved.maybeLossDetectionTimeout shrinks_preserved .refl

end Recorded

namespace Recovery

variable {Alg : Type} (control : Algorithm Alg)

/-- Steps that neither send a packet nor receive a Retry only remove records. -/
theorem step_recorded (world : World Alg) (op : Op) (recorded : Recorded world.status world.packets)
    (sent_status : ∀ now space sent, op = .onPacketSent now space sent →
      sent.status.isSkipped = false) :
    Recorded (step control world op).1.status (step control world op).1.packets := by
  cases op with
  | onPacketSent now space sent => exact (recorded.onPacketSent (sent_status now space sent rfl)).1
  | onAckReceived now space frame limited => exact recorded.shrink onAckReceived_spec.1
  | maybeLossDetectionTimeout now => exact recorded.shrink timeout_shrinks
  | onPacketNumberSpaceDiscarded now space => exact recorded.shrink discarded_shrinks
  | onRetryReceived now => exact recorded.onRetryReceived
  | consumePacketNumber space =>
    have same := @sameFlight_modifyIssuer _ world.status space
      PacketNumberIssuer.consumePacketNumber fun _ => ⟨rfl, rfl⟩
    exact recorded.shrink (shrinks_of_highest fun other => (same.numbers _).highestSent_eq)
  | onDatagramReceived now recvBytes =>
    simp only [step, onDatagramReceived]
    split <;> exact recorded.shrink (shrinks_of_highest fun _ => rfl)
  | onPacketDecrypted space | onHandshakeConfirmed | onTransportParameterReceived _ _ =>
    exact recorded.shrink (shrinks_of_highest fun _ => rfl)
  | onHandshakeComplete =>
    simp only [step, onHandshakeComplete]
    split <;> exact recorded.shrink (shrinks_of_highest fun _ => rfl)
  | onPayloadSizeUpdate size =>
    simp only [step, onPayloadSizeUpdate]
    split
    · exact recorded
    · exact recorded.shrink (shrinks_of_highest fun _ => rfl)
  | rehash space order =>
    simp only [step]
    split
    case isFalse => exact recorded
    case isTrue reordered => exact recorded.shrink (shrinks_set reordered.subset fun _ => rfl)

end Recovery

namespace Skipped

/-- A run of the history with every packet number that was sent. -/
structure History (Alg : Type) where
  world : Recovery.World Alg
  numbers : PerSpace (List Nat) := .all []

/-- The packet numbers sent, after an operation and its answer. -/
def record (numbers : PerSpace (List Nat)) : Recovery.Op → Option Error → PerSpace (List Nat)
  | .onPacketSent _ space sent, none =>
    numbers.set (numbers.get space ++ [sent.packetNumber]) space
  | _, _ => numbers

variable {Alg : Type} (control : Algorithm Alg)

def step (history : History Alg) (op : Recovery.Op) : History Alg × Option Error :=
  let (world, error) := Recovery.step control history.world op
  ({ world := world, numbers := record history.numbers op error }, error)

variable (history : History Alg) (space : PacketNumberSpace)

def History.records : SentPackets :=
  history.world.packets.get space

/-- The ranges have a packet number below one that was sent, which was skipped, never sent and is
still remembered. -/
def SkippedAcked (ranges : List ACKRange) : Prop :=
  ∃ entry ∈ history.records space, entry.2.status.isSkipped = true ∧
    entry.1 ∉ history.numbers.get space ∧ (∃ later ∈ history.numbers.get space, entry.1 < later) ∧
      Acknowledged ranges entry.1
deriving Decidable

/-- The ranges have packet number zero and a skipped number is remembered. -/
def ZeroAcked (ranges : List ACKRange) : Prop :=
  Acknowledged ranges 0 ∧ ∃ entry ∈ history.records space, entry.2.status.isSkipped = true
deriving Decidable

/-- Sent packets are not flagged as skipped, and while a skipped number is remembered, an ACK frame
covers zero exactly when it covers a skipped number. -/
def guard : Recovery.Op → Prop
  | .onPacketSent _ _ sent => sent.status.isSkipped = false
  | .onAckReceived _ space frame _ => (convertFromACKFrame frame).2 = true →
      (ZeroAcked history space (convertFromACKFrame frame).1 ↔
        SkippedAcked history space (convertFromACKFrame frame).1)
  | _ => True

instance (history : History Alg) (op : Recovery.Op) : Decidable (guard history op) := by
  induction op using Recovery.Op.casesOn <;> dsimp only [guard] <;> infer_instance

/-- A packet number is never registered already; a violation is reported exactly when a skipped
number is acknowledged; otherwise exactly the packets in the ranges are acknowledged and leave the
history. -/
def Answered : Recovery.Op → Prop
  | .onPacketSent now space sent =>
    (onPacketSent control history.world.status history.world.packets now space
      sent).error.any isAlreadyRegistered = false
  | .onAckReceived now space frame limited =>
    let ranges := (convertFromACKFrame frame).1
    let outcome := onAckReceived control history.world.status history.world.packets now space
      frame limited
    (convertFromACKFrame frame).2 = true →
      (outcome.error.any isProtocolViolation = true ↔ SkippedAcked history space ranges) ∧
      (¬ SkippedAcked history space ranges →
        outcome.acked = ((history.records space).filter fun entry =>
          !entry.2.status.isSkipped && decide (Acknowledged ranges entry.1)).map Prod.snd ∧
        ∀ entry ∈ outcome.packets.get space, entry.2.status.isSkipped = false →
          ¬ Acknowledged ranges entry.1)
  | _ => True

section Answers

variable {history : History Alg} {space : PacketNumberSpace} {ranges : List ACKRange}
  (recorded : Recorded history.world.status history.world.packets)
include recorded

/-- A scan of recorded packets finds what packet number zero tells about the skipped ones. -/
theorem zeroAcked_iff (sorted : isSortedAckRanges ranges) :
    ZeroAcked history space ranges ↔ ∃ entry ∈ history.records space,
      isAck ranges entry.2.packetNumber ∧ entry.2.status.isSkipped := by
  constructor
  · rintro ⟨zero, entry, member, skipped⟩
    refine ⟨entry, member, ?_, skipped⟩
    rw [recorded.field_eq _ _ member, if_pos skipped, isAck_iff sorted]
    exact zero
  · rintro ⟨entry, member, acked, skipped⟩
    rw [recorded.field_eq _ _ member, if_pos skipped, isAck_iff sorted] at acked
    exact ⟨acked, entry, member, skipped⟩

theorem isAck_eq {entry : Nat × SentPacket} (sorted : isSortedAckRanges ranges)
    (unseen : ¬ ZeroAcked history space ranges) (member : entry ∈ history.records space) :
    isAck ranges entry.2.packetNumber =
      (!entry.2.status.isSkipped && decide (Acknowledged ranges entry.1)) := by
  rw [recorded.field_eq _ _ member, Bool.eq_iff_iff, isAck_iff sorted]
  by_cases skipped : entry.2.status.isSkipped
  · rw [if_pos skipped]
    refine iff_of_false (fun zero => unseen ⟨zero, entry, member, skipped⟩) (by simp [skipped])
  · simp [skipped]

theorem answered_of_recorded {op : Recovery.Op} (allowed : guard history op) :
    Answered control history op := by
  cases op with
  | onPacketSent now space sent => exact (recorded.onPacketSent allowed).2
  | onAckReceived now space frame limited =>
    intro (sorted : isSortedAckRanges (convertFromACKFrame _).1)
    obtain ⟨shrinks, spec⟩ := @onAckReceived_spec _ _ _ _ _ now _ _
    have spec := spec sorted
    have told := @zeroAcked_iff _ _ space _ recorded sorted
    have agree := allowed sorted
    split at spec
    case isTrue seen =>
      have skipped := agree.1 (told.2 seen)
      exact ⟨iff_of_true spec skipped, fun unseen => absurd skipped unseen⟩
    case isFalse unseen =>
      have unseen := fun seen => unseen (told.1 seen)
      obtain ⟨no_violation, acked_eq, left⟩ := spec
      refine ⟨iff_of_false (by rw [no_violation]; simp) fun seen => unseen (agree.2 seen),
        fun _ => ⟨?_, fun entry member sent acked => ?_⟩⟩
      · rw [acked_eq]
        exact congrArg _ (filter_congr fun entry member =>
          isAck_eq recorded sorted unseen member)
      · have kept := left _ member
        rw [isAck_eq recorded sorted unseen (shrinks.subset _ member), sent] at kept
        simp [acked] at kept
  | _ => trivial

end Answers

/-- In every run in which an ACK frame covers packet number zero, while a skipped number is
remembered, exactly when it covers a skipped number, acknowledgements are exact. -/
theorem acknowledges_exactly {config : Config} {alg : Alg} {isServer : Bool} {maxUdpPayload : Nat}
    {ops : List Recovery.Op}
    (guarded : Guarded (step control) guard
      { world := { status := .reset config alg isServer maxUdpPayload } } ops) :
    Guarded (step control) (Answered control)
      { world := { status := .reset config alg isServer maxUdpPayload } } ops := by
  refine @guarded_of_invariant _ _ _ _ _
    (fun history => Recorded history.world.status history.world.packets) _
    (fun history op recorded allowed => ⟨?_, ?_⟩) _ _ ?_ guarded
  · refine step_recorded _ _ op recorded ?_
    rintro _ _ _ rfl
    exact allowed
  · exact answered_of_recorded _ recorded allowed
  · exact recorded_reset

/-- With 1 skipped, an ACK frame for packet 2 is taken, and one that covers 0 to 2 is a violation.
-/
theorem acknowledges_exactly_guessed :
    let start : History NewReno := { world := { status := .reset {} {} false 1200 } }
    let sent (pn : Nat) : Recovery.Op := .onPacketSent pn .initial
      { status := .ofFrames [.ping], packetNumber := pn, sentBytes := 100 }
    let ack (largest firstRange : Nat) : Recovery.Op := .onAckReceived 20 .initial
      { largestAck := largest, ackRangeCount := 0, firstAckRange := firstRange, ackRanges := [] } false
    let ops := [sent 0, .consumePacketNumber .initial, .consumePacketNumber .initial, sent 2,
      ack 2 0, ack 2 2]
    Guarded (step newReno) guard start ops ∧
      Guarded (step newReno) (Answered newReno) start ops :=
  ⟨by decide +kernel, acknowledges_exactly _ (by decide +kernel)⟩

/-- With 1 skipped, an ACK frame for 0 alone is a violation and one for 1 and 2 is not; after a
Retry, 0 is recorded as skipped. -/
theorem acknowledges_by_zero :
    let start : History NewReno := { world := { status := .reset {} {} false 1200 } }
    let sent (pn : Nat) : Recovery.Op := .onPacketSent pn .initial
      { status := .ofFrames [.ping], packetNumber := pn, sentBytes := 100 }
    let ack (largest firstRange : Nat) : ACKFrame :=
      { largestAck := largest, ackRangeCount := 0, firstAckRange := firstRange, ackRanges := [] }
    let violates (history : History NewReno) (frame : ACKFrame) : Bool :=
      (onAckReceived newReno history.world.status history.world.packets 20 .initial frame
        false).error.any isProtocolViolation
    let guessed (history : History NewReno) (frame : ACKFrame) : Prop :=
      SkippedAcked history .initial (convertFromACKFrame frame).1
    let skipping := final (step newReno) start
      [sent 0, .consumePacketNumber .initial, .consumePacketNumber .initial, sent 2]
    let retried := final (step newReno) start
      [sent 0, .consumePacketNumber .initial, .onRetryReceived 10, sent 1]
    (violates skipping (ack 0 0) ∧ ¬ guessed skipping (ack 0 0)) ∧
      (violates skipping (ack 2 1) = false ∧ guessed skipping (ack 2 1)) ∧
      (violates retried (ack 1 1) ∧ ¬ guessed retried (ack 1 1)) := by
  decide +kernel

end Skipped

end Futils.Quic.Ack
