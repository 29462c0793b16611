import Futils.Quic.Resend
import Futils.Quic.Frame.Writer

/-!
# Retention of sent data

Packets are numbered in the order they are opened; a packet knows the frames it carries and the
record its fragments wait on.  Data that was sent is retained when every part of it is held by a
fragment or was carried by a packet that has been acknowledged.  The fragments of a `Retransmiter`
keep this as long as each of them waits on a packet that carries it.
-/

namespace Futils.Quic

/-- A packet: its frames, its `ACKLostRecord`, and whether it was ever acknowledged. -/
structure Packet where
  frames : List Frame := []
  record : ACKLostState := .wait
  acked : Bool := false
  deriving DecidableEq

namespace Packet

def marks (packets : List Packet) (index : Nat) : ACKLostState :=
  packets[index]?.elim .wait record

/-- `mark_as_ack` or `mark_as_lost` for one packet. -/
def mark (packets : List Packet) (index : Nat) (state : ACKLostState) : List Packet :=
  packets.modify index fun packet =>
    { packet with record := state, acked := packet.acked || state == .ack }

/-- Frames are written into one packet. -/
def deliver (packets : List Packet) (index : Nat) (frames : List Frame) : List Packet :=
  packets.modify index fun packet => { packet with frames := packet.frames ++ frames }

/-- Packets keep their numbers, frames and acknowledgements. -/
def Grows (packets later : List Packet) : Prop :=
  ∀ (index : Nat) (packet : Packet), packets[index]? = some packet → ∃ next : Packet,
    later[index]? = some next ∧ packet.frames ⊆ next.frames ∧ (packet.acked = true → next.acked = true)

variable {change : Packet → Packet} {packets : List Packet}

theorem grows_modify (packets : List Packet) (index : Nat)
    (frames_subset : ∀ packet, packet.frames ⊆ (change packet).frames)
    (acked_kept : ∀ packet, packet.acked → (change packet).acked) :
    Grows packets (packets.modify index change) := by
  intro other packet found
  rw [List.getElem?_modify, found]
  by_cases same : index = other
  · exact ⟨_, by simp [same], frames_subset _, acked_kept _⟩
  · exact ⟨packet, by simp [same], fun _ member => member, id⟩

theorem grows_mark (packets : List Packet) (index : Nat) (state : ACKLostState) :
    Grows packets (mark packets index state) :=
  grows_modify _ _ (fun _ _ member => member) fun packet acked => by simp [acked]

theorem grows_deliver (packets : List Packet) (index : Nat) (frames : List Frame) :
    Grows packets (deliver packets index frames) :=
  grows_modify _ _ (fun _ => List.subset_append_left _ _) fun _ acked => acked

theorem grows_append (packets more : List Packet) : Grows packets (packets ++ more) := by
  intro index packet found
  obtain ⟨bound, -⟩ := getElem?_eq_some_iff.1 found
  exact ⟨packet, by rw [List.getElem?_append_left bound, found], fun _ member => member, id⟩

theorem deliver_append (packets : List Packet) (index : Nat) (first second : List Frame) :
    deliver (deliver packets index first) index second =
      deliver packets index (first ++ second) := by
  simp only [deliver, List.modify_modify_eq]
  congr 1
  funext packet
  simp

@[simp] theorem length_deliver (packets : List Packet) (index : Nat) (frames : List Frame) :
    (deliver packets index frames).length = packets.length :=
  List.length_modify ..

theorem getElem?_deliver {index : Nat} (bound : index < packets.length) (frames : List Frame) :
    ∃ packet, (deliver packets index frames)[index]? = some packet ∧ frames ⊆ packet.frames := by
  have found := List.getElem?_eq_getElem bound
  rw [deliver, List.getElem?_modify, found]
  simp

/-- Acknowledged records belong to acknowledged packets. -/
def Recorded (packets : List Packet) : Prop :=
  ∀ packet ∈ packets, packet.record = .ack → packet.acked = true

theorem recorded_modify (recorded : Recorded packets) (index : Nat)
    (kept : ∀ packet, (packet.record = .ack → packet.acked) →
      (change packet).record = .ack → (change packet).acked) :
    Recorded (packets.modify index change) := by
  intro packet member
  obtain ⟨_, found⟩ := List.mem_iff_getElem?.1 member
  rw [List.getElem?_modify] at found
  obtain ⟨before, before_eq, packet_eq⟩ := Option.map_eq_some_iff.1 found
  have before_recorded := recorded _ (List.mem_of_getElem? before_eq)
  subst packet_eq
  split
  · exact kept _ before_recorded
  · exact before_recorded

theorem recorded_mark (recorded : Recorded packets) (index : Nat) (state : ACKLostState) :
    Recorded (mark packets index state) :=
  recorded_modify recorded _ fun packet _ marked => by
    simp only at marked
    simp [marked]

theorem recorded_deliver (recorded : Recorded packets) (index : Nat) (frames : List Frame) :
    Recorded (deliver packets index frames) :=
  recorded_modify recorded _ fun _ kept => kept

end Packet

section Retained

open Packet List Resend

/-- A part of what was sent: a byte at its position, or the end of the data. -/
inductive Duty
  | byte (position : Nat) (value : UInt8)
  | fin (position : Nat)
  deriving DecidableEq

/-- A block of data, possibly the last one, stands for the duty. -/
def Duty.Met (offset : Nat) (data : Bytes) (fin : Bool) : Duty → Prop
  | .byte position value => offset ≤ position ∧ data[position - offset]? = some value
  | .fin position => fin = true ∧ offset + data.length = position

instance (offset : Nat) (data : Bytes) (fin : Bool) (duty : Duty) :
    Decidable (duty.Met offset data fin) := by
  cases duty <;> dsimp only [Duty.Met] <;> infer_instance

variable {Fragment : Type*} (covers : Fragment → Duty → Prop) (carries : Frame → Duty → Prop)

/-- The frames carry everything the fragment stands for. -/
def Carried (frames : List Frame) (frag : Fragment) : Prop :=
  ∀ duty, covers frag duty → ∃ frame ∈ frames, carries frame duty

variable {covers carries} in
theorem Carried.append {frames : List Frame} {frag : Fragment}
    (carried : Carried covers carries frames frag) (more : List Frame) :
    Carried covers carries (frames ++ more) frag := by
  intro duty covered
  obtain ⟨frame, member, frame_carries⟩ := carried duty covered
  exact ⟨frame, mem_append_left _ member, frame_carries⟩

/-- What is due is retained: by fragments that wait on packets which carry them, or by packets that
were acknowledged. -/
structure Retained (packets : List Packet) (frags : List (Resend Fragment)) (due : Duty → Prop) :
    Prop where
  recorded : Recorded packets
  waits : ∀ item ∈ frags, ∃ (index : Nat) (packet : Packet), item.wait = some index ∧
    packets[index]? = some packet ∧ Carried covers carries packet.frames item.frag
  kept : ∀ duty, due duty → (∃ item ∈ frags, covers item.frag duty) ∨
    ∃ packet ∈ packets, packet.acked = true ∧ ∃ frame ∈ packet.frames, carries frame duty

namespace Retained

variable {covers carries} {packets later : List Packet} {frags : List (Resend Fragment)}
  {due : Duty → Prop}

variable (retained : Retained covers carries packets frags due)
include retained

theorem of_grows (grows : Grows packets later)
    (recorded : Recorded later) : Retained covers carries later frags due where
  recorded := recorded
  waits item member := by
    obtain ⟨index, packet, wait_eq, found, carried⟩ := retained.waits _ member
    obtain ⟨next, next_found, frames_subset, -⟩ := grows _ _ found
    refine ⟨index, next, wait_eq, next_found, fun duty covered => ?_⟩
    obtain ⟨frame, frame_mem, frame_carries⟩ := carried _ covered
    exact ⟨frame, frames_subset frame_mem, frame_carries⟩
  kept duty is_due := by
    rcases retained.kept duty is_due with held | ⟨packet, packet_mem, acked, frame, frame_mem, eq⟩
    · exact .inl held
    · obtain ⟨index, found⟩ := mem_iff_getElem?.1 packet_mem
      obtain ⟨next, next_found, frames_subset, acked_kept⟩ := grows _ _ found
      exact .inr ⟨next, mem_of_getElem? next_found, acked_kept acked, frame,
        frames_subset frame_mem, eq⟩

theorem mark (index : Nat)
    (state : ACKLostState) : Retained covers carries (mark packets index state) frags due :=
  retained.of_grows (grows_mark _ _ _) (recorded_mark retained.recorded _ _)

theorem deliver (index : Nat) (frames : List Frame) :
    Retained covers carries (deliver packets index frames) frags due :=
  retained.of_grows (grows_deliver _ _ _) (recorded_deliver retained.recorded _ _)

theorem opened : Retained covers carries (packets ++ [{ frames := [] }]) frags due := by
  refine retained.of_grows (grows_append _ _) fun packet member marked => ?_
  rcases mem_snoc.1 member with old | rfl
  · exact retained.recorded _ old marked
  · simp at marked

theorem due_mono {less : Duty → Prop}
    (weaker : ∀ duty, less duty → due duty) : Retained covers carries packets frags less where
  recorded := retained.recorded
  waits := retained.waits
  kept _ is_due := retained.kept _ (weaker _ is_due)

theorem acked_of_isAck {item : Resend Fragment} (member : item ∈ frags)
    (acked : isAck (marks packets) item.wait) {duty : Duty}
    (covered : covers item.frag duty) :
    ∃ packet ∈ packets, packet.acked ∧ ∃ frame ∈ packet.frames, carries frame duty := by
  obtain ⟨_, packet, wait_eq, found, carried⟩ := retained.waits _ member
  have marked : packet.record = .ack := by
    simpa [isAck, wait_eq, marks, found] using acked
  have packet_mem := mem_of_getElem? found
  exact ⟨packet, packet_mem, retained.recorded _ packet_mem marked, carried _ covered⟩

theorem replace
    {next : List (Resend Fragment)} (grows : Grows packets later) (recorded : Recorded later)
    (waits : ∀ item ∈ next, item ∈ frags ∨ ∃ (index : Nat) (packet : Packet),
      item.wait = some index ∧ later[index]? = some packet ∧
        Carried covers carries packet.frames item.frag)
    (covered : ∀ item ∈ frags, isAck (marks packets) item.wait = false → ∀ duty,
      covers item.frag duty → ∃ new ∈ next, covers new.frag duty) :
    Retained covers carries later next due := by
  have grown := retained.of_grows grows recorded
  refine ⟨recorded, fun item member => ?_, fun duty is_due => ?_⟩
  · rcases waits item member with old | new
    · exact grown.waits _ old
    · exact new
  · rcases grown.kept duty is_due with ⟨item, member, held⟩ | acked
    · cases acked : isAck (marks packets) item.wait with
      | false => exact .inl (covered item member acked duty held)
      | true =>
        obtain ⟨packet, packet_mem, packet_acked, frame, frame_mem, frame_carries⟩ :=
          retained.acked_of_isAck member acked held
        obtain ⟨index, found⟩ := mem_iff_getElem?.1 packet_mem
        obtain ⟨after, after_found, frames_subset, acked_kept⟩ := grows _ _ found
        exact .inr ⟨after, mem_of_getElem? after_found, acked_kept packet_acked, frame,
          frames_subset frame_mem, frame_carries⟩
    · exact .inr acked

theorem detect :
    Retained covers carries packets (detectAckAndLost (marks packets) frags).1 due := by
  have same : Grows packets packets := fun _ packet found =>
    ⟨packet, found, fun _ member => member, id⟩
  refine retained.replace same retained.recorded (fun item member => ?_) ?_
  · exact .inl (mem_detectAckAndLost.1 member).1
  · intro item member not_acked duty covered
    exact ⟨item, mem_detectAckAndLost.2 ⟨member, not_acked⟩, covered⟩

theorem retransmit {observer : Nat}
    (opened : observer < packets.length) {ledger : Resend.Ledger Fragment Frame.FWriter Duty}
    {w : Frame.FWriter} {result : Frame.FWriter × List (Resend Fragment) × IOResult}
    (covers_eq : ledger.covers = covers)
    (carried_eq : ∀ w frag, ledger.carried w frag → Carried covers carries w.frames frag)
    (done : Resend.Retransmitted (marks packets) observer ledger w [] frags result) :
    Retained covers carries (Packet.deliver packets observer result.1.frames) result.2.1 due := by
  refine retained.replace (grows_deliver _ _ _)
    (recorded_deliver retained.recorded _ _) (fun item member => ?_) ?_
  · rcases done.left item member with none | old | ⟨wait_eq, -, carried⟩
    · simp at none
    · exact .inl old
    · obtain ⟨packet, found, frames_subset⟩ := getElem?_deliver opened _
      refine .inr ⟨observer, packet, wait_eq, found, fun duty covered => ?_⟩
      obtain ⟨frame, frame_mem, frame_carries⟩ := carried_eq _ _ carried _ covered
      exact ⟨frame, frames_subset frame_mem, frame_carries⟩
  · subst covers_eq
    exact done.covered

theorem sent {observer : Nat}
    (opened : observer < packets.length) {frames : List Frame} {frag : Fragment}
    (carried : Carried covers carries frames frag) {more : Duty → Prop}
    (explained : ∀ duty, more duty → due duty ∨ covers frag duty) :
    Retained covers carries (Packet.deliver packets observer frames)
      (sent observer frags frag) more := by
  have grown := retained.deliver observer frames
  refine ⟨grown.recorded, fun item member => ?_, fun duty is_due => ?_⟩
  · rcases mem_snoc.1 member with old | rfl
    · exact grown.waits _ old
    · obtain ⟨packet, found, frames_subset⟩ := getElem?_deliver opened _
      refine ⟨observer, packet, rfl, found, fun duty covered => ?_⟩
      obtain ⟨frame, frame_mem, frame_carries⟩ := carried _ covered
      exact ⟨frame, frames_subset frame_mem, frame_carries⟩
  · rcases explained duty is_due with old | new
    · rcases grown.kept duty old with ⟨item, member, held⟩ | acked
      · exact .inl ⟨item, mem_append_left _ member, held⟩
      · exact .inr acked
    · exact .inl ⟨_, mem_append_right _ (mem_singleton_self _), new⟩

end Retained

end Retained

end Futils.Quic
