import Futils.Quic.Resend
import Futils.Quic.Varint

/-!
# Lists of frames that wait for their acknowledgement

`IDAcceptor` and `IDIssuer` keep a list of the frames they owe the peer, and `send` walks it: what was
acknowledged is erased, what was never sent or is lost goes into the packet if there is room for it.
The packets are kept with the frames they carry, their `ACKLostRecord` and whether they were ever
acknowledged.
-/

namespace Futils.Quic.ConnId

open Binary List

/-- A packet with the frames of one kind that it carries. -/
structure Carrier (Frame : Type*) where
  frames : List Frame := []
  record : ACKLostState := .wait
  acked : Bool := false
  deriving DecidableEq

namespace Carrier

variable {Frame : Type*} {packets : List (Carrier Frame)}

def marks (packets : List (Carrier Frame)) (index : Nat) : ACKLostState :=
  packets[index]?.elim .wait record

/-- `mark_as_ack` or `mark_as_lost` for one packet. -/
def mark (packets : List (Carrier Frame)) (index : Nat) (state : ACKLostState) :
    List (Carrier Frame) :=
  packets.modify index fun packet =>
    { packet with record := state, acked := packet.acked || state == .ack }

/-- The frame was in a packet that was acknowledged. -/
def Acked (packets : List (Carrier Frame)) (frame : Frame) : Prop :=
  ∃ packet ∈ packets, packet.acked = true ∧ frame ∈ packet.frames
deriving [DecidableEq Frame] → Decidable _

def Carries (packets : List (Carrier Frame)) (index : Nat) (frame : Frame) : Prop :=
  ∃ packet, packets[index]? = some packet ∧ frame ∈ packet.frames

/-- A record that says acknowledged is remembered. -/
def Recorded (packets : List (Carrier Frame)) : Prop :=
  ∀ packet ∈ packets, packet.record = .ack → packet.acked = true

variable {frame : Frame} {index : Nat} {packet : Carrier Frame}

theorem acked_of_carries (recorded : Recorded packets) (carries : Carries packets index frame)
    (acked : marks packets index = .ack) : Acked packets frame := by
  obtain ⟨packet, found, carried⟩ := carries
  have member := mem_of_getElem? found
  refine ⟨packet, member, recorded _ member ?_, carried⟩
  rw [marks, found] at acked
  exact acked

theorem Carries.push (carries : Carries packets index frame) (packet : Carrier Frame) :
    Carries (packets ++ [packet]) index frame := by
  obtain ⟨other, found, carried⟩ := carries
  refine ⟨other, ?_, carried⟩
  rw [List.getElem?_append_left (List.getElem?_eq_some_iff.1 found).1]
  exact found

theorem carries_push_last (carried : frame ∈ packet.frames) :
    Carries (packets ++ [packet]) packets.length frame :=
  ⟨packet, by simp, carried⟩

theorem Acked.push (acked : Acked packets frame) (packet : Carrier Frame) :
    Acked (packets ++ [packet]) frame := by
  obtain ⟨other, member, was_acked, carried⟩ := acked
  exact ⟨other, mem_append_left _ member, was_acked, carried⟩

theorem Recorded.push (recorded : Recorded packets) (waits : packet.record = .wait) :
    Recorded (packets ++ [packet]) := by
  intro other member acked
  rcases mem_snoc.1 member with old | rfl
  · exact recorded _ old acked
  · rw [waits] at acked
    cases acked

theorem mem_mark {state : ACKLostState} (member : packet ∈ mark packets index state) :
    packet ∈ packets ∨ ∃ old ∈ packets,
      packet = { old with record := state, acked := old.acked || state == .ack } := by
  obtain ⟨_, found⟩ := getElem?_of_mem member
  rw [mark, getElem?_modify] at found
  obtain ⟨old, old_found, packet_eq⟩ := Option.map_eq_some_iff.1 found
  have old_member := mem_of_getElem? old_found
  split at packet_eq
  · exact .inr ⟨old, old_member, packet_eq.symm⟩
  · rw [← packet_eq]
    exact .inl old_member

theorem Recorded.mark (recorded : Recorded packets) (index : Nat) (state : ACKLostState) :
    Recorded (mark packets index state) := by
  intro packet member acked
  rcases mem_mark member with old | ⟨_, -, rfl⟩
  · exact recorded _ old acked
  · simp only at acked ⊢
    simp [acked]

theorem Carries.mark (carries : Carries packets index frame) (position : Nat)
    (state : ACKLostState) : Carries (mark packets position state) index frame := by
  obtain ⟨_, found, carried⟩ := carries
  rw [Carries, Carrier.mark, getElem?_modify, found]
  refine ⟨_, rfl, ?_⟩
  split <;> exact carried

theorem Acked.mark (acked : Acked packets frame) (position : Nat) (state : ACKLostState) :
    Acked (mark packets position state) frame := by
  obtain ⟨packet, member, was_acked, carried⟩ := acked
  obtain ⟨index, found⟩ := getElem?_of_mem member
  have marked : (Carrier.mark packets position state)[index]? =
      some (if position = index then
        { packet with record := state, acked := packet.acked || state == .ack } else packet) := by
    rw [Carrier.mark, getElem?_modify, found]
    split <;> rfl
  refine ⟨_, mem_of_getElem? marked, ?_, ?_⟩
  · split <;> simp [was_acked]
  · split <;> exact carried

end Carrier

section Send

variable {Frame : Type*} (marks : Nat → ACKLostState) (observer : Nat) (gone : Frame → Bool)
  (len : Frame → Nat) (render : Frame → Writer → Writer × Bool)

/-- What `send` leaves: the packet, the list, the frames written, and its result. -/
structure Sent (Frame : Type*) where
  w : Writer
  left : List (Resend Frame)
  written : List Frame := []
  ok : Bool := true

/-- An entry stays as it is, and `send` goes on. -/
def Sent.keep (item : Resend Frame) (rest : Sent Frame) : Sent Frame :=
  { rest with left := item :: rest.left }

/-- The loop of `send`; an entry whose frame is `gone` is erased instead of being sent. -/
def sendLoop : Writer → List (Resend Frame) → Sent Frame
  | w, [] => { w := w, left := [] }
  | w, item :: rest =>
    if Resend.isAck marks item.wait then sendLoop w rest
    else if item.wait.isSome && !Resend.isLost marks item.wait then
      (sendLoop w rest).keep item
    else if gone item.frag then sendLoop w rest
    else if w.remain < len item.frag then (sendLoop w rest).keep item
    else
      match render item.frag w with
      | (w, false) => { w := w, left := item :: rest, ok := false }
      | (w, true) =>
        let sent := (sendLoop w rest).keep { item with wait := some observer }
        { sent with written := item.frag :: sent.written }

variable {marks observer gone len render} {w : Writer} {items : List (Resend Frame)}

/-- Every entry left is an old one, or waits for this packet, which carries its frame. -/
theorem sendLoop_left {item : Resend Frame}
    (left : item ∈ (sendLoop marks observer gone len render w items).left) :
    item ∈ items ∨ (∃ old ∈ items, old.frag = item.frag) ∧ item.wait = some observer ∧
      item.frag ∈ (sendLoop marks observer gone len render w items).written := by
  -- An entry left by the rest of the list is an old one of the rest, or waits for this packet.
  have later {head : Resend _} {rest : List _} {sent : Sent _}
      (found : item ∈ rest ∨ (∃ old ∈ rest, old.frag = item.frag) ∧ item.wait = some observer ∧
        item.frag ∈ sent.written) :
      item ∈ head :: rest ∨ (∃ old ∈ head :: rest, old.frag = item.frag) ∧
        item.wait = some observer ∧ item.frag ∈ sent.written := by
    rcases found with old | ⟨⟨old, member, same⟩, waits, written⟩
    · exact .inl (mem_cons_of_mem _ old)
    · exact .inr ⟨⟨old, mem_cons_of_mem _ member, same⟩, waits, written⟩
  fun_induction sendLoop _ _ _ len _ w items with
  | case1 w => cases left
  | case2 w head rest acked ih => exact later (ih left)
  | case3 w head rest unacked waiting ih | case5 w head rest unacked due present full ih =>
    rcases mem_cons.1 left with rfl | left
    · exact .inl mem_cons_self
    · exact later (ih left)
  | case4 w head rest unacked due is_gone ih => exact later (ih left)
  | case6 w head rest unacked due present room next rendered => exact .inl left
  | case7 w head rest unacked due present room next rendered sent ih =>
    rcases mem_cons.1 left with rfl | left
    · exact .inr ⟨⟨head, mem_cons_self, rfl⟩, rfl, mem_cons_self⟩
    · rcases later (ih left) with old | ⟨exists_old, waits, written⟩
      · exact .inl old
      · exact .inr ⟨exists_old, waits, mem_cons_of_mem _ written⟩

/-- Every entry is acknowledged, gone, or still there under its frame. -/
theorem sendLoop_kept {item : Resend Frame} (member : item ∈ items) :
    Resend.isAck marks item.wait ∨ gone item.frag ∨
      ∃ kept ∈ (sendLoop marks observer gone len render w items).left, kept.frag = item.frag := by
  fun_induction sendLoop _ _ _ len _ w items with
  | case1 w => cases member
  | case2 w head rest acked ih =>
    rcases mem_cons.1 member with rfl | member
    · exact .inl acked
    · exact ih member
  | case3 w head rest unacked waiting ih | case5 w head rest unacked due present full ih =>
    rcases mem_cons.1 member with rfl | member
    · exact .inr (.inr ⟨item, mem_cons_self, rfl⟩)
    · exact (ih member).imp_right fun left => left.imp_right fun ⟨kept, found, same⟩ =>
        ⟨kept, mem_cons_of_mem _ found, same⟩
  | case4 w head rest unacked due is_gone ih =>
    rcases mem_cons.1 member with rfl | member
    · exact .inr (.inl is_gone)
    · exact ih member
  | case6 w head rest unacked due present room next rendered =>
    exact .inr (.inr ⟨item, member, rfl⟩)
  | case7 w head rest unacked due present room next rendered sent ih =>
    rcases mem_cons.1 member with rfl | member
    · exact .inr (.inr ⟨_, mem_cons_self, rfl⟩)
    · exact (ih member).imp_right fun left => left.imp_right fun ⟨kept, found, same⟩ =>
        ⟨kept, mem_cons_of_mem _ found, same⟩

theorem sendLoop_written {frame : Frame}
    (written : frame ∈ (sendLoop marks observer gone len render w items).written) :
    (∃ item ∈ items, item.frag = frame) ∧ gone frame = false := by
  have later {head : Resend _} {rest : List _}
      (found : (∃ item ∈ rest, item.frag = frame) ∧ gone frame = false) :
      (∃ item ∈ head :: rest, item.frag = frame) ∧ gone frame = false :=
    found.imp_left fun ⟨item, member, same⟩ => ⟨item, mem_cons_of_mem _ member, same⟩
  fun_induction sendLoop _ _ _ len _ w items with
  | case1 w => cases written
  | case2 w head rest acked ih => exact later (ih written)
  | case3 w head rest unacked waiting ih => exact later (ih written)
  | case4 w head rest unacked due is_gone ih => exact later (ih written)
  | case5 w head rest unacked due present full ih => exact later (ih written)
  | case6 w head rest unacked due present room next rendered => cases written
  | case7 w head rest unacked due present room next rendered sent ih =>
    rcases mem_cons.1 written with rfl | written
    · exact ⟨⟨head, mem_cons_self, rfl⟩, by simpa using present⟩
    · exact later (ih written)

end Send

end Futils.Quic.ConnId
