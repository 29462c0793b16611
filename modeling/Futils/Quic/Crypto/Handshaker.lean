import Futils.Lib.Machine
import Futils.Lib.Segment
import Futils.Quic.Retention

/-!
# Handshake data and its retransmission

`CryptoHandshaker` sends the handshake bytes of one encryption level in CRYPTO frames.  Its callback
for lost fragments answers `not_in_io_state` when nothing fits, and compares the size of the
fragment with itself, so that the rest of a fragment sent in part is dropped.  As long as lost
fragments fit, every byte sent is retained.
-/

namespace Futils.Quic.Crypto

open Lib Lib.Machine Lib.Segment Quic.Frame Packet List CryptoFrame

structure CryptoFragment where
  offset : Nat
  data : Bytes
  deriving DecidableEq

/-- The sending half of `CryptoHandshaker`. -/
structure CryptoHandshaker where
  writeData : Bytes := []
  /-- Position after the last byte that was sent. -/
  writeOffset : Nat := 0
  /-- The fragments of the `Retransmiter`. -/
  frags : List (Resend CryptoFragment) := []
  deriving DecidableEq

namespace CryptoHandshaker

/-- The callback of `send_retransmit`. -/
def retransmitFragment : Resend.Send CryptoFragment FWriter := fun w frag =>
  match makeFitSizeCrypto w.remain frag.offset frag.data with
  | none => (w, frag, [], .notInIoState)
  | some frame =>
    match w.write (.crypto frame) with
    | (w, false) => (w, frag, [], .fatal)
    | (w, true) =>
      let saved := ⟨frame.offset, frame.cryptoData⟩
      -- The source compares the size of the fragment with itself.
      if frag.data.length ≠ frag.data.length then
        let newOffset := frame.offset + frame.cryptoData.length
        (w, ⟨newOffset, frag.data.drop newOffset⟩, [saved], .notInIoState)
      else (w, frag, [saved], .ok)

variable (shaker : CryptoHandshaker) (marks : Nat → ACKLostState) (observer : Nat)

def sendRetransmit (w : FWriter) : CryptoHandshaker × FWriter × IOResult :=
  let (w, frags, res) := Resend.retransmit marks observer retransmitFragment w shaker.frags
  ({ shaker with frags := frags }, w, res)

def sendCrypto (w : FWriter) : CryptoHandshaker × FWriter × IOResult :=
  let remainData := shaker.writeData.drop shaker.writeOffset
  match makeFitSizeCrypto w.remain shaker.writeOffset remainData with
  | none => (shaker, w, .noCapacity)
  | some frame =>
    match w.write (.crypto frame) with
    | (w, false) => (shaker, w, .fatal)
    | (w, true) =>
      ({ shaker with
          writeOffset := shaker.writeOffset + frame.cryptoData.length
          frags := Resend.sent observer shaker.frags ⟨frame.offset, frame.cryptoData⟩ },
        w, .ok)

def send (w : FWriter) : CryptoHandshaker × FWriter × IOResult :=
  let (shaker, w, res) := shaker.sendRetransmit marks observer w
  if res = .fatal then (shaker, w, res)
  else if shaker.writeData.length - shaker.writeOffset = 0 then (shaker, w, .noData)
  else shaker.sendCrypto observer w

def addSendData (data : Bytes) : CryptoHandshaker :=
  { shaker with writeData := shaker.writeData ++ data }

end CryptoHandshaker

def covers (frag : CryptoFragment) : Duty → Prop := Duty.Met frag.offset frag.data false
deriving DecidablePred

/-- What a frame carries of the handshake data. -/
def carries : Frame → Duty → Prop
  | .crypto frame, duty => Duty.Met frame.offset frame.cryptoData false duty
  | _, _ => False

instance (frame : Frame) (duty : Duty) : Decidable (carries frame duty) := by
  cases frame <;> dsimp only [carries] <;> infer_instance

/-- What is due: the bytes that were sent. -/
def due (writeData : Bytes) (writeOffset : Nat) : Duty → Prop
  | .byte position value => position < writeOffset ∧ writeData[position]? = some value
  | .fin _ => False

/-- A fragment of what was sent. -/
structure Valid (shaker : CryptoHandshaker) (frag : CryptoFragment) : Prop where
  agrees : Agrees shaker.writeData frag.offset frag.data
  not_empty : frag.data ≠ []
  bound : frag.offset < 2 ^ 62 ∧ frag.data.length < 2 ^ 62

/-- A fragment can be sent in `room` bytes. -/
def Fits (room : Nat) (frag : CryptoFragment) : Prop := cryptoLen frag.offset frag.data.length ≤ room
deriving Decidable

/-- The room that sending a fragment takes. -/
def cost (_room : Nat) (frag : CryptoFragment) : Nat := cryptoLen frag.offset frag.data.length

def ledger (shaker : CryptoHandshaker) : Resend.Ledger CryptoFragment FWriter Duty where
  room := FWriter.remain
  valid := Valid shaker
  carried w frag := Carried covers carries w.frames frag
  covers := covers
  fits := Fits
  cost := cost

theorem carried_of_frame {frames : List Frame} {frame : CryptoFrame}
    (member : Frame.crypto frame ∈ frames) :
    Carried covers carries frames ⟨frame.offset, frame.cryptoData⟩ :=
  fun _ covered => ⟨_, member, covered⟩

/-- The callback of `send_retransmit` is faithful to fragments that fit. -/
theorem retransmitFragment_faithful (shaker : CryptoHandshaker) :
    Resend.Faithful (ledger shaker) CryptoHandshaker.retransmitFragment := by
  intro w frag valid fits
  have made := makeFitSizeCrypto_of_fits valid.bound.2 valid.not_empty fits
  have length_eq := length_encoded ⟨frag.offset, frag.data⟩
  obtain ⟨next, written, frames_eq, remain_eq⟩ := @FWriter.write_of_room w
    (.crypto _) _ (writes_render valid.bound.1 valid.bound.2)
    (by rw [length_eq]; exact fits)
  have sent_eq : CryptoHandshaker.retransmitFragment w frag = (next, frag, [frag], .ok) := by
    have made_w : makeFitSizeCrypto w.remain frag.offset frag.data =
        some ⟨frag.offset, frag.data⟩ := made
    simp [CryptoHandshaker.retransmitFragment, made_w, written]
  rw [sent_eq]
  have frame_mem : Frame.crypto ⟨frag.offset, frag.data⟩ ∈ next.frames := by
    rw [frames_eq]
    simp
  refine .of_self (.inl rfl) rfl valid ?_ (carried_of_frame frame_mem) fun other carried => ?_
  · rw [length_eq] at remain_eq
    exact remain_eq
  · simp only [ledger, frames_eq] at carried ⊢
    exact carried.append _

/-- The invariant of a handshaker and its packets. -/
structure Safe (shaker : CryptoHandshaker) (packets : List Packet) : Prop where
  offset_le : shaker.writeOffset ≤ shaker.writeData.length
  valid : ∀ item ∈ shaker.frags, Valid shaker item.frag
  retained : Retained covers carries packets shaker.frags
    (due shaker.writeData shaker.writeOffset)

section Steps

variable {shaker : CryptoHandshaker} {packets : List Packet} {observer : Nat}

theorem Safe.addSendData (safe : Safe shaker packets) (data : Bytes) :
    Safe (shaker.addSendData data) packets := by
  have offset_le := safe.offset_le
  refine ⟨?_, fun item member => ?_, safe.retained.due_mono fun duty is_due => ?_⟩
  · simp only [CryptoHandshaker.addSendData, length_append]
    omega
  · obtain ⟨agrees, not_empty, bound⟩ := safe.valid _ member
    exact ⟨agrees.extend _, not_empty, bound⟩
  · cases duty with
    | byte position value =>
      simp only [due, CryptoHandshaker.addSendData] at is_due ⊢
      rwa [getElem?_append_left (by omega)] at is_due
    | fin position => exact is_due

theorem Safe.sendRetransmit (safe : Safe shaker packets)
    (opened : observer < packets.length) {w : FWriter}
    (fit : Resend.LostFit (marks packets) Fits cost w.remain shaker.frags) :
    let result := shaker.sendRetransmit (marks packets) observer w
    Safe result.1 (deliver packets observer result.2.1.frames) := by
  have done := @Resend.retransmit_faithful _ _ _ _ observer _ _
    (retransmitFragment_faithful _) w _ safe.valid fit
  refine ⟨safe.offset_le, fun item member => ?_,
    safe.retained.retransmit opened rfl (fun _ _ carried => carried) done⟩
  rcases done.left item member with none | old | ⟨-, valid, -⟩
  · simp at none
  · obtain ⟨agrees, not_empty, bound⟩ := safe.valid _ old
    exact ⟨agrees, not_empty, bound⟩
  · exact ⟨valid.agrees, valid.not_empty, valid.bound⟩

theorem due_of_frame {data : Bytes} {frame : CryptoFrame}
    (agrees : Agrees data frame.offset frame.cryptoData) {duty : Duty}
    (is_due : due data (frame.offset + frame.cryptoData.length) duty) :
    due data frame.offset duty ∨ covers ⟨frame.offset, frame.cryptoData⟩ duty := by
  cases duty with
  | byte position value =>
    obtain ⟨before_stop, value_eq⟩ := is_due
    by_cases old : position < frame.offset
    · exact .inl ⟨old, value_eq⟩
    · refine .inr ⟨by simp only; omega, ?_⟩
      rw [agrees.getElem? ⟨by omega, by omega⟩]
      exact value_eq
  | fin position => exact .inl is_due

theorem Safe.sendCrypto {w : FWriter}
    (safe : Safe shaker (deliver packets observer w.frames))
    (opened : observer < packets.length) :
    let result := shaker.sendCrypto observer w
    Safe result.1 (deliver packets observer result.2.1.frames) := by
  have offset_le := safe.offset_le
  unfold CryptoHandshaker.sendCrypto
  simp only
  split
  · exact safe
  case h_2 frame made =>
    have frames_eq := FWriter.frames_write w (.crypto frame)
    split
    case h_1 next failed =>
      rw [failed] at frames_eq
      simp only [Bool.false_eq_true, if_false, append_nil] at frames_eq
      simp only [frames_eq]
      exact safe
    case h_2 next written =>
      rw [written] at frames_eq
      simp only [if_true] at frames_eq
      obtain ⟨offset_eq, cut, not_empty⟩ := makeFitSizeCrypto_cut made
      have bound := render_ok (show (frame.render w.w).2 from
        congrArg Prod.snd written)
      have length_le := cut.length_le
      rw [length_drop] at length_le
      have agrees : Agrees shaker.writeData frame.offset frame.cryptoData := by
        rw [offset_eq, prefix_iff_eq_take.1 cut]
        exact Agrees.of_stream _ (by omega)
      have retained := safe.retained
      rw [← offset_eq] at retained
      have sent := retained.sent (by simpa using opened) (carried_of_frame (mem_singleton_self _))
        fun duty => due_of_frame agrees
      rw [deliver_append, offset_eq] at sent
      refine ⟨?_, fun item member => ?_, ?_⟩
      · simp only
        omega
      · rcases mem_snoc.1 member with old | rfl
        · obtain ⟨item_agrees, item_not_empty, item_bound⟩ := safe.valid _ old
          exact ⟨item_agrees, item_not_empty, item_bound⟩
        · exact ⟨agrees, not_empty, bound⟩
      · simp only [frames_eq, offset_eq]
        exact sent

theorem Safe.send (safe : Safe shaker packets) (opened : observer < packets.length)
    {capacity : Nat}
    (fit : Resend.LostFit (marks packets) Fits cost capacity shaker.frags) :
    let result := shaker.send (marks packets) observer (.ofCapacity capacity)
    Safe result.1 (deliver packets observer result.2.1.frames) := by
  have resent := safe.sendRetransmit opened (w := .ofCapacity _) fit
  unfold CryptoHandshaker.send
  obtain ⟨⟨_, _, _⟩, resent_eq⟩ : ∃ all,
    shaker.sendRetransmit (marks packets) observer (.ofCapacity capacity) = all := ⟨_, rfl⟩
  simp only [resent_eq] at resent ⊢
  split
  · exact resent
  · split
    · exact resent
    · exact resent.sendCrypto opened

end Steps

structure World where
  shaker : CryptoHandshaker := {}
  packets : List Packet := []
  deriving DecidableEq

inductive Op
  | addSendData (data : Bytes)
  | openPacket
  /-- `send` into the open packet, with `capacity` bytes left. -/
  | send (capacity : Nat)
  | markAsAck (index : Nat)
  | markAsLost (index : Nat)
  deriving DecidableEq

def sendStep (world : World) (capacity : Nat) : World × IOResult :=
  let observer := world.packets.length - 1
  let (shaker, w, res) := world.shaker.send (marks world.packets) observer
    (.ofCapacity capacity)
  (⟨shaker, deliver world.packets observer w.frames⟩, res)

/-- One step; without an open packet nothing is sent. -/
def step (world : World) : Op → World × IOResult
  | .addSendData data => ({ world with shaker := world.shaker.addSendData data }, .ok)
  | .openPacket => ({ world with packets := world.packets ++ [{ frames := [] }] }, .ok)
  | .send capacity =>
    if world.packets.isEmpty then (world, .noCapacity) else sendStep world capacity
  | .markAsAck index => ({ world with packets := mark world.packets index .ack }, .ok)
  | .markAsLost index => ({ world with packets := mark world.packets index .lost }, .ok)

/-- `send` is called only where every lost fragment fits the packet. -/
def guard (world : World) : Op → Prop
  | .send capacity =>
    Resend.LostFit (marks world.packets) Fits cost capacity world.shaker.frags
  | _ => True

instance (world : World) (op : Op) : Decidable (guard world op) := by
  cases op <;> dsimp only [guard] <;> infer_instance

theorem step_safe (world : World) (op : Op) (safe : Safe world.shaker world.packets)
    (allowed : guard world op) : Safe (step world op).1.shaker (step world op).1.packets := by
  cases op with
  | addSendData data => exact safe.addSendData data
  | openPacket => exact ⟨safe.offset_le, safe.valid, safe.retained.opened⟩
  | send capacity =>
    simp only [step]
    split
    · exact safe
    case isFalse some_packet =>
      rw [List.isEmpty_iff, ← List.length_eq_zero_iff] at some_packet
      exact safe.send (show world.packets.length - 1 < world.packets.length by omega) allowed
  | markAsAck index => exact ⟨safe.offset_le, safe.valid, safe.retained.mark index .ack⟩
  | markAsLost index => exact ⟨safe.offset_le, safe.valid, safe.retained.mark index .lost⟩

/-- Every byte sent is in a fragment, at its offset, or was carried by an acknowledged packet. -/
def Remembered (world : World) : Prop :=
  ∀ position < world.shaker.writeOffset, ∀ value, world.shaker.writeData[position]? = some value →
    (∃ item ∈ world.shaker.frags, covers item.frag (.byte position value)) ∨
      ∃ packet ∈ world.packets, packet.acked = true ∧
        ∃ frame ∈ packet.frames, carries frame (.byte position value)

/-- In every run in which lost fragments fit the packet, no byte of the handshake that was sent is
dropped. -/
theorem crypto_data_retained {ops : List Op} (guarded : Guarded step guard {} ops) :
    Remembered (final step {} ops) := by
  have started : Safe {} [] := by
    refine ⟨le_rfl, by simp, by simp [Packet.Recorded], by simp, fun duty is_due => ?_⟩
    cases duty <;> simp [due] at is_due
  have safe := @invariant_of_guarded _ _ _ _ _ _
    (fun world _ op => step_safe _ op) _ [] ops started guarded
  exact fun position sent value value_eq => safe.retained.kept _ ⟨sent, value_eq⟩

/-- A lost CRYPTO frame is sent again, before new data. -/
theorem crypto_data_retained_resent :
    let ops := [.addSendData [1, 2, 3], .openPacket, .send 50, .markAsLost 0, .addSendData [4],
      .openPacket, .send 50, .markAsAck 1, .send 50]
    Guarded step guard {} ops ∧ Remembered (final step {} ops) :=
  ⟨by decide, crypto_data_retained (by decide)⟩

/-- Three bytes are lost and sent again into a packet with room for two of them: the third one is
dropped at once. -/
theorem crypto_data_dropped :
    let ops := [.addSendData [1, 2, 3], .openPacket, .send 50, .markAsLost 0, .openPacket, .send 5]
    ¬ Remembered (final step {} ops) := by
  intro ops remembered
  exact absurd (remembered 2 (by decide) 3 (by decide)) (by decide)

end Futils.Quic.Crypto
