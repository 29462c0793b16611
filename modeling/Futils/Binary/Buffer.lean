import Futils.Core.Basic
import Futils.Lib.Overlay

/-!
# Writers with the contents of their buffer

Packets are rendered in place: a payload is written ahead of the writer and moved back once the
bytes in front of it are known.  A `Buffer` is a `binary::writer` with the bytes of its buffer, also
those behind its position.  A rendering is a partial function on buffers; `Appends render bytes`
says that it writes `bytes` whenever it succeeds.
-/

namespace Futils.Binary

open Lib.Overlay List Option

/-- A writer: the bytes of its buffer and its position. -/
structure Buffer where
  data : Bytes
  index : Nat
  index_le : index ≤ data.length

namespace Buffer

def ofBytes (data : Bytes) : Buffer := ⟨data, 0, Nat.zero_le _⟩

variable (buffer : Buffer)

def written : Bytes := buffer.data.take buffer.index

def remain : Bytes := buffer.data.drop buffer.index

/-- Write `bytes` at the position and move behind them. -/
def put (bytes : Bytes) (room : bytes.length ≤ buffer.remain.length) : Buffer where
  data := overlay buffer.data buffer.index bytes
  index := buffer.index + bytes.length
  index_le := by
    have inside := buffer.index_le
    rw [remain, List.length_drop] at room
    rw [length_overlay (by omega)]
    omega

/-- `write(rvec)`, which callers give up on when it fails. -/
def write (bytes : Bytes) : Option Buffer :=
  if room : bytes.length ≤ buffer.remain.length then some (buffer.put bytes room) else none

/-- `write(byte, n)`. -/
def fill (value : UInt8) (count : Nat) : Option Buffer :=
  buffer.write (List.replicate count value)

/-- `offset(add)`. -/
def advance (count : Nat) : Buffer where
  data := buffer.data
  index := min buffer.data.length (buffer.index + count)
  index_le := Nat.min_le_left ..

/-- Write `bytes` ahead of the writer, `distance` behind its position. -/
def place (distance : Nat) (bytes : Bytes) (room : distance + bytes.length ≤ buffer.remain.length) :
    Buffer where
  data := overlay buffer.data (buffer.index + distance) bytes
  index := buffer.index
  index_le := by
    have inside := buffer.index_le
    rw [remain, List.length_drop] at room
    rw [length_overlay (by omega)]
    omega

theorem length_copy {range : Bytes} {target source count : Nat}
    (room : target + count ≤ range.length) (known : source + count ≤ range.length) :
    (if target < source then copyUp target source count range
      else copyDown target source count range).length = range.length := by
  have part_length : ((range.drop source).take count).length = count := by
    simp only [length_take, length_drop]
    omega
  split
  · rw [copyUp_eq (by omega) (by omega), length_overlay (by omega)]
  · rw [copyDown_eq (by omega) (by omega), length_overlay (by omega)]

/-- `view::shift` on the part of the buffer from `start` on. -/
def shift (start target source count : Nat) : Option Buffer :=
  if outside : (buffer.data.drop start).length ≤ target ∨
      (buffer.data.drop start).length < source then none
  else if short : (buffer.data.drop start).length - target < count ∨
      (buffer.data.drop start).length - source < count then none
  else some
    { data := buffer.data.take start ++
        (if target < source then copyUp target source count (buffer.data.drop start)
          else copyDown target source count (buffer.data.drop start))
      index := buffer.index
      index_le := by
        have inside := buffer.index_le
        rw [List.length_append, length_copy (by omega) (by omega), List.length_take,
          List.length_drop]
        omega }

theorem length_written : buffer.written.length = buffer.index := by
  have inside := buffer.index_le
  rw [written, length_take]
  omega

theorem length_remain : buffer.remain.length = buffer.data.length - buffer.index := by
  rw [remain, length_drop]

variable {buffer} {bytes first second : Bytes}

@[simp] theorem written_put (room : bytes.length ≤ buffer.remain.length) :
    (buffer.put bytes room).written = buffer.written ++ bytes :=
  take_overlay buffer.index_le

@[simp] theorem remain_put (room : bytes.length ≤ buffer.remain.length) :
    (buffer.put bytes room).remain = buffer.remain.drop bytes.length := by
  simp only [remain, put, drop_overlay buffer.index_le, drop_drop]

@[simp] theorem length_data_put (room : bytes.length ≤ buffer.remain.length) :
    (buffer.put bytes room).data.length = buffer.data.length := by
  have inside := buffer.index_le
  rw [length_remain] at room
  exact length_overlay (by omega)

theorem put_put (room : first.length ≤ buffer.remain.length)
    (room_left : second.length ≤ (buffer.put first room).remain.length)
    (room_both : (first ++ second).length ≤ buffer.remain.length) :
    (buffer.put first room).put second room_left = buffer.put (first ++ second) room_both := by
  have inside := buffer.index_le
  have fits := room
  rw [length_remain] at fits
  simp only [put, mk.injEq, length_append]
  exact ⟨overlay_overlay (by omega), by omega⟩

/-- `next` is the writer behind `bytes`; what lies ahead of it is not said. -/
structure Extends (buffer : Buffer) (bytes : Bytes) (next : Buffer) : Prop where
  written_eq : next.written = buffer.written ++ bytes
  length_eq : next.data.length = buffer.data.length

theorem extends_put (room : bytes.length ≤ buffer.remain.length) :
    Extends buffer bytes (buffer.put bytes room) :=
  ⟨written_put _, length_data_put _⟩

theorem Extends.trans {middle next : Buffer} (left : Extends buffer first middle)
    (right : Extends middle second next) : Extends buffer (first ++ second) next :=
  ⟨by rw [right.written_eq, left.written_eq, append_assoc],
    right.length_eq.trans left.length_eq⟩

/-- Whenever the rendering succeeds it has put `bytes`. -/
def Appends (render : Buffer → Option Buffer) (bytes : Bytes) : Prop :=
  ∀ buffer next, render buffer = some next →
    ∃ room : bytes.length ≤ buffer.remain.length, next = buffer.put bytes room

theorem appends_write (bytes : Bytes) : Appends (fun buffer => buffer.write bytes) bytes := by
  intro buffer next written
  simp only [write] at written
  split at written
  case isTrue room => exact ⟨room, (some.inj written).symm⟩
  case isFalse => cases written

/-- `render(w) && further(w)`. -/
def andThen (render further : Buffer → Option Buffer) (buffer : Buffer) : Option Buffer :=
  (render buffer).bind further

theorem Appends.andThen {render further : Buffer → Option Buffer} (appends : Appends render first)
    (appends_further : Appends further second) :
    Appends (Buffer.andThen render further) (first ++ second) := by
  intro buffer next rendered
  obtain ⟨middle, rendered_first, rendered_second⟩ := bind_eq_some_iff.1 rendered
  obtain ⟨room, rfl⟩ := appends _ _ rendered_first
  obtain ⟨room_left, rfl⟩ := appends_further _ _ rendered_second
  have room_both : (first ++ second).length ≤ buffer.remain.length := by
    have enough := room_left
    rw [remain_put, length_drop] at enough
    rw [length_append]
    omega
  exact ⟨room_both, put_put _ _ _⟩

/-- A payload that was placed ahead ends up right behind the bytes in front of it. -/
theorem extends_shift {front payload : Bytes} {reserved : Nat} {moved : Buffer}
    (room : reserved + payload.length ≤ buffer.remain.length) (behind : front.length ≤ reserved)
    (room_front : front.length ≤ (buffer.place reserved payload room).remain.length)
    (shifted : ((buffer.place reserved payload room).put front room_front).shift buffer.index
      front.length reserved payload.length = some moved) :
    Extends buffer (front ++ payload) (moved.advance payload.length) := by
  have inside := buffer.index_le
  have fits := room
  rw [length_remain] at fits
  let placed := buffer.place _ _ room
  let filled := placed.put _ room_front
  have shifted : filled.shift buffer.index front.length reserved payload.length = some moved :=
    shifted
  have length_placed : placed.data.length = buffer.data.length := length_overlay (by omega)
  have length_front : filled.data.length = buffer.data.length :=
    (length_data_put _).trans length_placed
  have front_eq : filled.data.take (buffer.index + front.length) =
      buffer.data.take buffer.index ++ front := by
    refine (take_overlay (by rw [length_placed]; exact inside)).trans ?_
    exact congrArg (· ++ front) (take_overlay_of_le (by omega) (by omega))
  have payload_eq : (filled.data.drop (buffer.index + reserved)).take payload.length = payload := by
    have untouched : filled.data.drop (buffer.index + reserved) =
        placed.data.drop (buffer.index + reserved) :=
      drop_overlay_of_le (show buffer.index + front.length ≤ _ by omega)
        (by rw [length_placed]; exact inside)
    rw [untouched]
    exact take_drop_overlay (by omega)
  have index_eq : filled.index = buffer.index + front.length := rfl
  rw [shift] at shifted
  split at shifted
  · cases shifted
  split at shifted
  · cases shifted
  have moved_eq := some.inj shifted
  subst moved_eq
  have range_length : (filled.data.drop buffer.index).length =
      buffer.data.length - buffer.index := by rw [length_drop, length_front]
  have copied : (if front.length < reserved then
      copyUp front.length reserved payload.length (filled.data.drop buffer.index)
      else copyDown front.length reserved payload.length (filled.data.drop buffer.index)) =
        overlay (filled.data.drop buffer.index) front.length payload := by
    rw [← drop_drop] at payload_eq
    split
    · rw [copyUp_eq (by omega) (by omega), payload_eq]
    · rw [copyDown_eq (by omega) (by omega), payload_eq]
  have head_length : (filled.data.take buffer.index).length = buffer.index := by
    rw [length_take]
    omega
  have written_eq : (filled.data.take buffer.index ++
      overlay (filled.data.drop buffer.index) front.length payload).take
        (buffer.index + (front.length + payload.length)) =
          buffer.data.take buffer.index ++ (front ++ payload) := by
    rw [take_append, take_of_length_le (by omega), head_length, Nat.add_sub_cancel_left,
      take_overlay (by omega), ← append_assoc, ← append_assoc, ← take_add, front_eq]
  have data_length : (filled.data.take buffer.index ++
      overlay (filled.data.drop buffer.index) front.length payload).length =
        buffer.data.length := by
    rw [length_append, length_overlay (by omega)]
    omega
  refine ⟨?_, ?_⟩
  · simp only [written, advance, copied, index_eq]
    rw [Nat.min_eq_right (by omega), Nat.add_assoc, written_eq]
  · simp only [advance, copied, data_length]

end Buffer

end Futils.Binary
