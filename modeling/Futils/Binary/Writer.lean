import Futils.Core.Basic

/-!
# Writers over a fixed buffer

`binary::writer` writes into a buffer of fixed size.  A write that does not fit fills the buffer and
fails; renderings chain writes with `&&`, so that a failure stops the rest but keeps what was
written.  `Writes render bytes` is the specification of such a rendering.
-/

namespace Futils.Binary

/-- A writer: the size of its buffer and the bytes written so far, which fit. -/
structure Writer where
  capacity : Nat
  written : Bytes
  fits : written.length ≤ capacity

namespace Writer

def ofCapacity (capacity : Nat) : Writer := ⟨capacity, [], Nat.zero_le _⟩

variable (writer : Writer) (data : Bytes)

/-- `remain().size()`: free room of the buffer. -/
def remain : Nat := writer.capacity - writer.written.length

/-- Put `data` behind what was written. -/
def append (room : data.length ≤ writer.remain) : Writer where
  capacity := writer.capacity
  written := writer.written ++ data
  fits := by
    have fits := writer.fits
    simp only [remain] at room
    rw [List.length_append]
    omega

/-- `write(rvec)`. -/
def write : Writer × Bool :=
  if room : data.length ≤ writer.remain then (writer.append data room, true)
  else
    (writer.append (data.take writer.remain) (by rw [List.length_take]; omega), false)

@[simp] theorem written_append (room : data.length ≤ writer.remain) :
    (writer.append data room).written = writer.written ++ data := rfl

@[simp] theorem remain_append (room : data.length ≤ writer.remain) :
    (writer.append data room).remain = writer.remain - data.length := by
  simp only [append, remain, List.length_append]
  omega

@[simp] theorem remain_ofCapacity (capacity : Nat) : (ofCapacity capacity).remain = capacity :=
  rfl

theorem append_append {first second : Bytes} (room : first.length ≤ writer.remain)
    (room_left : second.length ≤ (writer.append first room).remain)
    (room_both : (first ++ second).length ≤ writer.remain) :
    (writer.append first room).append second room_left =
      writer.append (first ++ second) room_both := by
  simp [append]

/-- Two writes that follow each other. -/
theorem append_chain {writer next last : Writer} {first second : Bytes}
    {room : first.length ≤ writer.remain} {room_left : second.length ≤ next.remain}
    (first_eq : next = writer.append first room) (second_eq : last = next.append second room_left) :
    ∃ room_both, last = writer.append (first ++ second) room_both := by
  subst first_eq second_eq
  have fits := room_left
  rw [remain_append] at fits
  have room_both : (first ++ second).length ≤ writer.remain := by
    rw [List.length_append]
    omega
  exact ⟨room_both, append_append _ _ _ _⟩

/-- `first(w) && second(w)`: a failure of `first` skips `second`. -/
def andThen (first second : Writer → Writer × Bool) (writer : Writer) : Writer × Bool :=
  if (first writer).2 then second (first writer).1 else first writer

variable {second first : Writer → Writer × Bool}

theorem andThen_ok {writer : Writer} (ok : (andThen first second writer).2) :
    (first writer).2 ∧ andThen first second writer = second (first writer).1 := by
  rw [andThen] at ok ⊢
  split at ok
  case isTrue done => exact ⟨done, if_pos done⟩
  case isFalse failed => exact absurd ok failed

/-- The rendering appends `bytes` wherever they fit. -/
def Writes (render : Writer → Writer × Bool) (bytes : Bytes) : Prop :=
  ∀ (writer : Writer) (room : bytes.length ≤ writer.remain),
    render writer = (writer.append bytes room, true)

theorem writes_write : Writes (fun writer => writer.write data) data := by
  intro writer room
  simp [write, room]

theorem writes_true : Writes (fun writer => (writer, true)) [] := by
  intro writer room
  simp [append]

theorem Writes.andThen {left right : Bytes} (writes_first : Writes first left)
    (writes_second : Writes second right) :
    Writes (Writer.andThen first second) (left ++ right) := by
  intro writer room
  rw [List.length_append] at room
  have room_left : left.length ≤ writer.remain := by omega
  have room_right : right.length ≤ (writer.append left room_left).remain := by
    rw [remain_append]
    omega
  rw [Writer.andThen, writes_first _ room_left, if_pos rfl, writes_second _ room_right,
    append_append]

end Writer

end Futils.Binary
