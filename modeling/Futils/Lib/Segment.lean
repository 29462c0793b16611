import Mathlib.Data.List.Basic

/-!
# Segments of a stream

A segment is a block of data with the offset at which it stands in a stream.  `Agrees` says that a
segment is the part of the stream it claims to be; cutting, extending and comparing agreeing
segments never leaves the stream.
-/

namespace Futils.Lib.Segment

open List

variable {α : Type*}

/-- `data` is exactly what `stream` holds from `offset` on. -/
def Agrees (stream : List α) (offset : Nat) (data : List α) : Prop :=
  offset + data.length ≤ stream.length ∧ (stream.drop offset).take data.length = data
deriving [DecidableEq α] → Decidable _

/-- Position `position` lies in the block of `length` elements at `offset`. -/
def Within (offset length position : Nat) : Prop :=
  offset ≤ position ∧ position < offset + length
deriving Decidable

namespace Agrees

variable {stream left right : List α} {offset : Nat}

theorem end_le (agrees : Agrees stream offset left) : offset + left.length ≤ stream.length :=
  agrees.1

theorem nil (bound : offset ≤ stream.length) : Agrees stream offset [] :=
  ⟨by simpa using bound, by simp⟩

/-- Any part of the stream agrees with it. -/
theorem of_stream (stream : List α) {offset count : Nat}
    (bound : offset + count ≤ stream.length) :
    Agrees stream offset ((stream.drop offset).take count) := by
  have length_eq : ((stream.drop offset).take count).length = count := by
    simp only [length_take, length_drop]
    omega
  exact ⟨by rw [length_eq]; exact bound, by rw [length_eq]⟩

/-- A block holds the elements of the stream at its positions. -/
theorem getElem? (agrees : Agrees stream offset left) {position : Nat}
    (within : Within offset left.length position) :
    left[position - offset]? = stream[position]? := by
  obtain ⟨starts, ends⟩ := within
  conv_lhs => rw [← agrees.2]
  rw [getElem?_take_of_lt (by omega), getElem?_drop]
  congr 1
  omega

theorem eq_of_length (first : Agrees stream offset left) (second : Agrees stream offset right)
    (length_eq : left.length = right.length) : left = right := by
  rw [← first.2, ← second.2, length_eq]

theorem drop (agrees : Agrees stream offset left) {count : Nat} (bound : count ≤ left.length) :
    Agrees stream (offset + count) (left.drop count) := by
  obtain ⟨end_le, data_eq⟩ := agrees
  refine ⟨by simp only [length_drop]; omega, ?_⟩
  conv_rhs => rw [← data_eq]
  rw [drop_take, drop_drop, length_drop]

theorem take (agrees : Agrees stream offset left) (count : Nat) :
    Agrees stream offset (left.take count) := by
  obtain ⟨end_le, data_eq⟩ := agrees
  refine ⟨by simp only [length_take]; omega, ?_⟩
  conv_rhs => rw [← data_eq]
  rw [take_take, length_take]

theorem append (first : Agrees stream offset left)
    (second : Agrees stream (offset + left.length) right) :
    Agrees stream offset (left ++ right) := by
  refine ⟨by simpa [Nat.add_assoc] using second.end_le, ?_⟩
  rw [length_append, take_add, drop_drop, first.2, second.2]

/-- A block inside another one is read back from it. -/
theorem inside (outer : Agrees stream offset left) {shift : Nat}
    (inner : Agrees stream (offset + shift) right)
    (bound : shift + right.length ≤ left.length) :
    (left.drop shift).take right.length = right := by
  have part := (outer.drop (show shift ≤ left.length by omega)).take right.length
  refine part.eq_of_length inner ?_
  simp only [length_take, length_drop]
  omega

/-- The end of one block is the beginning of a block that starts inside it and ends past it. -/
theorem overlap (first : Agrees stream offset left) {shift : Nat}
    (second : Agrees stream (offset + shift) right) (starts : shift ≤ left.length)
    (ends : left.length ≤ shift + right.length) :
    left.drop shift = right.take (left.length - shift) := by
  refine (first.drop starts).eq_of_length (second.take _) ?_
  simp only [length_take, length_drop]
  omega

/-- An agreeing block extends the part of the stream before it. -/
theorem take_append (agrees : Agrees stream offset left) :
    stream.take offset ++ left = stream.take (offset + left.length) := by
  rw [take_add, agrees.2]

/-- A longer stream agrees with what a shorter one agreed with. -/
theorem extend (agrees : Agrees stream offset left) (more : List α) :
    Agrees (stream ++ more) offset left := by
  obtain ⟨end_le, data_eq⟩ := agrees
  refine ⟨by simp only [length_append]; omega, ?_⟩
  rw [drop_append_of_le_length (by omega), take_append_of_le_length, data_eq]
  simp only [length_drop]
  omega

end Agrees

end Futils.Lib.Segment
