import Mathlib.Data.List.Basic
import Mathlib.Tactic.Ring

/-!
# Bytes, views and 64-bit arithmetic

The vocabulary shared by every subsystem: byte strings, the `substr` of a view, and the addition and
subtraction of unsigned 64-bit integers, which wrap.
-/

namespace Futils

abbrev Bytes := List UInt8

/-- `iovec::substr`: at most `count` elements from `pos` on, nothing when `pos` is past the end. -/
def substr {α : Type*} (data : List α) (pos count : Nat) : List α :=
  (data.drop pos).take count

def sub64 (left right : Nat) : Nat :=
  if right ≤ left then left - right else left + 2 ^ 64 - right

def add64 (left right : Nat) : Nat := (left + right) % 2 ^ 64

/-- The largest `uint64_t`, written `-1` or `~0` in the sources. -/
def max64 : Nat := 2 ^ 64 - 1

theorem sub64_of_le {left right : Nat} (ordered : right ≤ left) :
    sub64 left right = left - right := if_pos ordered

theorem sub64_of_lt {left right : Nat} (ordered : left < right) :
    sub64 left right = left + 2 ^ 64 - right := if_neg (by omega)

theorem add64_of_lt {left right : Nat} (fits : left + right < 2 ^ 64) :
    add64 left right = left + right := Nat.mod_eq_of_lt fits

/-- What holds of every byte value holds of every byte. -/
theorem forall_byte {P : UInt8 → Prop} (all : ∀ n : Fin 256, P (UInt8.ofFin n)) (c : UInt8) : P c :=
  all _

/-- The members of a list that has grown by one at its end. -/
theorem mem_snoc {α : Type*} {data : List α} {last element : α} :
    element ∈ data ++ [last] ↔ element ∈ data ∨ element = last := by
  rw [List.mem_append, List.mem_singleton]

@[simp] theorem length_substr {α : Type*} (data : List α) (pos count : Nat) :
    (substr data pos count).length = min count (data.length - pos) := by
  simp [substr]

/-- A computation that may fail has gone through when both of its parts have. -/
theorem bind_eq_ok.{u, v} {ε : Type u} {α β : Type v} {first : Except ε α}
    {second : α → Except ε β} {result : β} :
    first >>= second = .ok result ↔ ∃ middle, first = .ok middle ∧ second middle = .ok result := by
  cases first with
  | error => exact ⟨nofun, nofun⟩
  | ok middle =>
    refine ⟨fun same => ⟨middle, rfl, same⟩, ?_⟩
    rintro ⟨_, same, rest⟩
    cases same
    exact rest

end Futils
