import Futils.Core.Basic

/-!
# Readers

`binary::reader` consumes a byte string from the front.  `Reads parse bytes value` says that `parse`
reads `value` from `bytes`, whatever follows.
-/

namespace Futils.Binary

/-- A parser: a value and the bytes left, or a failure. -/
abbrev Parser (α : Type) := Bytes → Option (α × Bytes)

namespace Parser

/-- `read(n)`: the next `count` bytes. -/
def take (count : Nat) : Parser Bytes := fun input =>
  if input.length < count then none else some (input.take count, input.drop count)

def bind {α β : Type} (first : Parser α) (next : α → Parser β) : Parser β := fun input =>
  match first input with
  | none => none
  | some (value, rest) => next value rest

/-- A condition that is checked before going on. -/
def check {α : Type} (condition : Bool) (next : Parser α) : Parser α := fun input =>
  if condition then next input else none

/-- The parser reads `value` from `bytes` in front of any input. -/
def Reads {α : Type} (parse : Parser α) (bytes : Bytes) (value : α) : Prop :=
  ∀ rest, parse (bytes ++ rest) = some (value, rest)

theorem reads_take (bytes : Bytes) : Reads (take bytes.length) bytes bytes := by
  intro rest
  simp [take]

theorem reads_some {α : Type} (value : α) : Reads (fun rest => some (value, rest)) [] value := by
  intro rest
  rfl

theorem Reads.check {α : Type} {condition : Bool} {next : Parser α} {bytes : Bytes} {value : α}
    (holds : condition) (reads : Reads next bytes value) :
    Reads (Parser.check condition next) bytes value := by
  intro rest
  rw [Parser.check, if_pos holds, reads]

theorem Reads.bind {α β : Type} {first : Parser α} {next : α → Parser β} {bytes more : Bytes}
    {value : α} {result : β} (reads_first : Reads first bytes value)
    (reads_next : Reads (next value) more result) :
    Reads (Parser.bind first next) (bytes ++ more) result := by
  intro rest
  rw [Parser.bind, List.append_assoc, reads_first]
  exact reads_next _

end Parser

end Futils.Binary
