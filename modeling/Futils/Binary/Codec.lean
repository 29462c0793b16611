import Futils.Binary.Reader
import Futils.Binary.Writer

/-!
# Renderings and the parsers that read them back

`Codes ends render len parse value` says that whenever `render` succeeds it appends `len` bytes, and
that `parse` reads `value` back from them, in front of anything that follows, or, with `ends`, at
the end of the input.  Chains of writes and chains of reads are composed field by field.
-/

namespace Futils.Binary

open Writer

variable {α β : Type}

/-- Whenever the rendering succeeds, it has appended `len` bytes from which `value` is read. -/
def Codes (ends : Bool) (render : Writer → Writer × Bool) (len : Nat) (parse : Parser α)
    (value : α) : Prop :=
  ∀ writer, (render writer).2 = true → ∃ bytes, ∃ room : bytes.length ≤ writer.remain,
    (render writer).1 = writer.append bytes room ∧ bytes.length = len ∧
      ∀ rest, (ends = true → rest = []) → parse (bytes ++ rest) = some (value, rest)

/-- A read that goes through goes through its first part. -/
theorem Parser.bind_eq_some {first : Parser α} {next : α → Parser β} {input : Bytes}
    {result : β × Bytes} :
    first.bind next input = some result ↔
      ∃ value rest, first input = some (value, rest) ∧ next value rest = some result := by
  rw [Parser.bind]
  cases first input with
  | none => simp
  | some found =>
    refine ⟨fun read => ⟨_, _, rfl, read⟩, ?_⟩
    rintro ⟨_, _, ⟨⟩, read⟩
    exact read

namespace Codes

variable {ends : Bool} {render first second : Writer → Writer × Bool} {len more : Nat}
  {parse : Parser α} {next : α → Parser β} {value : α} {result : β}

theorem andThen (coded : Codes false first len parse value)
    (coded_next : Codes ends second more (next value) result) :
    Codes ends (andThen first second) (len + more) (parse.bind next) result := by
  intro writer ok
  obtain ⟨done, chain_eq⟩ := andThen_ok ok
  rw [chain_eq] at ok ⊢
  obtain ⟨bytes, room, first_eq, length_eq, reads⟩ := coded _ done
  obtain ⟨others, room_left, second_eq, others_length, reads_next⟩ := coded_next _ ok
  obtain ⟨room_both, joined⟩ := append_chain first_eq second_eq
  refine ⟨bytes ++ others, room_both, joined, ?_, fun rest last => ?_⟩
  · rw [List.length_append, length_eq, others_length]
  · rw [List.append_assoc, Parser.bind, reads _ (by simp)]
    exact reads_next _ last

theorem map (coded : Codes ends render len parse value) (f : α → β) :
    Codes ends render len (parse.bind fun value rest => some (f value, rest)) (f value) := by
  intro writer ok
  obtain ⟨bytes, room, render_eq, length_eq, reads⟩ := coded _ ok
  refine ⟨bytes, room, render_eq, length_eq, fun rest last => ?_⟩
  rw [Parser.bind, reads _ last]

theorem of_len (coded : Codes ends render len parse value) (len_eq : len = more) :
    Codes ends render more parse value :=
  len_eq ▸ coded

/-- What is read in front of anything is read at the end. -/
theorem at_end (coded : Codes false render len parse value) :
    Codes ends render len parse value := by
  intro writer ok
  obtain ⟨bytes, room, render_eq, length_eq, reads⟩ := coded _ ok
  exact ⟨bytes, room, render_eq, length_eq, fun rest _ => reads _ nofun⟩

end Codes

theorem codes_pure (value : α) :
    Codes false (fun writer => (writer, true)) 0 (fun rest => some (value, rest)) value := by
  intro writer _
  simp [append]

theorem codes_fail {ends : Bool} {len : Nat} {parse : Parser α} {value : α} :
    Codes ends (fun writer => (writer, false)) len parse value :=
  fun _ ok => nomatch ok

/-- A rendering of known bytes that are read back. -/
theorem codes_of_writes {render : Writer → Writer × Bool} {bytes : Bytes} {parse : Parser α}
    {value : α} (succeeds : ∀ writer, (render writer).2 → bytes.length ≤ writer.remain)
    (writes : Writer.Writes render bytes) (reads : Parser.Reads parse bytes value) :
    Codes false render bytes.length parse value := by
  intro writer ok
  have room := succeeds _ ok
  refine ⟨bytes, room, ?_, rfl, fun rest _ => reads _⟩
  rw [writes _ _]

theorem Writer.write_ok {writer : Writer} {data : Bytes} (ok : (writer.write data).2) :
    data.length ≤ writer.remain := by
  rw [write] at ok
  split at ok
  case isTrue room => exact room
  case isFalse => cases ok

theorem codes_bytes (data : Bytes) :
    Codes false (fun writer => writer.write data) data.length (Parser.take data.length) data :=
  codes_of_writes (fun _ ok => write_ok ok) (writes_write _) (Parser.reads_take _)

theorem codes_array {size : Nat} (array : { bytes : Bytes // bytes.length = size }) :
    Codes false (fun writer => writer.write array.val) size (fun input =>
      if enough : size ≤ input.length then
        some (⟨input.take size, by rw [List.length_take]; omega⟩, input.drop size)
      else none) array := by
  obtain ⟨bytes, rfl⟩ := array
  refine codes_of_writes (fun _ ok => write_ok ok) (writes_write _) fun rest => ?_
  simp

/-- `read_best(~0)`: all that is left. -/
def Parser.rest : Parser Bytes := fun input => some (input, [])

theorem codes_rest (data : Bytes) :
    Codes true (fun writer => writer.write data) data.length Parser.rest data := by
  intro writer ok
  have room := write_ok ok
  refine ⟨data, room, ?_, rfl, fun rest last => ?_⟩
  · rw [writes_write _ _ _]
  · rw [last rfl, List.append_nil]
    rfl

end Futils.Binary
