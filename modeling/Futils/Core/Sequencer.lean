import Futils.Core.Basic

/-!
# The sequencer

`Sequencer` is a buffer with a read position `rptr`.  The modelled functions take the buffer and the
position and return the position they leave behind.
-/

namespace Futils.Sequencer

open List Nat

/-- The bytes of an ASCII string literal. -/
def ascii (text : String) : Bytes := text.toList.map fun c => UInt8.ofNat c.toNat

def toUpper (c : UInt8) : UInt8 := if 97 ≤ c ∧ c ≤ 122 then c - 97 + 65 else c

def ignoreCase (a b : UInt8) : Bool := toUpper a == toUpper b

/-- `match_impl` reaches the end of `pattern` on what is left of the buffer. -/
def startsWith (compare : UInt8 → UInt8 → Bool) : Bytes → Bytes → Bool
  | [], _ => true
  | _ :: _, [] => false
  | p :: pattern, c :: rest => compare c p && startsWith compare pattern rest

variable (buf : Bytes) (rptr : Nat)

/-- `eos`: no byte is left at `rptr`. -/
def eos : Bool := decide (buf.length ≤ rptr)

/-- `current`: the byte at `rptr`, or the null character. -/
def current : UInt8 := buf.getD rptr 0

/-- `seek_if`: whether the buffer goes on with `pattern`, and the position after it. -/
def seekIf (compare : UInt8 → UInt8 → Bool) (pattern buf : Bytes) (rptr : Nat) : Bool × Nat :=
  if startsWith compare pattern (buf.drop rptr) then (true, rptr + pattern.length) else (false, rptr)

/-- `consume`: one byte forward, if there is one. -/
def consume : Nat := if rptr < buf.length then rptr + 1 else rptr

/-- `consume_if`: one byte forward when it is `c`. -/
def consumeIf (c : UInt8) (buf : Bytes) (rptr : Nat) : Bool × Nat :=
  if buf[rptr]? = some c then (true, rptr + 1) else (false, rptr)

/-- The loop that consumes bytes as long as they meet `keep` and the buffer has not ended. -/
def consumeWhile (keep : UInt8 → Bool) (buf : Bytes) (rptr : Nat) : Nat :=
  rptr + ((buf.drop rptr).takeWhile keep).length

/-- The bytes of a range of the buffer. -/
def slice (start stop : Nat) : Bytes := substr buf start (stop - start)

section Slice

variable {buf : Bytes} {start middle stop : Nat}

theorem length_slice (within : stop ≤ buf.length) : (slice buf start stop).length = stop - start := by
  simp only [slice, length_substr]
  omega

@[simp] theorem slice_self (buf : Bytes) (pos : Nat) : slice buf pos pos = [] := by
  simp [slice, substr]

theorem drop_eq_slice_append (ordered : start ≤ stop) :
    buf.drop start = slice buf start stop ++ buf.drop stop := by
  have split := List.take_append_drop (stop - start) (buf.drop start)
  rwa [List.drop_drop, Nat.add_sub_cancel' ordered, eq_comm] at split

theorem slice_append_slice (first : start ≤ middle) (second : middle ≤ stop) :
    slice buf start stop = slice buf start middle ++ slice buf middle stop := by
  have lengths : stop - start = (middle - start) + (stop - middle) := by omega
  simp only [slice, substr, lengths, List.take_add, List.drop_drop, Nat.add_sub_cancel' first]

theorem slice_append_right (within : stop ≤ buf.length) (more : Bytes) :
    slice (buf ++ more) start stop = slice buf start stop := by
  by_cases ordered : start ≤ stop
  · have enough : stop - start ≤ (buf.drop start).length := by
      rw [length_drop]
      omega
    simp only [slice, substr]
    rw [drop_append_of_le_length (by omega), take_append_of_le_length enough]
  · have empty : stop - start = 0 := by omega
    simp [slice, substr, empty]

theorem slice_succ {c : UInt8} (ordered : start ≤ stop) (here : buf[stop]? = some c) :
    slice buf start (stop + 1) = slice buf start stop ++ [c] := by
  rw [slice_append_slice ordered (le_succ _)]
  have length : stop + 1 - stop = 1 := by omega
  simp only [slice, substr, length, take_one, head?_drop, here, Option.toList_some]

/-- A line end that has been read. -/
theorem slice_lineEnd (ordered : start ≤ stop) (first : buf[stop]? = some 13)
    (second : buf[stop + 1]? = some 10) : start ≤ stop + 2 ∧ stop + 2 ≤ buf.length ∧
      slice buf start (stop + 2) = slice buf start stop ++ [13, 10] := by
  refine ⟨by omega, (List.getElem?_eq_some_iff.1 second).1, ?_⟩
  rw [slice_succ (le_succ_of_le ordered) second, slice_succ ordered first, append_assoc,
    singleton_append]

theorem drop_eq_slice_cons {c : UInt8} (ordered : start ≤ stop) (here : buf[stop]? = some c) :
    buf.drop start = slice buf start stop ++ c :: buf.drop (stop + 1) := by
  obtain ⟨bound, value⟩ := List.getElem?_eq_some_iff.1 here
  rw [drop_eq_slice_append ordered, drop_eq_getElem_cons bound, value]

theorem getElem?_append_of_some {c : UInt8} {pos : Nat} (here : buf[pos]? = some c) (more : Bytes) :
    (buf ++ more)[pos]? = some c := by
  obtain ⟨bound, -⟩ := List.getElem?_eq_some_iff.1 here
  rw [getElem?_append_left bound, here]

end Slice

theorem getElem?_current {buf : Bytes} {pos : Nat} (inside : pos < buf.length) :
    buf[pos]? = some (current buf pos) := by
  simp [current, inside]

theorem getElem?_of_not_eos {buf : Bytes} {rptr : Nat} (more : eos buf rptr = false) :
    buf[rptr]? = some (current buf rptr) := by
  have bound : rptr < buf.length := by simpa [eos] using more
  exact getElem?_current bound

theorem lt_of_not_eos {buf : Bytes} {rptr : Nat} (more : eos buf rptr = false) :
    rptr < buf.length := by simpa [eos] using more

section Drop

variable {buf text after : Bytes} {rptr : Nat} {c : UInt8}

theorem not_eos_of_drop (here : buf.drop rptr = c :: after) : eos buf rptr = false := by
  have length := congrArg length here
  rw [length_drop, length_cons] at length
  exact decide_eq_false (by omega)

theorem current_of_drop (here : buf.drop rptr = c :: after) : current buf rptr = c := by
  have first : buf[rptr]? = some c := by rw [← head?_drop, here, head?_cons]
  rw [getElem?_of_not_eos (not_eos_of_drop here)] at first
  exact Option.some.inj first

theorem drop_add_of_drop (here : buf.drop rptr = text ++ after) :
    buf.drop (rptr + text.length) = after := by
  rw [← drop_drop, here, drop_left]

theorem drop_succ_of_drop (here : buf.drop rptr = c :: after) : buf.drop (rptr + 1) = after :=
  @drop_add_of_drop buf [c] _ _ here

theorem slice_of_drop (here : buf.drop rptr = text ++ after) :
    slice buf rptr (rptr + text.length) = text := by
  rw [slice, substr, here, Nat.add_sub_cancel_left, List.take_left]

/-- The loop stops at the first byte that does not meet the condition. -/
theorem consumeWhile_of_drop {keep : UInt8 → Bool} (here : buf.drop rptr = text ++ c :: after)
    (kept : ∀ b ∈ text, keep b) (stops : keep c = false) :
    consumeWhile keep buf rptr = rptr + text.length := by
  rw [consumeWhile, here, takeWhile_append_of_pos kept]
  simp [stops]

end Drop

section ConsumeWhile

variable (keep : UInt8 → Bool) (buf : Bytes) (rptr : Nat)

theorem le_consumeWhile : rptr ≤ consumeWhile keep buf rptr := le_add_right _ _

theorem consumeWhile_le_length (within : rptr ≤ buf.length) :
    consumeWhile keep buf rptr ≤ buf.length := by
  have bound := (takeWhile_sublist keep (l := buf.drop rptr)).length_le
  rw [length_drop] at bound
  unfold consumeWhile
  omega

theorem slice_consumeWhile :
    slice buf rptr (consumeWhile keep buf rptr) = (buf.drop rptr).takeWhile keep := by
  simp only [slice, consumeWhile, Nat.add_sub_cancel_left]
  exact (List.prefix_iff_eq_take.1 (List.takeWhile_prefix _)).symm

/-- What holds of the bytes the loop has consumed and of those it consumes. -/
theorem forall_mem_consumeWhile {P : UInt8 → Prop} {start : Nat} (reached : start ≤ rptr)
    (before : ∀ c ∈ slice buf start rptr, P c) (kept : ∀ c, keep c → P c) :
    ∀ c ∈ slice buf start (consumeWhile keep buf rptr), P c := by
  intro c member
  rw [slice_append_slice reached (le_consumeWhile _ buf _), slice_consumeWhile,
    mem_append] at member
  rcases member with member | member
  · exact before c member
  · exact kept c (all_eq_true.1 all_takeWhile c member)

/-- The loop stops at a byte that does not meet the condition. -/
theorem not_keep_consumeWhile (more : eos buf (consumeWhile keep buf rptr) = false) :
    keep (current buf (consumeWhile keep buf rptr)) = false := by
  have here := getElem?_of_not_eos more
  have rest : buf.drop (consumeWhile keep buf rptr) = (buf.drop rptr).dropWhile keep := by
    have split := takeWhile_append_dropWhile (p := keep) (l := buf.drop rptr)
    rw [consumeWhile, ← drop_drop]
    generalize (buf.drop rptr).takeWhile keep = taken at split ⊢
    rw [← split, drop_left, split]
  rw [← head?_drop, rest] at here
  have stops := head?_dropWhile_not keep (buf.drop rptr)
  rw [here] at stops
  simpa using stops

end ConsumeWhile

section StartsWith

variable {compare : UInt8 → UInt8 → Bool} {pattern : Bytes}

/-- A byte that no letter of the pattern matches ends the comparison. -/
theorem startsWith_append_cons {stop : UInt8} (strange : ∀ p ∈ pattern, compare stop p = false)
    (text after : Bytes) :
    startsWith compare pattern (text ++ stop :: after) = startsWith compare pattern text := by
  induction pattern generalizing text with
  | nil => simp [startsWith]
  | cons p pattern ih =>
    cases text with
    | nil => simp [startsWith, strange p (by simp)]
    | cons c text => simp [startsWith, ih (forall_mem_cons.1 strange).2]

theorem length_le_of_startsWith {text : Bytes} (found : startsWith compare pattern text) :
    pattern.length ≤ text.length := by
  induction pattern generalizing text with
  | nil => simp
  | cons p pattern ih =>
    cases text with
    | nil => simp [startsWith] at found
    | cons c text =>
      simp only [startsWith, Bool.and_eq_true] at found
      simpa using ih found.2

/-- Compared byte by byte, a text starts with its prefixes. -/
theorem startsWith_beq_iff {text : Bytes} :
    startsWith (· == ·) pattern text ↔ pattern <+: text := by
  induction pattern generalizing text with
  | nil => simp [startsWith]
  | cons p pattern ih =>
    cases text with
    | nil => simp [startsWith]
    | cons c text =>
      rw [startsWith, Bool.and_eq_true, ih, cons_prefix_cons, beq_iff_eq, @eq_comm _ c]

end StartsWith

end Futils.Sequencer
