import Futils.Core.Basic

/-!
# Object identifiers

`OID::iterate` takes the first byte of an arc of several bytes twice and leaves out the last one, and
divides the first byte of the content by 40 whatever the root.
-/

namespace Futils.Asn1

open List

/-- The calls for the bytes behind the first one, and the result; `inside` is `val` in the middle of
an arc. -/
def arcs : Option Nat → Bytes → List (Nat × Bool) × Bool
  | inside, [] => ([], inside.isNone)
  | inside, b :: rest =>
    let low := (b &&& 0x7f).toNat
    let val := inside.getD low
    if b &&& 0x80 ≠ 0 then arcs (some ((val <<< 7) % 2 ^ 64 ||| low)) rest
    else
      let (calls, ok) := arcs none rest
      ((val, rest.isEmpty) :: calls, ok)

/-- `iterate`: the arcs that are reported, each with its flag `last`, and the result. -/
def iterate : Bytes → List (Nat × Bool) × Bool
  | [] => ([], true)
  | b :: rest =>
    let (calls, ok) := arcs none rest
    ((b.toNat / 40, false) :: (b.toNat % 40, rest.isEmpty) :: calls, ok)

/-- The bytes of an arc above its lowest seven bits. -/
def encodeHigh (num : Nat) : Bytes :=
  if num = 0 then [] else encodeHigh (num / 128) ++ [UInt8.ofNat (num % 128 + 128)]

def encodeArc (arc : Nat) : Bytes := encodeHigh (arc / 128) ++ [UInt8.ofNat (arc % 128)]

def encode (first second : Nat) (more : List Nat) : Bytes :=
  UInt8.ofNat (40 * first + second) :: more.flatMap encodeArc

/-- Every arc, with the flag on the last one. -/
def reported : List Nat → List (Nat × Bool)
  | [] => []
  | arc :: more => (arc, more.isEmpty) :: reported more

def EndsInside (content : Bytes) : Prop := ∃ b ∈ content.getLast?, b &&& 0x80 ≠ 0

theorem isEmpty_arcs (more : List Nat) : (more.flatMap encodeArc).isEmpty = more.isEmpty := by
  cases more <;> simp [encodeArc]

theorem arcs_small {more : List Nat} (small : ∀ arc ∈ more, arc < 128) :
    arcs none (more.flatMap encodeArc) = (reported more, true) := by
  induction more with
  | nil => rfl
  | cons arc more ih =>
    obtain ⟨arc_lt, more_lt⟩ := forall_mem_cons.1 small
    have bits : ∀ num : Fin 128, UInt8.ofNat num &&& 0x80 = 0 ∧
        (UInt8.ofNat num &&& 0x7f).toNat = num := by decide +kernel
    obtain ⟨high, low⟩ := bits ⟨arc, arc_lt⟩
    have single : encodeArc arc = [UInt8.ofNat arc] := by
      rw [encodeArc, Nat.div_eq_of_lt arc_lt, Nat.mod_eq_of_lt arc_lt, encodeHigh]
      rfl
    rw [flatMap_cons, single, singleton_append, arcs, if_neg (by simp [high]), ih more_lt,
      isEmpty_arcs]
    simp [reported, low]

theorem arcs_endsInside {content : Bytes} (ends : EndsInside content) (inside : Option Nat) :
    (arcs inside content).2 = false := by
  obtain ⟨last, found, set⟩ := ends
  induction content generalizing inside with
  | nil => simp at found
  | cons b rest ih =>
    cases rest with
    | nil => simp_all [arcs]
    | cons next rest =>
      have later (inside) := ih inside (by simpa using found)
      rw [arcs]
      split
      · exact later _
      · exact later none

/-- Arcs of single bytes are reported as they are, and a content of more than one byte that ends
inside an arc is refused. -/
theorem oid_decoded (first second : Nat) (more : List Nat) (content : Bytes) :
    (first ≤ 2 → second < 40 → (∀ arc ∈ more, arc < 128) →
      iterate (encode first second more) = (reported (first :: second :: more), true)) ∧
      (EndsInside content → content.length ≠ 1 → (iterate content).2 = false) := by
  constructor
  · intro root within small
    have byte : (UInt8.ofNat (40 * first + second)).toNat = 40 * first + second :=
      UInt8.toNat_ofNat_of_lt (show _ < 256 by omega)
    rw [encode, iterate, arcs_small small, byte, isEmpty_arcs, Nat.mul_add_div (by decide),
      Nat.div_eq_of_lt within, Nat.mul_add_mod, Nat.mod_eq_of_lt within]
    rfl
  · rintro ⟨last, found, set⟩ several
    obtain _ | ⟨b, _ | ⟨next, rest⟩⟩ := content
    · simp at found
    · simp at several
    · exact arcs_endsInside ⟨last, by simpa using found, set⟩ none

theorem oid_decoded_single : iterate (encode 1 3 [6, 1]) = (reported [1, 3, 6, 1], true) ∧
    (iterate [0x2a, 0x86]).2 = false :=
  ⟨(oid_decoded 1 3 [6, 1] []).1 (by decide) (by decide) (by decide),
    (oid_decoded 1 3 [6, 1] [0x2a, 0x86]).2 ⟨0x86, rfl, by decide⟩ (by decide)⟩

/-- The arc 840 is reported as 774, the arcs 2 and 40 as 3 and 0, and the beginning of a first arc of
two bytes is accepted. -/
theorem oid_not_decoded :
    encode 1 2 [840] = [0x2a, 0x86, 0x48] ∧
      iterate [0x2a, 0x86, 0x48] = ([(1, false), (2, false), (774, true)], true) ∧
      encode 2 40 [] = [120] ∧ iterate [120] = ([(3, false), (0, true)], true) ∧
      EndsInside [0x88] ∧ (iterate [0x88]).2 = true :=
  ⟨by simp [encode, encodeArc, encodeHigh], by decide, rfl, by decide, ⟨0x88, rfl, by decide⟩,
    by decide⟩

end Futils.Asn1
