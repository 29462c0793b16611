import Mathlib.Algebra.BigOperators.Group.List.Basic
import Mathlib.Order.Interval.Finset.Nat
import Mathlib.Tactic.Ring

/-!
# Shares of one counter

Several members draw on one counter.  `Balanced` says that the counter is the sum of what every
member has drawn; it survives new members and any step of one member that moves the counter by as
much as its own share.  A member that draws from a sequence covers positions of it; `covered`
collects them.  Limits that are only ever raised are the greatest of the values announced.
-/

namespace Futils.Lib.Shares

section Balance

variable {α : Type*} {share : α → Nat}

/-- The counter is the sum of all shares. -/
def Balanced (share : α → Nat) (counter : Nat) (members : List α) : Prop :=
  counter = (members.map share).sum

variable {counter : Nat} {members : List α}

theorem Balanced.nil : Balanced share 0 [] := rfl

theorem Balanced.push (balanced : Balanced share counter members) {member : α}
    (fresh : share member = 0) : Balanced share counter (members ++ [member]) := by
  simpa [Balanced, fresh] using balanced

theorem sum_map_set {index : Nat} {old : α} (found : members[index]? = some old) (new : α) :
    ((members.set index new).map share).sum + share old =
      (members.map share).sum + share new := by
  induction members generalizing index with
  | nil => simp at found
  | cons head rest ih =>
    cases index with
    | zero =>
      simp only [List.getElem?_cons_zero, Option.some.injEq] at found
      simp only [List.set_cons_zero, List.map_cons, List.sum_cons, found]
      omega
    | succ index =>
      have moved := ih found
      simp only [List.set_cons_succ, List.map_cons, List.sum_cons]
      omega

/-- One member draws, and the counter moves by as much. -/
theorem Balanced.set (balanced : Balanced share counter members) {index : Nat} {old new : α}
    {next : Nat} (found : members[index]? = some old)
    (moved : next + share old = counter + share new) :
    Balanced share next (members.set index new) := by
  have sums := @sum_map_set _ share _ _ _ found new
  rw [Balanced] at balanced ⊢
  omega

/-- What holds of all members and of the new one holds of all after the step. -/
theorem forall_mem_set {P : α → Prop} (all : ∀ member ∈ members, P member) {index : Nat} {new : α}
    (holds : P new) : ∀ member ∈ members.set index new, P member := by
  intro member found
  rcases List.mem_or_eq_of_mem_set found with old | rfl
  · exact all _ old
  · exact holds

end Balance

section Covered

variable {α : Type*} (first last : α → Nat)

/-- The positions that the pieces `[first, last)` cover. -/
def covered (pieces : List α) : Finset Nat :=
  pieces.foldr (fun piece rest => Finset.Ico (first piece) (last piece) ∪ rest) ∅

@[simp] theorem mem_covered {pieces : List α} {position : Nat} :
    position ∈ covered first last pieces ↔
      ∃ piece ∈ pieces, first piece ≤ position ∧ position < last piece := by
  induction pieces with
  | nil => simp [covered]
  | cons piece rest ih =>
    rw [covered, List.foldr_cons, ← covered, Finset.mem_union, ih]
    simp

variable {first last} {pieces more : List α} {length : Nat}
  (all : covered first last pieces = Finset.range length)
include all

theorem lt_iff_of_covered (position : Nat) :
    (∃ piece ∈ pieces, first piece ≤ position ∧ position < last piece) ↔ position < length := by
  rw [← mem_covered, all, Finset.mem_range]

/-- Pieces that stay below the end cover nothing new. -/
theorem covered_append_old (old : ∀ piece ∈ more, last piece ≤ length) :
    covered first last (pieces ++ more) = Finset.range length := by
  ext position
  have before := lt_iff_of_covered all position
  rw [mem_covered, Finset.mem_range, ← before]
  constructor
  · rintro ⟨piece, found, within⟩
    rcases List.mem_append.1 found with known | added
    · exact ⟨piece, known, within⟩
    · have below := old _ added
      exact before.2 (by omega)
  · rintro ⟨piece, found, within⟩
    exact ⟨piece, List.mem_append_left _ found, within⟩

/-- A piece that starts at the end extends what is covered. -/
theorem covered_append_next {piece : α}
    (first_eq : first piece = length) (grows : length ≤ last piece) :
    covered first last (pieces ++ [piece]) = Finset.range (last piece) := by
  ext position
  have before := lt_iff_of_covered all position
  rw [mem_covered, Finset.mem_range]
  constructor
  · rintro ⟨other, found, within⟩
    rcases List.mem_append.1 found with known | added
    · have below := before.1 ⟨other, known, within⟩
      omega
    · rw [List.mem_singleton.1 added] at within
      exact within.2
  · intro below
    by_cases old : position < length
    · obtain ⟨other, found, within⟩ := before.2 old
      exact ⟨other, List.mem_append_left _ found, within⟩
    · exact ⟨piece, by simp, by omega, below⟩

end Covered

/-- A limit raised by one more value is the greatest of all values. -/
theorem isGreatest_cons {values : List Nat} {limit : Nat}
    (greatest : IsGreatest {value | value ∈ values} limit) (value : Nat) :
    IsGreatest {other | other ∈ value :: values} (max value limit) := by
  have inserted := greatest.insert value
  rwa [show insert value {other | other ∈ values} = {other | other ∈ value :: values} by
    ext -
    simp] at inserted

theorem isGreatest_singleton (limit : Nat) : IsGreatest {value | value ∈ [limit]} limit := by
  simp

end Futils.Lib.Shares
