import Futils.Lib.Machine
import Futils.Quic.Resend
import Futils.Quic.Frame.Writer

/-!
# Received packet numbers and their acknowledgement

`RecvSpaceHistory` keeps the packet numbers of one space that were processed, as a list of ranges in
ascending order, and the window of those processed since the last ACK frame.  `send` acknowledges
the part of the list inside the window.
-/

namespace Futils.Quic.Ack

open Quic.Frame List

def infinity : Nat := max64

/-- `RecvRange`: the packet numbers from `begin` to `last`, both included. -/
structure RecvRange where
  begin : Nat
  last : Nat
  ordered : begin ≤ last
  deriving DecidableEq

def RecvRange.single (pn : Nat) : RecvRange := ⟨pn, pn, Nat.le_refl pn⟩

structure RecvSpaceHistory where
  ranges : List RecvRange := []
  /-- Packet numbers below are ignored. -/
  ignoreUnder : Nat := 0
  /-- Lowest packet number since the last ACK frame. -/
  lowestRecved : Nat := infinity
  /-- Largest packet number since the last ACK frame. -/
  largestRecved : Nat := infinity
  /-- Ack-eliciting packets since the last ACK frame. -/
  ackEliciting : Nat := 0
  deriving DecidableEq

namespace RecvSpaceHistory

/-- The loop of `is_duplicated`, over the ranges from the highest one down. -/
def isDuplicatedLoop (pn : Nat) : List RecvRange → Bool
  | [] => false
  | it :: rest =>
    if it.begin ≤ pn ∧ pn ≤ it.last then true
    else if it.last < pn then false
    else isDuplicatedLoop pn rest

/-- The loop of `add_to_range`: `passed` are the ranges above, ascending, `rest` the ones below,
descending. -/
def addToRangeLoop (pn : Nat) : List RecvRange → List RecvRange → List RecvRange × Bool
  | prev :: more, [] =>
    if touches : pn + 1 = prev.begin then
      (⟨pn, prev.last, by have := prev.ordered; omega⟩ :: more, true)
    else (.single pn :: prev :: more, true)
  | [], [] => ([.single pn], true)
  | passed, it :: rest =>
    if next : it.last + 1 = pn then
      let grown : RecvRange := ⟨it.begin, pn, by have := it.ordered; omega⟩
      match passed with
      | [] => (rest.reverse ++ [grown], true)
      | prev :: more =>
        -- `erase(it.base())` removes the range above, whose `begin` was just lowered.
        if prev.begin = pn then (rest.reverse ++ grown :: more, true)
        else (rest.reverse ++ grown :: prev :: more, true)
    else if it.last < pn + 1 then (rest.reverse ++ it :: .single pn :: passed, true)
    else if it.begin ≤ pn ∧ pn ≤ it.last then (rest.reverse ++ it :: passed, false)
    else addToRangeLoop pn (it :: passed) rest

def deleteUnderLoop (pn : Nat) : List RecvRange → List RecvRange
  | [] => []
  | it :: rest =>
    if it.last < pn then deleteUnderLoop pn rest
    else if inside : it.begin ≤ pn ∧ pn ≤ it.last then ⟨pn, it.last, inside.2⟩ :: rest
    else it :: deleteUnderLoop pn rest

/-- The loop of `get_ranges`, over the ranges from the highest one down. -/
def getRangesLoop (lowest largest : Nat) : List RecvRange → List ACKRange
  | [] => []
  | it :: rest =>
    if largest < it.begin then getRangesLoop lowest largest rest
    else if it.last < lowest then []
    else
      { largest := if largest < it.last then largest else it.last
        smallest := if it.begin < lowest then lowest else it.begin } ::
          getRangesLoop lowest largest rest

variable (history : RecvSpaceHistory)

def isDuplicated (pn : Nat) : Bool :=
  if pn < history.ignoreUnder then true else isDuplicatedLoop pn history.ranges.reverse

def onAckSent : RecvSpaceHistory :=
  { history with ackEliciting := 0, largestRecved := infinity, lowestRecved := infinity }

def addToRange (pn : Nat) : RecvSpaceHistory × Bool :=
  if pn < history.ignoreUnder then (history, false)
  else
    let (ranges, added) := addToRangeLoop pn [] history.ranges.reverse
    ({ history with ranges := ranges }, added)

def onPacketProcessed (pn : Nat) (ackEliciting : Bool) : RecvSpaceHistory × Bool :=
  let fresh := history.lowestRecved = infinity
  let lowest := if fresh then pn else history.lowestRecved
  let largest := if fresh then pn else history.largestRecved
  addToRange
    { history with
      ackEliciting := history.ackEliciting + ackEliciting.toNat
      lowestRecved := if pn < lowest then pn else lowest
      largestRecved := if pn > largest then pn else largest } pn

def deleteUnder (pn : Nat) : RecvSpaceHistory × Bool :=
  if pn < history.ignoreUnder then (history, false)
  else
    ({ history with ignoreUnder := pn, ranges := deleteUnderLoop pn history.ranges }, true)

def getRanges : List ACKRange :=
  if history.largestRecved = infinity ∨ history.lowestRecved = infinity then []
  else getRangesLoop history.lowestRecved history.largestRecved history.ranges.reverse

/-- `send`: the history, the packet, the result and `largest_ack`. -/
def send (w : FWriter) (delay : Option Nat) (exponent : Nat) :
    RecvSpaceHistory × FWriter × IOResult × Nat :=
  if history.ackEliciting = 0 then (history, w, .noData, infinity)
  else if history.getRanges.isEmpty then (history, w, .noData, infinity)
  else
    match convertToACKFrame history.getRanges with
    | none => (history, w, .fatal, infinity)
    | some frame =>
      let frame := { frame with
        ackDelay := delay.elim frame.ackDelay fun base => encodeAckDelay base exponent }
      if w.remain < frame.len then (history, w, .noCapacity, infinity)
      else
        match w.write (.ack frame) with
        | (w, false) => (history, w, .fatal, infinity)
        | (w, true) => (history.onAckSent, w, .ok, frame.largestAck)

theorem history_send (w : FWriter) (delay : Option Nat) (exponent : Nat) :
    (history.send w delay exponent).1 = history ∨
      (history.send w delay exponent).1 = history.onAckSent := by
  rw [send]
  split
  · exact .inl rfl
  split
  · exact .inl rfl
  split
  · exact .inl rfl
  simp only
  split
  · exact .inl rfl
  split
  · exact .inl rfl
  · exact .inr rfl

end RecvSpaceHistory

open RecvSpaceHistory

section Ranges

def Covered (ranges : List RecvRange) (pn : Nat) : Prop :=
  ∃ range ∈ ranges, range.begin ≤ pn ∧ pn ≤ range.last

/-- Ranges in ascending order, with more than `gap` between the ends of any two of them. -/
def Gapped (gap : Nat) (ranges : List RecvRange) : Prop :=
  ranges.Pairwise fun lower upper => lower.last + gap < upper.begin

/-- The packet number lies right below a range that has another range below it: `add_to_range` does
not join the two. -/
def MissesMerge (ranges : List RecvRange) (pn : Nat) : Prop :=
  (∃ upper ∈ ranges, upper.begin = pn + 1) ∧ ∃ lower ∈ ranges, lower.last < pn
deriving Decidable

variable {pn gap : Nat} {ranges lower upper : List RecvRange} {range : RecvRange}

@[simp] theorem covered_nil : ¬ Covered [] pn := by
  simp [Covered]

@[simp] theorem covered_cons :
    Covered (range :: ranges) pn ↔ (range.begin ≤ pn ∧ pn ≤ range.last) ∨ Covered ranges pn := by
  simp [Covered]

@[simp] theorem covered_append :
    Covered (lower ++ upper) pn ↔ Covered lower pn ∨ Covered upper pn := by
  simp [Covered, or_and_right, exists_or]

@[simp] theorem covered_reverse : Covered ranges.reverse pn ↔ Covered ranges pn := by
  simp [Covered]

/-- A range stands between two lists that leave gaps around it. -/
theorem gapped_between (gapped_lower : Gapped gap lower) (gapped_upper : Gapped gap upper)
    (below : ∀ other ∈ lower, other.last + gap < range.begin)
    (above : ∀ other ∈ upper, range.last + gap < other.begin) :
    Gapped gap (lower ++ range :: upper) := by
  refine pairwise_append.2 ⟨gapped_lower, pairwise_cons.2 ⟨above, gapped_upper⟩, ?_⟩
  intro left left_mem right right_mem
  have gap_below := below _ left_mem
  rcases mem_cons.1 right_mem with rfl | later
  · exact gap_below
  · have gap_above := above _ later
    have ordered := range.ordered
    omega

/-- The parts of such a list around one of its ranges. -/
theorem Gapped.split (gapped : Gapped gap (lower ++ range :: upper)) :
    Gapped gap lower ∧ Gapped gap upper ∧ (∀ other ∈ lower, other.last + gap < range.begin) ∧
      ∀ other ∈ upper, range.last + gap < other.begin := by
  obtain ⟨gapped_lower, gapped_rest, between⟩ := pairwise_append.1 gapped
  obtain ⟨above, gapped_upper⟩ := pairwise_cons.1 gapped_rest
  exact ⟨gapped_lower, gapped_upper,
    fun other member => between _ member _ (mem_cons_self ..), above⟩

/-- A range stands below a list when it ends before every number of the list, with a gap. -/
theorem gapped_cons : Gapped gap (range :: ranges) ↔
    Gapped gap ranges ∧ ∀ other, Covered ranges other → range.last + gap < other := by
  rw [Gapped, pairwise_cons, and_comm]
  refine and_congr_right fun _ => ⟨?_, ?_⟩
  · rintro above _ ⟨upper, member, reaches, -⟩
    exact lt_of_lt_of_le (above _ member) reaches
  · intro above upper member
    exact above _ ⟨upper, member, le_rfl, upper.ordered⟩

/-- Above a number behind `range`, a range may start right after it only where a merge is missed. -/
theorem clear_above (gap_le : gap ≤ 1) (above : ∀ other ∈ upper, pn < other.begin)
    (merges : gap = 1 → ¬ MissesMerge (lower ++ range :: upper) pn) (below : range.last < pn) :
    ∀ other ∈ upper, pn + gap < other.begin := by
  intro other member
  have other_above := above _ member
  rcases Nat.lt_or_ge (pn + gap) other.begin with apart | close
  · exact apart
  · exact absurd ⟨⟨other, by simp [member], by omega⟩, range, by simp, below⟩ (merges (by omega))

/-- A range grows by the number behind it. -/
theorem gapped_grow (gapped : Gapped gap (lower ++ range :: upper)) (next : range.last + 1 = pn)
    (clear : ∀ other ∈ upper, pn + gap < other.begin) {ordered : range.begin ≤ pn} :
    let grown := lower ++ ⟨range.begin, pn, ordered⟩ :: upper
    Gapped gap grown ∧ ∀ other, Covered grown other ↔
      other = pn ∨ Covered (lower ++ range :: upper) other := by
  obtain ⟨gapped_lower, gapped_upper, below, -⟩ := gapped.split
  refine ⟨gapped_between gapped_lower gapped_upper below clear, fun other => ?_⟩
  simp only [covered_append, covered_cons]
  grind

/-- `add_to_range` adds one packet number and keeps the order, and the gaps where no merge is
missed. -/
theorem addToRangeLoop_spec (gap_le : gap ≤ 1) {passed rest : List RecvRange}
    (gapped : Gapped gap (rest.reverse ++ passed)) (above : ∀ other ∈ passed, pn < other.begin)
    (fresh : ¬ Covered (rest.reverse ++ passed) pn)
    (merges : gap = 1 → ¬ MissesMerge (rest.reverse ++ passed) pn) :
    let added := (addToRangeLoop pn passed rest).1
    Gapped gap added ∧ ∀ other, Covered added other ↔
      other = pn ∨ Covered (rest.reverse ++ passed) other := by
  fun_induction addToRangeLoop pn passed rest with
  | case1 prev more touches =>
    refine ⟨pairwise_cons.2 (pairwise_cons.1 gapped), fun other => ?_⟩
    have ordered := prev.ordered
    simp only [reverse_nil, nil_append, covered_cons]
    grind
  | case2 prev more apart =>
    refine ⟨gapped_cons.2 ⟨gapped, fun other covered => ?_⟩, fun other => ?_⟩
    · have later := (gapped_cons.1 gapped).2 other
      have ordered := prev.ordered
      simp only [covered_cons, RecvRange.single] at covered ⊢
      grind
    · simp only [reverse_nil, nil_append, covered_cons, RecvRange.single]
      grind
  | case3 =>
    refine ⟨pairwise_singleton _ _, fun other => ?_⟩
    simp [RecvRange.single]
    omega
  | case4 it rest next | case6 it rest next =>
    rw [reverse_cons, append_assoc] at gapped merges ⊢
    exact gapped_grow gapped next (clear_above gap_le above merges (by omega))
  | case5 it rest next grown prev more same =>
    have prev_above := above _ mem_cons_self
    omega
  | case7 passed it rest not_next lower =>
    rw [reverse_cons, append_assoc, singleton_append] at gapped fresh merges ⊢
    have it_ordered := it.ordered
    have outside : ¬ (it.begin ≤ pn ∧ pn ≤ it.last) := fun inside => fresh (by simp [inside])
    obtain ⟨gapped_lower, gapped_upper, below_it, above_it⟩ := gapped.split
    refine ⟨gapped_between gapped_lower (pairwise_cons.2
      ⟨clear_above gap_le above merges (show it.last < pn by omega), gapped_upper⟩) below_it
      (forall_mem_cons.2 ⟨by simp only [RecvRange.single]; omega, above_it⟩),
      fun other => ?_⟩
    simp only [covered_append, covered_cons, RecvRange.single]
    grind
  | case8 passed it rest _ _ inside => exact absurd ⟨it, by simp, inside⟩ fresh
  | case9 passed it rest not_next lower outside ih =>
    rw [reverse_cons, append_assoc] at gapped fresh merges ⊢
    refine ih gapped (forall_mem_cons.2 ⟨by omega, above⟩) fresh merges

/-- The search of `is_duplicated` from the highest range down finds exactly the covered numbers. -/
theorem isDuplicatedLoop_iff (gapped : Gapped gap ranges.reverse) :
    isDuplicatedLoop pn ranges ↔ Covered ranges pn := by
  induction ranges with
  | nil => simp [isDuplicatedLoop]
  | cons it rest ih =>
    rw [reverse_cons] at gapped
    obtain ⟨gapped_rest, -, below_it, -⟩ := gapped.split
    rw [isDuplicatedLoop]
    split
    case isTrue inside => simp [inside]
    case isFalse outside =>
      split
      case isTrue it_below =>
        have not_lower : ¬ Covered rest pn := by
          rintro ⟨other, member, -, reaches⟩
          have gap_below := below_it _ (mem_reverse.2 member)
          have ordered := it.ordered
          omega
        simp [outside, not_lower]
      case isFalse => simp [ih gapped_rest, outside]

/-- `delete_under` keeps the numbers from `pn` on. -/
theorem deleteUnderLoop_spec (gapped : Gapped gap ranges) :
    Gapped gap (deleteUnderLoop pn ranges) ∧
      ∀ other, Covered (deleteUnderLoop pn ranges) other ↔
        Covered ranges other ∧ pn ≤ other := by
  induction ranges with
  | nil => simp [deleteUnderLoop, Gapped]
  | cons it rest ih =>
    obtain ⟨gapped_rest, above_it⟩ := gapped_cons.1 gapped
    obtain ⟨ih_gapped, ih_covered⟩ := ih gapped_rest
    rw [deleteUnderLoop]
    by_cases it_below : it.last < pn
    · rw [if_pos it_below]
      refine ⟨ih_gapped, fun other => ?_⟩
      rw [covered_cons]
      grind
    · rw [if_neg it_below]
      by_cases inside : it.begin ≤ pn ∧ pn ≤ it.last
      · -- The loop stops here: every later range is above `pn`.
        rw [dif_pos inside]
        refine ⟨gapped_cons.2 ⟨gapped_rest, above_it⟩, fun other => ?_⟩
        rw [covered_cons, covered_cons]
        grind
      · rw [dif_neg inside]
        refine ⟨gapped_cons.2 ⟨ih_gapped, fun other covered => ?_⟩, fun other => ?_⟩
        · exact above_it _ ((ih_covered _).1 covered).1
        · rw [covered_cons, covered_cons]
          grind

/-- On spaced ranges, `get_ranges` returns the part inside the window as ranges that an ACK frame
can carry. -/
theorem getRangesLoop_spec {lowest largest : Nat} (window : lowest ≤ largest)
    (spaced : Gapped 1 ranges.reverse) :
    let acked := getRangesLoop lowest largest ranges
    Apart acked ∧ ∀ other, Acknowledged acked other ↔
      Covered ranges other ∧ lowest ≤ other ∧ other ≤ largest := by
  induction ranges with
  | nil =>
    refine ⟨⟨by simp [getRangesLoop], Pairwise.nil⟩, ?_⟩
    simp [getRangesLoop]
  | cons it rest ih =>
    rw [reverse_cons] at spaced
    obtain ⟨spaced_rest, -, below_it, -⟩ := Gapped.split spaced
    obtain ⟨ih_apart, ih_acked⟩ := ih spaced_rest
    have it_ordered := it.ordered
    have lower : ∀ other, Covered rest other → other + 1 < it.begin := by
      rintro _ ⟨range, member, -, reaches⟩
      exact lt_of_le_of_lt (Nat.succ_le_succ reaches) (below_it _ (mem_reverse.2 member))
    simp only [getRangesLoop]
    by_cases it_above : largest < it.begin
    · rw [if_pos it_above]
      refine ⟨ih_apart, fun other => ?_⟩
      rw [covered_cons]
      grind
    · rw [if_neg it_above]
      by_cases it_below : it.last < lowest
      · -- The loop stops here: every later range is below the window.
        rw [if_pos it_below]
        refine ⟨⟨by simp, Pairwise.nil⟩, fun other => ?_⟩
        simp only [acknowledged_nil, covered_cons]
        grind
      · rw [if_neg it_below]
        refine ⟨apart_cons.2 ⟨?_, ih_apart, fun other acked => ?_⟩, fun other => ?_⟩
        · grind
        · grind
        · rw [acknowledged_cons, covered_cons]
          grind

end Ranges

end Futils.Quic.Ack
