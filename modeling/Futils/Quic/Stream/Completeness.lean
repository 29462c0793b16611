import Futils.Quic.Stream.Reassembly

/-!
# Completeness of stream reassembly

Reassembly loses nothing along runs in which every fragment is merged in full: a fragment below
the read position brings nothing new, a fragment put in front of the list ends before the first
range, and cuts are sound.  The ranges then stay apart, every byte received is either handed out
or buffered, and once the whole stream and its FIN have arrived the reads return the rest of the
stream and report its end.
-/

namespace Futils.Quic.Stream

open Lib.Machine Lib.Segment StreamFragment List

namespace SorterOp

def Carries : SorterOp → Nat → Prop
  | recv _ frag, position => Within frag.offset frag.fragment.length position
  | _, _ => False

instance (op : SorterOp) (position : Nat) : Decidable (op.Carries position) := by
  induction op using SorterOp.casesOn <;> dsimp only [SorterOp.Carries] <;> infer_instance

def carriesFin : SorterOp → Bool
  | recv _ frag => frag.fin
  | _ => false

end SorterOp

namespace RecvSorter

def Buffered (ranges : List StreamFragment) (position : Nat) : Prop :=
  ∃ range ∈ ranges, Within range.offset range.data.length position
deriving Decidable

/-- The ranges stand one after the other from `pos` on. -/
def Ordered : Nat → List StreamFragment → Prop
  | _, [] => True
  | pos, range :: rest => pos ≤ range.offset ∧ Ordered range.stop rest

/-- Nothing of the fragment is lost by `recv`. -/
def MergesFully (sorter : RecvSorter) : SorterOp → Prop
  | .recv _ frag =>
    sorter.done = false →
      if frag.offset < sorter.readPos then
        (∀ position < frag.stop, sorter.readPos ≤ position →
          Buffered sorter.sorted position) ∧ (frag.fin = true → sorter.fin = true)
      else
        CutsSoundly sorter.sorted frag.offset frag.stop ∧
          ∀ front ∈ sorter.sorted.head?, frag.offset < front.offset → frag.stop ≤ front.offset
  | _ => True

instance (sorter : RecvSorter) (op : SorterOp) : Decidable (sorter.MergesFully op) := by
  induction op using SorterOp.casesOn <;> dsimp only [MergesFully] <;> infer_instance

variable {sorter : RecvSorter} {range : StreamFragment}
  {before rest ranges middle after : List StreamFragment} {pos readPos : Nat} {frag : Fragment}
  {past : List (SorterOp × SorterOut)} {sizes : List Nat}

theorem MergesFully.soundCut {op : SorterOp} (full : sorter.MergesFully op) :
    sorter.SoundCut op := by
  cases op with
  | recv type frag =>
    intro unfinished ahead
    have merged := full unfinished
    rw [if_neg (by omega)] at merged
    exact merged.1
  | _ => trivial

variable {stream : Bytes}

theorem ordered_append :
    Ordered pos (before ++ range :: rest) ↔
      Ordered pos (before ++ [range]) ∧ Ordered range.stop rest := by
  induction before generalizing pos with
  | nil => simp [Ordered]
  | cons first before ih => simp [Ordered, ih, and_assoc]

/-- Only the end of the last range of a list can move without disturbing the order. -/
theorem ordered_replace {new : StreamFragment} (ordered : Ordered pos (before ++ [range]))
    (same : new.offset = range.offset) : Ordered pos (before ++ [new]) := by
  induction before generalizing pos with
  | nil => simpa [Ordered, same] using ordered
  | cons first before ih => exact ⟨ordered.1, ih ordered.2⟩

theorem ordered_snoc {new : StreamFragment} (ordered : Ordered pos (before ++ [range]))
    (later : range.stop ≤ new.offset) : Ordered pos (before ++ [range, new]) := by
  rw [ordered_append]
  exact ⟨ordered, later, trivial⟩

theorem Ordered.weaken {low high : Nat} (ordered : Ordered high ranges) (le : low ≤ high) :
    Ordered low ranges := by
  cases ranges with
  | nil => trivial
  | cons range rest => exact ⟨le_trans le ordered.1, ordered.2⟩

theorem Ordered.le_offset (ordered : Ordered pos ranges) (member : range ∈ ranges) :
    pos ≤ range.offset := by
  induction ranges generalizing pos with
  | nil => simp at member
  | cons first rest ih =>
    rcases mem_cons.1 member with rfl | member
    · exact ordered.1
    · have later := ih ordered.2 member
      have first_le := ordered.1
      simp only [stop] at later
      omega

@[simp] theorem not_buffered_nil (position : Nat) : ¬ Buffered [] position := by
  simp [Buffered]

@[simp] theorem buffered_append (left right : List StreamFragment) (position : Nat) :
    Buffered (left ++ right) position ↔ Buffered left position ∨ Buffered right position := by
  simp [Buffered, or_and_right, exists_or]

@[simp] theorem buffered_cons (range : StreamFragment) (rest : List StreamFragment)
    (position : Nat) :
    Buffered (range :: rest) position ↔
      Within range.offset range.data.length position ∨ Buffered rest position := by
  simp [Buffered]

/-- What a merge of `frag` into `ranges` keeps when nothing is lost. -/
structure Absorbed (readPos : Nat) (ranges : List StreamFragment) (frag : Fragment)
    (after : List StreamFragment) : Prop where
  ordered : Ordered readPos after
  kept : ∀ position, Buffered ranges position → Buffered after position
  added : ∀ position, Within frag.offset frag.fragment.length position → Buffered after position
  reach : ∀ limit, (∃ range ∈ ranges, limit ≤ range.stop) ∨ limit ≤ frag.stop →
    ∃ range ∈ after, limit ≤ range.stop

/-- Only the ranges that replace `range` have to be looked at. -/
theorem absorbed_of_middle {last : StreamFragment}
    (ordered : Ordered readPos (before ++ middle ++ rest))
    (covers : ∀ position, Within range.offset range.data.length position ∨
      Within frag.offset frag.fragment.length position → Buffered middle position)
    (last_mem : last ∈ middle) (range_le : range.stop ≤ last.stop)
    (frag_le : frag.stop ≤ last.stop) :
    Absorbed readPos (before ++ range :: rest) frag (before ++ middle ++ rest) where
  ordered := ordered
  kept := by
    simp only [buffered_append, buffered_cons]
    tauto
  added := by
    intro position inside
    simp only [buffered_append]
    exact .inl (.inr (covers _ (.inr inside)))
  reach := by
    have last_mem_after : last ∈ before ++ middle ++ rest := by simp [last_mem]
    rintro _ (⟨found, member, reached⟩ | reached)
    · simp only [mem_append, mem_cons] at member
      rcases member with member | rfl | member
      · exact ⟨found, by simp [member], reached⟩
      · exact ⟨last, last_mem_after, le_trans reached range_le⟩
      · exact ⟨found, by simp [member], reached⟩
    · exact ⟨last, last_mem_after, le_trans reached frag_le⟩

theorem mergeRange_absorbed (ordered : Ordered readPos (before ++ range :: rest))
    (starts : range.offset ≤ frag.offset) (fits : Ordered frag.stop rest) :
    Absorbed readPos (before ++ range :: rest) frag
      (before ++ mergeRange range frag ++ rest) := by
  obtain ⟨ordered_before, -⟩ := ordered_append.1 ordered
  unfold mergeRange
  split
  case isTrue duplicate =>
    refine absorbed_of_middle (by simpa using ordered) ?_ (mem_singleton_self _)
      (le_rfl) duplicate
    simp only [stop, Fragment.stop] at duplicate
    intro position inside
    simp only [buffered_cons, Within] at inside ⊢
    omega
  case isFalse longer =>
    split
    case isTrue touches =>
      have stop_eq : range.offset + (range.data ++
          frag.fragment.drop (range.stop - frag.offset)).length = frag.stop := by
        simp only [stop, Fragment.stop, length_append, length_drop]
          at longer touches ⊢
        omega
      refine absorbed_of_middle ?_ ?_ (mem_singleton_self _) ?_ (le_of_eq stop_eq.symm)
      · rw [append_assoc]
        exact ordered_append.2
          ⟨ordered_replace ordered_before rfl, fits.weaken (le_of_eq stop_eq)⟩
      · simp only [stop, Fragment.stop] at longer touches stop_eq
        intro position inside
        simp only [buffered_cons, Within, stop] at inside ⊢
        omega
      · have stop_le : range.stop ≤ frag.stop := by omega
        exact le_trans stop_le (le_of_eq stop_eq.symm)
    case isFalse apart =>
      refine absorbed_of_middle ?_ ?_ (mem_cons_of_mem _ (mem_singleton_self _)) ?_
        (le_rfl)
      · rw [show before ++ [range, ⟨frag.offset, frag.fragment, frag.fin⟩] ++ rest =
          before ++ [range] ++ ⟨frag.offset, frag.fragment, frag.fin⟩ :: rest by simp]
        refine ordered_append.2 ⟨?_, fits⟩
        rw [append_assoc]
        exact ordered_snoc ordered_before (by simp only; omega)
      · simp
      · have stop_le : range.stop ≤ frag.stop := by omega
        exact stop_le

/-- Filling the gap before the next range and going on with the rest of the fragment absorbs the
whole fragment. -/
theorem Absorbed.of_cut {nextofs : Nat} (aligned : frag.offset = range.stop)
    (before_next : frag.offset < nextofs) (past_next : nextofs < frag.stop)
    (absorbed : Absorbed readPos
      (before ++ [{ range with
        data := range.data ++ frag.fragment.take (nextofs - frag.offset) }] ++ rest)
      { frag with
        fragment := frag.fragment.drop (nextofs - frag.offset)
        offset := nextofs } after) : Absorbed readPos (before ++ range :: rest) frag after := by
  simp only [stop, Fragment.stop] at aligned past_next
  have stop_eq : nextofs + (frag.fragment.length - (nextofs - frag.offset)) = frag.stop := by
    simp only [Fragment.stop]
    omega
  refine ⟨absorbed.ordered, ?_, ?_, ?_⟩
  · intro position buffered
    refine absorbed.kept _ ?_
    simp only [buffered_append, buffered_cons, Within, length_append] at buffered ⊢
    rcases buffered with earlier | inside | later
    · exact .inl (.inl earlier)
    · exact .inl (.inr (.inl (by omega)))
    · exact .inr later
  · intro position inside
    by_cases early : position < nextofs
    · refine absorbed.kept _ ?_
      simp only [buffered_append, buffered_cons, Within, length_append, length_take]
        at inside ⊢
      exact .inl (.inr (.inl (by omega)))
    · refine absorbed.added _ ?_
      simp only [Within, length_drop] at inside ⊢
      omega
  · rintro limit (⟨found, member, reached⟩ | reached)
    · simp only [mem_append, mem_cons] at member
      rcases member with member | rfl | member
      · exact absorbed.reach _ (.inl ⟨found, by simp [member], reached⟩)
      · refine absorbed.reach _ (.inl ⟨_, mem_append_left _
          (mem_append_right _ (mem_singleton_self _)), le_trans reached ?_⟩)
        simp [stop]
      · exact absorbed.reach _ (.inl ⟨found, by simp [member], reached⟩)
    · refine absorbed.reach _ (.inr ?_)
      simp only [Fragment.stop, length_drop] at stop_eq reached ⊢
      omega

/-- The walk of `recv`, once it has reached a range that starts at or before the fragment, absorbs
the fragment. -/
theorem recvLoop_absorbed (bounded : stream.length < 2 ^ 63) (sorter : RecvSorter)
    (type : FrameType) {readPos : Nat} {before rest : List StreamFragment}
    {range : StreamFragment} {frag : Fragment}
    (ranges_agree : ∀ found ∈ range :: rest, found.AgreesWith stream)
    (frag_agrees : Agrees stream frag.offset frag.fragment)
    (ordered : Ordered readPos (before ++ range :: rest)) (starts : range.offset ≤ frag.offset)
    (cuts : CutsSoundly (range :: rest) frag.offset frag.stop) :
    ∃ after, Absorbed readPos (before ++ range :: rest) frag after ∧
      recvLoop sorter type before (range :: rest) frag =
        finish { sorter with sorted := after, fin := sorter.fin || frag.fin } := by
  induction rest generalizing before range frag with
  | nil =>
    rw [recvLoop, if_pos starts]
    exact ⟨_, mergeRange_absorbed ordered starts trivial, handleSingleRange_eq frag_agrees bounded _ _
      _ [] (ranges_agree _ (by simp)) starts⟩
  | cons next tail ih =>
    obtain ⟨range_agrees, rest_agrees⟩ := forall_mem_cons.1 ranges_agree
    obtain ⟨before_ordered, next_after, tail_ordered⟩ := ordered_append.1 ordered
    rw [recvLoop, if_pos starts]
    dsimp only
    split
    case isTrue next_starts =>
      rw [CutsSoundly, if_neg (by omega)] at cuts
      have moved : before ++ range :: next :: tail = before ++ [range] ++ next :: tail := by simp
      rw [moved] at ordered ⊢
      exact ih rest_agrees frag_agrees ordered next_starts cuts
    case isFalse next_later =>
      have before_next := not_le.1 next_later
      split
      case isTrue fits =>
        exact ⟨_, mergeRange_absorbed ordered starts ⟨fits, tail_ordered⟩,
          handleSingleRange_eq frag_agrees bounded _ _ _ _ range_agrees starts⟩
      case isFalse straddles =>
        have past_next := not_le.1 straddles
        rw [CutsSoundly, if_pos ⟨starts, before_next, past_next⟩] at cuts
        -- The ranges are apart, so the fragment begins where `range` ends.
        obtain ⟨aligned, later⟩ := cuts.resolve_right fun overlap => by omega
        have frag_end := frag_agrees.end_le
        obtain ⟨-, -, left⟩ := cut_agrees frag_agrees bounded range_agrees starts
          before_next past_next (.inl aligned)
        rw [cut_left_of_aligned (by omega) before_next aligned] at left ⊢
        have nothing_compared :
            substr range.data (sub64 frag.offset range.offset) max64 = [] := by
          rw [substr, sub64_of_le starts, drop_eq_nil_of_le, take_nil]
          simp only [stop] at aligned
          omega
        have gap_eq : substr frag.fragment 0 (sub64 next.offset range.stop) =
            frag.fragment.take (next.offset - frag.offset) := by
          rw [substr, drop_zero, sub64_of_le (by omega), aligned]
        rw [nothing_compared, length_nil, gap_eq]
        have stop_eq : next.offset + (frag.fragment.drop (next.offset - frag.offset)).length =
            frag.stop := by
          simp only [Fragment.stop, length_drop] at past_next ⊢
          omega
        have filled_stop : range.offset + (range.data ++
            frag.fragment.take (next.offset - frag.offset)).length = next.offset := by
          simp only [stop, Fragment.stop, length_append, length_take]
            at aligned past_next ⊢
          omega
        have filled_ordered : Ordered readPos (before ++ [{ range with
            data := range.data ++ frag.fragment.take (next.offset - frag.offset) }] ++
            next :: tail) := by
          rw [append_assoc, singleton_append, ordered_append]
          exact ⟨ordered_replace before_ordered rfl, le_of_eq filled_stop, tail_ordered⟩
        rw [← stop_eq] at later
        obtain ⟨after, absorbed, loop_eq⟩ := @ih _ _
          { frag with
            fragment := frag.fragment.drop _
            offset := next.offset }
          rest_agrees left filled_ordered (le_rfl) later
        exact ⟨after, absorbed.of_cut aligned before_next past_next, loop_eq⟩

theorem recvLoop_of_lt (sorter : RecvSorter) (type : FrameType) (before : List StreamFragment)
    (all_later : ∀ range ∈ ranges, frag.offset < range.offset) :
    recvLoop sorter type before ranges frag =
      push { sorter with sorted := before ++ ranges } frag := by
  induction ranges generalizing before with
  | nil => simp [recvLoop]
  | cons range rest ih =>
    obtain ⟨range_later, rest_later⟩ := forall_mem_cons.1 all_later
    have skip : recvLoop sorter type before (range :: rest) frag =
        recvLoop sorter type (before ++ [range]) rest frag := by
      cases rest <;> simp [recvLoop, not_le.2 range_later]
    rw [skip, ih _ rest_later]
    simp

theorem recv_absorbed (bounded : stream.length < 2 ^ 63) (type : FrameType)
    (unfinished : sorter.done = false) (ahead : ¬ frag.offset < sorter.readPos)
    (ranges_agree : ∀ range ∈ sorter.sorted, range.AgreesWith stream)
    (ordered : Ordered sorter.readPos sorter.sorted)
    (frag_agrees : Agrees stream frag.offset frag.fragment)
    (full : sorter.MergesFully (.recv type frag)) :
    ∃ after, Absorbed sorter.readPos sorter.sorted frag after ∧
      sorter.recv type frag =
        finish { sorter with sorted := after, fin := sorter.fin || frag.fin } := by
  have merges := full unfinished
  rw [if_neg ahead] at merges
  obtain ⟨cuts, front_fits⟩ := merges
  rw [recv, if_neg (by simp [unfinished]), if_neg ahead]
  match sorted_eq : sorter.sorted with
  | [] =>
    refine ⟨[⟨frag.offset, frag.fragment, frag.fin⟩], ?_, by simp [recvLoop, push, packNew]⟩
    refine ⟨⟨not_lt.1 ahead, trivial⟩, by simp, by simp, ?_⟩
    rintro _ (⟨_, member, -⟩ | reached)
    · simp at member
    · exact ⟨_, mem_singleton_self _, reached⟩
  | front :: rest =>
    rw [sorted_eq] at ordered ranges_agree cuts front_fits
    by_cases earlier : frag.offset < front.offset
    · have all_later : ∀ range ∈ front :: rest, frag.offset < range.offset := by
        intro range member
        have front_le := ((show Ordered front.offset (front :: rest) from
          ⟨le_rfl, ordered.2⟩).le_offset member)
        omega
      have fits := front_fits _ rfl earlier
      refine ⟨⟨frag.offset, frag.fragment, frag.fin⟩ :: front :: rest, ?_, ?_⟩
      · refine ⟨⟨not_lt.1 ahead, fits, ordered.2⟩, ?_, ?_, ?_⟩
        · intro position buffered
          rw [buffered_cons]
          exact .inr buffered
        · intro position inside
          rw [buffered_cons]
          exact .inl inside
        · rintro _ (⟨found, member, reached⟩ | reached)
          · exact ⟨found, mem_cons_of_mem _ member, reached⟩
          · exact ⟨_, mem_cons_self .., reached⟩
      · rw [recvLoop_of_lt _ _ [] all_later]
        simp [push, packNew, earlier]
    · exact @recvLoop_absorbed _ bounded _ _ _ [] _ _ _ ranges_agree
        frag_agrees ordered (not_lt.1 earlier) cuts

/-- The ranges stay apart, no byte is dropped unread, and the ranges reach as far as before. -/
structure Drained (readPos : Nat) (ranges : List StreamFragment) (pos : Nat)
    (after : List StreamFragment) : Prop where
  ordered : Ordered readPos ranges → Ordered pos after
  forward : readPos ≤ pos
  kept : ∀ position, Buffered ranges position → position < pos ∨ Buffered after position
  reach : ∀ limit, (∃ range ∈ ranges, limit ≤ range.stop) →
    limit ≤ pos ∨ ∃ range ∈ after, limit ≤ range.stop
  contiguous_eq : contiguous pos after = contiguous readPos ranges

theorem Drained.refl (readPos : Nat) (ranges : List StreamFragment) :
    Drained readPos ranges readPos ranges :=
  ⟨id, le_rfl, fun _ => .inr, fun _ => .inr, rfl⟩

theorem Drained.trans {first second third : Nat} (early : Drained first ranges second middle)
    (late : Drained second middle third after) :
    Drained first ranges third after where
  ordered := late.ordered ∘ early.ordered
  forward := le_trans early.forward late.forward
  kept := by
    intro position buffered
    rcases early.kept position buffered with handed | buffered
    · exact .inl (lt_of_lt_of_le handed late.forward)
    · exact late.kept _ buffered
  reach := by
    intro limit reached
    rcases early.reach limit reached with reached | reached
    · exact .inl (le_trans reached late.forward)
    · exact late.reach _ reached
  contiguous_eq := late.contiguous_eq.trans early.contiguous_eq

theorem drained_pop (front : StreamFragment) (rest : List StreamFragment) :
    Drained front.offset (front :: rest) (front.offset + front.data.length) rest where
  ordered := And.right
  forward := Nat.le_add_right _ _
  kept := by
    intro position buffered
    rcases (buffered_cons ..).1 buffered with inside | buffered
    · exact .inl inside.2
    · exact .inr buffered
  reach := by
    rintro _ ⟨found, member, reached⟩
    rcases mem_cons.1 member with rfl | member
    · exact .inl reached
    · exact .inr ⟨found, member, reached⟩
  contiguous_eq := by simp [contiguous, stop]

theorem drained_shift (front : StreamFragment) (rest : List StreamFragment) {room : Nat}
    (longer : room < front.data.length) :
    Drained front.offset (front :: rest) (front.offset + room)
      ({ front with offset := front.offset + room, data := front.data.drop room } :: rest) := by
  have stop_eq : front.offset + room + (front.data.drop room).length = front.stop := by
    simp only [length_drop, stop]
    omega
  refine ⟨?_, Nat.le_add_right _ _, ?_, ?_, ?_⟩
  · intro ordered
    refine ⟨le_rfl, ?_⟩
    simpa only [stop, stop_eq] using ordered.2
  · intro position buffered
    simp only [buffered_cons, Within, stop_eq, stop] at buffered ⊢
    rcases buffered with inside | buffered
    · by_cases early : position < front.offset + room
      · exact .inl early
      · exact .inr (.inl (by omega))
    · exact .inr (.inr buffered)
  · rintro _ ⟨found, member, reached⟩
    rcases mem_cons.1 member with rfl | member
    · exact .inr ⟨_, mem_cons_self .., le_trans reached (le_of_eq stop_eq.symm)⟩
    · exact .inr ⟨found, mem_cons_of_mem _ member, reached⟩
  · simp only [contiguous, beq_self_eq_true]
    simp only [stop, stop_eq]

theorem readLoop_drained (ranges : List StreamFragment) (readPos room : Nat) :
    Drained readPos ranges (readLoop ranges readPos room).2.1
      (readLoop ranges readPos room).1 := by
  induction ranges generalizing readPos room with
  | nil => exact .refl readPos []
  | cons front rest ih =>
    rw [readLoop]
    split
    case isTrue => exact .refl _ _
    case isFalse active =>
      have at_front : front.offset = readPos := by
        by_contra away
        exact active (.inr away)
      subst at_front
      split
      case isTrue longer => exact drained_shift _ _ longer
      case isFalse => exact (drained_pop _ _).trans (ih ..)

theorem readDirect_drained (sorter : RecvSorter) :
    Drained sorter.readPos sorter.sorted sorter.readDirect.1.readPos
      sorter.readDirect.1.sorted := by
  unfold readDirect
  split
  case h_1 => exact .refl ..
  case h_2 front rest sorted_eq =>
    split
    case isTrue => exact .refl ..
    case isFalse at_front =>
      rw [not_not] at at_front
      rw [sorted_eq, ← at_front]
      exact drained_pop _ _

theorem readBestLoop_drained (done : Bool) (ranges : List StreamFragment) (readPos : Nat)
    (accepts : Nat → Bool) :
    Drained readPos ranges (readBestLoop done ranges readPos accepts).2.1
      (readBestLoop done ranges readPos accepts).1 := by
  induction ranges generalizing readPos accepts with
  | nil => exact .refl readPos []
  | cons front rest ih =>
    rw [readBestLoop]
    split
    case isTrue => exact .refl _ _
    case isFalse at_front =>
      rw [not_not] at at_front
      subst at_front
      split
      case isTrue => exact drained_pop _ _
      case isFalse => exact (drained_pop _ _).trans (ih ..)

theorem contiguous_cons {front : StreamFragment} {rest : List StreamFragment} :
    contiguous readPos (front :: rest) ↔
      readPos = front.offset ∧ contiguous front.stop rest := by
  simp [contiguous]

/-- Contiguous ranges hold every byte between the read position and the end of any of them. -/
theorem buffered_of_contiguous {limit position : Nat}
    (contiguous_ranges : contiguous readPos ranges)
    (reached : limit ≤ readPos ∨ ∃ range ∈ ranges, limit ≤ range.stop)
    (unread : readPos ≤ position) (below : position < limit) : Buffered ranges position := by
  induction ranges generalizing readPos with
  | nil =>
    rcases reached with reached | ⟨_, member, -⟩
    · omega
    · simp at member
  | cons front rest ih =>
    obtain ⟨at_front, rest_contiguous⟩ := contiguous_cons.1 contiguous_ranges
    rw [buffered_cons]
    by_cases inside : position < front.stop
    · exact .inl ⟨by omega, inside⟩
    · refine .inr (ih rest_contiguous ?_ (not_lt.1 inside))
      rcases reached with reached | ⟨range, member, reached⟩
      · omega
      · rcases mem_cons.1 member with rfl | member
        · exact .inl reached
        · exact .inr ⟨range, member, reached⟩

/-- Ranges that stand apart and hold every byte from the read position on are contiguous. -/
theorem contiguous_of_buffered (ordered : Ordered readPos ranges)
    (ranges_agree : ∀ range ∈ ranges, range.AgreesWith stream)
    (all_buffered : ∀ position < stream.length, readPos ≤ position → Buffered ranges position) :
    contiguous readPos ranges := by
  induction ranges generalizing readPos with
  | nil => rfl
  | cons front rest ih =>
    have front_end := (ranges_agree front (by simp)).end_le
    have later : ∀ position, Buffered rest position → front.stop ≤ position := by
      rintro _ ⟨_, member, inside⟩
      exact le_trans (ordered.2.le_offset member) inside.1
    have at_front : readPos = front.offset := by
      by_contra away
      have gap : readPos < front.offset := lt_of_le_of_ne ordered.1 away
      rcases (buffered_cons ..).1 (all_buffered readPos (by omega) (le_rfl)) with
        inside | buffered
      · have := inside.1
        omega
      · have := later _ buffered
        simp only [stop] at this
        omega
    refine contiguous_cons.2 ⟨at_front, ih ordered.2 (forall_mem_cons.1 ranges_agree).2 ?_⟩
    intro position below unread
    rcases (buffered_cons ..).1 (all_buffered position below (by
      simp only [stop] at unread
      omega)) with inside | buffered
    · have := inside.2
      simp only [stop] at unread
      omega
    · exact buffered

/-- The invariant of a run that loses nothing. -/
structure Complete (stream : Bytes) (sorter : RecvSorter) (past : List (SorterOp × SorterOut)) :
    Prop where
  sound : Sound stream sorter past
  ordered : Ordered sorter.readPos sorter.sorted
  received : ∀ event ∈ past, ∀ position, event.1.Carries position →
    position < sorter.readPos ∨ Buffered sorter.sorted position
  fin_seen : ∀ event ∈ past, event.1.carriesFin = true → sorter.fin = true
  fin_reach : sorter.fin = true →
    stream.length ≤ sorter.readPos ∨ ∃ range ∈ sorter.sorted, stream.length ≤ range.stop
  done_eq : sorter.done = (sorter.fin && contiguous sorter.readPos sorter.sorted)
  not_reset : sorter.rst = false

theorem Complete.buffered_of_done (complete : Complete stream sorter past)
    (finished : sorter.done) {position : Nat} (below : position < stream.length) :
    position < sorter.readPos ∨ Buffered sorter.sorted position := by
  have done_eq := complete.done_eq
  rw [finished, eq_comm, Bool.and_eq_true] at done_eq
  by_cases handed : position < sorter.readPos
  · exact .inl handed
  · exact .inr (buffered_of_contiguous done_eq.2 (complete.fin_reach done_eq.1)
      (not_lt.1 handed) below)

theorem Complete.read {after : RecvSorter} {op : SorterOp} {bytes : Bytes} {eos : Bool}
    (complete : Complete stream sorter past)
    (handed : Handed stream sorter.readPos after.sorted after.readPos bytes)
    (drained : Drained sorter.readPos sorter.sorted after.readPos after.sorted)
    (no_byte : ∀ position, ¬ op.Carries position) (no_fin : op.carriesFin = false)
    (fin_eq : after.fin = sorter.fin) (done_eq : after.done = sorter.done)
    (rst_eq : after.rst = sorter.rst) :
    Complete stream after (past ++ [(op, .handed bytes eos)]) := by
  refine ⟨complete.sound.read handed, drained.ordered complete.ordered, ?_, ?_, ?_, ?_, ?_⟩
  · rw [forall_mem_append, forall_mem_singleton]
    refine ⟨fun event member position carried => ?_, fun position carried =>
      absurd carried (no_byte _)⟩
    rcases complete.received event member position carried with before | buffered
    · exact .inl (lt_of_lt_of_le before drained.forward)
    · exact drained.kept _ buffered
  · rw [forall_mem_append, forall_mem_singleton, fin_eq]
    exact ⟨complete.fin_seen, fun fin => absurd fin (by simp [no_fin])⟩
  · intro fin
    rw [fin_eq] at fin
    rcases complete.fin_reach fin with reached | reached
    · exact .inl (le_trans reached drained.forward)
    · exact drained.reach _ reached
  · rw [done_eq, complete.done_eq, fin_eq, drained.contiguous_eq]
  · rw [rst_eq, complete.not_reset]

theorem Complete.finish {type : FrameType} {fin : Bool} {result : RecvSorter × RecvResult}
    (complete : Complete stream sorter past) (unfinished : sorter.done = false)
    (merged : Merged stream sorter.readPos result)
    (result_eq : result = RecvSorter.finish { sorter with sorted := after, fin := fin })
    (ordered : Ordered sorter.readPos after)
    (kept : ∀ position, Buffered sorter.sorted position → Buffered after position)
    (added : ∀ position, Within frag.offset frag.fragment.length position →
      position < sorter.readPos ∨ Buffered after position)
    (fin_kept : sorter.fin → fin) (fin_added : frag.fin → fin)
    (fin_reach : fin →
      stream.length ≤ sorter.readPos ∨ ∃ range ∈ after, stream.length ≤ range.stop) :
    Complete stream result.1 (past ++ [(.recv type frag, .received result.2)]) := by
  have sound : Sound stream result.1 (past ++ [(.recv type frag, .received result.2)]) :=
    complete.sound.merge merged
  subst result_eq
  refine ⟨sound, ?_, ?_, ?_, ?_, ?_, ?_⟩
  · simpa [RecvSorter.finish] using ordered
  · simp only [RecvSorter.finish, checkDone_readPos, checkDone_sorted]
    rw [forall_mem_append, forall_mem_singleton]
    refine ⟨fun event member position carried => ?_, added⟩
    exact (complete.received _ member _ carried).imp_right (kept _)
  · simp only [RecvSorter.finish, checkDone_fin]
    rw [forall_mem_append, forall_mem_singleton]
    exact ⟨fun event member carried => fin_kept (complete.fin_seen _ member carried), fin_added⟩
  · simpa [RecvSorter.finish] using fin_reach
  · have done_eq := @checkDone_done { sorter with sorted := after, fin := fin } unfinished
      complete.not_reset
    simpa [RecvSorter.finish] using done_eq
  · simpa [RecvSorter.finish] using complete.not_reset

theorem recv_complete (bounded : stream.length < 2 ^ 63) {type : FrameType}
    (complete : Complete stream sorter past) (agrees : frag.AgreesWith stream)
    (full : sorter.MergesFully (.recv type frag)) :
    Complete stream (sorter.recv type frag).1
      (past ++ [(.recv type frag, .received (sorter.recv type frag).2)]) := by
  have frag_end := agrees.1.end_le
  have merged := recv_merged bounded _ complete.sound.ranges agrees full.soundCut
  by_cases finished : sorter.done
  · -- The fragment is ignored: everything it holds is there already.
    have sound : Sound stream _ (past ++ [(.recv type frag, .received _)]) :=
      complete.sound.merge merged
    have unchanged : sorter.recv type frag = (sorter, true, none) := if_pos finished
    rw [unchanged] at sound ⊢
    refine { complete with sound := sound, received := ?_, fin_seen := ?_ }
    · rw [forall_mem_append, forall_mem_singleton]
      exact ⟨complete.received, fun position inside =>
        complete.buffered_of_done finished (lt_of_lt_of_le inside.2 frag_end)⟩
    · have done_eq := complete.done_eq
      rw [finished, eq_comm, Bool.and_eq_true] at done_eq
      exact fun _ _ _ => done_eq.1
  · have unfinished : sorter.done = false := by simpa using finished
    by_cases behind : frag.offset < sorter.readPos
    · -- The fragment is dropped: by assumption it brings nothing new.
      have nothing_new := full unfinished
      rw [if_pos behind] at nothing_new
      refine complete.finish unfinished merged ((if_neg finished).trans (if_pos behind))
        complete.ordered (fun _ => id) ?_ id nothing_new.2 complete.fin_reach
      intro position inside
      by_cases handed : position < sorter.readPos
      · exact .inl handed
      · exact .inr (nothing_new.1 _ inside.2 (not_lt.1 handed))
    · obtain ⟨_, absorbed, recv_eq⟩ := recv_absorbed bounded _ unfinished behind
        complete.sound.ranges complete.ordered agrees.1 full
      refine complete.finish unfinished merged recv_eq absorbed.ordered absorbed.kept
        (fun position inside => .inr (absorbed.added _ inside)) ?_ ?_ ?_
      · intro fin
        simp [fin]
      · intro fin
        simp [fin]
      · intro fin
        rcases Bool.or_eq_true_iff.1 fin with fin | fin
        · exact (complete.fin_reach fin).imp_right fun reached =>
            absorbed.reach _ (.inl reached)
        · exact .inr (absorbed.reach _ (.inr (le_of_eq (agrees.2 fin).symm)))

theorem step_complete (bounded : stream.length < 2 ^ 63) (sorter : RecvSorter)
    (past : List (SorterOp × SorterOut)) (op : SorterOp) (complete : Complete stream sorter past)
    (guard : op.AgreesWith stream ∧ sorter.MergesFully op) :
    Complete stream (step sorter op).1 (past ++ [(op, (step sorter op).2)]) := by
  have ranges := complete.sound.ranges
  have bound := complete.sound.readPos_le
  cases op with
  | recv type frag => exact recv_complete bounded complete guard.1 guard.2
  | read size =>
    exact complete.read (readLoop_handed _ ranges bound) (readLoop_drained ..)
      (fun _ => id) rfl rfl rfl rfl
  | readDirect =>
    have kept : sorter.readDirect.1.fin = sorter.fin ∧ sorter.readDirect.1.done = sorter.done ∧
        sorter.readDirect.1.rst = sorter.rst := by
      unfold readDirect
      split
      · simp
      · split <;> simp
    exact complete.read (readDirect_handed ranges bound) (readDirect_drained _)
      (fun _ => id) rfl kept.1 kept.2.1 kept.2.2
  | readBest accepts =>
    exact complete.read (readBestLoop_handed _ _ ranges bound)
      (readBestLoop_drained ..) (fun _ => id) rfl rfl rfl rfl

def buffered (ranges : List StreamFragment) : Nat :=
  (ranges.map fun range => range.data.length).sum

theorem stop_le_of_contiguous (contiguous_ranges : contiguous readPos ranges)
    (member : range ∈ ranges) : range.stop ≤ readPos + buffered ranges := by
  induction ranges generalizing readPos with
  | nil => simp at member
  | cons front rest ih =>
    obtain ⟨at_front, rest_contiguous⟩ := contiguous_cons.1 contiguous_ranges
    simp only [buffered, map_cons, sum_cons]
    rcases mem_cons.1 member with rfl | member
    · simp only [stop]
      omega
    · have later := ih rest_contiguous member
      simp only [buffered, stop] at later ⊢
      omega

/-- A read with more room than contiguous ranges need empties the list, any other read takes as
much as there is room. -/
theorem readLoop_contiguous (room : Nat) (contiguous_ranges : contiguous readPos ranges) :
    buffered (readLoop ranges readPos room).1 = buffered ranges - room ∧
      (buffered ranges < room → (readLoop ranges readPos room).1 = []) := by
  induction ranges generalizing readPos room with
  | nil => simp [readLoop, buffered]
  | cons front rest ih =>
    obtain ⟨at_front, rest_contiguous⟩ := contiguous_cons.1 contiguous_ranges
    subst at_front
    have total : buffered (front :: rest) = front.data.length + buffered rest := by
      simp [buffered]
    obtain ⟨left_eq, emptied⟩ := ih _ rest_contiguous
    rw [readLoop]
    split
    case isTrue full =>
      have no_room : room = 0 := by simpa using full
      simp [no_room]
    case isFalse active =>
      split
      case isTrue longer =>
        simp only [buffered, map_cons, sum_cons, length_drop]
        omega
      case isFalse =>
        simp only [stop] at left_eq emptied
        exact ⟨by simp only [left_eq]; omega, fun room_left => emptied (by omega)⟩

theorem end_le_of_contiguous (contiguous_ranges : contiguous readPos ranges)
    (ranges_agree : ∀ range ∈ ranges, range.AgreesWith stream) (bound : readPos ≤ stream.length) :
    readPos + buffered ranges ≤ stream.length := by
  induction ranges generalizing readPos with
  | nil => simpa [buffered] using bound
  | cons front rest ih =>
    obtain ⟨at_front, rest_contiguous⟩ := contiguous_cons.1 contiguous_ranges
    have later := ih rest_contiguous (forall_mem_cons.1 ranges_agree).2
      (ranges_agree _ (by simp)).end_le
    simp only [buffered, map_cons, sum_cons, stop] at later ⊢
    omega

theorem Complete.buffered_eq (complete : Complete stream sorter past)
    (finished : sorter.done) : sorter.readPos + buffered sorter.sorted = stream.length := by
  have done_eq := complete.done_eq
  rw [finished, eq_comm, Bool.and_eq_true] at done_eq
  obtain ⟨fin, contiguous_ranges⟩ := done_eq
  have upper := end_le_of_contiguous contiguous_ranges complete.sound.ranges
    complete.sound.readPos_le
  rcases complete.fin_reach fin with reached | ⟨_, member, reached⟩
  · omega
  · have lower := stop_le_of_contiguous contiguous_ranges member
    omega

def reportsEnd (event : SorterOp × SorterOut) : Bool :=
  match event.2 with
  | .received _ => false
  | .handed _ eos => eos

def reads (sorter : RecvSorter) (sizes : List Nat) : List (SorterOp × SorterOut) :=
  trace step sorter (sizes.map .read)

theorem final_reads_sorted (contiguous_ranges : contiguous sorter.readPos sorter.sorted)
    (enough : buffered sorter.sorted < sizes.sum ∨ sorter.sorted = []) :
    (final step sorter (sizes.map .read)).sorted = [] := by
  induction sizes generalizing sorter with
  | nil => simpa using enough
  | cons size sizes ih =>
    obtain ⟨left_eq, emptied⟩ := readLoop_contiguous _ contiguous_ranges
    have drained := readLoop_drained sorter.sorted sorter.readPos size
    refine ih (drained.contiguous_eq.trans contiguous_ranges) ?_
    change buffered (readLoop sorter.sorted sorter.readPos size).1 < sizes.sum ∨
      (readLoop sorter.sorted sorter.readPos size).1 = []
    rcases enough with enough | empty
    · rw [sum_cons] at enough
      by_cases last : buffered sorter.sorted < size
      · exact .inr (emptied last)
      · exact .inl (by omega)
    · exact .inr (by rw [empty, readLoop])

theorem final_reads_done (sorter : RecvSorter) (sizes : List Nat) :
    (final step sorter (sizes.map .read)).done = sorter.done := by
  induction sizes generalizing sorter with
  | nil => rfl
  | cons size sizes ih => exact ih (step sorter (.read size)).1

theorem reads_getLast (some_read : sizes ≠ []) :
    (reads sorter sizes).getLast?.map reportsEnd =
      some ((final step sorter (sizes.map .read)).sorted.isEmpty && sorter.done) := by
  induction sizes generalizing sorter with
  | nil => exact absurd rfl some_read
  | cons size sizes ih =>
    cases sizes with
    | nil => simp [reads, reportsEnd, step, RecvSorter.read]
    | cons other sizes =>
      have later := @ih (step sorter (.read size)).1 (by simp)
      have done_eq : (step sorter (.read size)).1.done = sorter.done := rfl
      rw [done_eq] at later
      simpa [reads] using later

/-- Enough reads return the rest of the stream and then report its end. -/
theorem reads_complete (bounded : stream.length < 2 ^ 63) (complete : Complete stream sorter past)
    (finished : sorter.done) (enough : stream.length < sorter.readPos + sizes.sum) :
    handedOut past ++ handedOut (reads sorter sizes) = stream ∧
      (reads sorter sizes).getLast?.map reportsEnd = some true := by
  have total := complete.buffered_eq finished
  have done_eq := complete.done_eq
  rw [finished, eq_comm, Bool.and_eq_true] at done_eq
  have emptied := final_reads_sorted done_eq.2
    (show buffered sorter.sorted < sizes.sum ∨ _ from .inl (by omega))
  have guarded : Guarded step (fun sorter op => op.AgreesWith stream ∧ sorter.MergesFully op)
      sorter (sizes.map .read) := by
    refine guarded_of_forall fun op member state => ?_
    obtain ⟨-, -, rfl⟩ := mem_map.1 member
    exact ⟨trivial, trivial⟩
  have after := invariant_of_guarded (step_complete bounded) complete guarded
  have at_end := after.buffered_eq ((final_reads_done _ _).trans finished)
  have handed := after.sound.handed_eq
  rw [emptied, show buffered [] = 0 from rfl, Nat.add_zero] at at_end
  rw [at_end] at handed
  have some_read : sizes ≠ [] := by
    rintro rfl
    rw [sum_nil] at enough
    omega
  refine ⟨by simpa [handedOut, reads] using handed, ?_⟩
  rw [reads_getLast some_read, emptied, finished]
  rfl

/-- Once all bytes and FIN have arrived, each fragment merged in full, reads with room complete the
bytes handed out to the whole stream and report its end. -/
theorem reassembly_complete (stream : Bytes) (bounded : stream.length < 2 ^ 63)
    (ops : List SorterOp) (agree : ∀ op ∈ ops, op.AgreesWith stream)
    (full : Guarded step MergesFully {} ops)
    (covered : ∀ position < stream.length, ∃ op ∈ ops, op.Carries position)
    (ended : ∃ op ∈ ops, op.carriesFin = true) (sizes : List Nat)
    (enough : stream.length < (handedOut (trace step {} ops)).length + sizes.sum) :
    handedOut (trace step {} ops) ++ handedOut (reads (final step {} ops) sizes) = stream ∧
      (reads (final step {} ops) sizes).getLast?.map reportsEnd = some true := by
  have start : Complete stream {} [] :=
    ⟨⟨by simp, by simp, by simp [handedOut], by simp⟩, trivial, by simp, by simp, by simp, rfl, rfl⟩
  have complete := invariant_of_guarded (step_complete bounded) start (full.and_forall agree)
  rw [nil_append] at complete
  have happened : ∀ op ∈ ops, ∃ event ∈ trace step {} ops, event.1 = op := by
    intro op member
    rw [← @trace_map_fst _ _ _ step {} ops] at member
    exact mem_map.1 member
  have fin : (final step {} ops).fin := by
    obtain ⟨op, member, carried⟩ := ended
    obtain ⟨event, event_mem, rfl⟩ := happened op member
    exact complete.fin_seen _ event_mem carried
  have contiguous_ranges := contiguous_of_buffered complete.ordered complete.sound.ranges (by
    intro position below unread
    obtain ⟨op, member, carried⟩ := covered _ below
    obtain ⟨event, event_mem, rfl⟩ := happened op member
    exact (complete.received _ event_mem _ carried).resolve_left (by omega))
  have finished : (final step {} ops).done := by
    rw [complete.done_eq, fin, contiguous_ranges]
    rfl
  refine reads_complete bounded complete finished ?_
  rw [complete.sound.handed_eq, length_take] at enough
  omega

/-- The gap between two ranges is filled after a first read, and the FIN comes early. -/
theorem reassembly_complete_gap :
    let ops := [countingFragment 0 2, countingFragment 6 4, .read 1, countingFragment 2 8]
    handedOut (trace step {} ops) ++ handedOut (reads (final step {} ops) [4, 6]) =
        [0, 1, 2, 3, 4, 5, 6, 7, 8, 9] ∧
      (reads (final step {} ops) [4, 6]).getLast?.map reportsEnd = some true :=
  reassembly_complete _ (by decide) _ (by decide) (by decide) (by decide) (by decide) _ (by decide)

/-- The three ways to lose part of a fragment: straddling the next range, standing in front over the
first range, or starting below the read position. -/
theorem reassembly_incomplete :
    let straddling := [countingFragment 0 3, countingFragment 5 5, countingFragment 2 4]
    let overlapping := [countingFragment 5 5, countingFragment 0 7]
    let behind := [countingFragment 0 4, .read 2, countingFragment 1 9]
    ∀ ops ∈ [straddling, overlapping, behind],
      (∀ op ∈ ops, op.AgreesWith [0, 1, 2, 3, 4, 5, 6, 7, 8, 9]) ∧
      (∀ position < 10, ∃ op ∈ ops, op.Carries position) ∧
      (∃ op ∈ ops, op.carriesFin) ∧
      ¬ (handedOut (trace step {} ops) ++ handedOut (reads (final step {} ops) [10, 10, 10]) =
          [0, 1, 2, 3, 4, 5, 6, 7, 8, 9] ∧
        (reads (final step {} ops) [10, 10, 10]).getLast?.map reportsEnd = some true) := by
  decide

end RecvSorter

end Futils.Quic.Stream
