import Futils.Lib.Machine
import Futils.Lib.Segment
import Futils.Quic.Stream.RecvSorter

/-!
# Soundness of stream reassembly

The receive sorter is run against a peer's stream: every fragment received agrees with the stream,
and reads of every kind are interleaved at will.  The walk of `recv` cuts a fragment at the start
of the next buffered range; the cut is right when the fragment begins exactly where the range
before it ends, or when the two ranges already overlap and the fragment reaches the end of the
first.  Along runs that only cut in this way nothing is reported and only the stream is handed out.
-/

namespace Futils.Quic.Stream

open Lib.Machine Lib.Segment List Fragment

theorem substr_max64 {α : Type*} {data : List α} (bounded : data.length < 2 ^ 64) (pos : Nat) :
    substr data pos max64 = data.drop pos := by
  refine take_of_length_le ?_
  simp only [length_drop, max64]
  omega

/-- A buffered range is the part of the stream it claims to be. -/
def StreamFragment.AgreesWith (stream : Bytes) (range : StreamFragment) : Prop :=
  Agrees stream range.offset range.data

/-- A fragment sent by a peer whose stream is `stream`: only its end carries FIN. -/
def Fragment.AgreesWith (stream : Bytes) (frag : Fragment) : Prop :=
  Agrees stream frag.offset frag.fragment ∧ (frag.fin = true → frag.stop = stream.length)
deriving Decidable

inductive SorterOp
  | recv (type : FrameType) (frag : Fragment)
  | read (size : Nat)
  | readDirect
  | readBest (accepts : Nat → Bool)

inductive SorterOut
  | received (result : RecvResult)
  | handed (bytes : Bytes) (eos : Bool)
  deriving DecidableEq

namespace SorterOp

/-- Received fragments agree with the peer's stream. -/
def AgreesWith (stream : Bytes) : SorterOp → Prop
  | recv _ frag => frag.AgreesWith stream
  | _ => True

instance (stream : Bytes) (op : SorterOp) : Decidable (op.AgreesWith stream) := by
  cases op <;> dsimp only [AgreesWith] <;> infer_instance

end SorterOp

namespace SorterOut

def error : SorterOut → Option QUICError
  | received result => result.2
  | handed _ _ => none

def bytes : SorterOut → Bytes
  | received _ => []
  | handed bytes _ => bytes

end SorterOut

namespace RecvSorter

def step (sorter : RecvSorter) : SorterOp → RecvSorter × SorterOut
  | .recv type frag =>
    let (sorter, result) := sorter.recv type frag
    (sorter, .received result)
  | .read size =>
    let (sorter, bytes, eos) := sorter.read size
    (sorter, .handed bytes eos)
  | .readDirect =>
    let (sorter, bytes, eos) := sorter.readDirect
    (sorter, .handed bytes eos)
  | .readBest accepts =>
    let (sorter, bytes, eos) := sorter.readBest accepts
    (sorter, .handed bytes eos)

def handedOut (events : List (SorterOp × SorterOut)) : Bytes :=
  events.flatMap fun event => event.2.bytes

@[simp] theorem handedOut_append (past : List (SorterOp × SorterOut)) (op : SorterOp)
    (out : SorterOut) : handedOut (past ++ [(op, out)]) = handedOut past ++ out.bytes := by
  simp [handedOut]

/-- At every buffered range whose start `[start, stop)` straddles, it begins where the range before
ends, or it reaches the end of a range that already overlaps the next one. -/
def CutsSoundly : List StreamFragment → Nat → Nat → Prop
  | range :: next :: rest, start, stop =>
    if range.offset ≤ start ∧ start < next.offset ∧ next.offset < stop then
      (start = range.stop ∧ CutsSoundly (next :: rest) next.offset stop) ∨
        (next.offset < range.stop ∧ range.stop ≤ stop)
    else CutsSoundly (next :: rest) start stop
  | [_], _, _ => True
  | [], _, _ => True

instance decidableCutsSoundly :
    ∀ (ranges : List StreamFragment) (start stop : Nat), Decidable (CutsSoundly ranges start stop)
  | range :: next :: rest, start, stop =>
    have := decidableCutsSoundly (next :: rest) next.offset stop
    have := decidableCutsSoundly (next :: rest) start stop
    inferInstanceAs (Decidable
      (if range.offset ≤ start ∧ start < next.offset ∧ next.offset < stop then
        (start = range.stop ∧ CutsSoundly (next :: rest) next.offset stop) ∨
          (next.offset < range.stop ∧ range.stop ≤ stop)
      else CutsSoundly (next :: rest) start stop))
  | [_], _, _ => .isTrue trivial
  | [], _, _ => .isTrue trivial

/-- The fragments that `recv` merges are cut soundly. -/
def SoundCut (sorter : RecvSorter) : SorterOp → Prop
  | .recv _ frag =>
    sorter.done = false → sorter.readPos ≤ frag.offset →
      CutsSoundly sorter.sorted frag.offset frag.stop
  | _ => True

instance (sorter : RecvSorter) (op : SorterOp) : Decidable (sorter.SoundCut op) := by
  cases op <;> dsimp only [SoundCut] <;> infer_instance

/-- A merge that stays within the stream: every range agrees with it, the read position is kept
and no error is reported. -/
structure Merged (stream : Bytes) (readPos : Nat) (result : RecvSorter × RecvResult) : Prop where
  ranges : ∀ range ∈ result.1.sorted, range.AgreesWith stream
  readPos_eq : result.1.readPos = readPos
  error_eq : result.2.2 = none

variable {stream : Bytes}

variable {sorter : RecvSorter} {readPos nextofs : Nat} {range : StreamFragment} {frag : Fragment}
  {before ranges : List StreamFragment} {past : List (SorterOp × SorterOut)}

theorem merged_finish (ranges : ∀ range ∈ sorter.sorted, range.AgreesWith stream)
    (same : sorter.readPos = readPos) :
    Merged stream readPos (finish sorter) where
  ranges := by simpa [finish] using ranges
  readPos_eq := by simpa [finish] using same
  error_eq := rfl

/-- The ranges that stand in the place of `range` once `frag` is merged into it. -/
def mergeRange (range : StreamFragment) (frag : Fragment) : List StreamFragment :=
  if frag.stop ≤ range.stop then [range]
  else if frag.offset ≤ range.stop then
    [{ range with
      data := range.data ++ frag.fragment.drop (range.stop - frag.offset)
      fin := frag.fin }]
  else [range, { offset := frag.offset, data := frag.fragment, fin := frag.fin }]

/-- A fragment that begins at the end of `range` leaves its part from `nextofs` on. -/
theorem cut_left_of_aligned (bounded : frag.fragment.length < 2 ^ 64)
    (before_next : frag.offset < nextofs) (aligned : frag.offset = range.stop) :
    substr frag.fragment (sub64 nextofs range.stop) max64 =
      frag.fragment.drop (nextofs - frag.offset) := by
  rw [substr_max64 bounded, sub64_of_le (by omega), aligned]

section Agreeing

variable (frag_agrees : Agrees stream frag.offset frag.fragment)
include frag_agrees

theorem handleSingleRange_eq (bounded : stream.length < 2 ^ 63) (sorter : RecvSorter)
    (type : FrameType) (before rest : List StreamFragment)
    (range_agrees : range.AgreesWith stream) (starts : range.offset ≤ frag.offset) :
    handleSingleRange sorter before range rest type frag =
      finish { sorter with
        sorted := before ++ mergeRange range frag ++ rest
        fin := sorter.fin || frag.fin } := by
  obtain ⟨shift, frag_offset⟩ := Nat.exists_eq_add_of_le starts
  have shift_eq : sub64 frag.offset range.offset = shift := by
    rw [sub64_of_le starts]
    omega
  rw [frag_offset] at frag_agrees
  have frag_end := frag_agrees.end_le
  unfold handleSingleRange
  simp only [shift_eq, StreamFragment.stop, stop]
  split
  case isTrue duplicate =>
    have same : substr range.data shift frag.fragment.length = frag.fragment :=
      range_agrees.inside frag_agrees (by omega)
    have merge_eq : mergeRange range frag = [range] := if_pos duplicate
    rw [if_neg (not_not_intro same), merge_eq]
    simp
  case isFalse longer =>
    split
    case isTrue touches =>
      have overlap := range_agrees.overlap frag_agrees (by omega) (by omega)
      have cmp_eq : substr range.data shift max64 = range.data.drop shift :=
        substr_max64 (by omega) _
      have same : range.data.drop shift =
          substr frag.fragment 0 (range.data.drop shift).length := by
        rw [length_drop]
        exact overlap
      have added : substr frag.fragment (range.data.drop shift).length max64 =
          frag.fragment.drop (range.offset + range.data.length - frag.offset) := by
        rw [substr_max64 (by omega), length_drop]
        congr 1
        omega
      have merge_eq : mergeRange range frag = [_] := (if_neg longer).trans (if_pos touches)
      rw [cmp_eq, if_neg (not_not_intro same), added, merge_eq]
      simp [StreamFragment.stop]
    case isFalse apart =>
      have merge_eq : mergeRange range frag = [range, _] := (if_neg longer).trans (if_neg apart)
      rw [merge_eq]
      simp [packNew]

theorem mergeRange_agrees (range_agrees : range.AgreesWith stream) :
    ∀ found ∈ mergeRange range frag, found.AgreesWith stream := by
  unfold mergeRange
  split
  case isTrue => simpa using range_agrees
  case isFalse longer =>
    split
    case isTrue touches =>
      rw [forall_mem_singleton]
      simp only [StreamFragment.stop, stop] at longer touches ⊢
      have added := frag_agrees.drop
        (show range.offset + range.data.length - frag.offset ≤ _ by omega)
      rw [show frag.offset + (range.offset + range.data.length - frag.offset) =
        range.offset + range.data.length by omega] at added
      exact Agrees.append range_agrees added
    case isFalse =>
      simp only [mem_cons, not_mem_nil, or_false]
      rintro _ (rfl | rfl)
      · exact range_agrees
      · exact frag_agrees

theorem handleSingleRange_merged (bounded : stream.length < 2 ^ 63) (sorter : RecvSorter)
    (type : FrameType) {rest : List StreamFragment}
    (before_agrees : ∀ range ∈ before, range.AgreesWith stream)
    (range_agrees : range.AgreesWith stream)
    (rest_agrees : ∀ range ∈ rest, range.AgreesWith stream) (starts : range.offset ≤ frag.offset) :
    Merged stream sorter.readPos (handleSingleRange sorter before range rest type frag) := by
  rw [handleSingleRange_eq frag_agrees bounded _ _ _ _ range_agrees starts]
  refine merged_finish ?_ rfl
  simp only [mem_append]
  rintro found ((member | member) | member)
  · exact before_agrees _ member
  · exact mergeRange_agrees frag_agrees range_agrees _ member
  · exact rest_agrees _ member

theorem push_merged (ranges : ∀ range ∈ sorter.sorted, range.AgreesWith stream) :
    Merged stream sorter.readPos (push sorter frag) := by
  unfold push
  split
  case h_1 =>
    refine merged_finish ?_ rfl
    simp only [mem_singleton]
    rintro - rfl
    exact frag_agrees
  case h_2 front rest sorted_eq =>
    simp only [packNew]
    split
    · refine merged_finish ?_ rfl
      simp only [mem_cons]
      rintro found (rfl | member)
      · exact frag_agrees
      · exact ranges _ member
    · refine merged_finish ?_ rfl
      simp only [mem_append, mem_singleton]
      rintro found (member | rfl)
      · exact ranges _ member
      · exact frag_agrees

/-- A fragment that meets two overlapping ranges leaves nothing: the subtraction wraps. -/
theorem cut_left_of_overlap (bounded : stream.length < 2 ^ 63) (overlaps : nextofs < range.stop)
    (reaches : range.stop ≤ frag.stop) :
    substr frag.fragment (sub64 nextofs range.stop) max64 = [] := by
  have frag_end := frag_agrees.end_le
  simp only [stop] at reaches
  rw [substr_max64 (by omega), sub64_of_lt overlaps]
  exact drop_eq_nil_of_le (by omega)

/-- A sound cut compares equal data, extends the range within the stream and leaves a piece that
agrees with the stream. -/
theorem cut_agrees (bounded : stream.length < 2 ^ 63) (range_agrees : range.AgreesWith stream)
    (starts : range.offset ≤ frag.offset) (before_next : frag.offset < nextofs)
    (past_next : nextofs < frag.stop)
    (aligned : frag.offset = range.stop ∨ (nextofs < range.stop ∧ range.stop ≤ frag.stop)) :
    let cmp := substr range.data (sub64 frag.offset range.offset) max64
    cmp = substr frag.fragment 0 cmp.length ∧
      Agrees stream range.offset
        (range.data ++ substr frag.fragment cmp.length (sub64 nextofs range.stop)) ∧
      Agrees stream nextofs (substr frag.fragment (sub64 nextofs range.stop) max64) := by
  obtain ⟨shift, frag_offset⟩ := Nat.exists_eq_add_of_le starts
  have shift_eq : sub64 frag.offset range.offset = shift := by
    rw [sub64_of_le starts]
    omega
  have frag_end := frag_agrees.end_le
  have reaches : range.offset + range.data.length ≤ frag.offset + frag.fragment.length := by
    simp only [StreamFragment.stop, stop] at aligned past_next
    omega
  have touches : frag.offset ≤ range.offset + range.data.length := by
    simp only [StreamFragment.stop] at aligned past_next
    omega
  have frag_shifted := frag_agrees
  rw [frag_offset] at frag_shifted
  have overlap := range_agrees.overlap frag_shifted (by omega) (by omega)
  have added := frag_shifted.drop (show range.data.length - shift ≤ _ by omega)
  rw [show range.offset + shift + (range.data.length - shift) =
    range.offset + range.data.length by omega] at added
  have cmp_eq : substr range.data shift max64 = range.data.drop shift := substr_max64 (by omega) _
  simp only [shift_eq, cmp_eq, length_drop]
  refine ⟨overlap, range_agrees.append (added.take _), ?_⟩
  rcases aligned with aligned | ⟨overlaps, -⟩
  · rw [cut_left_of_aligned (by omega) before_next aligned]
    simp only [stop] at past_next
    have left := frag_agrees.drop (show nextofs - frag.offset ≤ _ by omega)
    rwa [show frag.offset + (nextofs - frag.offset) = nextofs by omega] at left
  · rw [cut_left_of_overlap frag_agrees bounded overlaps reaches]
    simp only [stop] at past_next
    exact .nil (by omega)

end Agreeing

theorem cutsSoundly_of_le {start stop : Nat} (empty : stop ≤ start) (ranges : List StreamFragment) :
    CutsSoundly ranges start stop := by
  induction ranges with
  | nil => trivial
  | cons range rest ih =>
    cases rest with
    | nil => trivial
    | cons next tail =>
      simp only [CutsSoundly]
      rw [if_neg (by omega)]
      exact ih

theorem recvLoop_merged (bounded : stream.length < 2 ^ 63) (sorter : RecvSorter)
    (type : FrameType) (before_agrees : ∀ range ∈ before, range.AgreesWith stream)
    (ranges_agree : ∀ range ∈ ranges, range.AgreesWith stream)
    (frag_agrees : Agrees stream frag.offset frag.fragment)
    (sound : CutsSoundly ranges frag.offset frag.stop) :
    Merged stream sorter.readPos (recvLoop sorter type before ranges frag) := by
  induction ranges generalizing before frag with
  | nil => exact @push_merged stream { sorter with sorted := before } frag frag_agrees before_agrees
  | cons range rest ih =>
    obtain ⟨range_agrees, rest_agrees⟩ := forall_mem_cons.1 ranges_agree
    have passed : ∀ kept : StreamFragment, kept.AgreesWith stream →
        ∀ found ∈ before ++ [kept], found.AgreesWith stream := by
      intro kept kept_agrees found member
      rcases mem_append.1 member with member | member
      · exact before_agrees _ member
      · exact mem_singleton.1 member ▸ kept_agrees
    cases rest with
    | nil =>
      rw [recvLoop]
      split
      · exact handleSingleRange_merged frag_agrees bounded _ _ before_agrees range_agrees
          rest_agrees ‹_›
      · exact ih (passed _ range_agrees) rest_agrees frag_agrees trivial
    | cons next tail =>
      rw [recvLoop]
      dsimp only
      split
      case isFalse starts_later =>
        refine ih (passed _ range_agrees) rest_agrees frag_agrees ?_
        rwa [CutsSoundly, if_neg (by omega)] at sound
      case isTrue starts =>
        split
        case isTrue next_starts =>
          refine ih (passed _ range_agrees) rest_agrees frag_agrees ?_
          rwa [CutsSoundly, if_neg (by omega)] at sound
        case isFalse next_later =>
          split
          case isTrue fits =>
            exact handleSingleRange_merged frag_agrees bounded _ _ before_agrees range_agrees
              rest_agrees starts
          case isFalse straddles =>
            rw [CutsSoundly, if_pos (by omega)] at sound
            obtain ⟨compared, added, left⟩ := cut_agrees frag_agrees bounded range_agrees
              starts (not_le.1 next_later) (not_le.1 straddles)
              (sound.imp And.left id)
            rw [if_neg (not_not_intro compared)]
            refine ih (passed _ added) rest_agrees left ?_
            rcases sound with ⟨aligned, later⟩ | ⟨overlaps, reaches⟩
            · have frag_end := frag_agrees.end_le
              simp only [stop] at later straddles ⊢
              rw [cut_left_of_aligned (by omega) (not_le.1 next_later) aligned,
                length_drop]
              rwa [show next.offset + (frag.fragment.length - (next.offset - frag.offset)) =
                frag.offset + frag.fragment.length by omega]
            · refine cutsSoundly_of_le ?_ _
              simp [stop, cut_left_of_overlap frag_agrees bounded overlaps reaches]

/-- A read that hands the stream out from the read position on. -/
structure Handed (stream : Bytes) (readPos : Nat) (sorted : List StreamFragment) (pos : Nat)
    (bytes : Bytes) : Prop where
  ranges : ∀ range ∈ sorted, range.AgreesWith stream
  pos_eq : pos = readPos + bytes.length
  bytes_agree : Agrees stream readPos bytes

theorem handed_nil {sorted : List StreamFragment}
    (ranges : ∀ range ∈ sorted, range.AgreesWith stream) (bound : readPos ≤ stream.length) :
    Handed stream readPos sorted readPos [] :=
  ⟨ranges, rfl, .nil bound⟩

theorem Handed.cons {front : StreamFragment} {sorted : List StreamFragment} {pos : Nat}
    {bytes : Bytes} (front_agrees : front.AgreesWith stream)
    (handed : Handed stream (front.offset + front.data.length) sorted pos bytes) :
    Handed stream front.offset sorted pos (front.data ++ bytes) where
  ranges := handed.ranges
  pos_eq := by rw [handed.pos_eq, length_append, Nat.add_assoc]
  bytes_agree := front_agrees.append handed.bytes_agree

theorem readLoop_handed (room : Nat) (ranges_agree : ∀ range ∈ ranges, range.AgreesWith stream)
    (bound : readPos ≤ stream.length) :
    Handed stream readPos (readLoop ranges readPos room).1 (readLoop ranges readPos room).2.1
      (readLoop ranges readPos room).2.2 := by
  induction ranges generalizing readPos room with
  | nil => exact handed_nil (by simp [readLoop]) bound
  | cons front rest ih =>
    obtain ⟨front_agrees, rest_agrees⟩ := forall_mem_cons.1 ranges_agree
    rw [readLoop]
    split
    case isTrue => exact handed_nil ranges_agree bound
    case isFalse active =>
      have at_front : front.offset = readPos := by
        by_contra away
        exact active (.inr away)
      subst at_front
      split
      case isTrue longer =>
        refine ⟨?_, ?_, front_agrees.take _⟩
        · simp only [mem_cons]
          rintro found (rfl | member)
          · exact Agrees.drop front_agrees (by omega)
          · exact rest_agrees _ member
        · simp only [length_take]
          omega
      case isFalse =>
        exact Handed.cons front_agrees (ih _ rest_agrees front_agrees.end_le)

theorem readDirect_handed (ranges_agree : ∀ range ∈ sorter.sorted, range.AgreesWith stream)
    (bound : sorter.readPos ≤ stream.length) :
    Handed stream sorter.readPos sorter.readDirect.1.sorted sorter.readDirect.1.readPos
      sorter.readDirect.2.1 := by
  unfold readDirect
  split
  case h_1 => exact handed_nil ranges_agree bound
  case h_2 front rest sorted_eq =>
    split
    case isTrue => exact handed_nil ranges_agree bound
    case isFalse at_front =>
      rw [not_not] at at_front
      rw [sorted_eq] at ranges_agree
      obtain ⟨front_agrees, rest_agrees⟩ := forall_mem_cons.1 ranges_agree
      exact ⟨rest_agrees, rfl, at_front ▸ front_agrees⟩

theorem readBestLoop_handed (done : Bool) (accepts : Nat → Bool)
    (ranges_agree : ∀ range ∈ ranges, range.AgreesWith stream) (bound : readPos ≤ stream.length) :
    Handed stream readPos (readBestLoop done ranges readPos accepts).1
      (readBestLoop done ranges readPos accepts).2.1
      (readBestLoop done ranges readPos accepts).2.2.1 := by
  induction ranges generalizing readPos accepts with
  | nil => exact handed_nil (by simp [readBestLoop]) bound
  | cons front rest ih =>
    obtain ⟨front_agrees, rest_agrees⟩ := forall_mem_cons.1 ranges_agree
    rw [readBestLoop]
    split
    case isTrue => exact handed_nil ranges_agree bound
    case isFalse at_front =>
      rw [not_not] at at_front
      subst at_front
      split
      case isTrue => exact ⟨rest_agrees, rfl, front_agrees⟩
      case isFalse =>
        exact Handed.cons front_agrees (ih _ rest_agrees front_agrees.end_le)

/-- Buffered ranges agree with the stream, what was handed out is the stream so far, and no call
reported an error. -/
structure Sound (stream : Bytes) (sorter : RecvSorter) (past : List (SorterOp × SorterOut)) :
    Prop where
  ranges : ∀ range ∈ sorter.sorted, range.AgreesWith stream
  readPos_le : sorter.readPos ≤ stream.length
  handed_eq : handedOut past = stream.take sorter.readPos
  no_error : ∀ event ∈ past, event.2.error = none

theorem Sound.read {after : RecvSorter} {op : SorterOp} {bytes : Bytes} {eos : Bool}
    (sound : Sound stream sorter past)
    (handed : Handed stream sorter.readPos after.sorted after.readPos bytes) :
    Sound stream after (past ++ [(op, .handed bytes eos)]) where
  ranges := handed.ranges
  readPos_le := handed.pos_eq ▸ handed.bytes_agree.end_le
  handed_eq := by
    rw [handedOut_append, sound.handed_eq, handed.pos_eq]
    exact handed.bytes_agree.take_append
  no_error := by
    simp only [mem_append, mem_singleton]
    rintro event (member | rfl)
    · exact sound.no_error _ member
    · rfl

theorem Sound.merge {op : SorterOp} {result : RecvSorter × RecvResult}
    (sound : Sound stream sorter past) (merged : Merged stream sorter.readPos result) :
    Sound stream result.1 (past ++ [(op, .received result.2)]) where
  ranges := merged.ranges
  readPos_le := merged.readPos_eq ▸ sound.readPos_le
  handed_eq := by
    rw [handedOut_append, sound.handed_eq, merged.readPos_eq]
    exact append_nil _
  no_error := by
    simp only [mem_append, mem_singleton]
    rintro event (member | rfl)
    · exact sound.no_error _ member
    · exact merged.error_eq

theorem recv_merged (bounded : stream.length < 2 ^ 63) (type : FrameType)
    (ranges : ∀ range ∈ sorter.sorted, range.AgreesWith stream)
    (frag_agrees : frag.AgreesWith stream) (sound : sorter.SoundCut (.recv type frag)) :
    Merged stream sorter.readPos (sorter.recv type frag) := by
  unfold recv
  split
  case isTrue => exact ⟨ranges, rfl, rfl⟩
  case isFalse unfinished =>
    split
    case isTrue => exact merged_finish ranges rfl
    case isFalse ahead =>
      exact recvLoop_merged bounded _ _ (by simp) ranges frag_agrees.1
        (sound (by simpa using unfinished) (not_lt.1 ahead))

theorem step_sound (bounded : stream.length < 2 ^ 63) (sorter : RecvSorter)
    (past : List (SorterOp × SorterOut)) (op : SorterOp) (sound : Sound stream sorter past)
    (guard : op.AgreesWith stream ∧ sorter.SoundCut op) :
    Sound stream (step sorter op).1 (past ++ [(op, (step sorter op).2)]) := by
  cases op with
  | recv type frag => exact sound.merge (recv_merged bounded type sound.ranges guard.1 guard.2)
  | read size => exact sound.read (readLoop_handed size sound.ranges sound.readPos_le)
  | readDirect => exact sound.read (readDirect_handed sound.ranges sound.readPos_le)
  | readBest accepts =>
    exact sound.read (readBestLoop_handed _ _ sound.ranges sound.readPos_le)

/-- In every run of agreeing fragments that are cut soundly, no call fails and the bytes handed out
are a prefix of the stream. -/
theorem reassembly_sound (stream : Bytes) (bounded : stream.length < 2 ^ 63)
    (ops : List SorterOp) (agree : ∀ op ∈ ops, op.AgreesWith stream)
    (cuts : Guarded step SoundCut {} ops) :
    (∀ event ∈ trace step {} ops, event.2.error = none) ∧
      handedOut (trace step {} ops) <+: stream := by
  have start : Sound stream {} [] := ⟨by simp, by simp, by simp [handedOut], by simp⟩
  have sound := invariant_of_guarded (step_sound bounded) start (cuts.and_forall agree)
  rw [nil_append] at sound
  refine ⟨sound.no_error, ?_⟩
  rw [sound.handed_eq]
  exact take_prefix _ _

/-- The fragment of `length` bytes at `offset` of the stream `0, 1, …, 9`. -/
def countingFragment (offset length : Nat) : SorterOp :=
  .recv (.stream true true false)
    { offset := offset
      fragment := substr [0, 1, 2, 3, 4, 5, 6, 7, 8, 9] offset length
      fin := offset + length == 10 }

/-- A fragment that fills the gap between two buffered ranges and covers the second. -/
theorem reassembly_sound_gap :
    let ops := [countingFragment 0 2, countingFragment 6 2, countingFragment 2 6, .read 5,
      countingFragment 3 7, .readDirect]
    (∀ event ∈ trace step {} ops, event.2.error = none) ∧
      handedOut (trace step {} ops) <+: [0, 1, 2, 3, 4, 5, 6, 7, 8, 9] :=
  reassembly_sound _ (by decide) _ (by decide) (by decide)

/-- A fragment over the range before the gap is reported as different, and one that leaves part of
the gap open moves bytes: the cut counts from the end of the range before. -/
theorem reassembly_unsound :
    let reported := [countingFragment 0 2, countingFragment 6 2, countingFragment 1 6]
    let moved := [countingFragment 0 2, countingFragment 6 2, countingFragment 3 4, .read 10]
    let stream : Bytes := [0, 1, 2, 3, 4, 5, 6, 7, 8, 9]
    ((∀ op ∈ reported, op.AgreesWith stream) ∧
      ¬ ∀ event ∈ trace step {} reported, event.2.error = none) ∧
    (∀ op ∈ moved, op.AgreesWith stream) ∧
      (∀ event ∈ trace step {} moved, event.2.error = none) ∧
      ¬ handedOut (trace step {} moved) <+: stream := by
  decide

end RecvSorter

end Futils.Quic.Stream
