import Futils.Quic.Ack.RecvHistory

/-!
# Exactness of the acknowledgement

Packet numbers arrive in any order, are checked with `is_duplicated` and processed; old ones are
deleted and ACK frames are sent in between.  `Tracks` ties the ranges of the history to the numbers
that were processed.  It breaks where `add_to_range` leaves two ranges side by side: the gap between
them cannot be encoded.
-/

namespace Futils.Quic.Ack

open Lib.Machine Quic.Frame RecvSpaceHistory

/-- The ranges hold exactly the processed numbers from `ignore_under` on. -/
structure Records (gap : Nat) (history : RecvSpaceHistory) (processed : List Nat) : Prop where
  gapped : Gapped gap history.ranges
  covered : ∀ pn, Covered history.ranges pn ↔ pn ∈ processed ∧ history.ignoreUnder ≤ pn

/-- The history records the processed numbers, with a gap between any two ranges, and the window of
the next ACK frame is known. -/
structure Tracks (history : RecvSpaceHistory) (processed : List Nat) : Prop
    extends records : Records 1 history processed where
  bound : ∀ pn ∈ processed, pn < 2 ^ 62
  window : (history.lowestRecved = infinity ∧ history.largestRecved = infinity) ∨
    (history.lowestRecved ≤ history.largestRecved ∧ history.largestRecved < 2 ^ 62)

section Steps

variable {gap : Nat} {history : RecvSpaceHistory} {processed : List Nat} {pn : Nat}

theorem Records.isDuplicated_iff (records : Records gap history processed) :
    history.isDuplicated pn ↔ pn ∈ processed ∨ pn < history.ignoreUnder := by
  have found := @isDuplicatedLoop_iff pn gap history.ranges.reverse (by simpa using records.gapped)
  rw [covered_reverse, records.covered] at found
  rw [isDuplicated]
  split
  case isTrue ignored => simp [ignored]
  case isFalse kept =>
    rw [found]
    simp [not_lt.1 kept]

/-- Processing a new number records it; the gaps stay where no merge is missed. -/
theorem Records.process (records : Records gap history processed) (gap_le : gap ≤ 1)
    (eliciting : Bool) (fresh : history.isDuplicated pn = false)
    (merges : gap = 1 → ¬ MissesMerge history.ranges pn) :
    Records gap (history.onPacketProcessed pn eliciting).1 (processed ++ [pn]) := by
  rw [← Bool.not_eq_true, records.isDuplicated_iff, not_or, Nat.not_lt] at fresh
  obtain ⟨not_processed, kept⟩ := fresh
  have not_covered := fun covered =>
    not_processed ((records.covered pn).1 covered).1
  obtain ⟨gapped, covered⟩ := @addToRangeLoop_spec pn gap gap_le [] history.ranges.reverse
    (by simpa using records.gapped) (by simp) (by simpa using not_covered)
    (by simpa using merges)
  rw [onPacketProcessed, addToRange, if_neg (by simpa using kept)]
  refine ⟨gapped, fun other => ?_⟩
  rw [covered, List.reverse_reverse, List.append_nil, records.covered, List.mem_append,
    List.mem_singleton]
  constructor
  · rintro (rfl | ⟨old, above⟩)
    · exact ⟨.inr rfl, kept⟩
    · exact ⟨.inl old, above⟩
  · rintro ⟨old | rfl, above⟩
    · exact .inr ⟨old, above⟩
    · exact .inl rfl

theorem Records.deleteUnder (records : Records gap history processed) (pn : Nat) :
    Records gap (history.deleteUnder pn).1 processed := by
  rw [RecvSpaceHistory.deleteUnder]
  split
  case isTrue => exact records
  case isFalse moved =>
    obtain ⟨gapped, covered⟩ := @deleteUnderLoop_spec pn _ _ records.gapped
    refine ⟨gapped, fun other => ?_⟩
    rw [covered, records.covered]
    grind

/-- Processing a new number records it, unless a merge is missed. -/
theorem Tracks.process (tracks : Tracks history processed) (eliciting : Bool)
    (fresh : history.isDuplicated pn = false) (pn_lt : pn < 2 ^ 62)
    (merges : ¬ MissesMerge history.ranges pn) :
    Tracks (history.onPacketProcessed pn eliciting).1 (processed ++ [pn]) := by
  refine ⟨tracks.records.process (Nat.le_refl 1) _ fresh fun _ => merges,
    fun other member => ?_, .inr ?_⟩
  · rcases mem_snoc.1 member with old | rfl
    · exact tracks.bound _ old
    · exact pn_lt
  · have window := tracks.window
    rw [onPacketProcessed, addToRange]
    split <;> grind

theorem Tracks.deleteUnder (tracks : Tracks history processed) (pn : Nat) :
    Tracks (history.deleteUnder pn).1 processed := by
  refine ⟨tracks.records.deleteUnder pn, tracks.bound, ?_⟩
  have window := tracks.window
  rw [RecvSpaceHistory.deleteUnder]
  split <;> exact window

/-- The ranges to acknowledge are the processed numbers in the window. -/
theorem Tracks.getRanges (tracks : Tracks history processed) :
    Apart history.getRanges ∧ ∀ other, Acknowledged history.getRanges other ↔
      other ∈ processed ∧ history.ignoreUnder ≤ other ∧
        history.lowestRecved ≤ other ∧ other ≤ history.largestRecved := by
  have infinity_gt : 2 ^ 62 < infinity := by decide
  rw [RecvSpaceHistory.getRanges]
  split
  case isTrue closed =>
    refine ⟨⟨by simp, List.Pairwise.nil⟩, fun other => ?_⟩
    have lowest_eq : history.lowestRecved = infinity := by
      have window := tracks.window
      omega
    have other_lt := tracks.bound other
    simp only [acknowledged_nil, false_iff]
    rintro ⟨member, -, above, -⟩
    have := other_lt member
    omega
  case isFalse opened =>
    have window : history.lowestRecved ≤ history.largestRecved := by
      have window := tracks.window
      omega
    obtain ⟨apart, acked⟩ := getRangesLoop_spec window
      (show Gapped 1 history.ranges.reverse.reverse by simpa using tracks.gapped)
    refine ⟨apart, fun other => ?_⟩
    rw [acked, covered_reverse, tracks.covered, and_assoc]

/-- With an acknowledgement due, there is one frame that `send` writes wherever it has room, with
the ranges of `get_ranges`. -/
theorem Tracks.send (tracks : Tracks history processed) (eliciting : history.ackEliciting ≠ 0)
    (some_range : history.getRanges ≠ []) {delay : Option Nat} {exponent : Nat}
    (delay_lt : ∀ base ∈ delay, encodeAckDelay base exponent < 2 ^ 62) :
    ∃ frame : ACKFrame, ACKFrame.Writable frame ∧
      convertFromACKFrame frame = (history.getRanges, true) ∧ ∀ w : FWriter,
        (w.remain < frame.len → history.send w delay exponent = (history, w, .noCapacity, infinity)) ∧
        (frame.len ≤ w.remain → ∃ next, next.w.written = w.w.written ++ frame.encoded ∧
          history.send w delay exponent = (history.onAckSent, next, .ok, frame.largestAck)) := by
  obtain ⟨apart, acked⟩ := tracks.getRanges
  have bound := fun range member =>
    tracks.bound _ ((acked _).1 ⟨range, member, apart.ordered _ member, le_rfl⟩).1
  have encoded_lt : delay.elim 0 (fun base => encodeAckDelay base exponent) < 2 ^ 62 := by
    cases delay with
    | none => exact Nat.two_pow_pos 62
    | some base => exact delay_lt base rfl
  obtain ⟨frame, converted, writable, back⟩ := convertToACKFrame_of_apart apart some_range bound
    encoded_lt
  have delay_eq := ackDelay_convertToACKFrame converted
  refine ⟨_, writable, back, fun w => ?_⟩
  rw [RecvSpaceHistory.send, if_neg eliciting, if_neg (by simpa using some_range)]
  simp only [converted, delay_eq]
  generalize { frame with
    ackDelay := delay.elim 0 fun base => encodeAckDelay base exponent } = delayed at writable ⊢
  refine ⟨fun full => if_pos full, fun room => ?_⟩
  have room_bytes := room
  rw [← ACKFrame.length_encoded] at room_bytes
  have written := @FWriter.write_eq w (.ack _) _ (ACKFrame.writes_render writable) room_bytes
  refine ⟨⟨w.w.append _ room_bytes, w.frames ++ [.ack delayed]⟩, rfl, ?_⟩
  rw [if_neg (not_lt.2 room), written]

end Steps

/-- A history and the packet numbers that were processed. -/
structure World where
  history : RecvSpaceHistory := {}
  processed : List Nat := []
  deriving DecidableEq

inductive Op
  | process (pn : Nat) (ackEliciting : Bool)
  | deleteUnder (pn : Nat)
  /-- `send` into a packet with `capacity` bytes left. -/
  | send (capacity : Nat) (delay : Option Nat) (exponent : Nat)
  deriving DecidableEq

/-- One step; a duplicated packet is dropped before it is processed. -/
def step (world : World) : Op → World × IOResult
  | .process pn ackEliciting =>
    if world.history.isDuplicated pn then (world, .noData)
    else (⟨(world.history.onPacketProcessed pn ackEliciting).1, world.processed ++ [pn]⟩, .ok)
  | .deleteUnder pn => ({ world with history := (world.history.deleteUnder pn).1 }, .ok)
  | .send capacity delay exponent =>
    let (history, _, res, _) := world.history.send (.ofCapacity capacity) delay exponent
    ({ world with history := history }, res)

/-- A packet number is processed only where no merge is missed. -/
def guard (world : World) : Op → Prop
  | .process pn _ => pn < 2 ^ 62 ∧
      (world.history.isDuplicated pn = false → ¬ MissesMerge world.history.ranges pn)
  | .deleteUnder _ | .send .. => True

instance (world : World) (op : Op) : Decidable (guard world op) := by
  cases op <;> dsimp only [guard] <;> infer_instance

theorem step_tracks (world : World) (op : Op) (tracks : Tracks world.history world.processed)
    (allowed : guard world op) :
    Tracks (step world op).1.history (step world op).1.processed := by
  cases op with
  | process pn ackEliciting =>
    simp only [step]
    split
    case isTrue => exact tracks
    case isFalse fresh =>
      rw [Bool.not_eq_true] at fresh
      exact tracks.process _ fresh allowed.1 (allowed.2 fresh)
  | deleteUnder pn => exact tracks.deleteUnder pn
  | send capacity delay exponent =>
    have kept := history_send world.history (.ofCapacity capacity) delay exponent
    simp only [step]
    rcases kept with same | sent
    · rw [same]
      exact tracks
    · rw [sent]
      exact ⟨⟨tracks.gapped, tracks.covered⟩, tracks.bound, .inl ⟨rfl, rfl⟩⟩

theorem step_records (world : World) (op : Op) (records : Records 0 world.history world.processed) :
    Records 0 (step world op).1.history (step world op).1.processed := by
  cases op with
  | process pn ackEliciting =>
    simp only [step]
    split
    case isTrue => exact records
    case isFalse fresh =>
      exact records.process (Nat.zero_le 1) _ (Bool.not_eq_true _ ▸ fresh) nofun
  | deleteUnder pn => exact records.deleteUnder pn
  | send capacity delay exponent =>
    have kept := history_send world.history (.ofCapacity capacity) delay exponent
    simp only [step]
    rcases kept with same | sent
    · rw [same]
      exact records
    · rw [sent]
      exact ⟨records.gapped, records.covered⟩

/-- In every run, the ranges are ascending and disjoint, and exactly the processed and the ignored
numbers are duplicates. -/
theorem duplicate_detection_exact (ops : List Op) :
    let world := final step {} ops
    (∀ range ∈ world.history.ranges, range.begin ≤ range.last) ∧
      (world.history.ranges.Pairwise fun lower upper => lower.last < upper.begin) ∧
      ∀ pn, world.history.isDuplicated pn ↔
        pn ∈ world.processed ∨ pn < world.history.ignoreUnder := by
  have started : Records 0 {} [] := ⟨List.Pairwise.nil, by simp⟩
  have records := @invariant_final _ _ _ _ _ step_records {} started ops
  exact ⟨fun range _ => range.ordered, records.gapped, fun pn => records.isDuplicated_iff⟩

/-- The packet numbers that an ACK frame has to acknowledge. -/
def InWindow (world : World) (pn : Nat) : Prop :=
  pn ∈ world.processed ∧ world.history.ignoreUnder ≤ pn ∧
    world.history.lowestRecved ≤ pn ∧ pn ≤ world.history.largestRecved

/-- `send` never fails; with an ack-eliciting packet and a recorded number in the window it succeeds
wherever it has room, and its frame is read as exactly the window. -/
structure Acknowledges (world : World) (delay : Option Nat) (exponent : Nat) : Prop where
  /-- `send` is not fatal, and does nothing only for lack of data or room. -/
  not_fatal : ∀ w, (world.history.send w delay exponent).2.2.1 ≠ .fatal
  /-- With room, `send` writes the exact acknowledgement. -/
  exact_frame : world.history.ackEliciting ≠ 0 → (∃ pn, InWindow world pn) →
    ∃ need, ∀ w : FWriter, need ≤ w.remain → ∃ bytes frame ranges,
      (world.history.send w delay exponent).2.2.1 = .ok ∧
      (world.history.send w delay exponent).2.1.w.written = w.w.written ++ bytes ∧
      ACKFrame.parse bytes = some (frame, []) ∧ convertFromACKFrame frame = (ranges, true) ∧
      ∀ pn, Acknowledged ranges pn ↔ InWindow world pn

theorem Tracks.acknowledges {world : World} (tracks : Tracks world.history world.processed)
    {delay : Option Nat} {exponent : Nat}
    (delay_lt : ∀ base ∈ delay, encodeAckDelay base exponent < 2 ^ 62) :
    Acknowledges world delay exponent := by
  obtain ⟨-, acked⟩ := tracks.getRanges
  refine ⟨fun w => ?_, fun eliciting in_window => ?_⟩
  · by_cases eliciting : world.history.ackEliciting = 0
    · rw [RecvSpaceHistory.send, if_pos eliciting]
      simp
    by_cases no_range : world.history.getRanges = []
    · rw [RecvSpaceHistory.send, if_neg eliciting, if_pos (by simp [no_range])]
      simp
    obtain ⟨frame, -, -, sends⟩ := tracks.send eliciting no_range delay_lt
    by_cases full : w.remain < frame.len
    · rw [(sends w).1 full]
      simp
    · obtain ⟨_, -, sent⟩ := (sends w).2 (not_lt.1 full)
      rw [sent]
      simp
  · obtain ⟨pn, pn_in_window⟩ := in_window
    have some_range : world.history.getRanges ≠ [] := by
      obtain ⟨_, member, -⟩ := (acked pn).2 pn_in_window
      exact List.ne_nil_of_mem member
    obtain ⟨frame, writable, back, sends⟩ := tracks.send eliciting some_range delay_lt
    refine ⟨frame.len, fun w room => ?_⟩
    obtain ⟨_, written, sent⟩ := (sends w).2 room
    have parsed := ACKFrame.reads_parse writable []
    rw [List.append_nil] at parsed
    exact ⟨frame.encoded, frame, _, by rw [sent], by rw [sent, written], parsed, back, acked⟩

/-- In every run in which no merge is missed, the next ACK frame acknowledges exactly the processed
packet numbers of its window. -/
theorem ack_frame_exact {ops : List Op} (guarded : Guarded step guard {} ops) {delay : Option Nat}
    {exponent : Nat} (delay_lt : ∀ base ∈ delay, encodeAckDelay base exponent < 2 ^ 62) :
    Acknowledges (final step {} ops) delay exponent := by
  have started : Tracks {} [] := ⟨⟨List.Pairwise.nil, by simp⟩, by simp, .inl ⟨rfl, rfl⟩⟩
  have tracks := @invariant_of_guarded _ _ _ _ _ _
    (fun world _ op => step_tracks _ op) _ [] ops started guarded
  exact tracks.acknowledges delay_lt

/-- Packets arrive out of order, some are acknowledged, and the lowest ones are deleted. -/
theorem ack_frame_exact_reordered :
    let ops := [.process 4 true, .process 3 false, .process 7 true, .send 100 none 3,
      .process 5 true, .process 9 true, .deleteUnder 4]
    Guarded step guard {} ops ∧ Acknowledges (final step {} ops) (some 800) 3 :=
  ⟨by decide, ack_frame_exact (by decide) (by decide)⟩

/-- Packets 1, 3 and then 2 arrive: 2 and 3 stay in two ranges, and `send` is fatal. -/
theorem ack_frame_fatal :
    let ops := [.process 1 true, .process 3 true, .process 2 true]
    ((final step {} ops).history.send (.ofCapacity 100) none 3).2.2.1 = .fatal := by
  decide

end Futils.Quic.Ack
