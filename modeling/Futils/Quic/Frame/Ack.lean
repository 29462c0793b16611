import Futils.Quic.Types
import Futils.Quic.Varint

/-!
# ACK frames

An ACK frame lists the acknowledged packet numbers as ranges in descending order.  The first range
is given by its largest number and its length, every other one by the gap to the range before it.
The encoding of the gap subtracts two, so the ranges must neither overlap nor touch.
-/

namespace Futils.Quic.Frame

open Binary Varint FrameType Nat
open List hiding count

structure WireACKRange where
  /-- Packet numbers between this range and the one before it, less one. -/
  gap : Nat
  /-- Packet numbers of the range, less one. -/
  len : Nat
  deriving DecidableEq

structure ACKRange where
  largest : Nat
  smallest : Nat
  deriving DecidableEq

structure ECNCounts where
  ect0 : Nat := 0
  ect1 : Nat := 0
  ecnCe : Nat := 0
  deriving DecidableEq

structure ACKFrame where
  ecn : Bool := false
  largestAck : Nat
  /-- Encoded delay of the acknowledgement. -/
  ackDelay : Nat := 0
  ackRangeCount : Nat
  firstAckRange : Nat
  ackRanges : List WireACKRange
  ecnCounts : ECNCounts := {}
  deriving DecidableEq

def rangeFields (ranges : List WireACKRange) : List Nat :=
  ranges.flatMap fun range => [range.gap, range.len]

namespace ACKFrame

variable (frame : ACKFrame)

def type : FrameType := if frame.ecn then .ackEcn else .ack

def headFields : List Nat :=
  [frame.type.value, frame.largestAck, frame.ackDelay, frame.ackRangeCount, frame.firstAckRange]

def ecnFields : List Nat :=
  if frame.ecn then [frame.ecnCounts.ecnCe, frame.ecnCounts.ect0, frame.ecnCounts.ect1] else []

def len : Nat :=
  fieldsLen frame.headFields + fieldsLen (rangeFields frame.ackRanges) + fieldsLen frame.ecnFields

def render : Writer → Writer × Bool :=
  Writer.andThen (writeFields frame.headFields) <|
    Writer.andThen
      (if frame.ackRanges.length ≠ frame.ackRangeCount then fun writer => (writer, false)
        else writeFields (rangeFields frame.ackRanges))
      (writeFields frame.ecnFields)

def parseAckRanges : Nat → Parser (List WireACKRange)
  | 0 => fun rest => some ([], rest)
  | count + 1 =>
    read.bind fun gap => read.bind fun len => (parseAckRanges count).bind fun ranges =>
      fun rest => some (⟨gap, len⟩ :: ranges, rest)

def parseEcnCounts (ecn : Bool) : Parser ECNCounts :=
  if ecn then
    read.bind fun ecnCe => read.bind fun ect0 => read.bind fun ect1 =>
      fun rest => some ({ ect0 := ect0, ect1 := ect1, ecnCe := ecnCe }, rest)
  else fun rest => some ({}, rest)

def parseBody (ecn : Bool) : Parser ACKFrame :=
  read.bind fun largestAck => read.bind fun ackDelay => read.bind fun ackRangeCount =>
    read.bind fun firstAckRange => (parseAckRanges ackRangeCount).bind fun ackRanges =>
      (parseEcnCounts ecn).bind fun ecnCounts => fun rest =>
        some ({ ecn := ecn, largestAck := largestAck, ackDelay := ackDelay,
                ackRangeCount := ackRangeCount, firstAckRange := firstAckRange,
                ackRanges := ackRanges, ecnCounts := ecnCounts }, rest)

def parse : Parser ACKFrame :=
  readMinLen.bind fun type =>
    if type = FrameType.ack.value then parseBody false
    else if type = FrameType.ackEcn.value then parseBody true
    else fun _ => none

def encoded : Bytes :=
  encodeFields frame.headFields ++
    (encodeFields (rangeFields frame.ackRanges) ++ encodeFields frame.ecnFields)

/-- A frame whose fields are variable-length integers and whose range count is right. -/
structure Writable (frame : ACKFrame) : Prop where
  count_eq : frame.ackRanges.length = frame.ackRangeCount
  head_lt : ∀ field ∈ frame.headFields, field < 2 ^ 62
  ranges_lt : ∀ field ∈ rangeFields frame.ackRanges, field < 2 ^ 62
  ecn_lt : ∀ field ∈ frame.ecnFields, field < 2 ^ 62
  ecn_eq : frame.ecn = false → frame.ecnCounts = {}

theorem length_encoded : frame.encoded.length = frame.len := by
  simp only [encoded, len, length_append, length_encodeFields]
  omega

theorem writes_render {frame : ACKFrame} (writable : Writable frame) :
    Writer.Writes frame.render frame.encoded := by
  refine .andThen (writes_fields writable.head_lt) (.andThen ?_ (writes_fields writable.ecn_lt))
  rw [if_neg (by simpa using writable.count_eq)]
  exact writes_fields writable.ranges_lt

theorem reads_ackRanges {ranges : List WireACKRange}
    (bound : ∀ field ∈ rangeFields ranges, field < 2 ^ 62) :
    Parser.Reads (parseAckRanges ranges.length) (encodeFields (rangeFields ranges)) ranges := by
  induction ranges with
  | nil => exact Parser.reads_some []
  | cons range ranges ih =>
    have later : ∀ field ∈ rangeFields ranges, field < 2 ^ 62 := fun field member =>
      bound _ (by simp only [rangeFields] at member ⊢; simp [member])
    have gap_lt := bound range.gap (by simp [rangeFields])
    have len_lt := bound range.len (by simp [rangeFields])
    have all : Parser.Reads (parseAckRanges (ranges.length + 1))
        (encode range.gap (minLen range.gap) ++ (encode range.len (minLen range.len) ++
          (encodeFields (rangeFields ranges) ++ []))) (range :: ranges) :=
      .bind (reads_varint gap_lt) (.bind (reads_varint len_lt)
        (.bind (ih later) (Parser.reads_some _)))
    rwa [append_nil] at all

theorem reads_ecnCounts {frame : ACKFrame} (writable : Writable frame) :
    Parser.Reads (parseEcnCounts frame.ecn) (encodeFields frame.ecnFields) frame.ecnCounts := by
  have ecn_lt := writable.ecn_lt
  cases ecn : frame.ecn with
  | false =>
    rw [writable.ecn_eq ecn]
    simp only [ecnFields, ecn]
    exact Parser.reads_some _
  | true =>
    simp only [ecnFields, ecn] at ecn_lt ⊢
    exact (reads_varint (ecn_lt _ (by simp))).bind ((reads_varint (ecn_lt _ (by simp))).bind
      ((reads_varint (ecn_lt _ (by simp))).bind (Parser.reads_some _)))

theorem reads_parse {frame : ACKFrame} (writable : Writable frame) :
    Parser.Reads parse frame.encoded frame := by
  obtain ⟨count_eq, head_lt, ranges_lt, -, -⟩ := id writable
  have type_lt := frame.type.value_lt
  have ranges := reads_ackRanges ranges_lt
  rw [count_eq] at ranges
  have body : Parser.Reads (parseBody frame.ecn)
      (encode frame.largestAck (minLen frame.largestAck) ++
        (encode frame.ackDelay (minLen frame.ackDelay) ++
          (encode frame.ackRangeCount (minLen frame.ackRangeCount) ++
            (encode frame.firstAckRange (minLen frame.firstAckRange) ++
              (encodeFields (rangeFields frame.ackRanges) ++
                (encodeFields frame.ecnFields ++ [])))))) frame :=
    .bind (reads_varint (head_lt _ (by simp [headFields])))
      (.bind (reads_varint (head_lt _ (by simp [headFields])))
        (.bind (reads_varint (head_lt _ (by simp [headFields])))
          (.bind (reads_varint (head_lt _ (by simp [headFields])))
            (.bind ranges (.bind (reads_ecnCounts writable) (Parser.reads_some _))))))
  have typed : (if frame.type.value = ack.value then parseBody false
      else if frame.type.value = ackEcn.value then parseBody true else fun _ => none) =
        parseBody frame.ecn := by
    cases ecn : frame.ecn <;> simp [type, ecn, value]
  rw [← typed] at body
  have all : Parser.Reads parse _ frame :=
    .bind (reads_minLen (show frame.type.value < 2 ^ 62 by omega)) body
  simpa [encoded, headFields, encodeFields] using all

end ACKFrame

section Conversion

/-- The loop of `is_sorted_ack_ranges`, behind the range `prev`. -/
def isSortedBehind (prev : ACKRange) : List ACKRange → Bool
  | [] => true
  | range :: rest =>
    if range.largest < range.smallest then false
    else if prev.smallest ≤ range.smallest ∨ prev.largest ≤ range.largest then false
    else isSortedBehind range rest

def isSortedAckRanges : List ACKRange → Bool
  | [] => false
  | range :: rest =>
    if range.largest < range.smallest then false else isSortedBehind range rest

/-- The further ranges of `convert_to_ACKFrame`, behind the range `prev`. -/
def toWire (prev : ACKRange) : List ACKRange → List WireACKRange
  | [] => []
  | range :: rest =>
    { gap := sub64 (sub64 prev.smallest range.largest) 2
      len := sub64 range.largest range.smallest } :: toWire range rest

def convertToACKFrame : List ACKRange → Option ACKFrame
  | [] => none
  | range :: rest =>
    if !isSortedAckRanges (range :: rest) then none
    else some
      { largestAck := range.largest
        ackRangeCount := rest.length
        firstAckRange := sub64 range.largest range.smallest
        ackRanges := toWire range rest }

theorem ackDelay_convertToACKFrame {ranges : List ACKRange} {frame : ACKFrame}
    (converted : convertToACKFrame ranges = some frame) : frame.ackDelay = 0 := by
  cases ranges with
  | nil => cases converted
  | cons range rest =>
    rw [convertToACKFrame] at converted
    split at converted
    · cases converted
    cases converted
    rfl

/-- The further ranges of `convert_from_ACKFrame`, behind the range `prev`. -/
def fromWire (prev : ACKRange) : List WireACKRange → List ACKRange
  | [] => []
  | wire :: rest =>
    let largest := sub64 (sub64 prev.smallest wire.gap) 2
    let range : ACKRange := { largest := largest, smallest := sub64 largest wire.len }
    range :: fromWire range rest

def convertFromACKFrame (frame : ACKFrame) : List ACKRange × Bool :=
  let first : ACKRange :=
    { largest := frame.largestAck, smallest := sub64 frame.largestAck frame.firstAckRange }
  let ranges := first :: fromWire first frame.ackRanges
  (ranges, isSortedAckRanges ranges)

def encodeAckDelay (base exponent : Nat) : Nat := base / 2 ^ exponent

def Acknowledged (ranges : List ACKRange) (pn : Nat) : Prop :=
  ∃ range ∈ ranges, range.smallest ≤ pn ∧ pn ≤ range.largest
deriving Decidable

/-- Ranges in descending order, with a gap between any two of them. -/
structure Apart (ranges : List ACKRange) : Prop where
  ordered : ∀ range ∈ ranges, range.smallest ≤ range.largest
  gaps : ranges.Pairwise fun upper lower => lower.largest + 1 < upper.smallest

variable {prev : ACKRange} {ranges : List ACKRange}

@[simp] theorem acknowledged_nil {pn : Nat} : ¬ Acknowledged [] pn := by
  simp [Acknowledged]

@[simp] theorem acknowledged_cons {pn : Nat} : Acknowledged (prev :: ranges) pn ↔
    (prev.smallest ≤ pn ∧ pn ≤ prev.largest) ∨ Acknowledged ranges pn := by
  simp [Acknowledged]

/-- A range stands above a list when it begins after every number of the list, with a gap. -/
theorem apart_cons : Apart (prev :: ranges) ↔ prev.smallest ≤ prev.largest ∧ Apart ranges ∧
    ∀ other, Acknowledged ranges other → other + 1 < prev.smallest := by
  constructor
  · rintro ⟨ordered, gaps⟩
    obtain ⟨below, gaps⟩ := pairwise_cons.1 gaps
    refine ⟨ordered _ (mem_cons_self ..), ⟨(forall_mem_cons.1 ordered).2, gaps⟩, ?_⟩
    rintro _ ⟨range, member, -, reaches⟩
    exact lt_of_le_of_lt (succ_le_succ reaches) (below _ member)
  · rintro ⟨prev_ordered, apart, below⟩
    refine ⟨fun range member => ?_, pairwise_cons.2 ⟨fun range member => ?_, apart.gaps⟩⟩
    · rcases mem_cons.1 member with rfl | later
      · exact prev_ordered
      · exact apart.ordered _ later
    · exact below _ ⟨range, member, apart.ordered _ member, le_rfl⟩

theorem Apart.tail (apart : Apart (prev :: ranges)) : Apart ranges :=
  ⟨fun _ member => apart.ordered _ (mem_cons_of_mem _ member), apart.gaps.of_cons⟩

theorem Apart.next {range : ACKRange} (apart : Apart (prev :: range :: ranges)) :
    range.smallest ≤ range.largest ∧ range.largest + 1 < prev.smallest :=
  ⟨apart.ordered range (by simp), (pairwise_cons.1 apart.gaps).1 range (by simp)⟩

theorem isSortedBehind_of_apart (apart : Apart (prev :: ranges)) :
    isSortedBehind prev ranges := by
  induction ranges generalizing prev with
  | nil => rfl
  | cons range rest ih =>
    have prev_ordered := apart.ordered prev (by simp)
    obtain ⟨range_ordered, gap⟩ := apart.next
    rw [isSortedBehind, if_neg (by omega), if_neg (by omega)]
    exact ih apart.tail

theorem isSortedAckRanges_of_apart (apart : Apart (prev :: ranges)) :
    isSortedAckRanges (prev :: ranges) := by
  have prev_ordered := apart.ordered prev (by simp)
  rw [isSortedAckRanges, if_neg (by omega)]
  exact isSortedBehind_of_apart apart

theorem fromWire_toWire (apart : Apart (prev :: ranges)) :
    fromWire prev (toWire prev ranges) = ranges := by
  induction ranges generalizing prev with
  | nil => rfl
  | cons range rest ih =>
    obtain ⟨range_ordered, gap⟩ := apart.next
    have gap_eq : sub64 (sub64 prev.smallest range.largest) 2 =
        prev.smallest - range.largest - 2 := by
      rw [sub64_of_le (show range.largest ≤ prev.smallest by omega), sub64_of_le (by omega)]
    have largest_eq : sub64 (sub64 prev.smallest (prev.smallest - range.largest - 2)) 2 =
        range.largest := by
      rw [sub64_of_le (show prev.smallest - range.largest - 2 ≤ prev.smallest by omega),
        sub64_of_le (by omega)]
      omega
    have smallest_eq : sub64 range.largest (sub64 range.largest range.smallest) =
        range.smallest := by
      rw [sub64_of_le range_ordered, sub64_of_le (by omega)]
      omega
    simp only [toWire, fromWire, gap_eq, largest_eq, smallest_eq]
    rw [ih apart.tail]

theorem toWire_lt (apart : Apart (prev :: ranges)) (bound : prev.smallest < 2 ^ 62) :
    ∀ field ∈ rangeFields (toWire prev ranges), field < 2 ^ 62 := by
  induction ranges generalizing prev with
  | nil => simp [toWire, rangeFields]
  | cons range rest ih =>
    obtain ⟨range_ordered, gap⟩ := apart.next
    intro field member
    have cases : field = sub64 (sub64 prev.smallest range.largest) 2 ∨
        field = sub64 range.largest range.smallest ∨ field ∈ rangeFields (toWire range rest) := by
      simpa [toWire, rangeFields] using member
    rcases cases with rfl | rfl | later
    · rw [sub64_of_le (show range.largest ≤ prev.smallest by omega), sub64_of_le (by omega)]
      omega
    · rw [sub64_of_le range_ordered]
      omega
    · exact ih apart.tail (by omega) _ later

theorem length_toWire (prev : ACKRange) (ranges : List ACKRange) :
    (toWire prev ranges).length = ranges.length := by
  induction ranges generalizing prev with
  | nil => rfl
  | cons range rest ih => simp [toWire, ih]

theorem Apart.length_le (apart : Apart (prev :: ranges)) : ranges.length ≤ prev.smallest := by
  induction ranges generalizing prev with
  | nil => exact zero_le
  | cons range rest ih =>
    obtain ⟨range_ordered, gap⟩ := apart.next
    have rest_le := ih apart.tail
    rw [length_cons]
    omega

theorem convertToACKFrame_of_apart (apart : Apart ranges) (some_range : ranges ≠ [])
    (bound : ∀ range ∈ ranges, range.largest < 2 ^ 62) {delay : Nat} (delay_lt : delay < 2 ^ 62) :
    ∃ frame, convertToACKFrame ranges = some frame ∧
      ACKFrame.Writable { frame with ackDelay := delay } ∧
      convertFromACKFrame { frame with ackDelay := delay } = (ranges, true) := by
  cases ranges with
  | nil => exact absurd rfl some_range
  | cons range rest =>
    have ordered := apart.ordered range (by simp)
    have largest_lt := bound range (by simp)
    have sorted := isSortedAckRanges_of_apart apart
    have length_eq := length_toWire range rest
    have count_le := apart.length_le
    refine ⟨_, if_neg (by simp [sorted]), ⟨length_eq, ?_, ?_, ?_, ?_⟩, ?_⟩
    · intro field member
      simp only [ACKFrame.headFields, ACKFrame.type, value, mem_cons,
        not_mem_nil, or_false, Bool.false_eq_true, if_false] at member
      rw [sub64_of_le ordered] at member
      omega
    · exact toWire_lt apart (by omega)
    · simp [ACKFrame.ecnFields]
    · simp
    · have smallest_eq : sub64 range.largest (sub64 range.largest range.smallest) =
          range.smallest := by
        rw [sub64_of_le ordered, sub64_of_le (by omega)]
        omega
      simp only [convertFromACKFrame, smallest_eq, fromWire_toWire apart, sorted]

/-- The ranges that the wire ranges stand for behind the number `smallest`, unless a subtraction
goes below zero. -/
def denotedBehind (smallest : Nat) : List WireACKRange → Option (List ACKRange)
  | [] => some []
  | wire :: rest =>
    let largest := smallest - wire.gap - 2
    if smallest < wire.gap + 2 ∨ largest < wire.len then none
    else (denotedBehind (largest - wire.len) rest).map (⟨largest, largest - wire.len⟩ :: ·)

/-- The ranges a frame stands for. -/
def denoted (frame : ACKFrame) : Option (List ACKRange) :=
  let smallest := frame.largestAck - frame.firstAckRange
  if frame.largestAck < frame.firstAckRange then none
  else (denotedBehind smallest frame.ackRanges).map (⟨frame.largestAck, smallest⟩ :: ·)

/-- A subtraction below zero ends above every packet number, where the order is refused. -/
theorem fromWire_denoted {wires : List WireACKRange} (ordered : prev.smallest ≤ prev.largest)
    (bound : prev.largest < 2 ^ 62) (fields_lt : ∀ field ∈ rangeFields wires, field < 2 ^ 62) :
    match denotedBehind prev.smallest wires with
    | none => isSortedBehind prev (fromWire prev wires) = false
    | some ranges => fromWire prev wires = ranges ∧ Apart (prev :: ranges) := by
  induction wires generalizing prev with
  | nil => exact ⟨rfl, ⟨by simpa using ordered, pairwise_singleton _ _⟩⟩
  | cons wire rest ih =>
    have gap_lt := fields_lt wire.gap (by simp [rangeFields])
    have len_lt := fields_lt wire.len (by simp [rangeFields])
    have rest_lt := fun field member =>
      fields_lt field (mem_cons_of_mem _ (mem_cons_of_mem _ member))
    by_cases below : prev.smallest < wire.gap + 2 ∨ prev.smallest - wire.gap - 2 < wire.len
    · simp only [denotedBehind, fromWire, isSortedBehind]
      grind [sub64]
    · have largest_eq : sub64 (sub64 prev.smallest wire.gap) 2 = prev.smallest - wire.gap - 2 := by
        rw [sub64_of_le (show wire.gap ≤ prev.smallest by omega), sub64_of_le (by omega)]
      simp only [denotedBehind, if_neg below, fromWire, largest_eq]
      rw [sub64_of_le (show wire.len ≤ prev.smallest - wire.gap - 2 by omega)]
      have later := @ih ⟨prev.smallest - wire.gap - 2, prev.smallest - wire.gap - 2 - wire.len⟩
        (sub_le _ _) (by dsimp only; omega) rest_lt
      cases found : denotedBehind (prev.smallest - wire.gap - 2 - wire.len) rest with
      | none =>
        simp only [found] at later
        simp [isSortedBehind, later]
      | some ranges =>
        simp only [found] at later
        refine ⟨congrArg _ later.1, apart_cons.2 ⟨ordered, later.2, fun other covered => ?_⟩⟩
        have others := (apart_cons.1 later.2).2.2 other
        rcases acknowledged_cons.1 covered with inside | after
        · dsimp only at inside
          omega
        · exact lt_of_lt_of_le (others after) (by dsimp only; omega)

/-- A frame is accepted exactly when no subtraction goes below zero, and then as the ranges it
stands for. -/
theorem convertFromACKFrame_exact (frame : ACKFrame)
    (fields_lt : ∀ field ∈ frame.largestAck :: frame.firstAckRange :: rangeFields frame.ackRanges,
      field < 2 ^ 62) :
    ((convertFromACKFrame frame).2 = true ↔ (denoted frame).isSome = true) ∧
      ∀ ranges, denoted frame = some ranges → (convertFromACKFrame frame).1 = ranges ∧
        Apart ranges ∧ ranges.head?.map ACKRange.largest = some frame.largestAck := by
  obtain ⟨largest_lt, first_lt, ranges_lt⟩ : _ ∧ _ ∧ _ := by
    simpa only [List.forall_mem_cons] using fields_lt
  by_cases below : frame.largestAck < frame.firstAckRange
  · have refused : (convertFromACKFrame frame).2 = false := by
      simp only [convertFromACKFrame, isSortedAckRanges, sub64_of_lt below]
      exact if_pos (by omega)
    simp [refused, denoted, below]
  · have later := @fromWire_denoted ⟨frame.largestAck, frame.largestAck - frame.firstAckRange⟩
      _ (Nat.sub_le _ _) largest_lt ranges_lt
    simp only [convertFromACKFrame, denoted, if_neg below, sub64_of_le (not_lt.1 below)]
    cases found : denotedBehind (frame.largestAck - frame.firstAckRange) frame.ackRanges with
    | none =>
      simp only [found] at later
      simp [isSortedAckRanges, later]
    | some ranges =>
      simp only [found] at later
      obtain ⟨rfl, apart⟩ := later
      simp [isSortedAckRanges_of_apart _, apart]

/-- Two ranges with a gap. -/
theorem convertFromACKFrame_gap :
    let frame : ACKFrame := ⟨false, 10, 0, 1, 2, [⟨1, 3⟩], {}⟩
    (convertFromACKFrame frame).2 ∧ (convertFromACKFrame frame).1 = [⟨10, 8⟩, ⟨5, 2⟩] :=
  have exact_frame := convertFromACKFrame_exact _ (by decide)
  ⟨exact_frame.1.2 (by decide), (exact_frame.2 _ rfl).1⟩

end Conversion

end Futils.Quic.Frame
