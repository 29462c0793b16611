import Futils.Qpack.Instruction

/-!
# QPACK field sections

A section begins with a prefix that says how many insertions it needs and from which base its
indices count; its lines refer to a table or spell a field out.
-/

namespace Futils.Qpack

open Hpack (Header encodeInteger encodeString decodeInteger decodeString)

def maxEntries (maxCapacity : Nat) : Nat := maxCapacity / 32

def encodeRequiredInsertCount (requiredInsertCount maxCapacity : Nat) : Nat :=
  if requiredInsertCount = 0 then 0
  else requiredInsertCount % (maxEntries maxCapacity * 2) + 1

structure SectionPrefix where
  requiredInsertCount : Nat
  base : Nat
  deriving DecidableEq

structure EncodedSectionPrefix where
  encodedInsertCount : Nat
  sign : Bool
  deltaBase : Nat
  deriving DecidableEq

def SectionPrefix.encodeDeltaBase (sectionPrefix : SectionPrefix) : Nat :=
  if sectionPrefix.requiredInsertCount ≤ sectionPrefix.base then
    sectionPrefix.base - sectionPrefix.requiredInsertCount
  else sectionPrefix.requiredInsertCount - 1 - sectionPrefix.base

def SectionPrefix.sign (sectionPrefix : SectionPrefix) : Bool :=
  decide (sectionPrefix.base < sectionPrefix.requiredInsertCount)

def SectionPrefix.encode (sectionPrefix : SectionPrefix) (maxCapacity : Nat) :
    EncodedSectionPrefix where
  encodedInsertCount := encodeRequiredInsertCount sectionPrefix.requiredInsertCount maxCapacity
  sign := sectionPrefix.sign
  deltaBase := sectionPrefix.encodeDeltaBase

namespace EncodedSectionPrefix

def parse (input : Bytes) : Except QpackError (EncodedSectionPrefix × Bytes) := do
  let ((encodedInsertCount, _), rest) ← ofHpack (decodeInteger 8 input)
  let ((deltaBase, firstBit), rest) ← ofHpack (decodeInteger 7 rest)
  .ok (⟨encodedInsertCount, firstBit &&& 0x80 != 0, deltaBase⟩, rest)

def render (encoded : EncodedSectionPrefix) : Except QpackError Bytes := do
  let count ← ofHpack (encodeInteger 8 encoded.encodedInsertCount 0)
  let delta ← ofHpack (encodeInteger 7 encoded.deltaBase (if encoded.sign then 0x80 else 0))
  .ok (count ++ delta)

def decodeRequiredInsertCount (encoded : EncodedSectionPrefix)
    (totalNumberOfInserts maxCapacity : Nat) : Except QpackError Nat :=
  let fullrange := maxEntries maxCapacity * 2
  if encoded.encodedInsertCount = 0 then .ok 0
  else if fullrange < encoded.encodedInsertCount then .error .invalidRequiredInsertCount
  else
    let maxValue := add64 totalNumberOfInserts (maxEntries maxCapacity)
    let maxWrapped := maxValue / fullrange * fullrange
    let requiredInsertCount := sub64 (add64 maxWrapped encoded.encodedInsertCount) 1
    if maxValue < requiredInsertCount then
      if requiredInsertCount ≤ fullrange then .error .invalidRequiredInsertCount
      else .ok (requiredInsertCount - fullrange)
    else .ok requiredInsertCount

/-- `EncodedSectionPrefix::decode`; with the sign set it refuses every base but zero. -/
def decode (encoded : EncodedSectionPrefix) (totalNumberOfInserts maxCapacity : Nat) :
    Except QpackError SectionPrefix := do
  let requiredInsertCount ← encoded.decodeRequiredInsertCount totalNumberOfInserts maxCapacity
  if encoded.sign then
    if add64 encoded.deltaBase 1 < requiredInsertCount then .error .negativeBase
    else .ok ⟨requiredInsertCount, sub64 (sub64 requiredInsertCount encoded.deltaBase) 1⟩
  else .ok ⟨requiredInsertCount, add64 requiredInsertCount encoded.deltaBase⟩

end EncodedSectionPrefix

open EncodedSectionPrefix List

inductive FieldType where
  | undefined
  | index
  | postBaseIndex
  | literalWithNameRef
  | literalWithPostBaseNameRef
  | literalWithLiteralName
  deriving DecidableEq

namespace FieldType

def mask : FieldType → Nat
  | index => 0x80
  | postBaseIndex | literalWithPostBaseNameRef => 0xF0
  | literalWithNameRef => 0xC0
  | literalWithLiteralName => 0xE0
  | undefined => 0

/-- `match` -/
def pattern : FieldType → Nat
  | index => 0x80
  | postBaseIndex => 0x10
  | literalWithNameRef => 0x40
  | literalWithPostBaseNameRef => 0x00
  | literalWithLiteralName => 0x20
  | undefined => 0xff

end FieldType

def getType (top : UInt8) : FieldType :=
  let is (type : FieldType) : Bool := type.mask &&& top.toNat == type.pattern
  if is .index then .index
  else if is .literalWithNameRef then .literalWithNameRef
  else if is .literalWithLiteralName then .literalWithLiteralName
  else if is .postBaseIndex then .postBaseIndex
  else if is .literalWithPostBaseNameRef then .literalWithPostBaseNameRef
  else .undefined

def renderFieldLineIndex (index : Nat) (isStatic : Bool) : Except QpackError Bytes :=
  ofHpack (encodeInteger 6 index (FieldType.index.pattern ||| (if isStatic then 0x40 else 0)))

def renderFieldLinePostBaseIndex (index : Nat) : Except QpackError Bytes :=
  ofHpack (encodeInteger 4 index FieldType.postBaseIndex.pattern)

def renderFieldLineIndexLiteral (index : Nat) (isStatic : Bool) (value : Bytes)
    (mustForwardAsLiteral : Bool) : Except QpackError Bytes := do
  let name ← ofHpack (encodeInteger 4 index (FieldType.literalWithNameRef.pattern |||
    (if isStatic then 0x10 else 0) ||| (if mustForwardAsLiteral then 0x20 else 0)))
  let literal ← ofHpack (encodeString 7 value 0 0x80)
  .ok (name ++ literal)

def renderFieldLinePostBaseIndexLiteral (index : Nat) (value : Bytes)
    (mustForwardAsLiteral : Bool) : Except QpackError Bytes := do
  let name ← ofHpack (encodeInteger 3 index (FieldType.literalWithPostBaseNameRef.pattern |||
    (if mustForwardAsLiteral then 0x08 else 0)))
  let literal ← ofHpack (encodeString 7 value 0 0x80)
  .ok (name ++ literal)

def renderFieldLineLiteral (head value : Bytes) (mustForwardAsLiteral : Bool) :
    Except QpackError Bytes := do
  let name ← ofHpack (encodeString 3 head (FieldType.literalWithLiteralName.pattern |||
    (if mustForwardAsLiteral then 0x10 else 0)) 0x08)
  let literal ← ofHpack (encodeString 7 value 0 0x80)
  .ok (name ++ literal)

def renderFieldLineDynamicIndex (base absIndex : Nat) : Except QpackError Bytes :=
  if absIndex ≤ base then renderFieldLineIndex (base - absIndex) false
  else renderFieldLinePostBaseIndex (absIndex - base - 1)

def renderFieldLineDynamicIndexLiteral (base absIndex : Nat) (value : Bytes)
    (mustForwardAsLiteral : Bool) : Except QpackError Bytes :=
  if absIndex ≤ base then
    renderFieldLineIndexLiteral (base - absIndex) false value mustForwardAsLiteral
  else renderFieldLinePostBaseIndexLiteral (absIndex - base - 1) value mustForwardAsLiteral

structure DecodeField where
  key : Bytes
  value : Bytes
  forwardAsLiteral : Bool
  deriving DecidableEq

def DecodeField.header (field : DecodeField) : Header := (field.key, field.value)

/-- `fetch_index_field`: the entry, and whether it is one of the dynamic table. -/
def fetchIndexField (dec : FieldDecodeContext) (base index : Nat) (isStatic : Bool) :
    Except QpackError (Header × Bool) :=
  if isStatic then
    match predefinedHeaders[index]? with
    | none => .error .invalidStaticTableRef
    | some entry => .ok (entry, false)
  else if base < index then .error .invalidIndex
  else
    match dec.findRef (base - index) with
    | none => .error .noEntryForIndex
    | some entry => .ok (entry, true)

def fetchPostIndexField (dec : FieldDecodeContext) (base index : Nat) :
    Except QpackError Header :=
  match dec.findRef (add64 (add64 base 1) index) with
  | none => .error .noEntryForIndex
  | some entry => .ok entry

/-- `parse_field_line`: the field, and whether `dynamic_table_used` is set. -/
def parseFieldLine (dec : FieldDecodeContext) (base : Nat) (input : Bytes) :
    Except QpackError ((DecodeField × Bool) × Bytes) :=
  match input with
  | [] => .error .inputLength
  | top :: _ =>
    match getType top with
    | .undefined => .error .undefinedInstruction
    | .index => do
      let ((index, mask), rest) ← ofHpack (decodeInteger 6 input)
      let (entry, used) ← fetchIndexField dec base index (mask &&& 0x40 != 0)
      .ok ((⟨entry.1, entry.2, false⟩, used), rest)
    | .postBaseIndex => do
      let ((index, _), rest) ← ofHpack (decodeInteger 4 input)
      let entry ← fetchPostIndexField dec base index
      .ok ((⟨entry.1, entry.2, false⟩, false), rest)
    | .literalWithNameRef => do
      -- the bit 0x20 of the mask is not looked at
      let ((index, mask), rest) ← ofHpack (decodeInteger 4 input)
      let (entry, used) ← fetchIndexField dec base index (mask &&& 0x10 != 0)
      let ((value, _), rest) ← ofHpack (decodeString 7 0x80 rest)
      .ok ((⟨entry.1, value, false⟩, used), rest)
    | .literalWithPostBaseNameRef => do
      let ((index, mask), rest) ← ofHpack (decodeInteger 3 input)
      let entry ← fetchPostIndexField dec base index
      let ((value, _), rest) ← ofHpack (decodeString 7 0x80 rest)
      .ok ((⟨entry.1, value, mask &&& 0x08 != 0⟩, false), rest)
    | .literalWithLiteralName => do
      let ((head, mask), rest) ← ofHpack (decodeString 3 0x08 input)
      let ((value, _), rest) ← ofHpack (decodeString 7 0x80 rest)
      .ok ((⟨head, value, mask &&& 0x10 != 0⟩, false), rest)

section Prefix

/-- A count in the window of the decoder is rebuilt: its sums stay within `uint64_t`, unless the
count lies in the last full range. -/
def Rebuilt (total entries count : Nat) : Prop :=
  total + entries < 2 ^ 64 ∧
    (count + entries * 2 < 2 ^ 64 ∨ (total + entries) / (entries * 2) = count / (entries * 2))
deriving Decidable

/-- An encoded value is refused or read as a count in the window that encodes to it. -/
def Readable (total entries encoded : Nat) : Prop :=
  (encoded = 0 → total < entries) ∧ (encoded = 1 → entries ≤ total) ∧
    (0 < encoded → encoded ≤ entries * 2 →
      if total + entries < 2 ^ 64 then
        (total + entries) / (entries * 2) * (entries * 2) + (encoded - 1) < 2 ^ 64
      else total + entries < 2 ^ 64 + (encoded - 1))
deriving Decidable

section Counts

variable {total capacity entries wrapped count code delta : Nat} {sign : Bool}

/-- What is read where the largest value does not wrap around; the count may. -/
theorem decodeRequiredInsertCount_eq (size : maxEntries capacity = entries) (positive : 0 < code)
    (known : code ≤ entries * 2) (fits : total + entries < 2 ^ 64)
    (last : (total + entries) / (entries * 2) * (entries * 2) = wrapped)
    (count_eq : (wrapped + (code - 1)) % 2 ^ 64 = count) :
    decodeRequiredInsertCount ⟨code, sign, delta⟩ total capacity =
      if total + entries < count then
        if count ≤ entries * 2 then .error .invalidRequiredInsertCount
        else .ok (count - entries * 2)
      else .ok count := by
  have sum : sub64 (add64 wrapped code) 1 = count := by
    rw [← count_eq, sub64, add64]
    split <;> omega
  rw [decodeRequiredInsertCount, if_neg (Nat.ne_of_gt positive), size, if_neg (not_lt.2 known)]
  simp only [add64_of_lt fits, last, sum]

/-- With a largest value that wraps around, a value up to it is read as itself without one. -/
theorem decodeRequiredInsertCount_wrap (size : maxEntries capacity = entries)
    (small : entries < 2 ^ 59) (total_lt : total < 2 ^ 64) (positive : 0 < code)
    (known : code ≤ entries * 2) (wraps : 2 ^ 64 ≤ total + entries) :
    decodeRequiredInsertCount ⟨code, sign, delta⟩ total capacity =
      if total + entries - 2 ^ 64 < code - 1 then .error .invalidRequiredInsertCount
      else .ok (code - 1) := by
  have max_eq : add64 total entries = total + entries - 2 ^ 64 := by
    rw [add64]
    omega
  have sum : sub64 (add64 0 code) 1 = code - 1 := by
    rw [sub64, add64]
    split <;> omega
  rw [decodeRequiredInsertCount, if_neg (Nat.ne_of_gt positive), size, if_neg (not_lt.2 known)]
  simp only [max_eq]
  rw [Nat.div_eq_of_lt (by omega), Nat.zero_mul, sum, if_pos (by omega : code - 1 ≤ _)]

/-- The count lies in the last full range that begins within the window, or in the one before. -/
theorem window_ranges (above : total < count + entries) (within : count ≤ total + entries) :
    (total + entries) / (entries * 2) = count / (entries * 2) ∨
      (total + entries) / (entries * 2) = count / (entries * 2) + 1 := by
  have le : count / (entries * 2) ≤ (total + entries) / (entries * 2) :=
    Nat.div_le_div_right within
  have ge : (total + entries) / (entries * 2) ≤ count / (entries * 2) + 1 := by
    rw [← Nat.add_div_right _ (by omega)]
    exact Nat.div_le_div_right (by omega)
  omega

/-- A count within the window of the decoder is the one its encoding stands for, if it is rebuilt. -/
theorem decodeRequiredInsertCount_window (size : maxEntries capacity = entries)
    (small : entries < 2 ^ 59) (total_lt : total < 2 ^ 64) (count_lt : count < 2 ^ 64)
    (above : total < count + entries) (within : count ≤ total + entries) :
    decodeRequiredInsertCount ⟨count % (entries * 2) + 1, sign, delta⟩ total capacity = .ok count ↔
      Rebuilt total entries count := by
  have residue := Nat.mod_lt count (show 0 < entries * 2 by omega)
  by_cases fits : total + entries < 2 ^ 64
  swap
  · rw [decodeRequiredInsertCount_wrap size small total_lt (Nat.succ_pos _) residue (by omega)]
    refine iff_of_false (fun decoded => ?_) fun rebuilt => fits rebuilt.1
    split at decoded
    · cases decoded
    · have same := Except.ok.inj decoded
      omega
  have count_eq := Nat.mod_add_div' count (entries * 2)
  have max_eq := Nat.mod_add_div' (total + entries) (entries * 2)
  have max_lt := Nat.mod_lt (total + entries) (show 0 < entries * 2 by omega)
  obtain same | next := window_ranges above within
  · rw [decodeRequiredInsertCount_eq size (Nat.succ_pos _) residue fits (by rw [same])
      (Nat.mod_eq_of_lt (by omega)), if_neg (by omega)]
    exact iff_of_true (congrArg _ (by omega)) ⟨fits, .inr same⟩
  rw [next, Nat.succ_mul] at max_eq
  have read := @decodeRequiredInsertCount_eq _ _ _ _ _ _ delta sign size (Nat.succ_pos _) residue fits
    (by rw [next, Nat.succ_mul]) rfl
  by_cases room : count + entries * 2 < 2 ^ 64
  · rw [read, Nat.mod_eq_of_lt (by omega), if_pos (by omega), if_neg (by omega)]
    exact iff_of_true (congrArg _ (by omega)) ⟨fits, .inl room⟩
  · rw [read, Nat.mod_eq_sub_mod (by omega), Nat.mod_eq_of_lt (by omega), if_neg (by omega)]
    refine iff_of_false (fun decoded => ?_) fun rebuilt => ?_
    · have same := Except.ok.inj decoded
      omega
    · have same := rebuilt.2.resolve_left room
      omega

/-- The count of a table without drops survives its encoding. -/
theorem decodeRequiredInsertCount_encode {inserted encMax decMax : Nat}
    {encoded : EncodedSectionPrefix} (needed : count ≤ inserted)
    (encRoom : inserted ≤ maxEntries encMax) (decRoom : inserted ≤ maxEntries decMax)
    (fits : decMax < 2 ^ 64)
    (eq : encoded.encodedInsertCount = encodeRequiredInsertCount count encMax) :
    encoded.decodeRequiredInsertCount inserted decMax = .ok count := by
  rw [encodeRequiredInsertCount] at eq
  by_cases none : count = 0
  · rw [if_pos none] at eq
    rw [decodeRequiredInsertCount, if_pos eq, none]
  · obtain ⟨_, _, _⟩ := encoded
    have small : maxEntries decMax < 2 ^ 59 := by rw [maxEntries]; omega
    rw [if_neg none, Nat.mod_eq_of_lt (by omega)] at eq
    obtain rfl : _ = count + 1 := eq
    nth_rewrite 1 [← Nat.mod_eq_of_lt (show count < maxEntries decMax * 2 by omega)]
    exact (decodeRequiredInsertCount_window rfl small (by omega) (by omega) (by omega) (by omega)).2
      ⟨by omega, .inl (by omega)⟩

/-- A count in the window survives exactly if it is rebuilt, and an encoded value is refused or read
as a count in the window that encodes to it exactly if it is readable. -/
theorem required_insert_count_exact (room : 32 ≤ capacity) (capacity_lt : capacity < 2 ^ 64)
    (total_lt : total < 2 ^ 64) (encoded : EncodedSectionPrefix) :
    (∀ count, 1 ≤ count → count < 2 ^ 64 → total < count + maxEntries capacity →
      count ≤ total + maxEntries capacity →
      encoded.encodedInsertCount = encodeRequiredInsertCount count capacity →
        (encoded.decodeRequiredInsertCount total capacity = .ok count ↔
          Rebuilt total (maxEntries capacity) count)) ∧
    ((∀ count, encoded.decodeRequiredInsertCount total capacity = .ok count →
        encodeRequiredInsertCount count capacity = encoded.encodedInsertCount ∧
          total < count + maxEntries capacity ∧ count ≤ total + maxEntries capacity) ↔
      Readable total (maxEntries capacity) encoded.encodedInsertCount) := by
  obtain ⟨code, sign, delta⟩ := encoded
  obtain ⟨entries, size⟩ : ∃ entries, maxEntries capacity = entries := ⟨_, rfl⟩
  have small : entries < 2 ^ 59 ∧ 0 < entries * 2 := by
    rw [maxEntries] at size
    omega
  simp only [encodeRequiredInsertCount, size]
  constructor
  · rintro count positive count_lt above within rfl
    rw [if_neg (Nat.ne_of_gt positive)]
    exact decodeRequiredInsertCount_window size small.1 total_lt count_lt above within
  obtain rfl | positive := Nat.eq_zero_or_pos code
  · have decoded : decodeRequiredInsertCount ⟨0, sign, delta⟩ total capacity = .ok 0 := rfl
    simp [decoded, Readable]
  by_cases known : code ≤ entries * 2
  swap
  · have refused : decodeRequiredInsertCount ⟨code, sign, delta⟩ total capacity =
        .error .invalidRequiredInsertCount := by
      rw [decodeRequiredInsertCount, if_neg (Nat.ne_of_gt positive), size, if_pos (not_le.1 known)]
    simp only [refused, reduceCtorEq, false_implies, implies_true, true_iff]
    exact ⟨by omega, by omega, fun _ small => absurd small known⟩
  have readable : Readable total entries code ↔ (code = 1 → entries ≤ total) ∧
      if total + entries < 2 ^ 64 then
        (total + entries) / (entries * 2) * (entries * 2) + (code - 1) < 2 ^ 64
      else total + entries < 2 ^ 64 + (code - 1) := by
    simp only [Readable, positive, known, true_implies, and_iff_right_iff_imp]
    omega
  rw [readable]
  by_cases fits : total + entries < 2 ^ 64
  swap
  · rw [decodeRequiredInsertCount_wrap size small.1 total_lt positive known (by omega), if_neg fits]
    constructor
    · intro exactly
      by_contra unreadable
      have := exactly (code - 1) (if_neg (by omega))
      omega
    · rintro ⟨-, less⟩ count decoded
      rw [if_pos (by omega)] at decoded
      cases decoded
  have max_eq := Nat.mod_add_div' (total + entries) (entries * 2)
  have max_lt := Nat.mod_lt (total + entries) small.2
  rw [if_pos fits, decodeRequiredInsertCount_eq size positive known fits rfl rfl]
  generalize quotient : (total + entries) / (entries * 2) = ranges at *
  by_cases count_fits : ranges * (entries * 2) + (code - 1) < 2 ^ 64
  swap
  · -- a count that wraps around is less than any in the window
    rw [Nat.mod_eq_sub_mod (by omega), Nat.mod_eq_of_lt (by omega), if_neg (by omega)]
    refine ⟨fun exactly => ?_, fun ⟨_, less⟩ => absurd less count_fits⟩
    have := exactly _ rfl
    omega
  rw [Nat.mod_eq_of_lt count_fits]
  constructor
  · refine fun exactly => ⟨fun one => ?_, count_fits⟩
    by_contra few
    have none : ranges = 0 := by rw [← quotient]; exact Nat.div_eq_of_lt (by omega)
    simpa [one] using (exactly 0 (by simp [one, none])).1
  · -- the count lies in the window and differs from the encoded value by full ranges and one
    rintro ⟨one, -⟩ count decoded
    have window : total < count + entries ∧ count ≤ total + entries ∧ count ≠ 0 ∧
        ∃ ranges, count = ranges * (entries * 2) + (code - 1) := by
      split at decoded
      · split at decoded
        · cases decoded
        cases decoded
        match ranges with
        | 0 => omega
        | ranges + 1 =>
          rw [Nat.succ_mul] at *
          exact ⟨by omega, by omega, by omega, ranges, by omega⟩
      · cases decoded
        refine ⟨by omega, by omega, fun none => ?_, ranges, rfl⟩
        have := one (by omega)
        omega
    obtain ⟨above, within, some, _, eq⟩ := window
    have residue : count % (entries * 2) = code - 1 := by
      rw [eq, Nat.mul_add_mod', Nat.mod_eq_of_lt (by omega)]
    rw [if_neg some]
    exact ⟨by omega, above, within⟩

end Counts

theorem required_insert_count_wrapped :
    decodeRequiredInsertCount ⟨2, false, 0⟩ 8 128 = .ok 9 ∧
      encodeRequiredInsertCount 9 128 = 2 ∧ 8 < 9 + maxEntries 128 ∧ 9 ≤ 8 + maxEntries 128 :=
  have exactly := @required_insert_count_exact 8 128 (by decide) (by decide) (by decide) ⟨2, false, 0⟩
  have decoded := (exactly.1 9 (by decide) (by decide) (by decide) (by decide) rfl).2 (by decide)
  ⟨decoded, exactly.2.2 (by decide) 9 decoded⟩

/-- With no insertions seen, the encoded value one is read as zero, which encodes to zero; at the
end of `uint64_t` a count of the window is refused. -/
theorem required_insert_count_zero :
    (decodeRequiredInsertCount ⟨1, false, 0⟩ 0 32 = .ok 0 ∧ encodeRequiredInsertCount 0 32 = 0) ∧
      decodeRequiredInsertCount ⟨encodeRequiredInsertCount (2 ^ 64 - 1) 32, false, 0⟩ (2 ^ 64 - 1)
        32 = .error .invalidRequiredInsertCount := by
  decide

theorem decodeRequiredInsertCount_of_decode {encoded : EncodedSectionPrefix}
    {sectionPrefix : SectionPrefix} {total capacity : Nat}
    (decoded : encoded.decode total capacity = .ok sectionPrefix) :
    encoded.decodeRequiredInsertCount total capacity = .ok sectionPrefix.requiredInsertCount := by
  rw [decode] at decoded
  cases counted : encoded.decodeRequiredInsertCount total capacity with
  | error _ => simp [counted, bind, Except.bind] at decoded
  | ok count =>
    simp only [counted, bind, Except.bind] at decoded
    split at decoded
    · split at decoded
      · cases decoded
      · cases decoded
        rfl
    · cases decoded
      rfl

/-- The prefix survives with its count unless the section refers to an entry from its base on. -/
theorem decode_encode {sectionPrefix : SectionPrefix} {total encMax decMax : Nat}
    (decoded : (sectionPrefix.encode encMax).decodeRequiredInsertCount total decMax =
      .ok sectionPrefix.requiredInsertCount)
    (count_lt : sectionPrefix.requiredInsertCount < 2 ^ 64) (base_lt : sectionPrefix.base < 2 ^ 64)
    (before : sectionPrefix.requiredInsertCount ≤ sectionPrefix.base ∨ sectionPrefix.base = 0) :
    (sectionPrefix.encode encMax).decode total decMax = .ok sectionPrefix := by
  obtain ⟨count, base⟩ := sectionPrefix
  dsimp only at count_lt base_lt before
  rw [decode, decoded]
  simp only [bind, Except.bind, SectionPrefix.encode, SectionPrefix.sign,
    SectionPrefix.encodeDeltaBase, decide_eq_true_eq]
  by_cases later : base < count
  · have zero : base = 0 := by omega
    subst zero
    have delta : add64 (count - 1 - 0) 1 = count := by
      rw [add64_of_lt (by omega)]
      omega
    have distance : sub64 count (count - 1 - 0) = 1 := by
      rw [sub64_of_le (by omega)]
      omega
    have back : sub64 (sub64 count (count - 1 - 0)) 1 = 0 := by
      rw [distance]
      rfl
    rw [if_pos later, if_neg (by omega : ¬ count ≤ 0), delta, if_neg (lt_irrefl _), back]
  · have forward : add64 count (base - count) = base := by
      rw [add64_of_lt (by omega)]
      omega
    rw [if_neg later, if_pos (not_lt.1 later), forward]

/-- A prefix within the window survives exactly if its count is rebuilt and its base is not between
zero and its count, and a sign is refused rightly exactly where the distance reaches the count or
leaves its type. -/
theorem base_reconstructed {total capacity : Nat} (total_lt : total < 2 ^ 64)
    (capacity_lt : capacity < 2 ^ 64) :
    (∀ sectionPrefix : SectionPrefix,
      sectionPrefix.requiredInsertCount < 2 ^ 64 → sectionPrefix.base < 2 ^ 64 →
      sectionPrefix.requiredInsertCount = 0 ∨
        total < sectionPrefix.requiredInsertCount + maxEntries capacity ∧
          sectionPrefix.requiredInsertCount ≤ total + maxEntries capacity →
      ((sectionPrefix.encode capacity).decode total capacity = .ok sectionPrefix ↔
        (sectionPrefix.requiredInsertCount = 0 ∨
          Rebuilt total (maxEntries capacity) sectionPrefix.requiredInsertCount) ∧
        (sectionPrefix.requiredInsertCount ≤ sectionPrefix.base ∨ sectionPrefix.base = 0))) ∧
    ∀ (encoded : EncodedSectionPrefix) (count : Nat), encoded.sign = true →
      encoded.decodeRequiredInsertCount total capacity = .ok count → count < 2 ^ 64 →
      encoded.deltaBase < 2 ^ 64 →
        ((encoded.decode total capacity = .error .negativeBase ↔ count < encoded.deltaBase + 1) ↔
          encoded.deltaBase + 1 = count ∨ encoded.deltaBase + 1 = 2 ^ 64 ∧ 0 < count) := by
  have small : maxEntries capacity < 2 ^ 59 := by rw [maxEntries]; omega
  constructor
  · intro sectionPrefix count_lt base_lt window
    constructor
    · intro decoded
      have counted := decodeRequiredInsertCount_of_decode decoded
      refine ⟨or_iff_not_imp_left.2 fun some => ?_, ?_⟩
      · obtain ⟨above, within⟩ := window.resolve_left some
        rw [SectionPrefix.encode, encodeRequiredInsertCount, if_neg some] at counted
        exact (decodeRequiredInsertCount_window rfl small total_lt count_lt above within).1 counted
      · by_contra between
        have sign : (sectionPrefix.encode capacity).sign = true := decide_eq_true (by omega)
        have delta : (sectionPrefix.encode capacity).deltaBase =
            sectionPrefix.requiredInsertCount - 1 - sectionPrefix.base := if_neg (by omega)
        rw [decode, counted] at decoded
        simp only [bind, Except.bind, sign, delta, if_true] at decoded
        rw [add64_of_lt (by omega), if_pos (by omega)] at decoded
        cases decoded
    · rintro ⟨rebuilt, before⟩
      refine decode_encode ?_ count_lt base_lt before
      by_cases none : sectionPrefix.requiredInsertCount = 0
      · rw [none]
        exact if_pos (if_pos none)
      · obtain ⟨above, within⟩ := window.resolve_left none
        rw [SectionPrefix.encode, encodeRequiredInsertCount, if_neg none]
        exact (decodeRequiredInsertCount_window rfl small total_lt count_lt above within).2
          (rebuilt.resolve_left none)
  · intro encoded count sign decoded count_lt delta_lt
    rw [decode, decoded]
    simp only [bind, Except.bind, sign, if_true]
    have refused : (if add64 encoded.deltaBase 1 < count then
        (.error .negativeBase : Except QpackError SectionPrefix)
        else .ok ⟨count, sub64 (sub64 count encoded.deltaBase) 1⟩) = .error .negativeBase ↔
          add64 encoded.deltaBase 1 < count := by
      split <;> simp_all
    rw [refused, add64]
    omega

theorem base_reconstructed_ahead :
    (SectionPrefix.encode ⟨9, 12⟩ 128).decode 8 128 = .ok ⟨9, 12⟩ ∧
      (decode ⟨2, true, 8⟩ 8 128 = .error .negativeBase ↔ 9 < 8 + 1) :=
  have exactly := @base_reconstructed 8 128 (by decide) (by decide)
  ⟨(exactly.1 _ (by decide) (by decide) (by decide)).2 (by decide),
    (exactly.2 ⟨2, true, 8⟩ 9 rfl (by decide) (by decide) (by decide)).2 (by decide)⟩

/-- Base 1 before count 3 is refused as negative, and a distance past the count is not. -/
theorem base_not_reconstructed :
    (SectionPrefix.encode ⟨3, 1⟩ 128).decode 3 128 = .error .negativeBase ∧
      decode ⟨2, true, 5⟩ 1 128 = .ok ⟨1, 2 ^ 64 - 5⟩ := by
  decide

/-- What `render` writes `parse` reads. -/
theorem render_spec {encoded : EncodedSectionPrefix}
    (countFits : encoded.encodedInsertCount < 2 ^ 31) (deltaFits : encoded.deltaBase < 2 ^ 31) :
    ∃ bytes, encoded.render = .ok bytes ∧
      ∀ rest, parse (bytes ++ rest) = .ok (encoded, rest) := by
  obtain ⟨count, sign, delta⟩ := encoded
  obtain ⟨countBytes, countEncoded, -, countDecodes⟩ :=
    @Hpack.encodeInteger_spec 8 _ 0 (by decide) (Hpack.representable_of_lt countFits)
  obtain ⟨deltaBytes, deltaEncoded, -, deltaDecodes⟩ :=
    @Hpack.encodeInteger_spec 7 _ (if sign then 0x80 else 0)
      (by cases sign <;> decide) (Hpack.representable_of_lt deltaFits)
  refine ⟨countBytes ++ deltaBytes, by
    rw [render, countEncoded, deltaEncoded]; rfl, fun rest => ?_⟩
  rw [append_assoc, parse, countDecodes]
  simp only [ofHpack, Except.mapError, bind, Except.bind, deltaDecodes _]
  cases sign <;> rfl

end Prefix

section Lines

open Hpack (prefixMask Representable encodedLength)

/-- A line that is read as `header` by every decoder that finds it under the index `ref`. -/
structure EncodedLine (base : Nat) (header : Header) (ref : Option Nat) (bytes : Bytes) : Prop where
  nonempty : bytes ≠ []
  reads : ∀ dec : FieldDecodeContext, (∀ abs ∈ ref, dec.findRef abs = some header) → ∀ rest,
    ∃ field used, field.header = header ∧
      parseFieldLine dec base (bytes ++ rest) = .ok ((field, used), rest)

variable {dec : FieldDecodeContext} {base : Nat} {bytes : Bytes}

variable {index : Nat} {entry : Header} {value : Bytes}

theorem parseFieldLine_index {mask : Nat} {used : Bool}
    (kind : ∀ low ≤ prefixMask 6, getType (UInt8.ofNat (mask ||| low)) = .index)
    (encoded : Hpack.EncodedInteger 6 index mask bytes)
    (fetched : fetchIndexField dec base index (mask &&& 0x40 != 0) = .ok (entry, used))
    (rest : Bytes) :
    parseFieldLine dec base (bytes ++ rest) = .ok ((⟨entry.1, entry.2, false⟩, used), rest) := by
  obtain ⟨⟨low, _, small, rfl⟩, decodes⟩ := encoded
  have decoded := decodes rest
  rw [cons_append] at decoded ⊢
  simp only [parseFieldLine, kind low small, decoded, ofHpack, Except.mapError, bind, Except.bind,
    fetched]

theorem parseFieldLine_postBase
    (encoded : Hpack.EncodedInteger 4 index FieldType.postBaseIndex.pattern bytes)
    (fetched : fetchPostIndexField dec base index = .ok entry) (rest : Bytes) :
    parseFieldLine dec base (bytes ++ rest) = .ok ((⟨entry.1, entry.2, false⟩, false), rest) := by
  have kind : ∀ low ≤ prefixMask 4,
      getType (UInt8.ofNat (FieldType.postBaseIndex.pattern ||| low)) = .postBaseIndex := by
    decide
  obtain ⟨⟨low, _, small, rfl⟩, decodes⟩ := encoded
  have decoded := decodes rest
  rw [cons_append] at decoded ⊢
  simp only [parseFieldLine, kind low small, decoded, ofHpack, Except.mapError, bind, Except.bind,
    fetched]

theorem parseFieldLine_nameRef {mask valueMask : Nat} {used : Bool} {literal : Bytes}
    (kind : ∀ low ≤ prefixMask 4, getType (UInt8.ofNat (mask ||| low)) = .literalWithNameRef)
    (encoded : Hpack.EncodedInteger 4 index mask bytes)
    (fetched : fetchIndexField dec base index (mask &&& 0x10 != 0) = .ok (entry, used))
    (string : Hpack.EncodedString 7 value 0 0x80 valueMask literal) (rest : Bytes) :
    parseFieldLine dec base (bytes ++ literal ++ rest) =
      .ok ((⟨entry.1, value, false⟩, used), rest) := by
  obtain ⟨⟨low, _, small, rfl⟩, decodes⟩ := encoded
  have decoded := decodes (literal ++ rest)
  rw [append_assoc]
  rw [cons_append] at decoded ⊢
  simp only [parseFieldLine, kind low small, decoded, ofHpack, Except.mapError, bind, Except.bind,
    fetched, string.decodes _]

theorem getType_literal : ∀ low ≤ prefixMask 3, ∀ mustForwardAsLiteral : Bool,
    let common := FieldType.literalWithLiteralName.pattern |||
      (if mustForwardAsLiteral then 0x10 else 0)
    getType (UInt8.ofNat (common ||| low)) = .literalWithLiteralName ∧
      getType (UInt8.ofNat ((common ||| 0x08) ||| low)) = .literalWithLiteralName := by
  decide

theorem line_static {header : Header} (static : predefinedHeaders[index]? = some header) :
    ∃ bytes, renderFieldLineIndex index true = .ok bytes ∧
      ∀ base, EncodedLine base header none bytes := by
  have small := lt_of_predefinedHeaders static
  obtain ⟨bytes, encoded, spec⟩ := @Hpack.encodeInteger_spec 6 index
    (FieldType.index.pattern ||| 0x40) (by decide) (Hpack.representable_of_lt (by omega))
  refine ⟨bytes, by rw [renderFieldLineIndex, if_pos rfl, encoded]; rfl, fun base => ⟨?_,
    fun dec _ rest => ⟨⟨header.1, header.2, false⟩, false, rfl, ?_⟩⟩⟩
  · obtain ⟨-, -, -, rfl⟩ := spec.first
    exact cons_ne_nil _ _
  · refine parseFieldLine_index (by decide) spec ?_ _
    rw [fetchIndexField, if_pos (by decide), static]

theorem line_staticName (mustForwardAsLiteral : Bool)
    (static : predefinedHeaders[index]? = some entry)
    (fits : Representable 7 (encodedLength value)) :
    ∃ bytes, renderFieldLineIndexLiteral index true value mustForwardAsLiteral = .ok bytes ∧
      ∀ base, EncodedLine base (entry.1, value) none bytes := by
  have small := lt_of_predefinedHeaders static
  obtain ⟨name, nameEncoded, nameSpec⟩ := @Hpack.encodeInteger_spec 4 index
    (FieldType.literalWithNameRef.pattern ||| 0x10 ||| (if mustForwardAsLiteral then 0x20 else 0))
    (by cases mustForwardAsLiteral <;> decide) (Hpack.representable_of_lt (by omega))
  obtain ⟨literal, _, encoded, string⟩ := @Hpack.encodeString_spec 7 0 0x80 _ (by decide) fits
  refine ⟨name ++ literal, by
    rw [renderFieldLineIndexLiteral, if_pos rfl, nameEncoded, encoded]; rfl, fun base => ⟨?_,
    fun dec _ rest => ⟨⟨entry.1, value, false⟩, false, rfl, ?_⟩⟩⟩
  · obtain ⟨-, -, -, rfl⟩ := nameSpec.first
    simp
  · refine parseFieldLine_nameRef (by cases mustForwardAsLiteral <;> decide) nameSpec ?_ string _
    rw [fetchIndexField, if_pos (by cases mustForwardAsLiteral <;> decide), static]

theorem line_literal {head : Bytes} (mustForwardAsLiteral : Bool)
    (headFits : Representable 3 (encodedLength head))
    (valueFits : Representable 7 (encodedLength value)) :
    ∃ bytes, renderFieldLineLiteral head value mustForwardAsLiteral = .ok bytes ∧
      ∀ base, EncodedLine base (head, value) none bytes := by
  obtain ⟨_, nameMask, nameEncoded, nameString⟩ := @Hpack.encodeString_spec 3
    (FieldType.literalWithLiteralName.pattern ||| (if mustForwardAsLiteral then 0x10 else 0)) 0x08
    _ (by cases mustForwardAsLiteral <;> decide) headFits
  obtain ⟨literal, _, encoded, string⟩ := @Hpack.encodeString_spec 7 0 0x80 _ (by decide) valueFits
  obtain ⟨low, _, small, rfl⟩ := nameString.first
  have kind : getType (UInt8.ofNat (nameMask ||| low)) = .literalWithLiteralName := by
    obtain rfl | rfl := nameString.flagged
    · exact (getType_literal low small _).1
    · exact (getType_literal low small _).2
  refine ⟨_ ++ literal, by rw [renderFieldLineLiteral, nameEncoded, encoded]; rfl,
    fun base => ⟨by simp,
    fun dec _ rest => ⟨⟨head, value, nameMask &&& 0x10 != 0⟩, false, rfl, ?_⟩⟩⟩
  have nameDecoded := nameString.decodes (literal ++ rest)
  rw [append_assoc]
  rw [cons_append] at nameDecoded ⊢
  simp only [parseFieldLine, kind, nameDecoded, ofHpack, Except.mapError, bind, Except.bind,
    string.decodes _]

/-- A reference by index reaches the decoder's entry of the same absolute index. -/
theorem line_dynamic {abs : Nat} (header : Header) (base_lt : base < 2 ^ 31)
    (abs_lt : abs < 2 ^ 31) :
    ∃ bytes, renderFieldLineDynamicIndex base abs = .ok bytes ∧
      EncodedLine base header (some abs) bytes := by
  rw [renderFieldLineDynamicIndex]
  by_cases before : abs ≤ base
  · obtain ⟨bytes, encoded, spec⟩ := @Hpack.encodeInteger_spec 6 (base - abs)
      (FieldType.index.pattern ||| 0) (by decide) (Hpack.representable_of_lt (by omega))
    refine ⟨bytes, by rw [if_pos before, renderFieldLineIndex, if_neg (by decide), encoded]; rfl, ?_,
      fun dec found rest => ⟨⟨header.1, header.2, false⟩, true, rfl, ?_⟩⟩
    · obtain ⟨-, -, -, rfl⟩ := spec.first
      exact cons_ne_nil _ _
    · refine parseFieldLine_index (by decide) spec ?_ _
      rw [fetchIndexField, if_neg (by decide), if_neg (by omega), Nat.sub_sub_self before,
        found abs rfl]
  · obtain ⟨bytes, encoded, spec⟩ := @Hpack.encodeInteger_spec 4 (abs - base - 1)
      FieldType.postBaseIndex.pattern (by decide) (Hpack.representable_of_lt (by omega))
    refine ⟨bytes, by rw [if_neg before, renderFieldLinePostBaseIndex, encoded]; rfl, ?_,
      fun dec found rest => ⟨⟨header.1, header.2, false⟩, false, rfl, ?_⟩⟩
    · obtain ⟨-, -, -, rfl⟩ := spec.first
      exact cons_ne_nil _ _
    · refine parseFieldLine_postBase spec ?_ _
      have index : add64 (add64 base 1) (abs - base - 1) = abs := by
        rw [add64_of_lt (by omega : base + 1 < 2 ^ 64), add64_of_lt (by omega)]
        omega
      rw [fetchPostIndexField, index, found abs rfl]

end Lines

end Futils.Qpack
