import Futils.Qpack.Context

/-!
# The encoder stream keeps the decoder in step

An encoder that never drops an entry and the decoder that has read its whole stream have the same
table.  Every operation of the encoder is followed by the decoder, except for the duplication of an
entry other than the oldest one.
-/

namespace Futils.Qpack

open FieldEncodeContext List Context

open Hpack (Header Representable encodedLength)
open Lib.Incremental Encoder

/-- An encoder context that its own operations produce; the capacity is one that `decode_integer`
reads back. -/
structure Coherent (enc : FieldEncodeContext) : Prop where
  inserted : enc.track.inserted = enc.encTable.length
  dropped : enc.track.dropped = 0
  entries : enc.track.inserted * 32 ≤ enc.track.usage
  fits : enc.track.usage ≤ enc.track.capacity
  allowed : enc.track.capacity ≤ enc.track.maxCapacity
  representable : Representable 5 enc.track.capacity

/-- The decoder that has read everything the encoder has written. -/
def mirror (decMax : Nat) (enc : FieldEncodeContext) : FieldDecodeContext where
  decQue := enc.encTable
  track := {
    inserted := enc.track.inserted
    maxCapacity := decMax
    capacity := enc.track.capacity
    usage := enc.track.usage }

namespace Coherent

variable {enc : FieldEncodeContext}

theorem inserted_lt (coherent : Coherent enc) : enc.track.inserted < 2 ^ 27 := by
  obtain ⟨-, -, entries, fits, -, representable⟩ := coherent
  have mask : Hpack.prefixMask 5 = 31 := by decide
  rw [Representable] at representable
  omega

/-- The test for entries that are still in use always finds the oldest one in use. -/
theorem dropField (coherent : Coherent enc) : ∃ error, enc.dropField = .error error := by
  rw [FieldEncodeContext.dropField]
  split
  case isTrue => exact ⟨_, rfl⟩
  case isFalse =>
    rw [if_pos (by rw [coherent.dropped]; exact Nat.zero_le _)]
    exact ⟨_, rfl⟩

def inserting (enc : FieldEncodeContext) (head value : Bytes) : FieldEncodeContext :=
  { enc with
    encTable := enc.encTable ++ [(head, value)]
    track := { enc.track with
      usage := enc.track.usage + calcFieldUsage head value
      inserted := enc.track.inserted + 1 } }

theorem insert (coherent : Coherent enc) {head value : Bytes}
    (room : enc.track.usage + calcFieldUsage head value ≤ enc.track.capacity) :
    Coherent (inserting enc head value) where
  inserted := by simp [inserting, coherent.inserted]
  dropped := coherent.dropped
  entries := by
    have before := coherent.entries
    simp only [inserting, calcFieldUsage]
    omega
  fits := room
  allowed := coherent.allowed
  representable := coherent.representable

theorem insertField_mirror (decMax : Nat) {head value : Bytes}
    (room : enc.track.usage + calcFieldUsage head value ≤ enc.track.capacity) :
    insertField (mirror decMax enc) (head, value) = mirror decMax (inserting enc head value) := by
  have single : ¬ (mirror decMax enc).track.capacity < calcFieldUsage head value := by
    simp only [mirror]
    omega
  have added : (mirror decMax enc).addField head value =
      .ok (mirror decMax (inserting enc head value)) := by
    rw [FieldDecodeContext.addField, if_neg single, FieldDecodeContext.dropUsage_of_fits]
    · rfl
    · exact room
  rw [insertField, added]

end Coherent

section Find

theorem findRefLoop_head (head value : Bytes) (maxIndex : Nat) (entries : List Header) :
    ∀ (i : Nat) (ref : Reference), ref.head = none →
      (findRefLoop head value maxIndex i entries ref).head = none := by
  induction entries with
  | nil => exact fun _ _ unset => unset
  | cons entry entries ih =>
    intro i ref unset
    simp only [findRefLoop, unset, ne_eq, not_true_eq_false, if_false]
    split
    case isTrue =>
      split
      case isTrue => rfl
      case isFalse => exact ih _ ref unset
    case isFalse => exact ih _ ref unset

theorem findRefLoop_headValue {head value : Bytes} {maxIndex index : Nat} {entries : List Header} :
    ∀ {i : Nat} {ref : Reference}, ref.headValue = none → ref.head = none →
      (findRefLoop head value maxIndex i entries ref).headValue = some index →
      ∃ offset, entries[offset]? = some (head, value) ∧ index = maxIndex - (i + offset) := by
  induction entries with
  | nil =>
    intro i ref unset _ found
    rw [findRefLoop, unset] at found
    cases found
  | cons entry entries ih =>
    intro i ref unset headUnset found
    obtain ⟨hd, val⟩ := entry
    simp only [findRefLoop, headUnset]
      at found
    have later (found : (findRefLoop head value maxIndex (i + 1) entries
        ref).headValue = some index) :
        ∃ offset, ((hd, val) :: entries)[offset]? = some (head, value) ∧
          index = maxIndex - (i + offset) := by
      obtain ⟨offset, hit, eq⟩ := ih unset headUnset found
      exact ⟨offset + 1, by simpa using hit, by omega⟩
    split at found
    case isTrue sameHead =>
      split at found
      case isTrue sameValue =>
        cases found
        exact ⟨0, by simp [sameHead, sameValue], rfl⟩
      case isFalse => exact later found
    case isFalse => exact later found

/-- `find_ref` never finds an entry by its name alone. -/
theorem findRef_head (enc : FieldEncodeContext) (head value : Bytes) :
    (enc.findRef head value).head = none :=
  findRefLoop_head _ _ _ _ 0 _ rfl

/-- The index `find_ref` finds is the absolute one of such an entry. -/
theorem findRef_headValue {enc : FieldEncodeContext} (coherent : Coherent enc) {head value : Bytes}
    {abs : Nat} (found : (enc.findRef head value).headValue = some abs) :
    enc.encTable[abs]? = some (head, value) := by
  obtain ⟨offset, hit, eq⟩ := findRefLoop_headValue rfl rfl found
  have within : offset < enc.encTable.length := by
    have bound := (List.getElem?_eq_some_iff.1 hit).1
    rwa [length_reverse] at bound
  rw [getElem?_reverse within] at hit
  rw [eq, coherent.inserted, Nat.zero_add]
  exact hit

end Find

section Static

theorem getElem?_of_findIdx? {p : Header → Bool} {entries : List Header} {index : Nat}
    (found : entries.findIdx? p = some index) : ∃ entry, entries[index]? = some entry ∧ p entry := by
  obtain ⟨within, hit, -⟩ := findIdx?_eq_some_iff_getElem.1 found
  exact ⟨entries[index], getElem?_eq_getElem _, hit⟩

theorem findStaticRef_headValue {head value : Bytes} {index : Nat}
    (found : (findStaticRef head value).headValue = some index) :
    predefinedHeaders[index]? = some (head, value) := by
  rw [findStaticRef] at found
  split at found
  case h_1 position exact =>
    cases found
    obtain ⟨⟨entryHead, entryValue⟩, at_index, hit⟩ := getElem?_of_findIdx? exact
    obtain ⟨rfl, rfl⟩ : entryHead = head ∧ entryValue = value := by simpa using hit
    exact at_index
  case h_2 => cases found

theorem findStaticRef_head {head value : Bytes} {index : Nat}
    (found : (findStaticRef head value).head = some index) :
    ∃ entry, predefinedHeaders[index]? = some entry ∧ entry.1 = head := by
  rw [findStaticRef] at found
  split at found
  case h_1 position exact =>
    cases found
    obtain ⟨entry, at_index, hit⟩ := getElem?_of_findIdx? exact
    simp only [Bool.and_eq_true, beq_iff_eq] at hit
    exact ⟨entry, at_index, hit.1⟩
  case h_2 =>
    obtain ⟨entry, at_index, hit⟩ := getElem?_of_findIdx? found
    exact ⟨entry, at_index, by simpa using hit⟩

end Static

/-- There is room for another entry. -/
def Room (enc : FieldEncodeContext) (head value : Bytes) : Prop :=
  enc.track.usage + calcFieldUsage head value ≤ enc.track.capacity
deriving Decidable

section Insert

variable {ctx : Context} {key value : Bytes} {stopDrop : FieldEncodeContext → Bool}

theorem tryInsert_blocked (coherent : Coherent ctx.enc) (full : ¬ Room ctx.enc key value)
    (rendered : Except QpackError Bytes) :
    ctx.tryInsert key value stopDrop rendered = (ctx, .blocked) := by
  obtain ⟨_, kept⟩ := coherent.dropField
  have refused : ctx.enc.addField key value = none := by
    rw [addField, if_pos (not_le.1 full)]
  have loop : dropUntilAdd key value stopDrop (ctx.enc.encTable.length + 1) ctx.enc =
      (ctx.enc, none) := by
    rw [dropUntilAdd, refused, kept]
    exact ite_self _
  rw [tryInsert, loop]

theorem tryInsert_added (room : Room ctx.enc key value) (going : stopDrop ctx.enc = false)
    {rendered : Except QpackError Bytes} {bytes : Bytes} (ok : rendered = .ok bytes) :
    ctx.tryInsert key value stopDrop rendered =
      ({ ctx with
          enc := Coherent.inserting ctx.enc key value
          encSendStream := ctx.encSendStream ++ bytes }, .added ctx.enc.track.inserted) := by
  have added : ctx.enc.addField key value =
      some (ctx.enc.track.inserted, Coherent.inserting ctx.enc key value) := by
    rw [addField, if_neg (not_lt.2 room)]
    rfl
  have loop : dropUntilAdd key value stopDrop (ctx.enc.encTable.length + 1) ctx.enc =
      (Coherent.inserting ctx.enc key value, some ctx.enc.track.inserted) := by
    rw [dropUntilAdd, if_neg (by rw [going]; decide), added]
  rw [tryInsert, loop, ok]

end Insert

/-- A context after another one: entries are only added, and the decoder follows by reading what has
been written in between. -/
structure Advances (decMax : Nat) (ctx after : Context) : Prop where
  coherent : Coherent after.enc
  grows : ctx.enc.encTable <+: after.enc.encTable
  sameMax : after.enc.track.maxCapacity = ctx.enc.track.maxCapacity
  allowed : ctx.enc.track.capacity ≤ decMax → after.enc.track.capacity ≤ decMax
  emits : ∃ bytes, after.encSendStream = ctx.encSendStream ++ bytes ∧
    drain .inputLength parseInstruction (mirror decMax ctx.enc) bytes =
      (mirror decMax after.enc, [], none)

theorem drain_nil (dec : FieldDecodeContext) :
    drain .inputLength parseInstruction dec [] = (dec, [], none) := rfl

theorem drain_of_instructs {dec after : FieldDecodeContext} {bytes : Bytes}
    (instructs : Instructs dec bytes after) :
    drain .inputLength parseInstruction dec bytes = (after, [], none) := by
  have whole := instructs []
  rw [append_nil] at whole
  rw [drain_of_ok reader_parseInstruction whole, drain_nil]

namespace Advances

variable {decMax : Nat} {ctx middle after : Context}

theorem refl (coherent : Coherent ctx.enc) : Advances decMax ctx ctx :=
  ⟨coherent, prefix_refl _, rfl, id, [], (append_nil _).symm, drain_nil _⟩

theorem trans (first : Advances decMax ctx middle) (second : Advances decMax middle after) :
    Advances decMax ctx after := by
  obtain ⟨firstBytes, firstStream, firstDrain⟩ := first.emits
  obtain ⟨secondBytes, secondStream, secondDrain⟩ := second.emits
  refine ⟨second.coherent, first.grows.trans second.grows, second.sameMax.trans first.sameMax,
    second.allowed ∘ first.allowed, firstBytes ++ secondBytes, ?_, ?_⟩
  · rw [secondStream, firstStream, append_assoc]
  · rw [drain_append reader_parseInstruction, firstDrain]
    exact secondDrain

theorem inserted_le (advances : Advances decMax ctx after) (coherent : Coherent ctx.enc) :
    ctx.enc.track.inserted ≤ after.enc.track.inserted := by
  rw [coherent.inserted, advances.coherent.inserted]
  exact advances.grows.length_le

theorem insert {key value bytes : Bytes} (coherent : Coherent ctx.enc)
    (room : Room ctx.enc key value)
    (instructs : Instructs (mirror decMax ctx.enc) bytes
      (insertField (mirror decMax ctx.enc) (key, value))) :
    Advances decMax ctx { ctx with
      enc := Coherent.inserting ctx.enc key value
      encSendStream := ctx.encSendStream ++ bytes } := by
  refine ⟨coherent.insert room, prefix_append _ _, rfl, id, bytes, rfl, ?_⟩
  rw [drain_of_instructs instructs, Coherent.insertField_mirror _ room]

end Advances

/-- What an insertion can come to. -/
inductive Tried (decMax : Nat) (ctx : Context) (key value : Bytes) : Context × Attempt → Prop where
  | blocked : Tried decMax ctx key value (ctx, .blocked)
  | added {after : Context} : Advances decMax ctx after →
      after.enc.encTable = ctx.enc.encTable ++ [(key, value)] →
      Tried decMax ctx key value (after, .added ctx.enc.track.inserted)

/-- An entry to be duplicated is the oldest one: its absolute index is read as a relative one. -/
def DuplicatesOldest (enc : FieldEncodeContext) (head value : Bytes) : Prop :=
  (enc.findRef head value).headValue = none ∨ (enc.findRef head value).headValue = some 0 ∨
    ¬ Room enc head value
deriving Decidable

section Attempts

variable {decMax : Nat} {ctx : Context} {key value : Bytes}

theorem Tried.orElse {before : Context × Attempt} (next : Context → Context × Attempt)
    (first : Tried decMax ctx key value before)
    (second : Tried decMax ctx key value (next ctx)) :
    Tried decMax ctx key value (orElse before next) := by
  cases first with
  | blocked => exact second
  | added advances table => exact .added advances table

theorem tried_insert (coherent : Coherent ctx.enc) {stopDrop : FieldEncodeContext → Bool}
    (going : stopDrop ctx.enc = false) {rendered : Except QpackError Bytes}
    (spec : Room ctx.enc key value → ∃ bytes, rendered = .ok bytes ∧
      Instructs (mirror decMax ctx.enc) bytes
        (insertField (mirror decMax ctx.enc) (key, value))) :
    Tried decMax ctx key value (ctx.tryInsert key value stopDrop rendered) := by
  by_cases room : Room ctx.enc key value
  · obtain ⟨_, ok, instructs⟩ := spec room
    rw [tryInsert_added room going ok]
    exact .added (Advances.insert coherent room instructs) rfl
  · rw [tryInsert_blocked coherent room]
    exact .blocked

theorem tried_duplicate (coherent : Coherent ctx.enc)
    (oldest : DuplicatesOldest ctx.enc key value) :
    Tried decMax ctx key value
      (ctx.tryDuplicate key value (ctx.enc.findRef key value).headValue) := by
  match found : (ctx.enc.findRef key value).headValue with
  | none => exact .blocked
  | some ref =>
    refine tried_insert coherent (by simp [coherent.dropped]) fun room => ?_
    obtain rfl : ref = 0 := by
      rcases oldest with unfound | zero | full
      · rw [unfound] at found; cases found
      · rw [zero] at found; cases found; rfl
      · exact absurd room full
    have bounded := coherent.inserted_lt
    exact @instructs_duplicate _ _ (findRef_headValue coherent found)
      coherent.inserted rfl (lt_trans bounded (by decide))

theorem tried_staticName (coherent : Coherent ctx.enc)
    (fits : Representable 7 (encodedLength value)) :
    Tried decMax ctx key value
      (ctx.tryStaticName key value (findStaticRef key value).head) := by
  match found : (findStaticRef key value).head with
  | none => exact .blocked
  | some index =>
    refine tried_insert coherent rfl fun _ => ?_
    obtain ⟨_, static, rfl⟩ := findStaticRef_head found
    exact instructs_insertStatic static fits

theorem tried_dynamicName :
    Tried decMax ctx key value (ctx.tryDynamicName key value (ctx.enc.findRef key value)) := by
  rw [tryDynamicName, findRef_head]
  exact .blocked

theorem tried_literal (coherent : Coherent ctx.enc)
    (keyFits : Representable 5 (encodedLength key))
    (valueFits : Representable 7 (encodedLength value)) :
    Tried decMax ctx key value (ctx.tryLiteral key value) :=
  tried_insert coherent rfl fun _ => instructs_insertLiteral keyFits valueFits

/-- `add_entry` fails only for want of room, and the decoder follows. -/
theorem addEntry_spec (coherent : Coherent ctx.enc)
    (keyFits : Representable 5 (encodedLength key))
    (valueFits : Representable 7 (encodedLength value))
    (oldest : (findStaticRef key value).headValue = none → DuplicatesOldest ctx.enc key value) :
    Advances decMax ctx (ctx.addEntry key value).1 ∧
      ((ctx.addEntry key value).2 = none ∨
        (ctx.addEntry key value).2 = some .dynamicRefExists) := by
  rw [addEntry]
  by_cases static : (findStaticRef key value).headValue = none
  · have tried : Tried decMax ctx key value _ :=
      Tried.orElse (·.tryLiteral key _)
        (Tried.orElse (·.tryDynamicName key _ _)
          (Tried.orElse (·.tryStaticName key _ _)
            (tried_duplicate coherent (oldest static)) (tried_staticName coherent valueFits))
          tried_dynamicName)
        (tried_literal coherent keyFits valueFits)
    rw [if_neg (not_not.2 static)]
    dsimp only
    generalize orElse _ _ = result at tried ⊢
    cases tried with
    | blocked => exact ⟨.refl coherent, .inr rfl⟩
    | added advances => exact ⟨advances, .inl rfl⟩
  · rw [if_pos static]
    exact ⟨.refl coherent, .inl rfl⟩

end Attempts

end Futils.Qpack
