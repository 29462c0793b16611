import Futils.Qpack.Mirror

/-!
# Writing and reading a QPACK section

A section under way is a list of lines, each with the header it stands for and the dynamic entry it
refers to, if any.
-/

namespace Futils.Qpack

open List
open Hpack (Header Representable encodedLength)

/-- A line of a section. -/
structure Line where
  bytes : Bytes
  header : Header
  ref : Option Nat

/-- A line is read as its header from `base`, or from any base without a dynamic entry, and refers
to that header. -/
structure Line.Sound (table : List Header) (base : Nat) (line : Line) : Prop where
  encoded : ∀ other, line.ref = none ∨ other = base →
    EncodedLine other line.header line.ref line.bytes
  entry : ∀ abs ∈ line.ref, table[abs]? = some line.header

theorem getElem?_of_isPrefix {table longer : List Header} (grows : table <+: longer) {abs : Nat}
    {header : Header} (found : table[abs]? = some header) : longer[abs]? = some header := by
  obtain ⟨-, rfl⟩ := grows
  rw [List.getElem?_append_left (List.getElem?_eq_some_iff.1 found).1, found]

theorem Line.Sound.mono {table longer : List Header} {base : Nat} {line : Line}
    (sound : line.Sound table base) (grows : table <+: longer) : line.Sound longer base :=
  ⟨sound.encoded, fun abs member => getElem?_of_isPrefix grows (sound.entry abs member)⟩

/-- The largest of the references, if there are any. -/
def IsMaxRef (maxRef : Option Nat) (refs : List Nat) : Prop :=
  match maxRef with
  | none => refs = []
  | some largest => largest ∈ refs ∧ ∀ ref ∈ refs, ref ≤ largest

theorem IsMaxRef.set {maxRef : Option Nat} {refs : List Nat} (isMax : IsMaxRef maxRef refs)
    (ref : Nat) : IsMaxRef (setMaxRef maxRef ref) (refs ++ [ref]) := by
  match maxRef with
  | none =>
    rw [IsMaxRef] at isMax
    simp [isMax, setMaxRef, IsMaxRef]
  | some largest =>
    obtain ⟨member, bound⟩ := isMax
    simp only [setMaxRef]
    split
    case isTrue smaller =>
      refine ⟨by simp, fun other otherMember => ?_⟩
      obtain earlier | rfl := mem_snoc.1 otherMember
      · exact (bound _ earlier).trans smaller.le
      · exact le_rfl
    case isFalse larger =>
      refine ⟨by simp [member], fun other otherMember => ?_⟩
      obtain earlier | rfl := mem_snoc.1 otherMember
      · exact bound _ earlier
      · exact not_lt.1 larger

/-- What has been written stands for the headers that were given. -/
structure Drafted (table : List Header) (draft : Section) (given : List Header)
    (lines : List Line) : Prop where
  sound : ∀ line ∈ lines, line.Sound table draft.base
  written : draft.written = lines.flatMap Line.bytes
  headers : given = lines.map Line.header
  refs : draft.refs = lines.filterMap Line.ref
  isMax : IsMaxRef draft.maxRef draft.refs

namespace Drafted

variable {table longer : List Header} {draft : Section} {given : List Header} {lines : List Line}

theorem mono (drafted : Drafted table draft given lines) (grows : table <+: longer) :
    Drafted longer draft given lines :=
  { drafted with sound := fun _ member => (drafted.sound _ member).mono grows }

theorem put (drafted : Drafted table draft given lines) {header : Header} {bytes : Bytes}
    (encoded : ∀ base, EncodedLine base header none bytes) :
    Drafted table { draft with written := draft.written ++ bytes } (given ++ [header])
      (lines ++ [⟨bytes, header, none⟩]) where
  sound line member := by
    obtain earlier | rfl := mem_snoc.1 member
    · exact drafted.sound _ earlier
    · exact ⟨fun other _ => encoded _, nofun⟩
  written := by simp [drafted.written]
  headers := by simp [drafted.headers]
  refs := by simp [drafted.refs]
  isMax := drafted.isMax

theorem refer (drafted : Drafted table draft given lines) {header : Header} {bytes : Bytes}
    {ref : Nat} (encoded : EncodedLine draft.base header (some ref) bytes)
    (entry : table[ref]? = some header) :
    Drafted table
      { draft with
        written := draft.written ++ bytes
        maxRef := setMaxRef draft.maxRef ref
        refs := draft.refs ++ [ref] }
      (given ++ [header]) (lines ++ [⟨bytes, header, some ref⟩]) where
  sound line member := by
    obtain earlier | rfl := mem_snoc.1 member
    · exact drafted.sound _ earlier
    · refine ⟨fun other from_base => ?_, fun abs member => ?_⟩
      · obtain unset | rfl := from_base
        · cases unset
        · exact encoded
      · cases member
        exact entry
  written := by simp [drafted.written]
  headers := by simp [drafted.headers]
  refs := by simp [drafted.refs]
  isMax := drafted.isMax.set ref

end Drafted

/-- What a call of `add_field` comes to: the decoder follows, and unless the section has failed it has
one more header. -/
structure Wrote (decMax : Nat) (ctx : Context) (draft : Section) (given : List Header)
    (header : Header) (result : Context × Section) : Prop where
  advances : Advances decMax ctx result.1
  sameBase : result.2.base = draft.base
  sameId : result.2.id = draft.id
  drafted : result.2.err = none →
    ∃ lines, Drafted result.1.enc.encTable result.2 (given ++ [header]) lines

section Write

variable {decMax : Nat} {ctx : Context} {draft : Section} {given : List Header}
  {key value : Bytes}

theorem wrote_failed (coherent : Coherent ctx.enc) (header : Header) (error : QpackError) :
    Wrote decMax ctx draft given header (ctx, { draft with err := some error }) :=
  ⟨.refl coherent, rfl, rfl, nofun⟩

variable {lines : List Line} {rendered : Except QpackError Bytes}

variable (coherent : Coherent ctx.enc) (drafted : Drafted ctx.enc.encTable draft given lines)

include coherent drafted in
theorem wrote_put {header : Header}
    (spec : ∃ bytes, rendered = .ok bytes ∧ ∀ base, EncodedLine base header none bytes) :
    Wrote decMax ctx draft given header (put ctx draft rendered) := by
  obtain ⟨bytes, rfl, encoded⟩ := spec
  exact ⟨.refl coherent, rfl, rfl, fun _ => ⟨_, drafted.put encoded⟩⟩

/-- Counting a reference changes nothing the decoder knows of. -/
theorem addRef_spec (decMax : Nat) (coherent : Coherent ctx.enc) {ref : Nat} (id : Nat)
    (within : ref < ctx.enc.track.inserted) :
    ∃ enc, ctx.enc.addRef ref id = .ok enc ∧ enc.encTable = ctx.enc.encTable ∧
      Advances decMax ctx { ctx with enc := enc } := by
  have known : ¬ (ref < ctx.enc.track.dropped ∨ ctx.enc.track.inserted ≤ ref) := by
    rw [coherent.dropped]
    omega
  refine ⟨{ ctx.enc with
    refCount := Function.update _ ref _
    idRef := Function.update _ id _ },
    by rw [FieldEncodeContext.addRef, if_neg known], rfl, ?_⟩
  exact ⟨⟨coherent.inserted, coherent.dropped, coherent.entries, coherent.fits, coherent.allowed,
    coherent.representable⟩, prefix_refl _, rfl, fun allowed => allowed, [],
    (append_nil _).symm, drain_nil _⟩

include coherent drafted in
theorem wrote_refer {header : Header} {ref : Nat}
    (entry : ctx.enc.encTable[ref]? = some header)
    (spec : ∃ bytes, rendered = .ok bytes ∧ EncodedLine draft.base header (some ref) bytes) :
    Wrote decMax ctx draft given header (refer ctx draft ref rendered) := by
  obtain ⟨bytes, rfl, encoded⟩ := spec
  have within : ref < ctx.enc.track.inserted := by
    rw [coherent.inserted]
    exact (List.getElem?_eq_some_iff.1 entry).1
  obtain ⟨enc, added, table, advances⟩ := addRef_spec decMax coherent draft.id within
  have longer := drafted.refer encoded entry
  rw [← table] at longer
  rw [refer]
  simp only [added]
  exact ⟨advances, rfl, rfl, fun _ => ⟨_, longer⟩⟩

include coherent drafted in
theorem wrote_literal (policy : FieldPolicy) (keyFits : Representable 3 (encodedLength key))
    (valueFits : Representable 7 (encodedLength value)) :
    Wrote decMax ctx draft given (key, value) (putLiteral ctx draft key value policy) :=
  wrote_put coherent drafted (line_literal policy.mustForwardAsLiteral keyFits valueFits)

/-- The field goes on to an insertion: neither table has it, or its entry has expired. -/
def ReachesInsert (ctx : Context) (key value : Bytes) (policy : FieldPolicy) : Prop :=
  policy.maybeInsert = true ∧ policy.prior ∈ [.priorStatic, .priorDynamic, .priorIndex] ∧
    (findStaticRef key value).head = none ∧
    ctx.unexpired (ctx.enc.findRef key value).headValue = none
deriving Decidable

/-- What `add_field` asks of a field and of the encoder before it. -/
@[mk_iff]
structure Writable (ctx : Context) (key value : Bytes) (policy : FieldPolicy) : Prop where
  keyFits : Representable 3 (encodedLength key)
  valueFits : Representable 7 (encodedLength value)
  oldest : ReachesInsert ctx key value policy → DuplicatesOldest ctx.enc key value

theorem representable_insert {length : Nat} (fits : Representable 3 length) :
    Representable 5 length :=
  lt_of_lt_of_le fits (Nat.add_le_add_right (by decide) _)

include coherent drafted in
theorem wrote_insertOrLiteral
    (base_le : draft.base ≤ ctx.enc.track.inserted) (policy : FieldPolicy)
    (keyFits : Representable 3 (encodedLength key))
    (valueFits : Representable 7 (encodedLength value))
    (oldest : policy.maybeInsert → DuplicatesOldest ctx.enc key value) :
    Wrote decMax ctx draft given (key, value) (insertOrLiteral ctx draft key value policy) := by
  rw [insertOrLiteral]
  by_cases inserts : policy.maybeInsert
  · have tried : Tried decMax ctx key value _ :=
      Tried.orElse (·.tryLiteral key value)
        (Tried.orElse (·.tryDynamicName key value (ctx.enc.findRef key value))
          (tried_duplicate coherent (oldest inserts)) tried_dynamicName)
        (tried_literal coherent (representable_insert keyFits) valueFits)
    rw [if_pos inserts]
    dsimp only
    generalize Context.orElse _ _ = result at tried ⊢
    cases tried with
    | blocked => exact wrote_literal coherent drafted policy keyFits valueFits
    | @added after advances table =>
      have inserted_lt := coherent.inserted_lt
      have entry : after.enc.encTable[ctx.enc.track.inserted]? = some (key, value) := by
        rw [table, coherent.inserted]
        exact getElem?_concat_length
      have referred : Wrote decMax after draft given (key, value) _ :=
        wrote_refer advances.coherent (drafted.mono advances.grows) entry
          (line_dynamic (key, value) (by omega) (by omega))
      exact { referred with advances := advances.trans referred.advances }
  · rw [if_neg inserts]
    exact wrote_literal coherent drafted policy keyFits valueFits

theorem writeStatic_spec {policy : FieldPolicy}
    (valueFits : Representable 7 (encodedLength value))
    (written : writeStatic key value policy = some rendered) :
    ∃ bytes, rendered = .ok bytes ∧ ∀ base, EncodedLine base (key, value) none bytes := by
  rw [writeStatic] at written
  split at written
  case h_1 index found =>
    cases written
    exact line_static (findStaticRef_headValue found)
  case h_2 index _ found =>
    cases written
    obtain ⟨_, static, rfl⟩ := findStaticRef_head found
    exact line_staticName _ static valueFits
  case h_3 => cases written

theorem writeStatic_none {policy : FieldPolicy} (none : writeStatic key value policy = none) :
    (findStaticRef key value).head = .none := by
  rw [writeStatic] at none
  split at none
  case h_1 => cases none
  case h_2 => cases none
  case h_3 _ unfound => exact unfound

include coherent drafted in
/-- A reference to an entry that was found. -/
theorem wrote_found (base_le : draft.base ≤ ctx.enc.track.inserted) {ref : Nat}
    (found : ctx.unexpired (ctx.enc.findRef key value).headValue = some ref) :
    Wrote decMax ctx draft given (key, value)
      (refer ctx draft ref (renderFieldLineDynamicIndex draft.base ref)) := by
  have entry := findRef_headValue coherent (Option.filter_eq_some_iff.1 found).1
  have within : ref < ctx.enc.track.inserted := by
    rw [coherent.inserted]
    exact (List.getElem?_eq_some_iff.1 entry).1
  have inserted_lt := coherent.inserted_lt
  exact wrote_refer coherent drafted entry (line_dynamic (key, value) (by omega) (by omega))

theorem unexpired_head (ctx : Context) (key value : Bytes) :
    ctx.unexpired (ctx.enc.findRef key value).head = none := by
  rw [findRef_head]
  rfl

theorem writeDynamic_eq (base : Nat) (policy : FieldPolicy) :
    writeDynamic ctx base key value policy =
      (ctx.unexpired (ctx.enc.findRef key value).headValue).map fun ref =>
        (ref, renderFieldLineDynamicIndex base ref) := by
  rw [writeDynamic, unexpired_head]
  cases ctx.unexpired (ctx.enc.findRef key value).headValue <;> rfl

include coherent drafted in
/-- Whatever the policy, a line for the field is written. -/
theorem wrote_writeKeyValue (base_le : draft.base ≤ ctx.enc.track.inserted) {policy : FieldPolicy}
    (writable : Writable ctx key value policy) :
    Wrote decMax ctx draft given (key, value) (writeKeyValue ctx draft key value policy) := by
  obtain ⟨keyFits, valueFits, oldest⟩ := writable
  have inserting (prior : policy.prior ∈ [.priorStatic, .priorDynamic, .priorIndex])
      (static : (findStaticRef key value).head = none)
      (dynamic : ctx.unexpired (ctx.enc.findRef key value).headValue = none) :
      Wrote decMax ctx draft given (key, value) (insertOrLiteral ctx draft key value policy) :=
    wrote_insertOrLiteral coherent drafted base_le policy keyFits valueFits
      fun inserts => oldest ⟨inserts, prior, static, dynamic⟩
  rw [writeKeyValue]
  match prior : policy.prior with
  | .other => exact wrote_failed coherent _ _
  | .forceLiteral => exact wrote_literal coherent drafted policy keyFits valueFits
  | .noDynamic =>
    match static : writeStatic key value policy with
    | some rendered => exact wrote_put coherent drafted (writeStatic_spec valueFits static)
    | none => exact wrote_literal coherent drafted policy keyFits valueFits
  | .priorStatic =>
    rw [writeDynamic_eq]
    match static : writeStatic key value policy,
      dynamic : ctx.unexpired (ctx.enc.findRef key value).headValue with
    | some rendered, _ => exact wrote_put coherent drafted (writeStatic_spec valueFits static)
    | none, some ref => exact wrote_found coherent drafted base_le dynamic
    | none, none => exact inserting (by simp [prior]) (writeStatic_none static) dynamic
  | .priorDynamic =>
    rw [writeDynamic_eq]
    match dynamic : ctx.unexpired (ctx.enc.findRef key value).headValue,
      static : writeStatic key value policy with
    | some ref, _ => exact wrote_found coherent drafted base_le dynamic
    | none, some rendered => exact wrote_put coherent drafted (writeStatic_spec valueFits static)
    | none, none => exact inserting (by simp [prior]) (writeStatic_none static) dynamic
  | .priorIndex =>
    dsimp only
    rw [unexpired_head]
    match static : (findStaticRef key value).headValue,
      dynamic : ctx.unexpired (ctx.enc.findRef key value).headValue,
      name : (findStaticRef key value).head with
    | some index, _, _ =>
      exact wrote_put coherent drafted (line_static (findStaticRef_headValue static))
    | none, some ref, _ => exact wrote_found coherent drafted base_le dynamic
    | none, none, some index =>
      obtain ⟨entry, found, rfl⟩ := findStaticRef_head name
      exact wrote_put coherent drafted
        (line_staticName policy.mustForwardAsLiteral found valueFits)
    | none, none, none => exact inserting (by simp [prior]) name dynamic

end Write

section Read

/-- The loop of `read_header` reads a list of lines, given that the decoder finds the entries they
refer to. -/
theorem readLines_spec {dec : FieldDecodeContext} {base : Nat} :
    ∀ (lines : List Line) (rounds : Nat) (fields : List DecodeField) (used : Bool),
      (∀ line ∈ lines, EncodedLine base line.header line.ref line.bytes) →
      (∀ line ∈ lines, ∀ abs ∈ line.ref, dec.findRef abs = some line.header) →
      (lines.flatMap Line.bytes).length ≤ rounds →
      ∃ more after, more.map DecodeField.header = lines.map Line.header ∧
        readLines dec base rounds (lines.flatMap Line.bytes) fields used =
          .ok (fields ++ more, after) := by
  intro lines
  induction lines with
  | nil =>
    intro rounds fields used _ _ _
    exact ⟨[], used, rfl, by simp [readLines]⟩
  | cons line lines ih =>
    intro rounds fields used encoded found enough
    have first := encoded line (by simp)
    obtain ⟨field, lineUsed, header, parsed⟩ :=
      first.reads dec (found _ (by simp)) (lines.flatMap Line.bytes)
    obtain ⟨_, _, bytes⟩ := exists_cons_of_ne_nil first.nonempty
    rw [flatMap_cons, bytes] at enough ⊢
    rw [bytes] at parsed
    simp only [cons_append, length_cons, length_append] at enough parsed ⊢
    obtain ⟨rounds, rfl⟩ : ∃ fewer, rounds = fewer + 1 := ⟨rounds - 1, by omega⟩
    obtain ⟨more, after, headers, read⟩ := ih rounds (fields ++ [field]) (used || lineUsed)
      (forall_mem_cons.1 encoded).2
      (forall_mem_cons.1 found).2 (by omega)
    refine ⟨field :: more, after, by simp [header, headers], ?_⟩
    simp only [readLines, parsed, bind, Except.bind, read]
    simp

end Read

end Futils.Qpack
