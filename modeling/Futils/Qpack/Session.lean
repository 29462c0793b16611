import Futils.Qpack.EndToEnd

/-!
# QPACK sessions

The two ends of a connection: one writes sections, the other reads its encoder stream and the
sections, and acknowledges them.  The streams deliver their bytes in pieces of any size.
-/

namespace Futils.Qpack

open Hpack (Header Representable encodedLength)
open Lib.Incremental Lib.Machine Encoder Nat Hpack
open List hiding count

/-- The two ends, with the sections that have been written and not been read yet. -/
structure World where
  ctx : Context
  draft : Option (Section × List Header) := none
  dec : FieldDecodeContext
  encRecvStream : Bytes := []
  decSendStream : Bytes := []
  decRecvStream : Bytes := []
  blocks : List Block := []

def World.start (encMax decMax expiresDelta : Nat) : World where
  ctx := ⟨{ track := { maxCapacity := encMax } }, [], expiresDelta⟩
  dec := { track := { maxCapacity := decMax } }

/-- What can happen in a session; `deliver` and `deliverAcks` carry the next bytes of a stream over.
-/
inductive Op where
  | updateCapacity (capa : Nat)
  | addEntry (head value : Bytes)
  | beginSection (id : Nat)
  | addField (key value : Bytes) (policy : FieldPolicy)
  | finishSection
  | deliver (count : Nat)
  | readHeader (index : Nat)
  | deliverAcks (count : Nat)

/-- The outcome of an operation; a section that is read comes with the headers it was written for. -/
inductive Answer where
  | wrote (err : Option QpackError)
  | encoderStream (err : Option QpackError)
  | decoderStream (err : Option QpackError)
  | read (given : List Header) (result : Except QpackError (List Header))
  deriving DecidableEq

def step (world : World) : Op → World × Answer
  | .updateCapacity capa =>
    let (ctx, err) := world.ctx.updateCapacity capa
    ({ world with ctx := ctx }, .wrote err)
  | .addEntry head value =>
    match world.draft with
    | none =>
      let (ctx, err) := world.ctx.addEntry head value
      ({ world with ctx := ctx }, .wrote err)
    | some (draft, given) =>
      let (ctx, draft) := draft.addEntry world.ctx head value
      ({ world with ctx := ctx, draft := some (draft, given) }, .wrote draft.err)
  | .beginSection id =>
    match world.draft with
    | none => ({ world with draft := some (Qpack.beginSection world.ctx id, []) }, .wrote none)
    | some _ => (world, .wrote none)
  | .addField key value policy =>
    match world.draft with
    | none => (world, .wrote none)
    | some (draft, given) =>
      let (ctx, draft) := draft.addField world.ctx key value policy
      ({ world with ctx := ctx, draft := some (draft, given ++ [(key, value)]) },
        .wrote draft.err)
  | .finishSection =>
    match world.draft with
    | none => (world, .wrote none)
    | some (draft, given) =>
      match Qpack.finishSection world.ctx draft with
      | .error error => ({ world with draft := none }, .wrote (some error))
      | .ok bytes =>
        ({ world with
          draft := none
          blocks := world.blocks ++
            [⟨draft.id, bytes, given, draft.refs, draft.sectionPrefix⟩] }, .wrote none)
  | .deliver count =>
    let (dec, rest, err) := readEncoderStream world.dec
      (world.encRecvStream ++ world.ctx.encSendStream.take count)
    ({ world with
      ctx := { world.ctx with encSendStream := world.ctx.encSendStream.drop count }
      dec := dec
      encRecvStream := rest }, .encoderStream err)
  | .readHeader index =>
    match world.blocks[index]? with
    | none => (world, .wrote none)
    | some block =>
      let world := { world with blocks := world.blocks.eraseIdx index }
      match Qpack.readHeader world.dec block.id block.bytes with
      | .error error => (world, .read block.given (.error error))
      | .ok (fields, ack) =>
        ({ world with decSendStream := world.decSendStream ++ ack },
          .read block.given (.ok (fields.map DecodeField.header)))
  | .deliverAcks count =>
    let (enc, rest, err) := readDecoderStream world.ctx.enc
      (world.decRecvStream ++ world.decSendStream.take count)
    ({ world with
      ctx := { world.ctx with enc := enc }
      decSendStream := world.decSendStream.drop count
      decRecvStream := rest }, .decoderStream err)

/-- The encoder stream is understood, and a section is read as the headers it was written for. -/
def Answer.Faithful : Answer → Prop
  | .wrote _ => True
  | .encoderStream err => err = none
  | .decoderStream _ => True
  | .read given result => result = .ok given

/-- The capacity is one the decoder allows, and sections are read after the whole encoder stream;
the rest leaves out where the two ends disagree. -/
def Agreeable (decMax : Nat) (world : World) : Op → Prop
  | .updateCapacity capa => capa ≤ decMax ∧ Representable 5 capa
  | .addEntry head value =>
    Representable 5 (encodedLength head) ∧ Representable 7 (encodedLength value) ∧
      ((findStaticRef head value).headValue = none →
        DuplicatesOldest world.ctx.enc head value)
  | .addField key value policy => Writable world.ctx key value policy
  | .readHeader index =>
    world.ctx.encSendStream = [] ∧ ∀ block ∈ world.blocks[index]?,
      Anchored block.sectionPrefix ∧ Mirrored world.ctx.enc.encTable block.refs
  | _ => True

instance (ctx : Context) (key value : Bytes) (policy : FieldPolicy) :
    Decidable (Writable ctx key value policy) :=
  decidable_of_iff' _ (writable_iff ..)

instance (decMax : Nat) (world : World) (op : Op) : Decidable (Agreeable decMax world op) := by
  cases op <;> dsimp only [Agreeable] <;> infer_instance

/-- A section under way stands for the headers that were given. -/
def DraftSound (ctx : Context) : Option (Section × List Header) → Prop
  | none => True
  | some (draft, given) => draft.base ≤ ctx.enc.track.inserted ∧
      (draft.err = none → ∃ lines, Drafted ctx.enc.encTable draft given lines)

/-- The decoder mirrors the encoder once it has read the rest of the stream, and sections stand for
their headers. -/
structure InStep (decMax : Nat) (world : World) : Prop where
  coherent : Coherent world.ctx.enc
  within : world.ctx.enc.track.capacity ≤ decMax
  follows : drain .inputLength parseInstruction world.dec
    (world.encRecvStream ++ world.ctx.encSendStream) = (mirror decMax world.ctx.enc, [], none)
  idle : parseInstruction world.dec world.encRecvStream = .error .inputLength
  draft : DraftSound world.ctx world.draft
  blocks : ∀ block ∈ world.blocks, ∃ lines, block.Sound world.ctx.enc lines

theorem DraftSound.advance {decMax : Nat} {ctx after : Context}
    {draft : Option (Section × List Header)} (sound : DraftSound ctx draft)
    (coherent : Coherent ctx.enc) (advances : Advances decMax ctx after) :
    DraftSound after draft := by
  match draft with
  | none => trivial
  | some (draft, given) =>
    obtain ⟨base_le, drafted⟩ := sound
    refine ⟨base_le.trans (advances.inserted_le coherent), fun going => ?_⟩
    obtain ⟨lines, drafted⟩ := drafted going
    exact ⟨lines, drafted.mono advances.grows⟩

namespace InStep

variable {decMax : Nat} {world : World}

theorem start (encMax decMax expiresDelta : Nat) :
    InStep decMax (World.start encMax decMax expiresDelta) where
  coherent := ⟨rfl, rfl, le_rfl, le_rfl, zero_le, show 0 < prefixMask 5 + 2 ^ 31 by decide⟩
  within := zero_le
  follows := drain_nil _
  idle := rfl
  draft := trivial
  blocks := by simp [World.start]

/-- The encoder goes on, and with it the section under way. -/
theorem advance (inStep : InStep decMax world) {after : Context}
    (advances : Advances decMax world.ctx after) {draft : Option (Section × List Header)}
    (sound : DraftSound after draft) :
    InStep decMax { world with ctx := after, draft := draft } where
  coherent := advances.coherent
  within := advances.allowed inStep.within
  follows := by
    obtain ⟨_, stream, followed⟩ := advances.emits
    rw [stream, ← append_assoc, drain_append reader_parseInstruction, inStep.follows]
    exact followed
  idle := inStep.idle
  draft := sound
  blocks block member := by
    obtain ⟨lines, written⟩ := inStep.blocks _ member
    exact ⟨lines, written.advance inStep.coherent advances⟩

theorem advance_ctx (inStep : InStep decMax world) {after : Context}
    (advances : Advances decMax world.ctx after) :
    InStep decMax { world with ctx := after } :=
  inStep.advance advances (inStep.draft.advance inStep.coherent advances)

theorem updateCapacity (inStep : InStep decMax world) {capa : Nat} (allowed : capa ≤ decMax)
    (fits : Representable 5 capa) :
    InStep decMax { world with ctx := (world.ctx.updateCapacity capa).1 } := by
  have coherent := inStep.coherent
  rw [Context.updateCapacity, FieldEncodeContext.updateCapacity]
  by_cases large : world.ctx.enc.track.maxCapacity < capa
  · rw [if_pos large]
    exact inStep
  · rw [if_neg large]
    by_cases small : capa < world.ctx.enc.track.usage
    · rw [if_pos small]
      exact inStep
    · rw [if_neg small]
      obtain ⟨bytes, rendered, instructs⟩ :=
        @instructs_capacity (mirror _ _) _ fits allowed (not_lt.1 small)
      simp only [rendered]
      have after : Coherent { world.ctx.enc with
          track := { world.ctx.enc.track with capacity := capa } } :=
        ⟨coherent.inserted, coherent.dropped, coherent.entries, not_lt.1 small,
          not_lt.1 large, fits⟩
      have advances : Advances decMax world.ctx { world.ctx with
          enc := { world.ctx.enc with track := { world.ctx.enc.track with capacity := capa } }
          encSendStream := world.ctx.encSendStream ++ bytes } :=
        ⟨after, prefix_refl _, rfl, fun _ => allowed, bytes, rfl,
          drain_of_instructs instructs⟩
      exact inStep.advance_ctx advances

/-- The `add_entry` of a callback leaves what has been written alone. -/
theorem section_addEntry (coherent : Coherent world.ctx.enc) {draft : Section}
    {given : List Header} {head value : Bytes}
    (sound : DraftSound world.ctx (some (draft, given)))
    (allowed : Agreeable decMax world (.addEntry head value)) :
    Advances decMax world.ctx (draft.addEntry world.ctx head value).1 ∧
      DraftSound (draft.addEntry world.ctx head value).1
        (some ((draft.addEntry world.ctx head value).2, given)) := by
  obtain ⟨keyFits, valueFits, oldest⟩ := allowed
  obtain ⟨advances, outcome⟩ := @addEntry_spec _ _ _ _ coherent keyFits valueFits oldest
  have followed := sound.advance coherent advances
  obtain ⟨base_le, drafted⟩ := followed
  rw [Section.addEntry]
  by_cases failed : draft.err = none
  · rw [if_neg (not_not.2 failed)]
    generalize world.ctx.addEntry head value = result at advances base_le drafted outcome ⊢
    obtain ⟨_, _⟩ := result
    obtain rfl | rfl := outcome
    · refine ⟨advances, base_le, fun _ => ?_⟩
      obtain ⟨lines, drafted⟩ := drafted failed
      exact ⟨lines, drafted.sound, drafted.written, drafted.headers, drafted.refs, drafted.isMax⟩
    · exact ⟨advances, base_le, drafted⟩
  · rw [if_pos failed]
    exact ⟨.refl coherent, sound⟩

variable (inStep : InStep decMax world)
include inStep

theorem addEntry {head value : Bytes} (allowed : Agreeable decMax world (.addEntry head value)) :
    InStep decMax (step world (.addEntry head value)).1 := by
  match underWay : world.draft with
  | none =>
    simp only [step, underWay]
    obtain ⟨keyFits, valueFits, oldest⟩ := allowed
    exact inStep.advance (addEntry_spec inStep.coherent keyFits valueFits oldest).1 trivial
  | some (draft, given) =>
    simp only [step, underWay]
    obtain ⟨advances, sound⟩ :=
      section_addEntry inStep.coherent (underWay ▸ inStep.draft) allowed
    exact inStep.advance advances sound

theorem beginSection (id : Nat) : InStep decMax (step world (.beginSection id)).1 := by
  match underWay : world.draft with
  | none =>
    simp only [step, underWay]
    refine { inStep with draft := ⟨le_rfl, fun _ => ⟨[], ?_⟩⟩ }
    exact ⟨by simp, rfl, rfl, rfl, rfl⟩
  | some _ =>
    simp only [step, underWay]
    exact inStep

theorem addField {key value : Bytes} {policy : FieldPolicy}
    (writable : Writable world.ctx key value policy) :
    InStep decMax (step world (.addField key value policy)).1 := by
  match underWay : world.draft with
  | none =>
    simp only [step, underWay]
    exact inStep
  | some (draft, given) =>
    have sound := inStep.draft
    rw [underWay] at sound
    obtain ⟨base_le, drafted⟩ := sound
    simp only [step, underWay, Section.addField]
    by_cases going : draft.err = none
    · rw [if_neg (not_not.2 going)]
      obtain ⟨_, drafted⟩ := drafted going
      have wrote := @wrote_writeKeyValue decMax _ _ _ _ _ _ inStep.coherent drafted base_le _
        writable
      refine inStep.advance wrote.advances ⟨?_, wrote.drafted⟩
      rw [wrote.sameBase]
      exact base_le.trans (wrote.advances.inserted_le inStep.coherent)
    · rw [if_pos going]
      exact { inStep with draft := ⟨base_le, fun none => absurd none going⟩ }

theorem finishSection : InStep decMax (step world .finishSection).1 := by
  match underWay : world.draft with
  | none =>
    simp only [step, underWay]
    exact inStep
  | some (draft, given) =>
    have sound := inStep.draft
    rw [underWay] at sound
    obtain ⟨base_le, drafted⟩ := sound
    simp only [step, underWay]
    match finished : Qpack.finishSection world.ctx draft with
    | .error error => exact { inStep with draft := trivial }
    | .ok bytes =>
      have going : draft.err = none := by
        by_contra failed
        obtain ⟨_, failed⟩ := Option.ne_none_iff_exists'.1 failed
        rw [Qpack.finishSection, failed] at finished
        cases finished
      obtain ⟨lines, drafted⟩ := drafted going
      refine { inStep with draft := trivial, blocks := fun block member => ?_ }
      obtain earlier | rfl := mem_snoc.1 member
      · exact inStep.blocks block earlier
      · exact ⟨lines, finishSection_spec inStep.coherent base_le drafted finished⟩

/-- Any piece of the encoder stream is understood. -/
theorem deliver (count : Nat) : InStep decMax (step world (.deliver count)).1 ∧
      (step world (.deliver count)).2 = .encoderStream none := by
  have follows := inStep.follows
  rw [← take_append_drop count world.ctx.encSendStream, ← append_assoc,
    drain_append reader_parseInstruction] at follows
  simp only [step, readEncoderStream]
  match drained : drain .inputLength parseInstruction world.dec
      (world.encRecvStream ++ world.ctx.encSendStream.take count) with
  | (dec, rest, some error) =>
    rw [drained] at follows
    exact nomatch (Prod.mk.inj (Prod.mk.inj follows).2).2
  | (dec, rest, none) =>
    rw [drained] at follows
    exact ⟨{ inStep with
      follows := follows
      idle := read_rest_of_drain reader_parseInstruction drained }, rfl⟩

theorem deliverAcks (count : Nat) : InStep decMax (step world (.deliverAcks count)).1 := by
  have untouched := Untouched.readDecoderStream world.ctx.enc
    (world.decRecvStream ++ world.decSendStream.take count)
  simp only [step]
  generalize readDecoderStream world.ctx.enc
    (world.decRecvStream ++ world.decSendStream.take count) = result at untouched ⊢
  obtain ⟨enc, _, _⟩ := result
  have advances : Advances decMax world.ctx { world.ctx with enc := enc } := by
    refine ⟨untouched.coherent inStep.coherent, ?_, ?_, ?_, [], (append_nil _).symm, ?_⟩
    · exact untouched.1 ▸ prefix_refl _
    · exact untouched.2 ▸ rfl
    · exact fun allowed => untouched.2 ▸ allowed
    · rw [drain_nil, untouched.mirror_eq]
  exact { inStep.advance_ctx advances with }

/-- Once everything has been delivered, the decoder is the mirror of the encoder. -/
theorem dec_eq (delivered : world.ctx.encSendStream = []) :
    world.dec = mirror decMax world.ctx.enc := by
  have follows := inStep.follows
  rw [delivered, append_nil, drain_of_error inStep.idle] at follows
  exact (Prod.mk.inj follows).1

theorem readHeader (fits : decMax < 2 ^ 64) {index : Nat}
    (allowed : Agreeable decMax world (.readHeader index)) :
    InStep decMax (step world (.readHeader index)).1 ∧
      (step world (.readHeader index)).2.Faithful := by
  obtain ⟨delivered, readable⟩ := allowed
  match waiting : world.blocks[index]? with
  | none =>
    simp only [step, waiting]
    exact ⟨inStep, trivial⟩
  | some block =>
    obtain ⟨anchored, mirrored⟩ := readable _ waiting
    obtain ⟨_, sound⟩ := inStep.blocks _ (mem_of_getElem? waiting)
    obtain ⟨_, _, read, headers⟩ :=
      sound.reads inStep.coherent inStep.within fits anchored mirrored
    rw [← inStep.dec_eq delivered] at read
    simp only [step, waiting, read]
    refine ⟨{ inStep with blocks := fun other member => ?_ }, congrArg _ headers⟩
    exact inStep.blocks _ (mem_of_mem_eraseIdx member)

theorem step (fits : decMax < 2 ^ 64) {op : Op} (allowed : Agreeable decMax world op) :
    InStep decMax (Qpack.step world op).1 ∧ (Qpack.step world op).2.Faithful := by
  cases op with
  | updateCapacity capa => exact ⟨inStep.updateCapacity allowed.1 allowed.2, trivial⟩
  | addEntry head value =>
    refine ⟨inStep.addEntry allowed, ?_⟩
    rw [Qpack.step]
    split <;> trivial
  | beginSection id =>
    refine ⟨inStep.beginSection id, ?_⟩
    rw [Qpack.step]
    split <;> trivial
  | addField key value policy =>
    refine ⟨inStep.addField allowed, ?_⟩
    rw [Qpack.step]
    split <;> trivial
  | finishSection =>
    refine ⟨inStep.finishSection, ?_⟩
    rw [Qpack.step]
    split
    case h_1 => trivial
    case h_2 => split <;> trivial
  | deliver count =>
    obtain ⟨after, answered⟩ := inStep.deliver _
    exact ⟨after, answered ▸ rfl⟩
  | readHeader index => exact inStep.readHeader fits allowed
  | deliverAcks count => exact ⟨inStep.deliverAcks count, trivial⟩

end InStep

/-- In every run in which the two ends do not disagree, every section is read as the headers it was
written for. -/
theorem sections_read_as_written {encMax decMax expiresDelta : Nat} {ops : List Op}
    (fits : decMax < 2 ^ 64)
    (agreeable : Guarded step (Agreeable decMax) (World.start encMax decMax expiresDelta) ops) :
    ∀ op answer, (op, answer) ∈ trace step (World.start encMax decMax expiresDelta) ops →
      answer.Faithful := by
  have run := @invariant_of_guarded _ _ _ _ _
    (fun world past => InStep _ world ∧ ∀ answered ∈ past, answered.2.Faithful)
    (fun world past op holds allowed => by
      obtain ⟨inStep, faithful⟩ := holds.1.step fits allowed
      refine ⟨inStep, fun last member => ?_⟩
      obtain earlier | rfl := mem_snoc.1 member
      · exact holds.2 _ earlier
      · exact faithful)
    _ [] ops ⟨.start _ _ _, by simp⟩ agreeable
  exact fun op answer member => run.2 _ member

/-- An entry is inserted by the section that uses it, and a later section refers to it; the stream
arrives in two pieces. -/
theorem sections_read_as_written_one_entry :
    let insert : FieldPolicy := ⟨.priorDynamic, true, false⟩
    let ops := [.updateCapacity 220, .beginSection 4,
      .addField (text "custom") (text "value") insert,
      .addField (text ":method") (text "GET") insert, .finishSection, .deliver 3,
      .deliver 64, .readHeader 0, .deliverAcks 1, .beginSection 8,
      .addField (text "custom") (text "value") insert, .finishSection, .readHeader 0]
    ∀ op answer, (op, answer) ∈ trace step (World.start 4096 4096 0) ops → answer.Faithful :=
  sections_read_as_written (by decide) (by decide +kernel)

/-- With two entries one is taken for the other; a duplicate of a younger entry is not understood,
nor a section that uses an entry of its own beside older ones, nor a capacity from `2 ^ 31 + 31` on.
-/
theorem sections_misread :
    let insert : FieldPolicy := ⟨.priorDynamic, true, false⟩
    let first : Header := (text "first", text "1")
    let second : Header := (text "second", text "2")
    let filled := [.updateCapacity 220, .addEntry first.1 first.2, .addEntry second.1 second.2]
    let answers (ops : List Op) :=
      (trace step (World.start (2 ^ 32) (2 ^ 32) 0) ops).map Prod.snd
    answers (filled ++ [.beginSection 4, .addField first.1 first.2 insert, .finishSection,
        .deliver 64, .readHeader 0]) =
      [.wrote none, .wrote none, .wrote none, .wrote none, .wrote none, .wrote none,
        .encoderStream none, .read [first] (.ok [second])] ∧
    answers (filled ++ [.addEntry second.1 second.2, .deliver 64]) =
      [.wrote none, .wrote none, .wrote none, .wrote none,
        .encoderStream (some .noEntryForIndex)] ∧
    answers ([.updateCapacity 220, .addEntry first.1 first.2, .beginSection 4,
        .addField second.1 second.2 insert, .finishSection, .deliver 64, .readHeader 0]) =
      [.wrote none, .wrote none, .wrote none, .wrote none, .wrote none,
        .encoderStream none, .read [second] (.error .negativeBase)] ∧
    answers [.updateCapacity (2 ^ 31 + 31), .deliver 64] =
      [.wrote none, .encoderStream (some .largeCapacity)] := by
  decide +kernel

end Futils.Qpack
