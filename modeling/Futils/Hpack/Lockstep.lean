import Futils.Hpack.Codec
import Futils.Lib.Machine

/-!
# HPACK end to end

An encoder and a decoder that start from equal tables are run through header lists and size updates,
each payload decoded before the next one is encoded.
-/

namespace Futils.Hpack

open Lib.Machine List

/-- The loop of `decode` takes one field off its input. -/
theorem decodeLoop_append {maxTableSize rounds : Nat} {decoder : Decoder} {outcome : Outcome}
    {field rest : Bytes} (headers : List Header) (nonempty : field ≠ [])
    (enough : (field ++ rest).length ≤ rounds)
    (decodes : decodeField maxTableSize decoder (field ++ rest) = .ok (outcome, rest)) :
    ∃ fewer, rest.length ≤ fewer ∧
      decodeLoop maxTableSize rounds decoder (field ++ rest) headers =
        decodeLoop maxTableSize fewer outcome.decoder rest (headers ++ outcome.header.toList) := by
  obtain ⟨_, _, rfl⟩ := exists_cons_of_ne_nil nonempty
  simp only [cons_append, length_cons, length_append] at enough decodes ⊢
  obtain ⟨fewer, rfl⟩ : ∃ fewer, rounds = fewer + 1 := ⟨rounds - 1, by omega⟩
  exact ⟨fewer, by omega, by simp only [decodeLoop, decodes, bind, Except.bind]⟩

/-- `decode` reads back what `encode` wrote, and both tables change alike. -/
theorem encode_spec {limit bound : Nat} (limit_le : limit ≤ bound) (bound_lt : bound < 2 ^ 32)
    (addDynMapDefault : Bool) (entries : List Entry) :
    ∀ table, calcTableSize table ≤ bound → (∀ entry ∈ entries, Encodable entry.header) →
      ∃ bytes after, encode limit addDynMapDefault table entries = .ok (bytes, after) ∧
        calcTableSize after ≤ bound ∧
        ∀ maxTableSize rounds headers, bytes.length ≤ rounds →
          decodeLoop maxTableSize rounds ⟨table, limit⟩ bytes headers =
            .ok (headers ++ entries.map Entry.header, ⟨after, limit⟩) := by
  induction entries with
  | nil =>
    intro table within _
    exact ⟨[], table, rfl, within, fun _ _ headers _ => by simp [decodeLoop]⟩
  | cons entry entries ih =>
    intro table within encodable
    obtain ⟨field, middle, fieldEncoded, middleWithin, nonempty, decodes⟩ :=
      encodeField_spec (entry.addDynMap || addDynMapDefault) within limit_le bound_lt
        (encodable entry (by simp))
    obtain ⟨fields, after, encoded, afterWithin, reads⟩ :=
      ih _ middleWithin (forall_mem_cons.1 encodable).2
    refine ⟨field ++ fields, after, by simp only [encode, fieldEncoded, encoded, bind, Except.bind],
      afterWithin, fun maxTableSize rounds headers enough => ?_⟩
    obtain ⟨fewer, fewerEnough, step⟩ := decodeLoop_append _ nonempty enough (decodes _ _)
    rw [step, reads _ _ _ fewerEnough]
    simp

/-- The two ends: the table of the encoder with the limit it was given, and the decoder. -/
structure Peers where
  table : Table
  limit : Nat
  decoder : Decoder
  deriving DecidableEq

inductive Op where
  | headers (entries : List Entry)
  | sizeUpdate (newSize : Nat)

def Op.carried : Op → List Header
  | .headers entries => entries.map Entry.header
  | .sizeUpdate _ => []

/-- What the encoder makes of a payload, with the limit it uses from then on. -/
def Peers.send (peers : Peers) : Op → Except HpackError (Bytes × Table × Nat)
  | .headers entries => (encode peers.limit false peers.table entries).map fun encoded =>
    (encoded.1, encoded.2, peers.limit)
  | .sizeUpdate newSize => (encodeTableSizeUpdate newSize peers.table).map fun encoded =>
    (encoded.1, encoded.2, newSize)

/-- A payload is encoded and the bytes are decoded. -/
def step (maxTableSize : Nat) (peers : Peers) (op : Op) :
    Peers × Except HpackError (List Header) :=
  match peers.send op with
  | .error error => (peers, .error error)
  | .ok (payload, table, limit) =>
    match decode maxTableSize peers.decoder payload with
    | .error error => ({ peers with table := table, limit := limit }, .error error)
    | .ok (headers, decoder) => (⟨table, limit, decoder⟩, .ok headers)

/-- Size updates stay within what the decoder allows. -/
def Permitted (maxTableSize : Nat) : Op → Prop
  | .headers _ => True
  | .sizeUpdate newSize => newSize ≤ maxTableSize

/-- Every header of a payload survives both codecs, and so does the size of an update. -/
def Survives : Op → Prop
  | .headers entries => ∀ entry ∈ entries, Encodable entry.header
  | .sizeUpdate newSize => Representable 5 newSize

instance (op : Op) : Decidable (Survives op) := by
  cases op <;> dsimp only [Survives] <;> infer_instance

instance (maxTableSize : Nat) (op : Op) : Decidable (Permitted maxTableSize op) := by
  cases op <;> dsimp only [Permitted] <;> infer_instance

/-- Both ends have the same table, which is within the limit both have. -/
structure InStep (peers : Peers) : Prop where
  table_eq : peers.decoder.table = peers.table
  limit_eq : peers.decoder.limit = peers.limit
  within : calcTableSize peers.table ≤ peers.limit
  limit_lt : peers.limit < 2 ^ 32

theorem InStep.step {maxTableSize : Nat} {peers : Peers} (inStep : InStep peers) {op : Op}
    (maxTableSize_lt : maxTableSize < 2 ^ 32) (permitted : Permitted maxTableSize op)
    (survives : Survives op) :
    InStep (Hpack.step maxTableSize peers op).1 ∧
      (Hpack.step maxTableSize peers op).2 = .ok op.carried := by
  obtain ⟨_, _, ⟨decoderTable, decoderLimit⟩⟩ := peers
  obtain ⟨tables, limits, within, limit_lt⟩ := inStep
  dsimp only at tables limits within limit_lt
  subst tables limits
  cases op with
  | headers entries =>
    obtain ⟨payload, _, encoded, afterWithin, decodes⟩ :=
      encode_spec le_rfl limit_lt false _ _ within survives
    have decoded := decodes maxTableSize _ [] le_rfl
    simp only [Hpack.step, Peers.send, encoded, Except.map, decode, decoded]
    exact ⟨⟨rfl, rfl, afterWithin, limit_lt⟩, rfl⟩
  | sizeUpdate newSize =>
    obtain ⟨payload, _, encoded, afterWithin, nonempty, decodes⟩ :=
      @encodeTableSizeUpdate_spec decoderTable _ survives
    have field := decodes _ decoderLimit [] permitted
    obtain ⟨_, -, loop⟩ := @decodeLoop_append _ payload.length _ _ _ _ [] nonempty (by simp)
      field
    rw [append_nil] at loop
    simp only [Hpack.step, Peers.send, encoded, Except.map, decode, loop, decodeLoop]
    exact ⟨⟨rfl, rfl, afterWithin, lt_of_le_of_lt permitted maxTableSize_lt⟩, rfl⟩

/-- In every run of payloads that survive the codecs, each is decoded to its headers, and both
tables stay the same and within the limit. -/
theorem header_compression_lossless {maxTableSize limit : Nat} {table : Table} {ops : List Op}
    (maxTableSize_lt : maxTableSize < 2 ^ 32) (limit_lt : limit < 2 ^ 32)
    (within : calcTableSize table ≤ limit) (permitted : ∀ op ∈ ops, Permitted maxTableSize op)
    (survives : ∀ op ∈ ops, Survives op) :
    let start : Peers := ⟨table, limit, ⟨table, limit⟩⟩
    (∀ op answer, (op, answer) ∈ trace (step maxTableSize) start ops → answer = .ok op.carried) ∧
      InStep (final (step maxTableSize) start ops) := by
  intro start
  have guarded : Guarded (step maxTableSize)
      (fun _ op => Permitted maxTableSize op ∧ Survives op) start ops :=
    guarded_of_forall fun op member _ => ⟨permitted op member, survives op member⟩
  have run := @invariant_of_guarded _ _ _ _ _
    (fun peers past => InStep peers ∧ ∀ answered ∈ past, answered.2 = .ok answered.1.carried)
    (fun peers past op holds allowed => by
      obtain ⟨inStep, answered⟩ := holds.1.step maxTableSize_lt allowed.1 allowed.2
      refine ⟨inStep, fun last member => ?_⟩
      obtain earlier | rfl := mem_snoc.1 member
      · exact holds.2 _ earlier
      · exact answered)
    _ [] ops ⟨⟨rfl, rfl, within, limit_lt⟩, by simp⟩ guarded
  exact ⟨fun op answer member => run.2 _ member, run.1⟩

/-- Two lists with a header that is added, evicted by a size update and sent again. -/
theorem header_compression_lossless_resized :
    let accept : Entry := ⟨(text "accept", text "*/*"), true⟩
    let ops := [.headers [accept, ⟨(text "unexpected", text "value"), false⟩], .headers [accept],
      .sizeUpdate 0, .headers [accept]]
    let start : Peers := ⟨[], 300, ⟨[], 300⟩⟩
    (∀ op answer, (op, answer) ∈ trace (step 300) start ops → answer = .ok op.carried) ∧
      InStep (final (step 300) start ops) :=
  header_compression_lossless (by decide) (by decide) (by decide) (by decide +kernel)
    (by decide +kernel)

/-- A static entry without a value is refused by the decoder, and a size from `2 ^ 31 + 31` on is
decoded as another number. -/
theorem header_compression_lossy :
    let start : Peers := ⟨[], 4096, ⟨[], 4096⟩⟩
    (step 4096 start (.headers [⟨(text "accept", []), true⟩])).2 = .error .notExists ∧
      (step (2 ^ 32 - 1) start (.sizeUpdate (2 ^ 31 + 31))).2 = .error .tooLargeNumber := by
  decide +kernel

end Futils.Hpack
