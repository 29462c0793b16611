import Mathlib.Data.List.Count
import Futils.Lib.Machine
import Futils.Qpack.Context

/-!
# The encoder's table and its references

Beside the encoder, a run records the field sections that the peer has not acknowledged and how many
insertions it has acknowledged.  The usage is exact and within the capacity in every run.  The
reference counts are those of the recorded sections as long as no stream with several of them is
acknowledged, since an acknowledgement releases them all; and no entry is ever dropped, since
`drop_field` compares the oldest entry with the known insert count the wrong way round.
-/

namespace Futils.Qpack.Eviction

open Lib.Machine FieldEncodeContext List Bool

section Sections

/-- The references of a field section that is not acknowledged, with its stream. -/
abbrev Outstanding := Nat × List Nat

def onStream (id : Nat) (sent : Outstanding) : Bool := sent.1 = id

def references (sections : List Outstanding) : List Nat := sections.flatMap Prod.snd

def referencesOf (id : Nat) (sections : List Outstanding) : List Nat :=
  references (sections.filter (onStream id))

/-- A reference in the newest section of the stream, which is begun if there is none. -/
def continued (id ref : Nat) : List Outstanding → List Outstanding
  | [] => [(id, [ref])]
  | first :: rest =>
    if onStream id first && !rest.any (onStream id) then (id, first.2 ++ [ref]) :: rest
    else first :: continued id ref rest

/-- A reference, as the first one of a section or in the newest section of the stream. -/
def noted (first : Bool) (id ref : Nat) (sections : List Outstanding) : List Outstanding :=
  if first then sections ++ [(id, [ref])] else continued id ref sections

variable (id ref other index : Nat) (first : Outstanding) (sections more : List Outstanding)

@[simp] theorem references_nil : references [] = [] := rfl

@[simp] theorem references_cons : references (first :: sections) = first.2 ++ references sections :=
  rfl

@[simp] theorem references_append :
    references (sections ++ more) = references sections ++ references more := flatMap_append

theorem referencesOf_cons_of_on {id : Nat} {first : Outstanding} (on : onStream id first) :
    referencesOf id (first :: sections) = first.2 ++ referencesOf id sections := by
  rw [referencesOf, filter_cons_of_pos on]
  rfl

theorem referencesOf_cons_of_off {id : Nat} {first : Outstanding}
    (off : ¬ onStream id first) :
    referencesOf id (first :: sections) = referencesOf id sections := by
  rw [referencesOf, filter_cons_of_neg off]
  rfl

theorem referencesOf_of_none {id : Nat} {sections : List Outstanding}
    (none_on : sections.any (onStream id) = false) : referencesOf id sections = [] := by
  rw [referencesOf, filter_eq_nil_iff.2 (by simpa using none_on)]
  rfl

theorem any_continued : (continued id ref sections).any (onStream other) =
    (sections.any (onStream other) || decide (id = other)) := by
  induction sections with
  | nil => simp [continued, onStream]
  | cons first rest ih =>
    rw [continued]
    split
    case isTrue last =>
      have first_id : first.1 = id := by simpa [onStream] using (and_eq_true_iff.1 last).1
      simp only [any_cons, onStream, first_id]
      cases decide (id = other) <;> simp
    case isFalse => rw [List.any_cons, List.any_cons, ih, Bool.or_assoc]

theorem referencesOf_continued : referencesOf other (continued id ref sections) =
    referencesOf other sections ++ if id = other then [ref] else [] := by
  induction sections with
  | nil =>
    by_cases same : id = other
    · simp [continued, referencesOf, onStream, same]
    · simp [continued, referencesOf, onStream, same]
  | cons first rest ih =>
    rw [continued]
    split
    case isTrue last =>
      obtain ⟨on, newest⟩ := and_eq_true_iff.1 last
      have first_id : first.1 = id := by simpa [onStream] using on
      by_cases same : id = other
      · subst same
        rw [referencesOf_cons_of_on _ on, referencesOf_cons_of_on _ (by simp [onStream]),
          referencesOf_of_none (by simpa using newest)]
        simp
      · rw [referencesOf_cons_of_off _ (by simpa [onStream] using same),
          referencesOf_cons_of_off _ (by simpa [onStream, first_id] using same)]
        simp [same]
    case isFalse =>
      by_cases on : onStream other first
      · rw [referencesOf_cons_of_on _ on, referencesOf_cons_of_on _ on, ih, append_assoc]
      · rw [referencesOf_cons_of_off _ on, referencesOf_cons_of_off _ on, ih]

theorem count_continued : (references (continued id ref sections)).count index =
    (references sections).count index + if ref = index then 1 else 0 := by
  induction sections with
  | nil => simp [continued, count_singleton]
  | cons first rest ih =>
    rw [continued]
    split
    · simp only [references_cons, count_append, count_singleton, beq_iff_eq]
      omega
    · simp only [references_cons, count_append]
      omega

theorem any_noted (begins : Bool) : (noted begins id ref sections).any (onStream other) =
    (sections.any (onStream other) || decide (id = other)) := by
  rw [noted]
  split
  · simp [onStream]
  · exact any_continued id ref _ _

theorem referencesOf_noted (begins : Bool) :
    referencesOf other (noted begins id ref sections) =
      referencesOf other sections ++ if id = other then [ref] else [] := by
  rw [noted]
  split
  · by_cases same : id = other
    · simp [referencesOf, onStream, same]
    · simp [referencesOf, onStream, same]
  · exact referencesOf_continued id ref _ _

theorem count_noted (begins : Bool) : (references (noted begins id ref sections)).count index =
    (references sections).count index + if ref = index then 1 else 0 := by
  rw [noted]
  split
  · simp [count_singleton]
  · exact count_continued id ref _ _

def without (id : Nat) (sections : List Outstanding) : List Outstanding :=
  sections.filter fun sent => !onStream id sent

/-- The references are those of a stream and those of the others. -/
theorem count_without : (references sections).count index =
    (referencesOf id sections).count index + (references (without id sections)).count index := by
  induction sections with
  | nil => rfl
  | cons first rest ih =>
    by_cases on : onStream id first
    · rw [references_cons, referencesOf_cons_of_on _ on, without,
        filter_cons_of_neg (by simp [on]), count_append, count_append, ih, without]
      omega
    · rw [references_cons, referencesOf_cons_of_off _ on, without,
        filter_cons_of_pos (by simp [on]), references_cons, count_append,
        count_append, ih, without]
      omega

theorem any_without : (without id sections).any (onStream other) =
    (sections.any (onStream other) && decide (id ≠ other)) := by
  rw [without, any_filter]
  induction sections with
  | nil => rfl
  | cons first rest ih =>
    rw [any_cons, any_cons, and_or_distrib_right]
    congr 1
    by_cases same : first.1 = other
    · simp [onStream, same, eq_comm]
    · simp [onStream, same]

theorem referencesOf_without {id other : Nat} (apart : id ≠ other) :
    referencesOf other (without id sections) = referencesOf other sections := by
  rw [referencesOf, without, filter_filter]
  congr 1
  refine filter_congr fun sent _ => ?_
  by_cases same : sent.1 = other
  · simp [onStream, same, apart.symm]
  · simp [onStream, same]

/-- The oldest section of a stream is its only one: removing it leaves the other streams. -/
theorem eraseP_onStream {id : Nat} {sections : List Outstanding}
    (single : (sections.filter (onStream id)).length ≤ 1) :
    sections.eraseP (onStream id) = without id sections := by
  induction sections with
  | nil => rfl
  | cons first rest ih =>
    by_cases on : onStream id first
    · rw [filter_cons_of_pos on, length_cons] at single
      have none_on : rest.filter (onStream id) = [] := length_eq_zero_iff.1 (by omega)
      rw [eraseP_cons_of_pos on, without, filter_cons_of_neg (by simp [on]),
        filter_eq_self.2]
      intro sent member
      simpa using filter_eq_nil_iff.1 none_on _ member
    · rw [filter_cons_of_neg on] at single
      rw [eraseP_cons_of_neg on, ih single, without, without,
        filter_cons_of_pos (by simp [on])]

theorem referencesOf_single {id : Nat} {sections : List Outstanding} {sent : Outstanding}
    (single : (sections.filter (onStream id)).length ≤ 1)
    (oldest : sections.find? (onStream id) = some sent) : referencesOf id sections = sent.2 := by
  rw [← head?_filter] at oldest
  match filtered : sections.filter (onStream id) with
  | [] => simp [filtered] at oldest
  | [only] =>
    rw [filtered] at oldest
    cases oldest
    simp [referencesOf, filtered]
  | _ :: _ :: _ => simp [filtered] at single

end Sections

section Runs

/-- The encoder, the sections that are not acknowledged, oldest first, and the number of insertions
that the peer acknowledged. -/
structure World where
  enc : FieldEncodeContext := {}
  outstanding : List Outstanding := []
  acknowledged : Nat := 0

/-- The operations of the encoder; a reference begins a new section of its stream or belongs to the
last one. -/
inductive Op
  | setMaxCapacity (capa : Nat)
  | updateCapacity (capa : Nat)
  | addField (head value : Bytes)
  | addRef (begins : Bool) (ref id : Nat)
  | sectionAck (id : Nat)
  | streamCancel (id : Nat)
  | increment (incr : Nat)
  | dropField
  deriving DecidableEq

/-- The insertions that are known after a section with these references was acknowledged. -/
def knownAfter (known : Nat) (refs : List Nat) : Nat :=
  refs.foldl (fun known ref => max known (ref + 1)) known

variable (world : World) (isAck : Bool)

/-- One operation, and whether it succeeded. -/
def step : Op → World × Bool
  | .setMaxCapacity capa => ({ world with enc := world.enc.setMaxCapacity capa }, true)
  | .updateCapacity capa =>
    match world.enc.updateCapacity capa with
    | .error _ => (world, false)
    | .ok enc => ({ world with enc := enc }, true)
  | .addField head value =>
    match world.enc.addField head value with
    | none => (world, false)
    | some (_, enc) => ({ world with enc := enc }, true)
  | .addRef begins ref id =>
    match world.enc.addRef ref id with
    | .error _ => (world, false)
    | .ok enc =>
      ({ world with enc := enc, outstanding := noted begins id ref world.outstanding }, true)
  | .sectionAck id =>
    match world.enc.removeRef id true with
    | (enc, some _) => ({ world with enc := enc }, false)
    | (enc, none) =>
      ({ enc := enc
         outstanding := world.outstanding.eraseP (onStream id)
         acknowledged := knownAfter world.acknowledged
           (((world.outstanding.find? (onStream id)).map Prod.snd).getD []) }, true)
  | .streamCancel id =>
    match world.enc.removeRef id false with
    | (enc, some _) => ({ world with enc := enc }, false)
    | (enc, none) => ({ world with enc := enc, outstanding := without id world.outstanding }, true)
  | .increment incr =>
    match world.enc.increment incr with
    | (enc, some _) => ({ world with enc := enc }, false)
    | (enc, none) =>
      ({ world with enc := enc, acknowledged := world.acknowledged + incr }, true)
  | .dropField =>
    match world.enc.dropField with
    | .error _ => (world, false)
    | .ok enc => ({ world with enc := enc }, true)

/-- The insertion of the oldest entry is acknowledged, and no section that is not acknowledged
refers to it. -/
def Evictable : Prop :=
  world.enc.track.dropped < world.acknowledged ∧
    ∀ sent ∈ world.outstanding, world.enc.track.dropped ∉ sent.2
deriving Decidable

def usageOf (table : List Hpack.Header) : Nat :=
  (table.map fun entry => calcFieldUsage entry.1 entry.2).sum

/-- The table is counted exactly and fits, and nothing was dropped. -/
structure Bounded (enc : FieldEncodeContext) : Prop where
  usage : enc.track.usage = usageOf enc.encTable
  fits : enc.track.usage ≤ enc.track.capacity
  kept : enc.track.dropped = 0

/-- The fields of the table do not depend on references and known insertions. -/
def SameTable (enc changed : FieldEncodeContext) : Prop :=
  changed.encTable = enc.encTable ∧ changed.track.usage = enc.track.usage ∧
    changed.track.capacity = enc.track.capacity ∧ changed.track.dropped = enc.track.dropped

theorem Bounded.of_same {enc changed : FieldEncodeContext} (bounded : Bounded enc)
    (same : SameTable enc changed) : Bounded changed := by
  obtain ⟨table, usage, capacity, dropped⟩ := same
  refine ⟨?_, ?_, ?_⟩
  · rw [table, usage]
    exact bounded.usage
  · rw [usage, capacity]
    exact bounded.fits
  · rw [dropped]
    exact bounded.kept

theorem sameTable_removeRefs (enc : FieldEncodeContext) (refs : List Nat) :
    SameTable enc (enc.removeRefs isAck refs).1 := by
  induction refs generalizing enc with
  | nil => exact ⟨rfl, rfl, rfl, rfl⟩
  | cons ref refs ih =>
    rw [removeRefs]
    split
    · exact ⟨rfl, rfl, rfl, rfl⟩
    · exact ih _

theorem sameTable_removeRef (enc : FieldEncodeContext) (id : Nat) (isAck : Bool) :
    SameTable enc (enc.removeRef id isAck).1 := by
  rw [removeRef]
  split
  · exact ⟨rfl, rfl, rfl, rfl⟩
  case h_2 acked _ =>
    have same := sameTable_removeRefs isAck enc acked
    split <;> simp_all [SameTable]

/-- No entry can be dropped as long as none was. -/
theorem dropField_of_kept {enc : FieldEncodeContext} (kept : enc.track.dropped = 0) :
    ∃ error, enc.dropField = .error error := by
  rw [dropField]
  split
  · exact ⟨_, rfl⟩
  · simp only [kept]
    exact ⟨_, rfl⟩

theorem step_bounded (op : Op) (bounded : Bounded world.enc) : Bounded (step world op).1.enc := by
  cases op with
  | setMaxCapacity capa => exact bounded.of_same ⟨rfl, rfl, rfl, rfl⟩
  | updateCapacity capa =>
    simp only [step, updateCapacity]
    split
    · exact bounded
    case h_2 enc changed =>
      split at changed
      · cases changed
      split at changed
      · cases changed
      cases changed
      exact ⟨bounded.usage, by simp only; omega, bounded.kept⟩
  | addField head value =>
    simp only [step, addField]
    split
    · exact bounded
    case h_2 index enc added =>
      split at added
      · cases added
      cases added
      refine ⟨?_, by simp only; omega, bounded.kept⟩
      simp [usageOf, bounded.usage]
  | addRef begins ref id =>
    simp only [step, addRef]
    split
    · exact bounded
    case h_2 enc added =>
      split at added
      · cases added
      cases added
      exact bounded.of_same ⟨rfl, rfl, rfl, rfl⟩
  | sectionAck id =>
    have kept := bounded.of_same (sameTable_removeRef _ id true)
    simp only [step]
    split <;> simp_all
  | streamCancel id =>
    have kept := bounded.of_same (sameTable_removeRef _ id false)
    simp only [step]
    split <;> simp_all
  | increment incr =>
    simp only [step, increment]
    split
    case h_1 enc _ changed =>
      split at changed
      · cases changed
        exact bounded
      · cases changed
    case h_2 enc changed =>
      split at changed
      · cases changed
      cases changed
      exact bounded.of_same ⟨rfl, rfl, rfl, rfl⟩
  | dropField =>
    obtain ⟨_, refused⟩ := dropField_of_kept bounded.kept
    simp only [step, refused]
    exact bounded

/-- The counts and lists of the encoder are those of the sections that are not acknowledged. -/
structure Tracks (world : World) : Prop where
  counted : ∀ index, world.enc.refCount index = (references world.outstanding).count index
  listed : ∀ id, world.enc.idRef id = if world.outstanding.any (onStream id) then
    some (referencesOf id world.outstanding) else none
  known : world.enc.track.knownInsertCount = world.acknowledged

/-- References that are all counted are all released. -/
theorem removeRefs_eq {enc : FieldEncodeContext} {refs : List Nat}
    (enough : ∀ index, refs.count index ≤ enc.refCount index) :
    enc.removeRefs isAck refs = ({ enc with
      refCount := fun index => enc.refCount index - refs.count index
      track := { enc.track with
        knownInsertCount := if isAck then knownAfter enc.track.knownInsertCount refs
          else enc.track.knownInsertCount } }, none) := by
  induction refs generalizing enc with
  | nil => cases isAck <;> rfl
  | cons ref refs ih =>
    have counted := enough ref
    rw [List.count_cons_self] at counted
    rw [removeRefs, if_neg (by omega), ih]
    · have same_count : (fun index => Function.update enc.refCount ref (enc.refCount ref - 1) index -
          refs.count index) = fun index => enc.refCount index - (ref :: refs).count index := by
        funext index
        by_cases same : index = ref
        · rw [same, Function.update_self, List.count_cons_self]
          omega
        · rw [Function.update_of_ne same, List.count_cons_of_ne (Ne.symm same)]
      have same_known : ∀ known, (if isAck && decide (known < ref + 1) then ref + 1 else known) =
          if isAck then max known (ref + 1) else known := by
        intro known
        cases isAck with
        | false => rfl
        | true =>
          simp only [Bool.true_and, decide_eq_true_eq, if_true]
          split <;> omega
      simp only [same_count, same_known]
      cases isAck <;> rfl
    · intro index
      by_cases same : index = ref
      · simp only [same, Function.update_self]
        omega
      · have later := enough index
        rw [List.count_cons_of_ne (Ne.symm same)] at later
        simpa [Function.update_of_ne same] using later

/-- All references of a stream are released together. -/
theorem removeRef_of_any {world : World} (tracks : Tracks world) {id : Nat}
    (on : world.outstanding.any (onStream id)) (isAck : Bool) :
    ∃ enc, world.enc.removeRef id isAck = (enc, none) ∧
      (∀ index, enc.refCount index = (references (without id world.outstanding)).count index) ∧
      (∀ other, enc.idRef other = if (without id world.outstanding).any (onStream other) then
        some (referencesOf other (without id world.outstanding)) else none) ∧
      enc.track.knownInsertCount = if isAck then
        knownAfter world.acknowledged (referencesOf id world.outstanding)
        else world.acknowledged := by
  have enough : ∀ index,
      (referencesOf id world.outstanding).count index ≤ world.enc.refCount index := by
    intro index
    rw [tracks.counted, count_without id]
    exact Nat.le_add_right _ _
  rw [removeRef, tracks.listed id, if_pos on]
  simp only [removeRefs_eq _ enough]
  refine ⟨_, rfl, fun index => ?_, fun other => ?_, ?_⟩
  · change world.enc.refCount index - _ = _
    rw [tracks.counted, count_without id _ _]
    omega
  · rw [any_without]
    by_cases same : id = other
    · simp [same]
    · simp only [Function.update_of_ne (Ne.symm _), tracks.listed _, ne_eq, same,
        not_false_iff, decide_true, Bool.and_true, referencesOf_without _]
  · simp only [tracks.known]

theorem removeRef_of_not_any {world : World} (tracks : Tracks world) {id : Nat}
    (off : world.outstanding.any (onStream id) = false) (isAck : Bool) :
    world.enc.removeRef id isAck = (world.enc, some .invalidStreamId) := by
  rw [removeRef, tracks.listed id, if_neg (by simp [off])]

/-- A stream that is acknowledged has one section, an increment stays below `2^64`, and a drop is
not refused in vain. -/
def guard : Op → Prop
  | .sectionAck id => (world.outstanding.filter (onStream id)).length ≤ 1
  | .increment incr => world.acknowledged + incr < 2 ^ 64
  | .dropField => world.enc.encTable ≠ [] → ¬ Evictable world
  | _ => True

instance (world : World) (op : Op) : Decidable (guard world op) := by
  cases op <;> dsimp only [guard] <;> infer_instance

/-- An entry is dropped exactly if that is right, and an acknowledgement releases the oldest
section. -/
def Exact : Op → Prop
  | .dropField => world.enc.encTable ≠ [] →
      ((step world .dropField).2 = true ↔ Evictable world)
  | .sectionAck id =>
    match world.outstanding.find? (onStream id) with
    | none => step world (.sectionAck id) = (world, false)
    | some sent => (step world (.sectionAck id)).2 = true ∧
        ∀ index, (step world (.sectionAck id)).1.enc.refCount index + sent.2.count index =
          world.enc.refCount index
  | _ => True

theorem sectionAck_step {world : World} {id : Nat} (tracks : Tracks world)
    (single : (world.outstanding.filter (onStream id)).length ≤ 1) :
    Tracks (step world (.sectionAck id)).1 ∧ Exact world (.sectionAck id) := by
  simp only [Exact]
  cases oldest : world.outstanding.find? (onStream id) with
  | none =>
    have off : world.outstanding.any (onStream id) = false := by
      simpa [find?_eq_none] using oldest
    have refused : step world (.sectionAck id) = (world, false) := by
      simp [step, removeRef_of_not_any tracks off]
    rw [refused]
    exact ⟨tracks, rfl⟩
  | some sent =>
    have on := any_eq_true.2 ⟨sent, mem_of_find?_eq_some oldest, find?_some oldest⟩
    obtain ⟨enc, removed, counted, listed, known⟩ := removeRef_of_any tracks on true
    have released := referencesOf_single single oldest
    have acked : step world (.sectionAck id) = (⟨enc, without id world.outstanding,
        knownAfter world.acknowledged sent.2⟩, true) := by
      simp [step, removed, oldest, eraseP_onStream single]
    rw [acked]
    refine ⟨⟨counted, listed, ?_⟩, rfl, fun index => ?_⟩
    · rw [known, released]
      rfl
    · rw [counted, tracks.counted, count_without id _ world.outstanding, released]
      omega

theorem step_tracks (op : Op) (tracks : Tracks world) (bounded : Bounded world.enc)
    (allowed : guard world op) : Tracks (step world op).1 ∧ Exact world op := by
  cases op with
  | setMaxCapacity capa => exact ⟨⟨tracks.counted, tracks.listed, tracks.known⟩, trivial⟩
  | updateCapacity capa =>
    refine ⟨?_, trivial⟩
    simp only [step, updateCapacity]
    split
    · exact tracks
    case h_2 enc changed =>
      split at changed
      · cases changed
      split at changed
      · cases changed
      cases changed
      exact ⟨tracks.counted, tracks.listed, tracks.known⟩
  | addField head value =>
    refine ⟨?_, trivial⟩
    simp only [step, addField]
    split
    · exact tracks
    case h_2 index enc added =>
      split at added
      · cases added
      cases added
      exact ⟨tracks.counted, tracks.listed, tracks.known⟩
  | addRef begins ref id =>
    refine ⟨?_, trivial⟩
    simp only [step, addRef]
    split
    · exact tracks
    case h_2 enc added =>
      split at added
      · cases added
      cases added
      refine ⟨fun index => ?_, fun other => ?_, tracks.known⟩
      · rw [count_noted]
        by_cases same : ref = index
        · simp [same, tracks.counted]
        · simp [Function.update_of_ne (Ne.symm _), same, tracks.counted]
      · rw [any_noted, referencesOf_noted]
        by_cases same : id = other
        · subst same
          cases on : world.outstanding.any (onStream id) with
          | true => simp [tracks.listed, on]
          | false => simp [tracks.listed, on, referencesOf_of_none on]
        · have off := decide_eq_false same
          simp only [Function.update_of_ne (Ne.symm same), tracks.listed, off, Bool.or_false,
            if_neg same, List.append_nil]
  | sectionAck id => exact sectionAck_step tracks allowed
  | streamCancel id =>
    refine ⟨?_, trivial⟩
    cases on : world.outstanding.any (onStream id) with
    | false => simpa [step, removeRef_of_not_any tracks on] using tracks
    | true =>
      obtain ⟨_, removed, counted, listed, known⟩ := removeRef_of_any tracks on false
      simp only [step, removed]
      exact ⟨counted, listed, known⟩
  | increment incr =>
    refine ⟨?_, trivial⟩
    have sum : add64 world.enc.track.knownInsertCount incr = world.acknowledged + incr := by
      rw [tracks.known, add64_of_lt allowed]
    simp only [step, increment, sum]
    split
    case h_1 enc _ changed =>
      split at changed
      · cases changed
        exact tracks
      · cases changed
    case h_2 enc changed =>
      split at changed
      · cases changed
      cases changed
      exact ⟨tracks.counted, tracks.listed, rfl⟩
  | dropField =>
    obtain ⟨_, refused⟩ := dropField_of_kept bounded.kept
    simp only [Exact, step, refused]
    exact ⟨tracks, fun nonempty => iff_of_false (by simp) (allowed nonempty)⟩

end Runs

theorem bounded_final (ops : List Op) : Bounded (final step {} ops).enc :=
  @invariant_final _ _ _ _ _ step_bounded {} ⟨rfl, le_rfl, rfl⟩ ops

/-- In every run `drop_until_add` adds the field as the next one if it is let and the field fits, and
changes nothing otherwise: it never makes room. -/
theorem dropUntilAdd_outcome (ops : List Op) (key value : Bytes)
    (stopDrop : FieldEncodeContext → Bool) (rounds : Nat) :
    let enc := (final step {} ops).enc
    let result := dropUntilAdd key value stopDrop (rounds + 1) enc
    if stopDrop enc = false ∧ usageOf enc.encTable + calcFieldUsage key value ≤ enc.track.capacity then
      result.2 = some enc.track.inserted ∧ result.1.encTable = enc.encTable ++ [(key, value)]
    else result = (enc, none) := by
  intro enc
  have bounded : Bounded enc := bounded_final ops
  cases stopped : stopDrop enc with
  | true => simp [dropUntilAdd, stopped]
  | false =>
    obtain ⟨_, refused⟩ := dropField_of_kept bounded.kept
    by_cases fits : usageOf enc.encTable + calcFieldUsage key value ≤ enc.track.capacity
    · simp [dropUntilAdd, stopped, addField, bounded.usage, fits, Nat.not_lt.2 fits]
    · simp [dropUntilAdd, stopped, addField, bounded.usage, fits, Nat.not_le.1 fits, refused]

/-- In every run the usage is the sum over the entries and within the capacity, and no entry can be
dropped; where the steps meet the condition, the references are those of the sections not
acknowledged, and entries are dropped exactly if acknowledged and not referred to. -/
theorem eviction_exact (ops : List Op) :
    ((final step {} ops).enc.track.usage = usageOf (final step {} ops).enc.encTable ∧
      (final step {} ops).enc.track.usage ≤ (final step {} ops).enc.track.capacity ∧
      ∃ error, (final step {} ops).enc.dropField = .error error) ∧
    (Guarded step guard {} ops → Guarded step Exact {} ops ∧
      ∀ index, (final step {} ops).enc.refCount index =
        (references (final step {} ops).outstanding).count index) := by
  have started : Bounded ({} : World).enc := ⟨rfl, le_rfl, rfl⟩
  have bounded := bounded_final ops
  refine ⟨⟨bounded.usage, bounded.fits, dropField_of_kept bounded.kept⟩, fun guarded => ?_⟩
  have fresh : Tracks ({} : World) := ⟨fun _ => rfl, fun _ => rfl, rfl⟩
  have kept := fun (world : World) (op : Op) (inv : Tracks _ ∧ Bounded _)
      (allowed : guard _ op) => step_tracks world op inv.1 inv.2 allowed
  refine ⟨@guarded_of_invariant _ _ _ _ _ _
    _ (fun world op inv allowed => ⟨⟨(kept _ op inv allowed).1,
      step_bounded _ op inv.2⟩, (kept _ op inv allowed).2⟩) _ _ ⟨fresh, started⟩ guarded, ?_⟩
  exact (@invariant_of_guarded _ _ _ _ _ (fun world _ => Tracks _ ∧ Bounded _)
    (fun world _ op inv allowed => ⟨(kept world op inv allowed).1, step_bounded _ op inv.2⟩)
    _ [] ops ⟨fresh, started⟩ guarded).1.counted

/-- Two streams refer to two entries; one is acknowledged, the other cancelled, and the oldest entry
is not dropped in between. -/
theorem eviction_exact_cancelled :
    let ops : List Op := [.setMaxCapacity 100, .updateCapacity 80, .addField [97] [98],
      .addField [99] [100], .addRef true 0 4, .addRef false 1 4, .addRef true 0 8, .sectionAck 4,
      .dropField, .streamCancel 8]
    Guarded step guard {} ops ∧ Guarded step Exact {} ops :=
  ⟨by decide +kernel, ((eviction_exact _).2 (by decide +kernel)).1⟩

/-- An acknowledged entry without references is not dropped, and one acknowledgement releases the
references of the next section, too. -/
theorem eviction_refused :
    let inserted : List Op := [.setMaxCapacity 100, .updateCapacity 100, .addField [97] [98],
      .addField [99] [100]]
    let acknowledged := final step {} (inserted ++ [.increment 2])
    let referred := final step {} (inserted ++ [.addRef true 0 4, .addRef true 1 4])
    (acknowledged.enc.encTable ≠ [] ∧ Evictable acknowledged ∧
        (step acknowledged .dropField).2 = false) ∧
      referred.outstanding = [(4, [0]), (4, [1])] ∧ referred.enc.refCount 1 = 1 ∧
      (step referred (.sectionAck 4)).1.outstanding = [(4, [1])] ∧
      (step referred (.sectionAck 4)).1.enc.refCount 1 = 0 := by
  decide +kernel

end Futils.Qpack.Eviction
