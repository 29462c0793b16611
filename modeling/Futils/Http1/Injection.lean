import Futils.Http1.RoundTrip

/-!
# No text is taken for a line end

Fields may also come from a callable that calls `header_add` as often as it likes; invalid fields are
then skipped on request.  Whatever the texts are, a rendered head has the line ends of the writer and
no others.
-/

namespace Futils.Http1

open List Number Sequencer

/-- `header_add`, with the error of an earlier field kept in the rendering. -/
def headerAdd (validator : Bytes → Bytes → Bool) (ignoreInvalid : Bool) (added : Rendering)
    (field : Field) : Rendering :=
  if added.error ≠ .none then added
  else if !validator field.name field.value then
    if ignoreInvalid then added else { added with error := .validationError }
  else
    { ctx := added.ctx.scanHeader field.name field.value
      out := added.out ++ fieldLine field }

/-- `render_header_common` for a callable that adds `fields` and returns `result`. -/
def renderHeaderCalls (ctx : WriteContext) (out : Bytes) (fields : List Field)
    (result : HeaderError) (validator : Bytes → Bytes → Bool) (ignoreInvalid : Bool) : Rendering :=
  if ctx.state ≠ .header ∧ ctx.state ≠ .trailer then { ctx, out, error := .invalidState }
  else
    let added := fields.foldl (headerAdd validator ignoreInvalid) { ctx, out }
    if result ≠ .none then { added with error := result }
    else if added.error ≠ .none then added
    else
      let entered := added.ctx.enterBody
      { ctx := entered.1, out := added.out ++ [13, 10], error := entered.2 }

/-- A rendered first line and then the field lines that a callable adds. -/
def Rendering.withCalls (line : Rendering) (fields : List Field) (result : HeaderError)
    (validator : Bytes → Bytes → Bool) (ignoreInvalid : Bool) : Rendering :=
  if line.error ≠ .none then line
  else renderHeaderCalls line.ctx line.out fields result validator ignoreInvalid

def Unbroken (text : Bytes) : Prop := ∀ c ∈ text, isLine c = false

instance : DecidablePred Unbroken := fun _ => decidableBAll _ _

/-- A head of a first line, one line for each of `kept` and an empty line, each ended by CRLF, with
no other CR or LF. -/
def Lined (out : Bytes) (kept : List Field) : Prop :=
  ∃ line, Unbroken line ∧ (∀ field ∈ kept, Unbroken (field.name ++ [58, 32] ++ field.value)) ∧
    out = line ++ [13, 10] ++ kept.flatMap fieldLine ++ [13, 10]

def isKept (field : Field) : Bool := defaultValidator field.name field.value

theorem unbroken_append {left right : Bytes} :
    Unbroken (left ++ right) ↔ Unbroken left ∧ Unbroken right := forall_mem_append

theorem isLine_of_class {p : UInt8 → Bool} {c : UInt8} (holds : p c) (cr : p 13 = false)
    (lf : p 10 = false) : isLine c = false := by
  simp only [isLine, Bool.or_eq_false_iff, beq_eq_false_iff_ne]
  exact ⟨fun same => by simp [same, cr] at holds, fun same => by simp [same, lf] at holds⟩

theorem isKept.unbroken {field : Field} (kept : isKept field) :
    Unbroken (field.name ++ [58, 32] ++ field.value) := by
  simp only [isKept, defaultValidator, isValidKey, isValidValue, validate, Bool.and_eq_true,
    all_eq_true, Bool.or_eq_true] at kept
  rw [unbroken_append, unbroken_append]
  refine ⟨⟨fun c member => isLine_of_token (kept.1.1 c member).2, by decide⟩, fun c member => ?_⟩
  obtain visible | blank := kept.2.1 c member
  · exact isLine_of_class visible rfl rfl
  · exact isLine_of_class blank rfl rfl

theorem unbroken_exactVersion {version : Bytes} {major minor : Nat}
    (taken : exactVersion version = some (major, minor)) : Unbroken version := by
  obtain ⟨a, b, rfl, first, second, -, -⟩ := exists_of_exactVersion taken
  refine unbroken_append.2 ⟨by decide, fun c member => ?_⟩
  simp only [mem_cons, not_mem_nil, or_false] at member
  obtain rfl | rfl | rfl := member
  · exact isLine_of_class first rfl rfl
  · rfl
  · exact isLine_of_class second rfl rfl

/-- A field that is added leaves its line, one that is skipped leaves nothing. -/
theorem foldl_headerAdd {fields : List Field} {ignoreInvalid : Bool} {added : Rendering}
    (done : (fields.foldl (headerAdd defaultValidator ignoreInvalid) added).error = .none) :
    (fields.foldl (headerAdd defaultValidator ignoreInvalid) added).out =
      added.out ++ (fields.filter isKept).flatMap fieldLine ∧ added.error = .none := by
  induction fields generalizing added with
  | nil => exact ⟨(append_nil _).symm, done⟩
  | cons field fields ih =>
    obtain ⟨written, fine⟩ := ih done
    rw [foldl_cons, written]
    rw [headerAdd] at fine ⊢
    split_ifs at fine ⊢ with failed invalid
    · exact absurd fine failed
    · rw [filter_cons_of_neg (by simpa [isKept] using invalid)]
      exact ⟨rfl, fine⟩
    · rw [filter_cons_of_pos (by simpa [isKept] using invalid), append_assoc]
      exact ⟨rfl, not_not.1 failed⟩

/-- A container is a callable that adds its fields and does not ignore invalid ones. -/
theorem addHeaders_eq {validator : Bytes → Bytes → Bool} (ctx : WriteContext) (out : Bytes)
    (fields : List Field) : addHeaders validator ctx out fields =
      fields.foldl (headerAdd validator false) { ctx, out } := by
  induction fields generalizing ctx out with
  | nil => rfl
  | cons field fields ih =>
    have refused (rest : List _) : rest.foldl (headerAdd validator false)
        { ctx, out, error := .validationError } = { ctx, out, error := .validationError } :=
      foldl_fixed' (fun field => by simp [headerAdd]) _
    rw [addHeaders, foldl_cons, headerAdd]
    split
    · simp [refused]
    · simp [ih]

/-- Field lines and an empty line follow an unbroken first line. -/
theorem lined_of_line {line : Rendering} {fields : List Field} {result : HeaderError}
    {ignoreInvalid : Bool}
    (first : line.error = .none → ∃ text, Unbroken text ∧ line.out = text ++ [13, 10])
    (done : (line.withCalls fields result defaultValidator ignoreInvalid).error = .none) :
    Lined (line.withCalls fields result defaultValidator ignoreInvalid).out
      (fields.filter isKept) := by
  simp only [Rendering.withCalls, renderHeaderCalls] at done ⊢
  split_ifs at done ⊢ with failed ready refused invalid
  · exact absurd done failed
  · exact absurd done refused
  · exact absurd done invalid
  · obtain ⟨text, unbroken, written⟩ := first (not_not.1 failed)
    refine ⟨text, unbroken, fun field member => isKept.unbroken (mem_filter.1 member).2, ?_⟩
    rw [(foldl_headerAdd (not_not.1 invalid)).1, written]

/-- Whatever the application supplies, a request or response that is rendered without an error has
the line ends of the writer and no others. -/
theorem no_header_injection (version : Bytes) {line : Rendering}
    (made : (∃ method path, line = renderRequestLine {} [] method path (some version)) ∨
      ∃ status phrase, line = renderStatusLine {} [] status phrase (some version))
    (fields : List Field) (result : HeaderError) (ignoreInvalid : Bool) :
    let rendered := line.withFields fields defaultValidator
    let called := line.withCalls fields result defaultValidator ignoreInvalid
    (rendered.error = .none → Lined rendered.out (fields.filter isKept)) ∧
      (called.error = .none → Lined called.out (fields.filter isKept)) := by
  have same : line.withFields fields defaultValidator =
      line.withCalls fields .none defaultValidator false := by
    simp [Rendering.withFields, Rendering.withCalls, renderHeaderCommon, renderHeaderCalls,
      addHeaders_eq]
  have first : line.error = .none → ∃ text, Unbroken text ∧ line.out = text ++ [13, 10] := by
    intro fine
    obtain ⟨method, path, made⟩ | ⟨status, phrase, made⟩ := made
    · obtain ⟨-, token, -, usable, -, _, _, taken, out, -⟩ :=
        renderRequestLine_written made.symm fine
      refine ⟨method ++ [32] ++ path ++ [32] ++ version, ?_, by simp [out]⟩
      simp only [unbroken_append]
      exact ⟨⟨⟨⟨fun c member => isLine_of_token (token c member), by decide⟩,
        fun c member => isLine_of_class (usable c member) rfl rfl⟩, by decide⟩,
        unbroken_exactVersion taken⟩
    · obtain ⟨-, low, high, plain, ⟨_, _, taken⟩, out⟩ := renderStatusLine_written made.symm fine
      have digits : ∀ n : Fin 600, Unbroken (statusDigits n) := by decide +kernel
      refine ⟨version ++ [32] ++ statusDigits status.toNat ++ [32] ++ phrase, ?_, by simp [out]⟩
      simp only [unbroken_append]
      exact ⟨⟨⟨⟨unbroken_exactVersion taken, by decide⟩, digits ⟨status.toNat, by omega⟩⟩,
        by decide⟩, plain⟩
  rw [same]
  exact ⟨lined_of_line first, lined_of_line first⟩

/-- A line break in a value does not get through, whether its field is skipped or not. -/
theorem no_header_injection_skipped :
    let fields : List Field := [⟨ascii "Host", ascii "a"⟩, ⟨ascii "X", [97, 13, 10, 97]⟩]
    let line := renderRequestLine {} [] (ascii "GET") (ascii "/") (some (ascii "HTTP/1.1"))
    (line.withFields fields defaultValidator).error = .validationError ∧
      (line.withCalls fields .none defaultValidator true).error = .none ∧
      Lined (line.withCalls fields .none defaultValidator true).out (fields.filter isKept) := by
  intro fields line
  have done : (line.withCalls fields .none defaultValidator true).error = .none := by
    decide +kernel
  exact ⟨by decide +kernel, done, (no_header_injection _ (.inl ⟨_, _, rfl⟩) _ _ _).2 done⟩

end Futils.Http1
