import Mathlib.Data.List.Basic

/-!
# Incremental readers

A reader takes an item off the front of its input or fails.  One failure, `short`, says that the
input ends too early; every other answer is final, whatever arrives later.  Draining a buffer with
such a reader gives the same result however the input was cut into pieces.
-/

namespace Futils.Lib.Incremental

universe u

variable {ε : Type*} {α β γ σ : Type u} {short : ε}

/-- A reader whose answers other than `short` do not change when more input arrives. -/
structure Stable (short : ε) (read : List β → Except ε (α × List β)) : Prop where
  ok : ∀ {input value rest}, read input = .ok (value, rest) →
    ∀ more, read (input ++ more) = .ok (value, rest ++ more)
  error : ∀ {input failure}, read input = .error failure → failure ≠ short →
    ∀ more, read (input ++ more) = .error failure

namespace Stable

theorem pure (value : α) : Stable short fun input : List β => .ok (value, input) :=
  ⟨fun read more => by cases read; rfl, nofun⟩

theorem fail (failure : ε) : Stable short fun _ : List β => (.error failure : Except ε (α × _)) :=
  ⟨nofun, fun read _ _ => by cases read; rfl⟩

variable {read : List β → Except ε (α × List β)}

/-- A reader that is too short, or reads the same whatever arrives later. -/
theorem of_answer (extend : ∀ input more, read input = .error short ∨
    read (input ++ more) = (read input).map fun item => (item.1, item.2 ++ more)) :
    Stable short read where
  ok {input value rest} done more := by
    rcases extend input more with early | same
    · cases early.symm.trans done
    · rw [same, done]
      rfl
  error {input failure} stuck final more := by
    rcases extend input more with early | same
    · cases early.symm.trans stuck
      exact absurd rfl final
    · rw [same, stuck]
      rfl

theorem answer (stable : Stable short read) (input more : List β) : read input = .error short ∨
    read (input ++ more) = (read input).map fun item => (item.1, item.2 ++ more) := by
  match early : read input with
  | .ok item => exact .inr (stable.ok early more)
  | .error failure =>
    by_cases final : failure = short
    · exact .inl (by rw [final])
    · exact .inr (stable.error early final _)

/-- Reading one item after another. -/
theorem bind (stable : Stable short read) {f : α → List β → Except ε (γ × List β)}
    (next : ∀ value, Stable short (f value)) :
    Stable short (fun input => read input >>= fun item => f item.1 item.2) := by
  refine .of_answer fun input more => ?_
  rcases stable.answer input more with early | same
  · exact .inl (by rw [early]; rfl)
  rw [same]
  match read input with
  | .error failure => exact .inr rfl
  | .ok item => exact (next item.1).answer item.2 more

end Stable

/-- A reader that carries a state along, and takes something off its input whenever it succeeds. -/
structure Reader (short : ε) (read : σ → List β → Except ε (σ × List β)) : Prop where
  stable : ∀ state, Stable short (read state)
  progress : ∀ {state input after rest}, read state input = .ok (after, rest) →
    rest.length < input.length

section Drain

variable [DecidableEq ε]

/-- Read items until the reader fails: the state, the unread rest, and the failure unless it was
`short`. -/
def drainLoop (short : ε) (read : σ → List β → Except ε (σ × List β)) :
    Nat → σ → List β → σ × List β × Option ε
  | 0, state, input => (state, input, none)
  | rounds + 1, state, input =>
    match read state input with
    | .ok (after, rest) => drainLoop short read rounds after rest
    | .error failure => (state, input, if failure = short then none else some failure)

/-- Every item takes something off the input, so that one round more than its length is enough. -/
def drain (short : ε) (read : σ → List β → Except ε (σ × List β)) (state : σ) (input : List β) :
    σ × List β × Option ε :=
  drainLoop short read (input.length + 1) state input

variable {read : σ → List β → Except ε (σ × List β)}

theorem drainLoop_eq_drain (reader : Reader short read) :
    ∀ (rounds : Nat) (state : σ) (input : List β), input.length < rounds →
      drainLoop short read rounds state input = drain short read state input := by
  intro rounds
  induction rounds using Nat.strongRecOn with
  | ind rounds ih =>
    intro state input enough
    obtain ⟨fewer, rfl⟩ : ∃ fewer, rounds = fewer + 1 := ⟨rounds - 1, by omega⟩
    rw [drain, drainLoop, drainLoop]
    match items : read state input with
    | .error failure => rfl
    | .ok (after, rest) =>
      have shorter := reader.progress items
      dsimp only
      rw [ih _ (by omega) _ _ (by omega)]
      by_cases same : fewer = input.length
      · rw [← same, ih _ (by omega) _ _ (by omega)]
      · rw [ih _ (by omega) _ _ shorter]

theorem drain_of_ok (reader : Reader short read) {state after : σ} {input rest : List β}
    (item : read state input = .ok (after, rest)) :
    drain short read state input = drain short read after rest := by
  rw [drain, drainLoop, item]
  exact drainLoop_eq_drain reader _ _ _ (reader.progress item)

theorem drain_of_error {state : σ} {input : List β} {failure : ε}
    (stuck : read state input = .error failure) :
    drain short read state input =
      (state, input, if failure = short then none else some failure) := by
  rw [drain, drainLoop, stuck]

omit [DecidableEq ε] in
/-- Induction along the items of the input. -/
theorem Reader.induction (reader : Reader short read) {motive : σ → List β → Prop}
    (stuck : ∀ {state input failure}, read state input = .error failure → motive state input)
    (item : ∀ {state input after rest}, read state input = .ok (after, rest) → motive after rest →
      motive state input) (state : σ) (input : List β) : motive state input := by
  induction size : input.length using Nat.strongRecOn generalizing state input with
  | ind length ih =>
    match taken : read state input with
    | .error failure => exact stuck taken
    | .ok (after, rest) =>
      have shorter := reader.progress taken
      exact item taken (ih rest.length (by omega) after rest rfl)

/-- Draining again after more input has arrived is draining everything at once. -/
theorem drain_append (reader : Reader short read) (more : List β) :
    ∀ (state : σ) (input : List β),
      drain short read state (input ++ more) =
        match drain short read state input with
        | (after, rest, none) => drain short read after (rest ++ more)
        | (after, rest, some failure) => (after, rest ++ more, some failure) := by
  intro state input
  induction state, input using reader.induction with
  | @stuck state input failure stuck =>
    rw [drain_of_error stuck]
    by_cases final : failure = short
    · rw [if_pos final]
    · rw [drain_of_error ((reader.stable _).error stuck final _), if_neg final]
  | item item ih =>
    rw [drain_of_ok reader item, drain_of_ok reader ((reader.stable _).ok item _)]
    exact ih

/-- What is left after draining without a failure is too short for another item. -/
theorem read_rest_of_drain (reader : Reader short read) :
    ∀ {state after : σ} {input rest : List β},
      drain short read state input = (after, rest, none) → read after rest = .error short := by
  intro state after input rest drained
  induction state, input using reader.induction with
  | @stuck state input failure stuck =>
    rw [drain_of_error stuck] at drained
    simp only [Prod.mk.injEq] at drained
    obtain ⟨rfl, rfl, status⟩ := drained
    by_cases final : failure = short
    · rw [stuck, final]
    · rw [if_neg final] at status
      cases status
  | item item ih =>
    rw [drain_of_ok reader item] at drained
    exact ih drained

/-- What every item preserves is preserved by draining. -/
theorem drain_preserves {P : σ → List β → Prop}
    (step : ∀ {state input after rest}, P state input → read state input = .ok (after, rest) →
      P after rest) {state : σ} {input : List β} (start : P state input) :
    P (drain short read state input).1 (drain short read state input).2.1 := by
  rw [drain]
  generalize input.length + 1 = rounds
  induction rounds generalizing state input with
  | zero => exact start
  | succ rounds ih =>
    rw [drainLoop]
    match item : read state input with
    | .ok (after, rest) => exact ih (step start item)
    | .error failure => exact start

/-- That the input is too short is not a failure of draining. -/
theorem drain_ne_short (state : σ) (input : List β) :
    (drain short read state input).2.2 ≠ some short := by
  rw [drain]
  generalize input.length + 1 = rounds
  induction rounds generalizing state input with
  | zero => nofun
  | succ rounds ih =>
    rw [drainLoop]
    match read state input with
    | .ok (after, rest) => exact ih after rest
    | .error failure =>
      by_cases final : failure = short <;> simp [final]

/-- Draining can be resumed where it stopped, also where it failed. -/
theorem drain_resume (reader : Reader short read) (more : List β) (state : σ) (input : List β) :
    drain short read (drain short read state input).1
        ((drain short read state input).2.1 ++ more) =
      drain short read state (input ++ more) := by
  induction state, input using reader.induction with
  | stuck stuck => rw [drain_of_error stuck]
  | item item ih =>
    rw [drain_of_ok reader item, drain_of_ok reader ((reader.stable _).ok item _)]
    exact ih

end Drain

end Futils.Lib.Incremental
