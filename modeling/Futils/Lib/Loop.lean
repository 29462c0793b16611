import Mathlib.Data.List.Basic

/-!
# Loops with an exit

A loop body either goes on with a new state or leaves with a result.  `iterate` runs it for a number
of rounds; the rules below turn what one round keeps into what every finished loop satisfies, and a
measure that every round lowers into a number of rounds that suffices.  `Ends` says how a loop ends
without counting its rounds.
-/

namespace Futils.Lib.Loop

variable {σ ρ : Type*}

/-- At most `rounds` rounds of a loop; nothing when it is still going on after them. -/
def iterate (body : σ → σ ⊕ ρ) : Nat → σ → Option ρ
  | 0, _ => none
  | rounds + 1, state =>
    match body state with
    | .inl next => iterate body rounds next
    | .inr result => some result

/-- Every state in which the loop starts a round meets `guard`. -/
def Along (body : σ → σ ⊕ ρ) (guard : σ → Prop) : Nat → σ → Prop
  | 0, _ => True
  | rounds + 1, state => guard state ∧
      match body state with
      | .inl next => Along body guard rounds next
      | .inr _ => True

variable {body : σ → σ ⊕ ρ} {guard : σ → Prop}

instance decidableAlong (body : σ → σ ⊕ ρ) (guard : σ → Prop) [∀ state, Decidable (guard state)] :
    ∀ (rounds : Nat) (state : σ), Decidable (Along body guard rounds state)
  | 0, _ => .isTrue trivial
  | rounds + 1, state =>
    @instDecidableAnd _ _ _ <|
      match body state with
      | .inl next => decidableAlong body guard rounds next
      | .inr _ => .isTrue trivial

/-- What a round leaves behind: a state to go on with, or a result. -/
inductive Round (Inv : σ → Prop) (post : ρ → Prop) : σ ⊕ ρ → Prop
  | goes {next : σ} (kept : Inv next) : Round Inv post (.inl next)
  | leaves {result : ρ} (done : post result) : Round Inv post (.inr result)

variable {Inv : σ → Prop} {post : ρ → Prop}

/-- What every guarded round keeps, and the last one turns into `post`, holds of the result. -/
theorem post_of_iterate (round : ∀ state, Inv state → guard state → Round Inv post (body state))
    {rounds : Nat} {state : σ} {result : ρ} (holds : Inv state)
    (along : Along body guard rounds state) (done : iterate body rounds state = some result) :
    post result := by
  induction rounds generalizing state with
  | zero => cases done
  | succ rounds ih =>
    have kept := round _ holds along.1
    have rest := along.2
    match step : body state, kept with
    | .inl next, .goes kept =>
      simp only [step, iterate] at rest done
      exact ih kept rest done
    | .inr left, .leaves last =>
      simp only [step, iterate, Option.some.injEq] at done
      exact done ▸ last

theorem along_true (rounds : Nat) (state : σ) : Along body (fun _ => True) rounds state := by
  induction rounds generalizing state with
  | zero => trivial
  | succ rounds ih =>
    refine ⟨trivial, ?_⟩
    cases body state with
    | inl next => exact ih next
    | inr result => trivial

theorem post_of_iterate_unguarded (round : ∀ state, Inv state → Round Inv post (body state))
    {rounds : Nat} {state : σ} {result : ρ} (holds : Inv state)
    (done : iterate body rounds state = some result) : post result :=
  post_of_iterate (fun _ kept _ => round _ kept) holds (along_true _ _) done

/-- A measure that every round lowers bounds the number of rounds. -/
theorem iterate_isSome {measure : σ → Nat}
    (lowered : ∀ state next, body state = .inl next → measure next < measure state)
    {rounds : Nat} {state : σ} (enough : measure state < rounds) :
    (iterate body rounds state).isSome := by
  induction rounds generalizing state with
  | zero => omega
  | succ rounds ih =>
    match step : body state with
    | .inl next =>
      have lower := lowered _ _ step
      simp only [step, iterate]
      exact ih (by omega)
    | .inr result => simp only [step, iterate, Option.isSome_some]

/-- The loop that starts a round in `state` leaves with `result` in the end. -/
inductive Ends (body : σ → σ ⊕ ρ) : σ → ρ → Prop
  | leave {state : σ} {result : ρ} (left : body state = .inr result) : Ends body state result
  | round {state next : σ} {result : ρ} (step : body state = .inl next)
      (ends : Ends body next result) : Ends body state result

namespace Ends

variable {state : σ} {result : ρ}

/-- Rounds that suffice give the result the loop ends with. -/
theorem iterate_eq (ends : Ends body state result) {rounds : Nat}
    (enough : (iterate body rounds state).isSome) : iterate body rounds state = some result := by
  induction ends generalizing rounds with
  | leave left =>
    cases rounds with
    | zero => cases enough
    | succ rounds => simp only [iterate, left]
  | round step _ ih =>
    cases rounds with
    | zero => cases enough
    | succ rounds =>
      simp only [iterate, step] at enough ⊢
      exact ih enough

end Ends

end Futils.Lib.Loop
