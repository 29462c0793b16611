import Mathlib.Data.List.Basic

/-!
# Guarded runs of deterministic machines

A machine is a step function `State → Op → State × Out`.  A run consumes a list of operations; its
`trace` pairs every operation with the answer it received.  The run rules below turn one-step
preservation under a guard into a statement about every guarded run.
-/

namespace Futils.Lib.Machine

variable {State Op Out : Type*}

/-- The state reached after a list of operations. -/
def final (step : State → Op → State × Out) : State → List Op → State
  | state, [] => state
  | state, op :: ops => final step (step state op).1 ops

/-- Every operation of a run with the answer it received. -/
def trace (step : State → Op → State × Out) : State → List Op → List (Op × Out)
  | _, [] => []
  | state, op :: ops => (op, (step state op).2) :: trace step (step state op).1 ops

/-- Every step of the run meets `guard` in the state before it. -/
def Guarded (step : State → Op → State × Out) (guard : State → Op → Prop) :
    State → List Op → Prop
  | _, [] => True
  | state, op :: ops => guard state op ∧ Guarded step guard (step state op).1 ops

variable {step : State → Op → State × Out} {guard : State → Op → Prop}
  (state : State) (op : Op) (ops : List Op)

@[simp] theorem final_nil : final step state [] = state := rfl

@[simp] theorem final_cons : final step state (op :: ops) = final step (step state op).1 ops := rfl

@[simp] theorem trace_nil : trace step state [] = [] := rfl

@[simp] theorem trace_cons :
    trace step state (op :: ops) = (op, (step state op).2) :: trace step (step state op).1 ops :=
  rfl

theorem final_append (first second : List Op) :
    final step state (first ++ second) = final step (final step state first) second := by
  induction first generalizing state with
  | nil => rfl
  | cons op first ih => exact ih _

@[simp] theorem guarded_nil : Guarded step guard state [] := trivial

@[simp] theorem guarded_cons : Guarded step guard state (op :: ops) ↔
      guard state op ∧ Guarded step guard (step state op).1 ops := Iff.rfl

theorem guarded_append (first second : List Op) : Guarded step guard state (first ++ second) ↔
      Guarded step guard state first ∧ Guarded step guard (final step state first) second := by
  induction first generalizing state with
  | nil => simp
  | cons op first ih => rw [List.cons_append, guarded_cons, guarded_cons, ih, and_assoc, final_cons]

instance decidableGuarded (step : State → Op → State × Out) (guard : State → Op → Prop)
    [∀ state op, Decidable (guard state op)] :
    ∀ (state : State) (ops : List Op), Decidable (Guarded step guard state ops)
  | _, [] => .isTrue trivial
  | state, op :: ops =>
    @instDecidableAnd _ _ _ (decidableGuarded step guard (step state op).1 ops)

theorem trace_map_fst : (trace step state ops).map Prod.fst = ops := by
  induction ops generalizing state with
  | nil => rfl
  | cons op ops ih => simp [ih]

/-- A guard that operations meet in every state holds along every run of them. -/
theorem guarded_of_forall {state : State} {ops : List Op}
    (all : ∀ op ∈ ops, ∀ state, guard state op) : Guarded step guard state ops := by
  induction ops generalizing state with
  | nil => trivial
  | cons op ops ih =>
    exact ⟨all op (by simp) _, ih (List.forall_mem_cons.1 all).2⟩

theorem Guarded.and_forall {condition : Op → Prop} {state : State} {ops : List Op}
    (guarded : Guarded step guard state ops) (all : ∀ op ∈ ops, condition op) :
    Guarded step (fun state op => condition op ∧ guard state op) state ops := by
  induction ops generalizing state with
  | nil => trivial
  | cons op ops ih =>
    exact ⟨⟨all op (by simp), guarded.1⟩,
      ih guarded.2 (List.forall_mem_cons.1 all).2⟩

theorem Guarded.and {other : State → Op → Prop} {state : State} {ops : List Op}
    (first : Guarded step guard state ops) (second : Guarded step other state ops) :
    Guarded step (fun state op => guard state op ∧ other state op) state ops := by
  induction ops generalizing state with
  | nil => trivial
  | cons op ops ih => exact ⟨⟨first.1, second.1⟩, ih first.2 second.2⟩

/-- A property of all answers of a run holds at every step. -/
theorem guarded_of_trace {answered : Out → Prop} {state : State} {ops : List Op}
    (all : ∀ event ∈ trace step state ops, answered event.2) :
    Guarded step (fun state op => answered (step state op).2) state ops := by
  induction ops generalizing state with
  | nil => trivial
  | cons op ops ih =>
    exact ⟨all _ List.mem_cons_self, ih (List.forall_mem_cons.1 all).2⟩

/-- A property of the state and the past that every guarded step keeps holds after every guarded
run. -/
theorem invariant_of_guarded {Inv : State → List (Op × Out) → Prop}
    (preserved : ∀ state past op, Inv state past → guard state op →
      Inv (step state op).1 (past ++ [(op, (step state op).2)]))
    {state : State} {past : List (Op × Out)} {ops : List Op} (holds : Inv state past)
    (guarded : Guarded step guard state ops) :
    Inv (final step state ops) (past ++ trace step state ops) := by
  induction ops generalizing state past with
  | nil => simpa using holds
  | cons op ops ih =>
    obtain ⟨first, rest⟩ := guarded
    simpa using ih (preserved _ _ op holds first) rest

/-- A property of the state that every step keeps holds after every run. -/
theorem invariant_final {Inv : State → Prop}
    (preserved : ∀ state op, Inv state → Inv (step state op).1) {state : State} (holds : Inv state)
    (ops : List Op) : Inv (final step state ops) := by
  induction ops generalizing state with
  | nil => exact holds
  | cons op ops ih => exact ih (preserved state op holds)

/-- A property that every guarded step keeps, and that answers every guarded step, answers every
step of a guarded run. -/
theorem guarded_of_invariant {Inv : State → Prop} {answered : State → Op → Prop}
    (preserved : ∀ state op, Inv state → guard state op →
      Inv (step state op).1 ∧ answered state op)
    {state : State} {ops : List Op} (holds : Inv state) (guarded : Guarded step guard state ops) :
    Guarded step answered state ops := by
  induction ops generalizing state with
  | nil => trivial
  | cons op ops ih =>
    obtain ⟨kept, answer⟩ := preserved _ op holds guarded.1
    exact ⟨answer, ih kept guarded.2⟩

end Futils.Lib.Machine
