import Mathlib.Logic.Basic

/-!
# Fallible programs over a state

A program takes a state and returns a value or an error together with the state
it leaves.  The state survives an error, since the environment of a failed
operation (a half-read stream, a half-written buffer) is still there for whoever
handles the failure.
-/

namespace VgiRpc.Library

def Program (σ ε α : Type) : Type := σ → Except ε α × σ

namespace Program

variable {σ ε α β : Type}

instance : Monad (Program σ ε) where
  pure value := fun state => (.ok value, state)
  bind program next := fun state =>
    match program state with
    | (.ok value, rest) => next value rest
    | (.error error, rest) => (.error error, rest)

instance : MonadExceptOf ε (Program σ ε) where
  throw error := fun state => (.error error, state)
  tryCatch program handler := fun state =>
    match program state with
    | (.ok value, rest) => (.ok value, rest)
    | (.error error, rest) => handler error rest

/-- Run a computation that neither reads nor changes the state. -/
def lift (result : Except ε α) : Program σ ε α := fun state => (result, state)

instance : MonadLift (Except ε) (Program σ ε) where
  monadLift := lift

instance : MonadStateOf σ (Program σ ε) where
  get := fun state => (.ok state, state)
  set next := fun _ => (.ok (), next)
  modifyGet change := fun state => (.ok (change state).1, (change state).2)

variable (value : α)

@[simp]
theorem pure_apply : (pure value : Program σ ε α) state = (.ok value, state) := rfl

variable (error : ε)

@[simp]
theorem throw_apply : (throw error : Program σ ε α) state = (.error error, state) := rfl

@[simp]
theorem lift_apply (result : Except ε α) (state : σ) :
    (liftM result : Program σ ε α) state = (result, state) := rfl

theorem bind_apply (program : Program σ ε α) (next : α → Program σ ε β) (state : σ) :
    (program >>= next) state = match program state with
      | (.ok value, rest) => next value rest
      | (.error error, rest) => (.error error, rest) := rfl

variable {program : Program σ ε α} {next : α → Program σ ε β} {state : σ} {value : α} {rest : σ}

theorem bind_ok (step : program state = (.ok value, rest)) :
    (program >>= next) state = next value rest := by
  rw [bind_apply, step]

theorem bind_error {error : ε} (step : program state = (.error error, rest)) :
    (program >>= next) state = (.error error, rest) := by
  rw [bind_apply, step]

/-- Sequences that go on alike from every state do the same. -/
theorem bind_congr {next other : α → Program σ ε β}
    (same : ∀ value rest, next value rest = other value rest) :
    (program >>= next) state = (program >>= other) state := by
  rw [bind_apply, bind_apply]
  rcases program state with ⟨error | value, rest⟩
  · rfl
  · exact same value rest

theorem bind_assoc {γ : Type} (program : Program σ ε α) (next : α → Program σ ε β)
    (last : β → Program σ ε γ) (state : σ) :
    ((program >>= next) >>= last) state = (program >>= fun value => next value >>= last) state := by
  rw [bind_apply, bind_apply, bind_apply]
  rcases program state with ⟨error | value, rest⟩
  · rfl
  · exact (bind_apply ..).symm

variable {final : σ}

/-- A sequence succeeds only through the success of both its parts. -/
theorem bind_eq_ok {result : β} (run : (program >>= next) state = (.ok result, final)) :
    ∃ value rest, program state = (.ok value, rest) ∧ next value rest = (.ok result, final) := by
  rw [bind_apply] at run
  rcases step : program state with ⟨value | value, rest⟩
  · rw [step] at run; simp at run
  · rw [step] at run; exact ⟨value, rest, rfl, run⟩

theorem lift_eq_ok {result : Except ε α}
    (run : (liftM result : Program σ ε α) state = (.ok value, final)) :
    result = .ok value ∧ final = state := by
  obtain ⟨returned, rfl⟩ := Prod.mk.inj run
  exact ⟨returned, rfl⟩

/-! ## Invariants

A property of the state that a program keeps whether it succeeds or fails. -/

def Preserves (invariant : σ → Prop) (program : Program σ ε α) : Prop :=
  ∀ state, invariant state → invariant (program state).2

section

variable {invariant : σ → Prop}

theorem preserves_pure (value : α) :
    Preserves invariant (pure value : Program σ ε α) := fun _ holds => holds

theorem preserves_throw (error : ε) :
    Preserves invariant (throw error : Program σ ε α) := fun _ holds => holds

theorem preserves_lift (result : Except ε α) :
    Preserves invariant (liftM result : Program σ ε α) := fun _ holds => holds

theorem preserves_get : Preserves invariant (get : Program σ ε σ) := fun _ holds => holds

theorem Preserves.bind {program : Program σ ε α} {next : α → Program σ ε β}
    (first : Preserves invariant program) (later : ∀ value, Preserves invariant (next value)) :
    Preserves invariant (program >>= next) := by
  intro state holds
  rw [bind_apply]
  have kept := first state holds
  rcases step : program state with ⟨error | value, rest⟩
  · rw [step] at kept
    exact kept
  · rw [step] at kept
    exact later value rest kept

theorem Preserves.ite {condition : Prop} [Decidable condition] {yes no : Program σ ε α}
    (left : Preserves invariant yes) (right : Preserves invariant no) :
    Preserves invariant (if condition then yes else no) := by
  split
  · exact left
  · exact right

end

end Program

variable {ε α β : Type} {first : Except ε α}

/-- A fallible computation in sequence succeeds only through the success of both its parts. -/
theorem exceptBind_eq_ok {next : α → Except ε β} {result : β}
    (run : (first >>= next) = .ok result) : ∃ value, first = .ok value ∧ next value = .ok result := by
  cases first with
  | error error => cases run
  | ok value => exact ⟨value, rfl, run⟩

theorem exceptMap_eq_ok {f : α → β} {result : β}
    (run : first.map f = .ok result) : ∃ value, first = .ok value ∧ f value = result := by
  cases first with
  | error error => cases run
  | ok value => exact ⟨value, rfl, Except.ok.inj run⟩

/-! ## How a computation ends

What holds of the value of a fallible computation, or of its error. -/

def Ends {ε α : Type} (good : α → Prop) (bad : ε → Prop) : Except ε α → Prop
  | .ok value => good value
  | .error error => bad error

namespace Ends

variable {ε α β : Type} {good : α → Prop} {bad : ε → Prop} {first : Except ε α}

theorem bind {after : β → Prop} {next : α → Except ε β} (ends : Ends good bad first)
    (later : ∀ value, good value → Ends after bad (next value)) : Ends after bad (first >>= next) := by
  cases first with
  | error error => exact ends
  | ok value => exact later value ends

theorem mapM {f : α → Except ε β} {values : List α}
    (each : ∀ value, Ends (fun _ => True) bad (f value)) :
    Ends (fun _ => True) bad (values.mapM f) := by
  induction values with
  | nil => trivial
  | cons value rest ih =>
    rw [List.mapM_cons]
    exact (each value).bind fun _ _ => ih.bind fun _ _ => trivial

theorem error_of {error : ε} (ends : Ends good bad first) (failed : first = .error error) :
    bad error := by
  rw [failed] at ends
  exact ends

end Ends

end VgiRpc.Library
