import EuWallet.Lib.Except

/-! # Computations that keep their state when they fail

A method that changes its object and may return early with an error leaves the object as it was at that
point. `Fallible σ ε` is such a computation over the state `σ`, and `outcome` runs it. The lemmas read a
successful run back step by step. -/

namespace EuWallet.Lib

variable {σ ε α β : Type}

/-- A computation over a state that may fail. What was written before the failure stays. -/
abbrev Fallible (σ ε : Type) := ExceptT ε (StateM σ)

namespace Fallible

/-- What a computation returns, and the state it leaves. -/
def outcome (m : Fallible σ ε α) (s : σ) : Except ε α × σ := StateT.run (ExceptT.run m) s

/-- A result that does not depend on the state. -/
def lift : Except ε α → Fallible σ ε α
  | .ok a => pure a
  | .error e => throw e

/-- Stop with the error when `c` holds. -/
def failIf (c : Prop) [Decidable c] (e : ε) : Fallible σ ε Unit := if c then throw e else pure ()

variable {m : Fallible σ ε α} {f : α → Fallible σ ε β} {s s' : σ} {a b : α} {d : β} {e : ε}

@[simp] theorem outcome_pure : outcome (pure a : Fallible σ ε α) s = (.ok a, s) := rfl

@[simp] theorem outcome_throw : outcome (throw e : Fallible σ ε α) s = (.error e, s) := rfl

@[simp] theorem outcome_lift (x : Except ε α) : outcome (lift x) s = (x, s) := by cases x <;> rfl

theorem outcome_bind : outcome (m >>= f) s = match outcome m s with
    | (.ok a, s') => outcome (f a) s'
    | (.error e, s') => (.error e, s') := by
  show StateT.run (ExceptT.run (m >>= f)) s = _
  rw [ExceptT.run_bind, StateT.run_bind]
  unfold outcome
  rcases StateT.run (ExceptT.run m) s with ⟨_ | _, _⟩ <;> rfl

theorem outcome_get_bind {f : σ → Fallible σ ε β} : outcome (get >>= f) s = outcome (f s) s := by
  rfl

@[simp] theorem outcome_modify {g : σ → σ} : outcome (modify g : Fallible σ ε PUnit) s = (.ok ⟨⟩, g s) := rfl

theorem outcome_modify_bind {g : σ → σ} {f : PUnit → Fallible σ ε β} :
    outcome (modify g >>= f) s = outcome (f ⟨⟩) (g s) := by
  rw [outcome_bind, outcome_modify]

theorem outcome_lift_bind_ok {x : Except ε α} : outcome (lift x >>= f) s = (.ok d, s') ↔
    ∃ a, x = .ok a ∧ outcome (f a) s = (.ok d, s') := by
  rw [outcome_bind, outcome_lift]
  cases x <;> simp

theorem outcome_failIf_bind_ok {c : Prop} [Decidable c] {f : Unit → Fallible σ ε β} :
    outcome (failIf c e >>= f) s = (.ok d, s') ↔ ¬ c ∧ outcome (f ()) s = (.ok d, s') := by
  unfold failIf
  by_cases h : c <;> simp [h]

theorem outcome_ok_bind : outcome (lift (.ok a) >>= f) s = outcome (f a) s := by
  rw [outcome_bind, outcome_lift]

theorem outcome_pass_bind {c : Prop} [Decidable c] {f : Unit → Fallible σ ε β} (h : ¬ c) :
    outcome (failIf c e >>= f) s = outcome (f ()) s := by
  simp [failIf, h]

theorem outcome_pure_ok : outcome (pure a : Fallible σ ε α) s = (.ok b, s') ↔ a = b ∧ s = s' := by simp

theorem outcome_throw_ok : outcome (throw e : Fallible σ ε α) s = (.ok b, s') ↔ False := by simp

end Fallible

end EuWallet.Lib
