import EuWallet.Lib.Run

/-! # Values that are used once

Some effects of a call use a value, such as the nonce of the request they answer. `Once` says that a call
has at most one such effect and that no call before it used the same value. It follows when the state
remembers the values that are used up: a call uses a value that is not used up, uses it up, and forgets
none (`Spends`). What is used up may depend on the calls so far, so a value may be reserved before it is
used. -/

namespace EuWallet.Lib

universe u v w x

variable {σ : Type u} {α : Type v} {β : Type w} {ν : Type x}
variable (emits : Call σ α β → β → Bool) (names : List (Call σ α β) → Call σ α β → ν → Prop)
variable (burned : List (Call σ α β) → σ → ν → Prop)

def Uses (pre : List (Call σ α β)) (k : Call σ α β) (n : ν) : Prop :=
  (∃ x ∈ k.outputs, emits k x) ∧ names pre k n

/-- There is at most one such effect, it uses a value, and no call before used it. -/
structure Once (pre : List (Call σ α β)) (k : Call σ α β) : Prop where
  single : (k.outputs.filter (emits k)).length ≤ 1
  named : ∀ x ∈ k.outputs, emits k x → ∃ n, names pre k n
  first : ∀ n, Uses emits names pre k n → ∀ older earlier newer, pre = older ++ earlier :: newer →
    ¬ Uses emits names older earlier n

/-- What the calls used is used up. -/
def Remembers (pre : List (Call σ α β)) (s : σ) : Prop :=
  ∀ older earlier newer n, pre = older ++ earlier :: newer → Uses emits names older earlier n →
    burned pre s n

structure Spends (pre : List (Call σ α β)) (k : Call σ α β) : Prop where
  single : (k.outputs.filter (emits k)).length ≤ 1
  named : ∀ x ∈ k.outputs, emits k x → ∃ n, names pre k n
  kept : ∀ n, burned pre k.before n → burned (pre ++ [k]) k.after n
  fresh : ∀ n, Uses emits names pre k n → ¬ burned pre k.before n
  spent : ∀ n, Uses emits names pre k n → burned (pre ++ [k]) k.after n

variable {emits names burned} {pre : List (Call σ α β)} {k : Call σ α β}

theorem Remembers.nil (s : σ) : Remembers emits names burned [] s := by
  intro older earlier newer n h
  simp at h

/-- A call without such effects only has to forget nothing. -/
theorem Spends.of_silent (hsilent : ∀ x ∈ k.outputs, emits k x = false)
    (kept : ∀ n, burned pre k.before n → burned (pre ++ [k]) k.after n) :
    Spends emits names burned pre k := by
  have hunused (n : ν) : ¬ Uses emits names pre k n := by
    rintro ⟨⟨x, hx, hemits⟩, -⟩
    rw [hsilent x hx] at hemits
    cases hemits
  refine ⟨?_, fun x hx hemits => ?_, kept, fun n h => absurd h (hunused n), fun n h => absurd h (hunused n)⟩
  · rw [List.filter_eq_nil_iff.mpr fun x hx => by simp [hsilent x hx]]
    exact Nat.zero_le 1
  · rw [hsilent x hx] at hemits
    cases hemits

variable (h : Spends emits names burned pre k) (hremembers : Remembers emits names burned pre k.before)
include h hremembers

theorem Spends.once : Once emits names pre k :=
  ⟨h.single, h.named, fun n huses older earlier newer hpre hearlier =>
    h.fresh n huses (hremembers older earlier newer n hpre hearlier)⟩

theorem Spends.remembers : Remembers emits names burned (pre ++ [k]) k.after := by
  intro older earlier newer n hsplit huses
  -- the call is the last one, or one of those before
  rcases snoc_eq_append_cons hsplit with ⟨-, rfl, rfl⟩ | ⟨mid, -, hpre⟩
  · exact h.spent n huses
  · exact h.kept n (hremembers older earlier mid n hpre huses)

end EuWallet.Lib
