import Mathlib.Data.List.Forall2

/-! # Successful validators

What it means that a sequence of checks in `Except`, or a partial function over a list, succeeds. -/

namespace EuWallet.Lib

universe u v w

variable {ε : Type u} {α β : Type v} {f : α → Except ε β} {x : Except ε α} {a : α}

theorem bind_eq_ok {b : β} : (x >>= f) = .ok b ↔ ∃ a, x = .ok a ∧ f a = .ok b := by
  cases x <;> simp [bind, Except.bind]

theorem throw_ne_ok {e : ε} : (throw e : Except ε α) ≠ .ok a := nofun

theorem pure_eq_ok {b : α} : (pure a : Except ε α) = .ok b ↔ a = b := by
  simp [pure, Except.pure]

theorem guard_eq_ok {c : Prop} [Decidable c] {e : ε} {x : Except ε β} {b : β} :
    (if c then (throw e >>= f) else x) = .ok b ↔ ¬ c ∧ x = .ok b := by
  by_cases h : c
  · simp [h, bind, Except.bind, throw, throwThe, MonadExceptOf.throw]
  · simp [h]

theorem mapError_eq_ok {ε' : Type*} {f : ε → ε'} : x.mapError f = .ok a ↔ x = .ok a := by
  cases x <;> simp [Except.mapError]

/-- A check over a list succeeds when it succeeds on every element. -/
theorem forM_ok {f : α → Except ε PUnit.{w + 1}} (xs : List α) (h : xs.forM f = .ok ⟨⟩) : ∀ x ∈ xs, f x = .ok ⟨⟩ := by
  induction xs with
  | nil => simp
  | cons a as ih =>
    have hbind : (f a >>= fun _ => as.forM f) = .ok ⟨⟩ := h
    obtain ⟨⟨⟩, ha, has⟩ := bind_eq_ok.mp hbind
    intro x hx
    rcases List.mem_cons.mp hx with rfl | hx
    · exact ha
    · exact ih has x hx

theorem forM_eq_ok {f : α → Except ε PUnit.{w + 1}} {xs : List α} : xs.forM f = .ok ⟨⟩ ↔ ∀ x ∈ xs, f x = .ok ⟨⟩ := by
  refine ⟨forM_ok xs, fun h => ?_⟩
  induction xs with
  | nil => rfl
  | cons a as ih =>
    have hbind : (f a >>= fun _ => as.forM f) = .ok ⟨⟩ :=
      bind_eq_ok.mpr ⟨⟨⟩, h a List.mem_cons_self, ih fun x hx => h x (List.mem_cons_of_mem _ hx)⟩
    exact hbind

/-- A fold of a checked step succeeds when every step's check holds in the state it is reached in. -/
theorem foldlM_eq_ok {α : Type*} {σ : Type v} {f : σ → α → Except ε σ} {P : σ → α → Prop}
    {g : σ → α → σ} (hf : ∀ s a s', f s a = .ok s' ↔ P s a ∧ s' = g s a) :
    ∀ {l : List α} {s s' : σ}, l.foldlM f s = .ok s' ↔
      (∀ before a after, l = before ++ a :: after → P (before.foldl g s) a) ∧ s' = l.foldl g s
  | [], s, s' => by
    rw [List.foldlM_nil, pure_eq_ok, eq_comm]
    simp
  | a :: l, s, s' => by
    rw [List.foldlM_cons, bind_eq_ok]
    constructor
    · rintro ⟨t, ht, hl⟩
      obtain ⟨hP, rfl⟩ := (hf s a t).mp ht
      obtain ⟨hrest, rfl⟩ := (foldlM_eq_ok hf).mp hl
      refine ⟨fun before b after heq => ?_, rfl⟩
      rcases before with _ | ⟨c, before⟩
      · obtain ⟨rfl, -⟩ := List.cons.inj heq
        exact hP
      · obtain ⟨rfl, rfl⟩ := List.cons.inj heq
        exact hrest before b after rfl
    · rintro ⟨h, rfl⟩
      refine ⟨g s a, (hf s a _).mpr ⟨h [] a l rfl, rfl⟩, (foldlM_eq_ok hf).mpr ⟨?_, rfl⟩⟩
      rintro before b after rfl
      exact h (a :: before) b after rfl

theorem mapM_eq_some {f : α → Option β} : ∀ {xs : List α} {ys : List β},
      xs.mapM f = some ys ↔ List.Forall₂ (fun x y => f x = some y) xs ys
  | [], ys => by simp [eq_comm]
  | x :: xs, ys => by
    cases ys with
    | nil => simp [List.mapM_cons, Option.bind_eq_some_iff]
    | cons y ys => simp [List.mapM_cons, Option.bind_eq_some_iff, mapM_eq_some]

/-- Every result of a `mapM` is the image of an element. -/
theorem exists_of_mem_mapM {f : α → Option β} {xs : List α} {ys : List β} {y : β} (h : xs.mapM f = some ys)
    (hy : y ∈ ys) : ∃ x ∈ xs, f x = some y := by
  have hpairs := mapM_eq_some.mp h
  clear h
  induction hpairs with
  | nil => cases hy
  | @cons x z xs ys hx _ ih =>
    rcases List.mem_cons.mp hy with rfl | hy
    · exact ⟨x, List.mem_cons_self, hx⟩
    · obtain ⟨x', hx', hy⟩ := ih hy
      exact ⟨x', List.mem_cons_of_mem _ hx', hy⟩

end EuWallet.Lib
