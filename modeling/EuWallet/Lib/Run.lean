import Mathlib.Data.List.Basic

/-! # Runs of a step function

A step takes a state and an input to a state and the outputs it emits. `collect` runs it over a list of
inputs and joins the outputs. `calls` keeps the run call by call, and `Always P` says that `P` holds of
every call together with the calls before it. `calls_always` is the induction rule: an invariant that
may speak about the calls so far, kept by every call that meets a condition, gives `P` at every call of
a run whose calls all meet the condition. -/

namespace EuWallet.Lib

universe u v w

variable {σ : Type u} {α : Type v} {β : Type w}

/-- Run a step over the inputs and join what it emits. -/
def collect (step : σ → α → σ × List β) : σ → List α → σ × List β
  | s, [] => (s, [])
  | s, a :: as =>
    let (s', out) := step s a
    let (s'', rest) := collect step s' as
    (s'', out ++ rest)

structure Call (σ : Type u) (α : Type v) (β : Type w) where
  before : σ
  input : α
  outputs : List β
  after : σ

def callOf (step : σ → α → σ × List β) (s : σ) (a : α) : Call σ α β :=
  ⟨s, a, (step s a).2, (step s a).1⟩

def calls (step : σ → α → σ × List β) : σ → List α → List (Call σ α β)
  | _, [] => []
  | s, a :: as => callOf step s a :: calls step (step s a).1 as

def Always (P : List (Call σ α β) → Call σ α β → Prop) (cs : List (Call σ α β)) : Prop :=
  ∀ pre k post, cs = pre ++ k :: post → P pre k

variable {step : σ → α → σ × List β}

@[simp] theorem collect_nil (s : σ) : collect step s [] = (s, []) := rfl

@[simp] theorem collect_cons (s : σ) (a : α) (as : List α) : collect step s (a :: as) =
      ((collect step (step s a).1 as).1, (step s a).2 ++ (collect step (step s a).1 as).2) := rfl

/-- A preorder every step stays in holds across a run. -/
theorem collect_rel {R : σ → σ → Prop} (refl : ∀ s, R s s) (trans : ∀ {s t u}, R s t → R t u → R s u)
    (hstep : ∀ s a, R s (step s a).1) (as : List α) : ∀ s, R s (collect step s as).1 := by
  induction as with
  | nil => exact refl
  | cons a as ih => exact fun s => trans (hstep s a) (ih _)

/-- The second half of a run starts where the first half ends. -/
theorem collect_append (as bs : List α) : ∀ s : σ,
    (collect step s (as ++ bs)).1 = (collect step (collect step s as).1 bs).1 := by
  induction as with
  | nil => exact fun s => rfl
  | cons a as ih => exact fun s => ih (step s a).1

variable {Inv : List (Call σ α β) → σ → Prop} {Cond P : List (Call σ α β) → Call σ α β → Prop} {s : σ}

@[simp] theorem callOf_before (s : σ) (a : α) : (callOf step s a).before = s := rfl
@[simp] theorem callOf_input (s : σ) (a : α) : (callOf step s a).input = a := rfl
@[simp] theorem callOf_outputs (s : σ) (a : α) : (callOf step s a).outputs = (step s a).2 := rfl
@[simp] theorem callOf_after (s : σ) (a : α) : (callOf step s a).after = (step s a).1 := rfl

/-- A run starts with its first step. -/
theorem calls_cons {s' : σ} {a : α} {outputs : List β} (h : step s a = (s', outputs)) (as : List α) :
    calls step s (a :: as) = ⟨s, a, outputs, s'⟩ :: calls step s' as := by
  simp [calls, callOf, h]

variable {cs : List (Call σ α β)} {k : Call σ α β}

/-- An element of a list with one more is the last one, or one of those before. -/
theorem snoc_eq_append_cons {as pre post : List α} {a b : α} (h : as ++ [a] = pre ++ b :: post) :
    (post = [] ∧ as = pre ∧ a = b) ∨ ∃ mid, post = mid ++ [a] ∧ as = pre ++ b :: mid := by
  rcases List.eq_nil_or_concat post with rfl | ⟨mid, last, rfl⟩
  · exact .inl ⟨rfl, by simpa using List.append_inj' h rfl⟩
  · rw [List.concat_eq_append, ← List.cons_append, ← List.append_assoc] at h
    obtain ⟨rfl, hlast⟩ := List.append_inj' h rfl
    rw [List.concat_eq_append, hlast]
    exact .inr ⟨mid, rfl, rfl⟩

theorem Always.snoc (h : Always P cs) (hk : P cs k) : Always P (cs ++ [k]) := by
  intro pre k' post e
  rcases snoc_eq_append_cons e with ⟨-, rfl, rfl⟩ | ⟨mid, -, hcs⟩
  · exact hk
  · exact h pre k' mid hcs

theorem Always.nil : Always P [] := fun _ _ _ e => by simp at e

theorem calls_append (as bs : List α) : ∀ s : σ,
    calls step s (as ++ bs) = calls step s as ++ calls step (collect step s as).1 bs := by
  induction as with
  | nil => exact fun s => rfl
  | cons a as ih => exact fun s => congrArg (callOf step s a :: ·) (ih (step s a).1)

/-- What holds along a run holds along its second half. -/
theorem Always.of_append {as bs : List (Call σ α β)} (h : Always P (as ++ bs)) :
    Always (fun pre k => P (as ++ pre) k) bs := by
  intro pre k post hbs
  exact h (as ++ pre) k post (by rw [hbs, List.append_assoc])

theorem calls_always_from (keep : ∀ h s a, Inv h s → Cond h (callOf step s a) →
      Inv (h ++ [callOf step s a]) (step s a).1)
    (here : ∀ h s a, Inv h s → Cond h (callOf step s a) → P h (callOf step s a)) (inputs : List α) :
    ∀ (done : List (Call σ α β)) (s : σ), Inv done s →
      Always (fun pre k => Cond (done ++ pre) k) (calls step s inputs) →
      Always (fun pre k => P (done ++ pre) k) (calls step s inputs) := by
  induction inputs with
  | nil =>
    intro done s _ _ pre k post e
    simp [calls] at e
  | cons a as ih =>
    intro done s hinv hcond pre k post e
    have hfirst : Cond done (callOf step s a) := by
      simpa using hcond [] (callOf step s a) (calls step (step s a).1 as) rfl
    cases pre with
    | nil =>
      obtain ⟨rfl, -⟩ : callOf step s a = k ∧ calls step (step s a).1 as = post := by
        simpa [calls] using e
      simpa using here done s a hinv hfirst
    | cons k₀ pre =>
      obtain ⟨rfl, erest⟩ : callOf step s a = k₀ ∧ calls step (step s a).1 as = pre ++ k :: post := by
        simpa [calls] using e
      have hrest : Always (fun pre k => Cond (done ++ [callOf step s a] ++ pre) k) (calls step (step s a).1 as) := by
        intro pre' k' post' e'
        have := hcond (callOf step s a :: pre') k' post' (by simp [calls, e'])
        simpa using this
      have := ih (done ++ [callOf step s a]) (step s a).1 (keep done s a hinv hfirst) hrest
        pre k post erest
      simpa using this

variable (Inv Cond) in
/-- An invariant that every admissible call keeps holds along every admissible run. -/
theorem calls_always (start : Inv [] s) (keep : ∀ h s a, Inv h s → Cond h (callOf step s a) →
    Inv (h ++ [callOf step s a]) (step s a).1)
    (here : ∀ h s a, Inv h s → Cond h (callOf step s a) → P h (callOf step s a)) (inputs : List α)
    (hcond : Always Cond (calls step s inputs)) : Always P (calls step s inputs) := by
  have := calls_always_from keep here inputs [] s start (by simpa using hcond)
  simpa using this

theorem input_mem_of_mem_calls : ∀ {inputs : List α} {s : σ}, k ∈ calls step s inputs → k.input ∈ inputs
  | [], _, h => by simp [calls] at h
  | a :: as, s, h => by
    rcases List.mem_cons.mp h with rfl | h
    · exact List.mem_cons_self
    · exact List.mem_cons_of_mem _ (input_mem_of_mem_calls h)

variable (Inv) in
/-- The invariant at the end of a run. -/
theorem calls_invariant (start : Inv [] s) (keep : ∀ h s a, Inv h s → Inv (h ++ [callOf step s a]) (step s a).1)
    (inputs : List α) :
    Inv (calls step s inputs) (collect step s inputs).1 := by
  have hfrom : ∀ (inputs : List α) (done : List (Call σ α β)) (s : σ), Inv done s →
      Inv (done ++ calls step s inputs) (collect step s inputs).1 := by
    intro inputs
    induction inputs with
    | nil =>
      intro done s h
      simpa [calls] using h
    | cons a as ih =>
      intro done s h
      simpa [calls] using ih (done ++ [callOf step s a]) (step s a).1 (keep done s a h)
  exact hfrom inputs [] s start

theorem calls_kept_iff {τ : Type*} (part : σ → τ) {t : τ} (ok : σ → α → Prop)
    (h : ∀ s a, part s = t → (part (step s a).1 = t ↔ ok s a)) (inputs : List α) : ∀ {s : σ}, part s = t →
      ((∀ k ∈ calls step s inputs, part k.after = t) ↔ ∀ k ∈ calls step s inputs, ok k.before k.input) := by
  induction inputs with
  | nil => simp [calls]
  | cons a as ih =>
    intro s hs
    rw [calls, List.forall_mem_cons, List.forall_mem_cons]
    refine ⟨fun ⟨hfirst, hrest⟩ => ?_, fun ⟨hfirst, hrest⟩ => ?_⟩
    · exact ⟨(h s a hs).mp hfirst, (ih hfirst).mp hrest⟩
    · have hkept : part (step s a).1 = t := (h s a hs).mpr hfirst
      exact ⟨hkept, (ih hkept).mpr hrest⟩

/-- A run that emits something has a call that does. -/
theorem exists_call_of_any {f : β → Bool} (h : cs.any (fun k => k.outputs.any f) = true) :
    ∃ pre k post x, cs = pre ++ k :: post ∧ x ∈ k.outputs ∧ f x = true := by
  obtain ⟨k, hk, hany⟩ := List.any_eq_true.mp h
  obtain ⟨x, hx, hf⟩ := List.any_eq_true.mp hany
  obtain ⟨pre, post, hcs⟩ := List.append_of_mem hk
  exact ⟨pre, k, post, x, hcs, hx, hf⟩

end EuWallet.Lib
