import Mathlib.Data.List.Sort
import Mathlib.Order.RelClasses

/-! # Ordered association lists

A finite map is a list of key-value pairs in key order. `insert` replaces the value of a key that is
present; lookup is `List.lookup`. `lookup_insert` says what an
insertion changes, `lookup_erase` what a removal does, and `insert_sorted` that the order is kept. -/

namespace EuWallet.Lib.OrdMap

variable {κ ν : Type*} [DecidableEq κ] [LT κ] [DecidableLT κ] {m : List (κ × ν)} {k : κ}

/-- Insert a binding, replacing the old one of the same key. -/
def insert (k : κ) (v : ν) : List (κ × ν) → List (κ × ν)
  | [] => [(k, v)]
  | (k', v') :: m =>
    if k < k' then (k, v) :: (k', v') :: m
    else if k = k' then (k, v) :: m
    else (k', v') :: insert k v m

omit [LT κ] [DecidableLT κ] in
/-- Remove the binding of a key. -/
def erase (k : κ) (m : List (κ × ν)) : List (κ × ν) := m.filter (·.1 ≠ k)

/-! ### Lookup -/

omit [LT κ] [DecidableLT κ] in
theorem lookup_cons_eq_ite (k k₁ : κ) (v : ν) (m : List (κ × ν)) :
    ((k₁, v) :: m).lookup k = if k = k₁ then some v else m.lookup k := by
  by_cases h : k = k₁
  · simp [h]
  · simp [List.lookup_cons, beq_false_of_ne h, h]

theorem lookup_insert (k k' : κ) (v : ν) (m : List (κ × ν)) :
    (insert k v m).lookup k' = if k' = k then some v else m.lookup k' := by
  induction m with
  | nil => exact lookup_cons_eq_ite k' k v []
  | cons kv m ih =>
    obtain ⟨k₁, v₁⟩ := kv
    unfold insert
    by_cases hlt : k < k₁
    · rw [if_pos hlt, lookup_cons_eq_ite]
    rw [if_neg hlt]
    by_cases heq : k = k₁
    · subst heq
      rw [if_pos rfl]
      simp only [lookup_cons_eq_ite]
      split_ifs <;> rfl
    · rw [if_neg heq]
      grind

omit [LT κ] [DecidableLT κ] in
theorem lookup_erase (k k' : κ) (m : List (κ × ν)) :
    (erase k m).lookup k' = if k' = k then none else m.lookup k' := by
  induction m with
  | nil => simp [erase]
  | cons kv m ih =>
    obtain ⟨k₁, v₁⟩ := kv
    unfold erase at ih ⊢
    rw [List.filter_cons]
    split_ifs with h₁ hk hk <;> simp only [lookup_cons_eq_ite, ih] <;> grind

omit [LT κ] [DecidableLT κ] in
theorem lookup_eq_none : m.lookup k = none ↔ k ∉ m.map Prod.fst := by
  induction m with
  | nil => simp
  | cons kv m ih =>
    rw [lookup_cons_eq_ite, List.map_cons, List.mem_cons, not_or]
    split_ifs with h
    · simp [h]
    · simp [h, ih]

omit [LT κ] [DecidableLT κ] in
theorem mem_of_lookup {v : ν} (h : m.lookup k = some v) : (k, v) ∈ m := by
  induction m with
  | nil => cases h
  | cons kv m ih =>
    rw [lookup_cons_eq_ite] at h
    split_ifs at h with hk
    · cases h
      simp [hk]
    · exact List.mem_cons_of_mem _ (ih h)

theorem insert_perm {v : ν} (h : m.lookup k = none) : (insert k v m).Perm ((k, v) :: m) := by
  induction m with
  | nil => rfl
  | cons kv m ih =>
    rw [lookup_cons_eq_ite] at h
    split_ifs at h with hk
    unfold insert
    split_ifs
    · rfl
    · exact ((ih h).cons kv).trans (.swap _ _ _)

variable {v : ν}

theorem mem_keys_insert {k' : κ} (h : k' ∈ (insert k v m).map Prod.fst) : k' = k ∨ k' ∈ m.map Prod.fst := by
  induction m with
  | nil => simpa [insert] using h
  | cons kv m ih =>
    unfold insert at h
    split_ifs at h with hlt heq
    · simpa using h
    · subst heq
      tauto
    · rw [List.map_cons, List.mem_cons] at h
      rcases h with h | h
      · simp [h]
      · rcases ih h with h | h <;> simp [h]

omit [DecidableLT κ] in
/-- In a map in key order a binding is the one of its key. -/
theorem lookup_of_mem [Std.Irrefl (α := κ) (· < ·)] (h : (m.map Prod.fst).Pairwise (· < ·)) (hmem : (k, v) ∈ m) :
    m.lookup k = some v := by
  induction m with
  | nil => cases hmem
  | cons kv m ih =>
    rw [List.map_cons, List.pairwise_cons] at h
    rw [lookup_cons_eq_ite]
    rcases List.mem_cons.mp hmem with rfl | hmem
    · exact if_pos rfl
    · have hlt : kv.1 < k := h.1 k (List.mem_map_of_mem hmem)
      rw [if_neg (by rintro rfl; exact Std.Irrefl.irrefl _ hlt)]
      exact ih h.2 hmem

theorem insert_sorted [IsStrictTotalOrder κ (· < ·)] (h : (m.map Prod.fst).Pairwise (· < ·)) :
    ((insert k v m).map Prod.fst).Pairwise (· < ·) := by
  induction m with
  | nil => simp [insert]
  | cons kv m ih =>
    rw [List.map_cons, List.pairwise_cons] at h
    unfold insert
    split_ifs with hlt heq
    · simp only [List.map_cons, List.pairwise_cons, List.mem_cons, forall_eq_or_imp]
      exact ⟨⟨hlt, fun x hx => trans_of (· < ·) hlt (h.1 x hx)⟩, h.1, h.2⟩
    · subst heq
      exact List.pairwise_cons.mpr h
    · rw [List.map_cons, List.pairwise_cons]
      refine ⟨fun x hx => ?_, ih h.2⟩
      rcases mem_keys_insert hx with rfl | hx
      · exact ((trichotomous_of (· < ·) x kv.1).resolve_left hlt).resolve_left heq
      · exact h.1 x hx

end EuWallet.Lib.OrdMap
