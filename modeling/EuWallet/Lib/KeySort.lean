import Mathlib.Data.List.Pairwise
import Mathlib.Data.List.Sort

/-! # Sorting by a key without repetitions

`sortBy key` sorts by a key, `keepFirst key` keeps the first element of each group with one key, and
`dropRepeats key` drops an element whose key is that of the element before it. Sorting and then dropping
repetitions is keeping the first ones and then sorting (`dropRepeats_sortBy`), because the sort is
stable. -/

namespace EuWallet.Lib.KeySort

variable {α β κ : Type*} [LE κ] [DecidableLE κ] [DecidableEq κ]

def sortBy (key : α → κ) (l : List α) : List α := l.insertionSort fun a b => key a ≤ key b

omit [LE κ] [DecidableLE κ] in
def keepFirst (key : α → κ) : List α → List α
  | [] => []
  | a :: l => a :: (keepFirst key l).filter (key · ≠ key a)

omit [LE κ] [DecidableLE κ] in
def dropRepeats (key : α → κ) (last : Option κ) : List α → List α
  | [] => []
  | a :: l =>
    if last = some (key a) then dropRepeats key last l else a :: dropRepeats key (some (key a)) l

section Map
variable {key : β → κ} {f : α → β}

omit [LE κ] [DecidableLE κ] in
theorem keepFirst_map (l : List α) : keepFirst key (l.map f) = (keepFirst (key ∘ f) l).map f := by
  induction l with
  | nil => rfl
  | cons a l ih =>
    simp only [List.map_cons, keepFirst, ih, List.filter_map]
    rfl

omit [DecidableEq κ] in
theorem sortBy_map (l : List α) : sortBy key (l.map f) = (sortBy (key ∘ f) l).map f :=
  (List.map_insertionSort _ _ f l fun _ _ _ _ => Iff.rfl).symm

end Map

variable {key : α → κ} {l : List α} {a : α}

omit [DecidableEq κ] in
theorem length_sortBy (key : α → κ) (l : List α) : (sortBy key l).length = l.length :=
  List.length_insertionSort _ l

omit [DecidableEq κ] in
theorem mem_sortBy : a ∈ sortBy key l ↔ a ∈ l := List.mem_insertionSort _

omit [LE κ] [DecidableLE κ] in
theorem mem_of_mem_keepFirst (h : a ∈ keepFirst key l) : a ∈ l := by
  induction l with
  | nil => exact h
  | cons b l ih =>
    rcases List.mem_cons.mp h with rfl | h
    · exact List.mem_cons_self
    · exact List.mem_cons_of_mem b (ih (List.mem_of_mem_filter h))

omit [LE κ] [DecidableLE κ] in
theorem length_keepFirst_le (key : α → κ) (l : List α) : (keepFirst key l).length ≤ l.length := by
  induction l with
  | nil => exact le_refl _
  | cons a l ih => exact Nat.succ_le_succ ((List.length_filter_le _ _).trans ih)

omit [LE κ] [DecidableLE κ] in
theorem nodup_keepFirst (key : α → κ) (l : List α) : (keepFirst key l).Pairwise fun a b => key a ≠ key b := by
  induction l with
  | nil => exact .nil
  | cons a l ih =>
    refine List.pairwise_cons.mpr ⟨fun b hb => ?_, ih.filter _⟩
    have := (List.mem_filter.mp hb).2
    exact fun h => (of_decide_eq_true this) h.symm

omit [LE κ] [DecidableLE κ] in
theorem keepFirst_eq_self (h : l.Pairwise fun a b => key a ≠ key b) : keepFirst key l = l := by
  induction l with
  | nil => rfl
  | cons a l ih =>
    obtain ⟨hfirst, hrest⟩ := List.pairwise_cons.mp h
    rw [keepFirst, ih hrest, List.filter_eq_self.mpr fun b hb => ?_]
    exact decide_eq_true fun heq => hfirst b hb heq.symm

omit [DecidableEq κ] in
theorem sortBy_eq_self (h : l.Pairwise fun a b => key a ≤ key b) : sortBy key l = l :=
  h.insertionSort_eq

variable [Std.IsLinearOrder κ] {last : Option κ}

omit [DecidableEq κ] in
theorem pairwise_sortBy (key : α → κ) (l : List α) : (sortBy key l).Pairwise fun a b => key a ≤ key b := by
  exact List.pairwise_insertionSort _ l

omit [DecidableEq κ] in
theorem sortBy_filter (P : α → Bool) (h : l.Pairwise fun a b => key a ≠ key b) :
    sortBy key (l.filter P) = (sortBy key l).filter P := by
  have hperm : (sortBy key l).Perm l := List.perm_insertionSort _ l
  have hperm' : (sortBy key (l.filter P)).Perm (l.filter P) := List.perm_insertionSort _ _
  refine List.Perm.eq_of_pairwise (fun a b ha hb hab hba => ?_) (pairwise_sortBy key _)
    ((pairwise_sortBy key l).filter P) (hperm'.trans (hperm.filter P).symm)
  have hkey : key a = key b := Std.le_antisymm hab hba
  have ha : a ∈ l := List.mem_of_mem_filter (mem_sortBy.mp ha)
  have hb : b ∈ l := mem_sortBy.mp (List.mem_of_mem_filter hb)
  have : Std.Symm fun a b => key a ≠ key b := ⟨fun _ _ h h' => h h'.symm⟩
  by_contra hne
  exact h.forall ha hb hne hkey

omit [LE κ] [DecidableLE κ] [Std.IsLinearOrder κ] in
theorem mem_of_mem_dropRepeats (h : a ∈ dropRepeats key last l) : a ∈ l := by
  induction l generalizing last with
  | nil => exact h
  | cons b l ih =>
    simp only [dropRepeats] at h
    split_ifs at h
    · exact List.mem_cons_of_mem b (ih h)
    · rcases List.mem_cons.mp h with rfl | h
      · exact List.mem_cons_self
      · exact List.mem_cons_of_mem b (ih h)

omit [DecidableLE κ] in
theorem dropRepeats_some {k : κ} (hsorted : l.Pairwise fun a b => key a ≤ key b) (hle : ∀ a ∈ l, k ≤ key a) :
    dropRepeats key (some k) l = (dropRepeats key none l).filter (key · ≠ k) := by
  induction l generalizing k with
  | nil => rfl
  | cons a l ih =>
    obtain ⟨hfirst, hrest⟩ := List.pairwise_cons.mp hsorted
    by_cases hk : k = key a
    · subst hk
      simp only [dropRepeats, reduceCtorEq, if_true, if_false]
      rw [List.filter_cons_of_neg (by simp), ih hrest hfirst, List.filter_filter]
      simp
    · simp only [dropRepeats, Option.some.injEq, hk, reduceCtorEq, if_false]
      rw [List.filter_cons_of_pos (by simpa using Ne.symm hk), List.filter_eq_self.mpr]
      intro b hb
      have hab := hfirst b (mem_of_mem_dropRepeats hb)
      have hka := hle a List.mem_cons_self
      exact decide_eq_true fun hbk => hk (Std.le_antisymm hka (hbk ▸ hab))

/-- Dropping repetitions after an insertion. -/
theorem dropRepeats_orderedInsert (hsorted : l.Pairwise fun a b => key a ≤ key b)
    (hlast : ∀ k, last = some k → k ≤ key a ∧ k ≠ key a) :
    dropRepeats key last (l.orderedInsert (fun a b => key a ≤ key b) a) =
      ((dropRepeats key last l).filter (key · ≠ key a)).orderedInsert (fun a b => key a ≤ key b) a := by
  have hne : last ≠ some (key a) := fun h => (hlast _ h).2 rfl
  induction l generalizing last with
  | nil => simp [dropRepeats, hne]
  | cons b l ih =>
    obtain ⟨hfirst, hrest⟩ := List.pairwise_cons.mp hsorted
    rw [List.orderedInsert_cons]
    by_cases hab : key a ≤ key b
    · -- the new element comes first: what follows it is what is left without its key
      rw [if_pos hab, dropRepeats, if_neg hne]
      have hle : ∀ c ∈ b :: l, key a ≤ key c := by
        intro c hc
        rcases List.mem_cons.mp hc with rfl | hc
        · exact hab
        · exact Std.le_trans hab (hfirst c hc)
      have hnone : dropRepeats key last (b :: l) = dropRepeats key none (b :: l) := by
        have hb : last ≠ some (key b) := fun h =>
          (hlast _ h).2 (Std.le_antisymm (hlast _ h).1 hab)
        simp [dropRepeats, hb]
      rw [dropRepeats_some hsorted hle, hnone]
      generalize hrest' : (dropRepeats key none (b :: l)).filter (key · ≠ key a) = rest
      cases rest with
      | nil => rfl
      | cons c rest =>
        have hc : c ∈ (dropRepeats key none (b :: l)).filter (key · ≠ key a) := by
          rw [hrest']
          exact List.mem_cons_self
        rw [List.orderedInsert_cons, if_pos (hle c (mem_of_mem_dropRepeats (List.mem_of_mem_filter hc)))]
    · have hba : key b ≤ key a := (Std.le_total).resolve_left hab
      have hbne : key b ≠ key a := fun h => hab (h ▸ hba)
      rw [if_neg hab]
      by_cases hb : last = some (key b)
      · rw [dropRepeats, if_pos hb, ih hrest hlast hne, dropRepeats, if_pos hb]
      · rw [dropRepeats, if_neg hb, dropRepeats, if_neg hb, List.filter_cons_of_pos (by simpa using hbne),
          List.orderedInsert_cons, if_neg hab]
        refine congrArg _ (ih hrest (fun k hk => ?_) fun hk => hbne (Option.some.inj hk))
        obtain rfl := Option.some.inj hk
        exact ⟨hba, hbne⟩

theorem dropRepeats_sortBy (key : α → κ) (l : List α) :
    dropRepeats key none (sortBy key l) = sortBy key (keepFirst key l) := by
  induction l with
  | nil => rfl
  | cons a l ih =>
    have hcons : sortBy key (a :: l) = (sortBy key l).orderedInsert (fun a b => key a ≤ key b) a := rfl
    rw [hcons, dropRepeats_orderedInsert (pairwise_sortBy key l) (by simp), ih,
      ← sortBy_filter _ (nodup_keepFirst key l)]
    rfl

theorem pairwise_lt_sortBy [LT κ] [Std.LawfulOrderLT κ] (key : α → κ) (l : List α) :
    (sortBy key (keepFirst key l)).Pairwise fun a b => key a < key b := by
  have hperm : (sortBy key (keepFirst key l)).Perm (keepFirst key l) := List.perm_insertionSort _ _
  have hne : (sortBy key (keepFirst key l)).Pairwise fun a b => key a ≠ key b :=
    hperm.symm.pairwise (nodup_keepFirst key l) fun {_ _} h h' => h h'.symm
  exact (pairwise_sortBy key _).imp₂ (fun _ _ hle hne => Std.lt_of_le_of_ne hle hne) hne

omit [Std.IsLinearOrder κ] in
theorem sortBy_keepFirst_eq_self [LT κ] [Std.LawfulOrderLT κ]
    (h : l.Pairwise fun a b => key a < key b) : sortBy key (keepFirst key l) = l := by
  rw [keepFirst_eq_self (h.imp fun hlt => Std.ne_of_lt hlt), sortBy_eq_self (h.imp fun hlt => Std.le_of_lt hlt)]

end EuWallet.Lib.KeySort
