import Mathlib.Data.Set.Prod

/-! # Encodings that can be read back

An encoding *splits* on a set of values if it can be split off the front of any longer list in one way
only. Fixed-width encodings split, so do length-prefixed ones, and a sequence of encodings that split
splits. -/

namespace EuWallet.Lib

universe u v

variable {α : Type u} {β : Type v} {γ : Type*} {S : Set α} {T : Set γ} {f : α → List β} {g : γ → List β}
  {count : ℕ → List β}

/-- Two lists that start with encodings of values of `S` and are equal start with the same value. -/
def SplitsOn (S : Set α) (f : α → List β) : Prop :=
  ∀ a ∈ S, ∀ b ∈ S, ∀ s t, f a ++ s = f b ++ t → a = b ∧ s = t

theorem SplitsOn.of_width (width : ℕ) (hwidth : ∀ a ∈ S, (f a).length = width) (hinj : Set.InjOn f S) :
    SplitsOn S f := by
  intro a ha b hb s t h
  obtain ⟨hab, hst⟩ := List.append_inj h (by rw [hwidth a ha, hwidth b hb])
  exact ⟨hinj ha hb hab, hst⟩

/-- A list behind its length. -/
theorem SplitsOn.of_length {N : Set ℕ} (hcount : SplitsOn N count) :
    SplitsOn {l : List β | l.length ∈ N} fun l => count l.length ++ l := by
  intro a ha b hb s t h
  rw [List.append_assoc, List.append_assoc] at h
  obtain ⟨hlength, hrest⟩ := hcount _ ha _ hb _ _ h
  exact List.append_inj hrest hlength

/-- The encoding of a value through an injective view of it. -/
theorem SplitsOn.comp {g : γ → α} (hf : SplitsOn S f)
    (hmaps : Set.MapsTo g T S) (hinj : Set.InjOn g T) : SplitsOn T fun c => f (g c) := by
  intro a ha b hb s t h
  obtain ⟨hab, hst⟩ := hf _ (hmaps ha) _ (hmaps hb) s t h
  exact ⟨hinj ha hb hab, hst⟩

/-- Sequences of one length, encoded one after the other. -/
theorem SplitsOn.flatMap (hf : SplitsOn S f) : ∀ {xs ys : List α}, xs.length = ys.length →
    (∀ x ∈ xs, x ∈ S) → (∀ y ∈ ys, y ∈ S) → ∀ {s t : List β}, xs.flatMap f ++ s = ys.flatMap f ++ t → xs = ys ∧ s = t
  | [], [], _, _, _, s, t, h => by simpa using h
  | x :: xs, y :: ys, hlength, hx, hy, s, t, h => by
    rw [List.flatMap_cons, List.flatMap_cons, List.append_assoc, List.append_assoc] at h
    obtain ⟨rfl, hrest⟩ := hf x (hx x List.mem_cons_self) y (hy y List.mem_cons_self) _ _ h
    obtain ⟨rfl, hst⟩ := hf.flatMap (by simpa using hlength)
      (fun z hz => hx z (List.mem_cons_of_mem _ hz)) (fun z hz => hy z (List.mem_cons_of_mem _ hz)) hrest
    exact ⟨rfl, hst⟩

/-- One encoding after another. -/
theorem SplitsOn.prod (hf : SplitsOn S f) (hg : SplitsOn T g) : SplitsOn (S ×ˢ T) fun x => f x.1 ++ g x.2 := by
  intro a ha b hb s t h
  rw [List.append_assoc, List.append_assoc] at h
  obtain ⟨hfirst, h⟩ := hf _ ha.1 _ hb.1 _ _ h
  obtain ⟨hsecond, h⟩ := hg _ ha.2 _ hb.2 _ _ h
  exact ⟨Prod.ext hfirst hsecond, h⟩

/-- A value that may be absent, behind a mark that tells. -/
theorem SplitsOn.option (hf : SplitsOn S f) (absent present : β) (hne : absent ≠ present) :
    SplitsOn {o : Option α | ∀ a ∈ o, a ∈ S} fun o => o.elim [absent] fun a => present :: f a := by
  rintro (_ | a) ha (_ | b) hb s t h
  · exact ⟨rfl, (List.cons.inj h).2⟩
  · exact absurd (List.cons.inj h).1 hne
  · exact absurd (List.cons.inj h).1.symm hne
  · obtain ⟨rfl, hst⟩ := hf a (ha a rfl) b (hb b rfl) s t (List.cons.inj h).2
    exact ⟨rfl, hst⟩

/-- Encodings behind their number. -/
theorem SplitsOn.counted {N : Set ℕ} (hcount : SplitsOn N count) (hf : SplitsOn S f) :
    SplitsOn {l : List α | l.length ∈ N ∧ ∀ a ∈ l, a ∈ S} fun l => count l.length ++ l.flatMap f := by
  intro a ha b hb s t h
  rw [List.append_assoc, List.append_assoc] at h
  obtain ⟨hlength, h⟩ := hcount _ ha.1 _ hb.1 _ _ h
  exact hf.flatMap hlength ha.2 hb.2 h

/-- The encoding of a whole list is injective. -/
theorem SplitsOn.injOn (hf : SplitsOn S f) : Set.InjOn f S := fun a ha b hb h =>
  (hf a ha b hb [] [] (by rw [h])).1

end EuWallet.Lib
