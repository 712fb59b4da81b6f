import Mathlib.Data.List.Forall2

/-! # What a history holds since its last beginning

`Trail begins quiet phases history` says of a history, oldest event first: one of its events begins the
story, every event after it is quiet, and among these there is one for each of the phases, in their order.
A history is extended at its end, so a trail is begun, kept or advanced by one phase with each event. -/

namespace EuWallet.Lib

universe u

variable {κ : Type u}

/-- The history since its last beginning goes through the phases. -/
def Trail (begins quiet : κ → Prop) (phases : List (κ → Prop)) (history : List κ) : Prop :=
  ∃ older first newer marks, history = older ++ first :: newer ∧ begins first ∧
    (∀ k ∈ newer, quiet k) ∧ marks.Sublist newer ∧ List.Forall₂ (fun phase k => phase k) phases marks

variable {begins quiet phase : κ → Prop} {phases : List (κ → Prop)} {history : List κ} {k : κ}

theorem Trail.begin (h : begins k) : Trail begins quiet [] (history ++ [k]) :=
  ⟨history, k, [], [], rfl, h, by simp, .slnil, .nil⟩

theorem Trail.keep (h : Trail begins quiet phases history) (hquiet : quiet k) :
    Trail begins quiet phases (history ++ [k]) := by
  obtain ⟨older, first, newer, marks, rfl, hbegins, hnewer, hmarks, hphases⟩ := h
  refine ⟨older, first, newer ++ [k], marks, by simp, hbegins, ?_, ?_, hphases⟩
  · exact List.forall_mem_append.mpr ⟨hnewer, List.forall_mem_singleton.mpr hquiet⟩
  · exact hmarks.trans (List.sublist_append_left _ _)

theorem Trail.advance (h : Trail begins quiet phases history) (hquiet : quiet k) (hphase : phase k) :
    Trail begins quiet (phases ++ [phase]) (history ++ [k]) := by
  obtain ⟨older, first, newer, marks, rfl, hbegins, hnewer, hmarks, hphases⟩ := h
  refine ⟨older, first, newer ++ [k], marks ++ [k], by simp, hbegins, ?_, ?_, ?_⟩
  · exact List.forall_mem_append.mpr ⟨hnewer, List.forall_mem_singleton.mpr hquiet⟩
  · exact hmarks.append (List.Sublist.refl _)
  · exact List.rel_append hphases (.cons hphase .nil)

end EuWallet.Lib
