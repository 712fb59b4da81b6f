import EuWallet.Lib.Except
import EuWallet.X509.Path
import Mathlib.Data.List.Perm.Basic

/-! # The leaf of a bundle

The one supplied certificate that issues no other does not depend on the order of the bundle. -/

namespace EuWallet.X509

open Codec Crypto Lib

variable {child c : ParsedCert} {i : ℕ} {certs : List ParsedCert}

/-- A certificate of the bundle that is, by name, the issuer of no other one. -/
def IssuesNoOther (certs : List ParsedCert) (c : ParsedCert) : Prop :=
  c ∈ certs ∧ ∀ child ∈ certs.erase c, issuerNameMatches child c = false

theorem IssuesNoOther.perm {certs' : List ParsedCert} (h : certs.Perm certs') :
    IssuesNoOther certs c ↔ IssuesNoOther certs' c := by
  unfold IssuesNoOther
  rw [h.mem_iff]
  simp [(h.erase c).mem_iff]

theorem mem_leafIndices : i ∈ leafIndices certs ↔ ∃ c, certs[i]? = some c ∧
      ∀ j child, j ≠ i → certs[j]? = some child → issuerNameMatches child c = false := by
  simp only [leafIndices, List.mem_map, List.mem_filter, Bool.not_eq_true', List.any_eq_false,
    Prod.exists, Prod.forall, List.mk_mem_zipIdx_iff_getElem?, Bool.and_eq_true, bne_iff_ne,
    not_and, Bool.not_eq_true]
  constructor
  · rintro ⟨c, k, ⟨hk, h⟩, rfl⟩
    exact ⟨c, hk, fun j child hj hchild => h child j hchild (Ne.symm hj)⟩
  · rintro ⟨c, hi, h⟩
    exact ⟨c, i, ⟨hi, fun child j hchild hj => h j child (Ne.symm hj) hchild⟩, rfl⟩

/-- Removing a certificate by its place or by its value leaves the same certificates. -/
theorem mem_erase_iff_getElem? (hi : certs[i]? = some c) :
    child ∈ certs.erase c ↔ ∃ j, j ≠ i ∧ certs[j]? = some child := by
  obtain ⟨hlt, rfl⟩ := List.getElem?_eq_some_iff.mp hi
  have hperm : (certs.eraseIdx i).Perm (certs.erase certs[i]) :=
    (List.perm_cons certs[i]).mp
      ((List.getElem_cons_eraseIdx_perm hlt).trans (List.perm_cons_erase (List.getElem_mem hlt)))
  rw [← hperm.mem_iff, List.mem_eraseIdx_iff_getElem?]

theorem issuesNoOther_iff_mem_leafIndices (hi : certs[i]? = some c) :
    IssuesNoOther certs c ↔ i ∈ leafIndices certs := by
  rw [mem_leafIndices]
  constructor
  · rintro ⟨-, h⟩
    exact ⟨c, hi, fun j child hj hchild => h child ((mem_erase_iff_getElem? hi).mpr ⟨j, hj, hchild⟩)⟩
  · rintro ⟨c', hc', h⟩
    obtain rfl : c = c' := Option.some.inj (hi.symm.trans hc')
    refine ⟨List.mem_of_getElem? hi, fun child hchild => ?_⟩
    obtain ⟨j, hj, hchild⟩ := (mem_erase_iff_getElem? hi).mp hchild
    exact h j child hj hchild

theorem issuesNoOther_iff_eq (h : leafIndices certs = [i]) :
    ∃ leaf, certs[i]? = some leaf ∧ ∀ c, IssuesNoOther certs c ↔ c = leaf := by
  obtain ⟨leaf, hi, -⟩ := mem_leafIndices.mp (h ▸ List.mem_singleton_self i)
  refine ⟨leaf, hi, fun c => ⟨fun hc => ?_, ?_⟩⟩
  · obtain ⟨k, hk⟩ := List.mem_iff_getElem?.mp hc.1
    have hmem := (issuesNoOther_iff_mem_leafIndices hk).mp hc
    rw [h, List.mem_singleton] at hmem
    subst hmem
    exact Option.some.inj (hk.symm.trans hi)
  · rintro rfl
    exact (issuesNoOther_iff_mem_leafIndices hi).mpr (h ▸ List.mem_singleton_self i)

end EuWallet.X509
