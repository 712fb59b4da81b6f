import EuWallet.Wallet.Evidence
import EuWallet.X509.NameConstraints

/-! # Labels of mdoc elements

The consent screen names an mdoc element by its namespace, a dot and its identifier, followed by a mark if it will be
retained. The relying party chooses both texts, so two elements may share a name, and an identifier may end like the
mark. `labelledApart_iff` says for which claims the labels tell the elements apart. -/

namespace EuWallet.Wallet

open Codec Protocol Wallet.Core X509

/-- The elements that claims ask for, and whether each will be retained. -/
def askedElements (claims : List ClaimQuery) : List ((String × String) × Bool) :=
  claims.filterMap fun claim => (requestedMdocPath claim.path).map (·, decide (claim.intentToRetain = some true))

def elementText (path : String × String) : String := path.1 ++ "." ++ path.2

/-- `mdocClaimLabel` as a function of the element and the mark. -/
def askedLabel (asked : (String × String) × Bool) : String :=
  if asked.2 then elementText asked.1 ++ " [retained]" else elementText asked.1

/-- What claims need that are asked for together, by one query or by all mdoc queries of a presentation: the screen has
an entry for every element, however the claims are spread over credentials, and its lists take every label for its
element. -/
structure LabelledApart (asked : List ClaimQuery) : Prop where
  separate : ∀ a ∈ askedElements asked, ∀ b ∈ askedElements asked, askedLabel a = askedLabel b → a = b
  entries : ∀ prepared : List (List ClaimQuery × List (String × String)),
    (∀ x ∈ prepared, x.1 ⊆ asked ∧ x.1.mapM (fun claim => requestedMdocPath claim.path) = some x.2) →
      ((prepared.flatMap fun x => List.zipWith mdocClaimLabel x.2 x.1).foldl pushNew []).length =
        ((prepared.flatMap fun x => askedElements x.1).foldl pushNew []).length
  classified : ∀ a ∈ askedElements asked, ∀ b ∈ askedElements asked,
    unretained (askedLabel a) = elementText b.1 ↔ a.1 = b.1

/-- No dot can be moved from one element's identifier into its namespace to give another, and no identifier that is
not retained ends with the mark. -/
structure Unambiguous (asked : List ClaimQuery) : Prop where
  dots : ∀ a ∈ askedElements asked, ∀ b ∈ askedElements asked, ∀ middle,
    a.1.1.toList = b.1.1.toList ++ '.' :: middle → b.1.2.toList ≠ middle ++ '.' :: a.1.2.toList
  marks : ∀ a ∈ askedElements asked, a.2 = false → ¬ " [retained]".toList <:+ a.1.2.toList

section Labels
variable {a b : (String × String) × Bool}

theorem toList_elementText (path : String × String) :
    (elementText path).toList = path.1.toList ++ '.' :: path.2.toList := by
  simp [elementText, String.toList_append]

/-- The mark has no dot, so it can only be the end of the identifier. -/
theorem suffix_elementText_iff {path : String × String} :
    " [retained]".toList <:+ (elementText path).toList ↔ " [retained]".toList <:+ path.2.toList := by
  rw [toList_elementText]
  have hdot : '.' ∉ " [retained]".toList := by decide
  constructor
  · intro h
    rcases List.suffix_or_suffix_of_suffix h (List.suffix_append _ ('.' :: path.2.toList)) with h | h
    · rcases List.suffix_cons_iff.mp h with h | h
      · exact absurd (h ▸ List.mem_cons_self) hdot
      · exact h
    · exact absurd (h.subset List.mem_cons_self) hdot
  · rintro ⟨front, h⟩
    exact ⟨path.1.toList ++ '.' :: front, by rw [← h]; simp⟩

theorem unretained_askedLabel :
    unretained (askedLabel a) = elementText a.1 ↔ a.2 = true ∨ ¬ " [retained]".toList <:+ a.1.2.toList := by
  obtain ⟨path, retained⟩ := a
  cases retained with
  | true =>
    have hstrip : stripEnd " [retained]" (elementText path ++ " [retained]") = some (elementText path) :=
      stripEnd_eq_some.mpr String.toList_append
    simp [unretained, askedLabel, hstrip]
  | false =>
    rw [← suffix_elementText_iff]
    simp only [unretained, askedLabel, Bool.false_eq_true, if_false, false_or]
    cases hstrip : stripEnd " [retained]" (elementText path) with
    | none =>
      refine iff_of_true rfl fun ⟨front, h⟩ => ?_
      have hsome : stripEnd " [retained]" (elementText path) = some (String.ofList front) := by
        rw [stripEnd_eq_some, String.toList_ofList, h]
      cases hstrip.symm.trans hsome
    | some front =>
      have htext := stripEnd_eq_some.mp hstrip
      refine iff_of_false (fun h => ?_) fun h => h ⟨_, htext.symm⟩
      rw [← show front = elementText path from h] at htext
      simpa using congrArg List.length htext

theorem elementText_inj (hdots : ∀ middle, a.1.1.toList = b.1.1.toList ++ '.' :: middle →
      b.1.2.toList ≠ middle ++ '.' :: a.1.2.toList) (hdots' : ∀ middle, b.1.1.toList = a.1.1.toList ++ '.' :: middle →
      a.1.2.toList ≠ middle ++ '.' :: b.1.2.toList) (h : elementText a.1 = elementText b.1) : a.1 = b.1 := by
  have htext := congrArg String.toList h
  rw [toList_elementText, toList_elementText] at htext
  rcases List.append_eq_append_iff.mp htext with ⟨m, hns, hid⟩ | ⟨m, hns, hid⟩
  · rcases m with _ | ⟨c, m⟩
    · rw [List.append_nil] at hns
      exact Prod.ext (String.toList_inj.mp hns.symm) (String.toList_inj.mp (List.cons.inj hid).2)
    · obtain rfl := (List.cons.inj hid).1
      exact absurd (List.cons.inj hid).2 (hdots' m hns)
  · rcases m with _ | ⟨c, m⟩
    · rw [List.append_nil] at hns
      exact Prod.ext (String.toList_inj.mp hns) (String.toList_inj.mp (List.cons.inj hid).2.symm)
    · obtain rfl := (List.cons.inj hid).1
      exact absurd (List.cons.inj hid).2 (hdots m hns)

theorem zipWith_mdocClaimLabel : ∀ {claims : List ClaimQuery} {paths : List (String × String)},
    claims.mapM (fun claim => requestedMdocPath claim.path) = some paths →
      List.zipWith mdocClaimLabel paths claims = (askedElements claims).map askedLabel
  | [], paths, h => by simp [askedElements]
  | claim :: claims, paths, h => by
    simp only [List.mapM_cons, Option.bind_eq_bind, Option.bind_eq_some_iff, Option.pure_def, Option.some.injEq] at h
    obtain ⟨path, hpath, rest, hrest, rfl⟩ := h
    simp only [askedElements, List.filterMap_cons, hpath, Option.map_some, List.zipWith_cons_cons, List.map_cons]
    refine congrArg₂ _ ?_ (zipWith_mdocClaimLabel hrest)
    simp [mdocClaimLabel, askedLabel, elementText]

/-- **The labels tell the elements apart** exactly when the claims are unambiguous. -/
theorem labelledApart_iff (asked : List ClaimQuery) : LabelledApart asked ↔ Unambiguous asked := by
  constructor
  · refine fun h => ⟨fun a ha b hb middle hns hid => ?_, fun a ha hunmarked hsuffix => ?_⟩
    · have htext : elementText a.1 = elementText b.1 := by
        rw [← String.toList_inj, toList_elementText, toList_elementText, hns, hid]
        simp
      have hsame : a.1 = b.1 := (h.classified a ha b hb).mp ?_
      · have hlength := congrArg List.length hns
        simp [hsame] at hlength
      · rw [(h.classified a ha a ha).mpr rfl, htext]
    · rcases unretained_askedLabel.mp ((h.classified a ha a ha).mpr rfl) with hmarked | hfree
      · cases hunmarked.symm.trans hmarked
      · exact hfree hsuffix
  · intro h
    have htext : ∀ a ∈ askedElements asked, unretained (askedLabel a) = elementText a.1 := by
      intro a ha
      refine unretained_askedLabel.mpr ?_
      cases hretained : a.2 with
      | true => exact .inl rfl
      | false => exact .inr (h.marks a ha hretained)
    have hinj : ∀ a ∈ askedElements asked, ∀ b ∈ askedElements asked,
        elementText a.1 = elementText b.1 → a.1 = b.1 :=
      fun a ha b hb => elementText_inj (h.dots a ha b hb) (h.dots b hb a ha)
    have hseparate : ∀ a ∈ askedElements asked, ∀ b ∈ askedElements asked, askedLabel a = askedLabel b → a = b := by
      intro a ha b hb hlabel
      have hpath := hinj a ha b hb (by rw [← htext a ha, ← htext b hb, hlabel])
      refine Prod.ext hpath ?_
      have hlength := congrArg String.length hlabel
      unfold askedLabel at hlength
      rw [hpath] at hlength
      cases ha2 : a.2 <;> cases hb2 : b.2 <;> simp [ha2, hb2] at hlength ⊢
    refine ⟨hseparate, fun prepared hprepared => ?_, fun a ha b hb => ?_⟩
    · have hlabels : (prepared.flatMap fun x => List.zipWith mdocClaimLabel x.2 x.1) =
          (prepared.flatMap fun x => askedElements x.1).map askedLabel := by
        rw [List.map_flatMap]
        exact List.flatMap_congr fun x hx => zipWith_mdocClaimLabel (hprepared x hx).2
      rw [hlabels]
      generalize helements : (prepared.flatMap fun x => askedElements x.1) = elements
      have hasked : ∀ a ∈ elements, a ∈ askedElements asked := by
        intro a ha
        rw [← helements] at ha
        obtain ⟨x, hx, ha⟩ := List.mem_flatMap.mp ha
        obtain ⟨claim, hclaim, hpath⟩ := List.mem_filterMap.mp ha
        exact List.mem_filterMap.mpr ⟨claim, (hprepared x hx).1 hclaim, hpath⟩
      have hmap := foldl_pushNew_map elements [] fun a ha b hb => hseparate a (hasked a ha) b (hasked b hb)
      rw [← List.length_map askedLabel, ← hmap, List.map_nil]
    · rw [htext a ha]
      exact ⟨hinj a ha b hb, fun h => by rw [h]⟩

end Labels

/-- Two elements of which one has a dot more in its namespace and one less in its identifier. -/
def ambiguousQuery : Json := .obj [("credentials", .arr [.obj [
  ("claims", .arr [.obj [("path", .arr [.str "a.b", .str "c"])], .obj [("path", .arr [.str "a", .str "b.c"])]]),
  ("format", .str "mso_mdoc"), ("id", .str "q"), ("meta", .obj [("doctype_value", .str "d")])]])]

/-- The query is accepted, and both of its elements are labelled `a.b.c`. -/
theorem ambiguousQuery_not_labelledApart : ∃ query q, DcqlQuery.fromValue ambiguousQuery = some query ∧
    q ∈ query.credentials ∧ q.format = "mso_mdoc" ∧ ¬ LabelledApart q.claims := by
  refine ⟨_, _, rfl, List.mem_singleton_self _, rfl, fun h => ?_⟩
  have hsame := h.separate (("a.b", "c"), false) (by decide) (("a", "b.c"), false) (by decide) (by decide)
  exact absurd hsame (by decide)

end EuWallet.Wallet
