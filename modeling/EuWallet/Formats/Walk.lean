import EuWallet.Formats.Opening
import EuWallet.Formats.Pruning

/-! # The walk over the payload

What `process_value` records and returns, and what it returns once more when some of the disclosures are
missing. If the parents of those that are left are left too, the second walk goes the way of the first one,
except that it passes over the missing disclosures, and returns the value of the first one without theirs
(`Sound`). Both are shown together, loop by loop and then by induction on the depth. -/

namespace EuWallet.Formats

open Codec Crypto Lib

namespace DisclosureProcessor

variable {p : Platform} {walk : Walk} {path : ClaimPath} {parent : Option String}
  {s s' t : DisclosureProcessor} {keep : String → Bool} {drop : ClaimPath → Bool}

/-! ### Two walks -/

/-- The walk with fewer disclosures has met, used and paid for no more than the other. -/
structure Follows (keep : String → Bool) (s t : DisclosureProcessor) : Prop where
  index : ∀ digest, t.disclosureByDigest.lookup digest =
    if keep digest then s.disclosureByDigest.lookup digest else none
  used : t.usedDisclosures = s.usedDisclosures.filter keep
  encountered : t.encounteredDigests.Sublist s.encounteredDigests
  budget : t.outputBudget ≤ s.outputBudget

/-- The disclosures that are kept have parents that are kept. -/
def Closed (keep : String → Bool) (new : List VerifiedDisclosure) : Prop :=
  ∀ r ∈ new, keep r.digest = true → ∀ digest, r.parentDigest = some digest → keep digest = true

variable {new more : List VerifiedDisclosure} {digest : String} {value : Json}
    {r : VerifiedDisclosure} {step : ClaimPathElement} {rest : ClaimPath}

theorem Closed.subset (h : Closed keep more) (hsubset : new ⊆ more) :
    Closed keep new := fun r hr => h r (hsubset hr)

/-- The paths below a place that are dropped are those of the records that are not kept. -/
def Marks (drop : ClaimPath → Bool) (keep : String → Bool) (path : ClaimPath)
    (new : List VerifiedDisclosure) : Prop :=
  ∀ step rest, drop (step :: rest) = true ↔
    ∃ r ∈ new, r.path = path ++ step :: rest ∧ keep r.digest = false

/-- The other walk passes over what is not kept. -/
theorem Follows.skip (h : Follows keep s t) (hadvances : Advances s s' new)
    (hwithheld : ∀ r ∈ new, keep r.digest = false) : Follows keep s' t where
  index := by
    rw [hadvances.index]
    exact h.index
  used := by
    have hnone : ((new.map (·.digest)).reverse).filter keep = [] := by
      simpa [List.filter_eq_nil_iff] using hwithheld
    rw [hadvances.used, List.filter_append, hnone]
    exact h.used
  encountered := h.encountered.trans hadvances.encountered.sublist
  budget := h.budget.trans hadvances.budget

theorem Follows.encounter (h : Follows keep s t) (hmet : s.encounterDigest digest = .ok s') :
    ∃ t', t.encounterDigest digest = .ok t' ∧ Follows keep s' t' := by
  obtain ⟨decoded, hdecoded, hlength, hcount, hfresh, rfl⟩ := encounterDigest_eq_ok.mp hmet
  refine ⟨_, encounterDigest_eq_ok.mpr ⟨decoded, hdecoded, hlength, ?_, ?_, rfl⟩, ?_⟩
  · exact (Nat.add_le_add_right h.encountered.length_le 1).trans hcount
  · exact fun hmem => hfresh (h.encountered.subset hmem)
  · exact ⟨h.index, h.used, h.encountered.cons_cons _, h.budget⟩

theorem Follows.record {s₁ : DisclosureProcessor} {d : Disclosure} (h : Follows keep s t)
    (hkeep : keep digest = true) (hpay : s.consumeBudget p d.value = .ok s₁)
    (hrecord : s₁.recordDisclosure digest d path parent = .ok s') (path₂ : ClaimPath) (parent₂ : Option String) :
    ∃ t₁ t', t.consumeBudget p d.value = .ok t₁ ∧ t₁.recordDisclosure digest d path₂ parent₂ = .ok t' ∧
      Follows keep s' t' := by
  obtain ⟨hbudget, rfl⟩ := consumeBudget_eq_ok.mp hpay
  obtain ⟨hfresh, rfl⟩ := recordDisclosure_eq_ok.mp hrecord
  have hle := h.budget
  refine ⟨_, _, consumeBudget_eq_ok.mpr ⟨by omega, rfl⟩, recordDisclosure_eq_ok.mpr ⟨?_, rfl⟩, ?_⟩
  · show digest ∉ t.usedDisclosures
    rw [h.used]
    exact fun hmem => hfresh (List.mem_filter.mp hmem).1
  · refine ⟨h.index, ?_, h.encountered, Nat.add_le_add_right hle _⟩
    rw [List.filter_cons_of_pos hkeep, h.used]

/-! ### Records and steps -/

theorem Holds.child_ne_none (h : Holds path parent value new) (hr : r ∈ new) (hpath : r.path = path ++ step :: rest)
    : child value step ≠ none := by
  obtain ⟨step', rest', hpath', hat⟩ := h.below r hr
  obtain ⟨rfl, rfl⟩ := List.cons.inj (List.append_cancel_left (hpath.symm.trans hpath'))
  intro hnone
  simp [valueAt_cons, hnone] at hat

theorem Fresh.child_eq_none (h : Fresh path value new) (hr : r ∈ new) (hpath : r.path = path ++ step :: rest)
    : child value step = none := by
  obtain ⟨step', rest', hpath', hnone⟩ := h r hr
  obtain ⟨rfl, rfl⟩ := List.cons.inj (List.append_cancel_left (hpath.symm.trans hpath'))
  exact hnone

theorem Holds.below_child {step' : ClaimPathElement} (h : Holds (path ++ [step]) parent value new) (hr : r ∈ new)
    (hpath : r.path = path ++ step' :: rest) : step' = step ∧ rest ≠ [] := by
  obtain ⟨next, tail, hpath', -⟩ := h.below r hr
  rw [hpath, List.append_assoc, List.append_right_inj, List.singleton_append, List.cons.injEq] at hpath'
  exact ⟨hpath'.1, by simp [hpath'.2]⟩

section Append
variable {P : VerifiedDisclosure → Prop}

theorem exists_append_left (h : ∀ r ∈ more, ¬ P r) : (∃ r ∈ new ++ more, P r) ↔ ∃ r ∈ new, P r := by
  simp only [List.mem_append, or_and_right, exists_or]
  exact or_iff_left fun ⟨r, hr, hP⟩ => h r hr hP

theorem exists_append_right (h : ∀ r ∈ new, ¬ P r) : (∃ r ∈ new ++ more, P r) ↔ ∃ r ∈ more, P r := by
  simp only [List.mem_append, or_and_right, exists_or]
  exact or_iff_right fun ⟨r, hr, hP⟩ => h r hr hP

end Append

theorem Holds.withheld (h : Holds path (some digest) value new) (hclosed : Closed keep new)
    (hdigest : keep digest = false) : ∀ r ∈ new, keep r.digest = false := by
  -- By induction on the length of the path: the parent of a record lies above it.
  have hlength (n : ℕ) : ∀ r ∈ new, r.path.length ≤ n → keep r.digest = false := by
    induction n with
    | zero =>
      intro r hr hn
      obtain ⟨step, rest, hpath, -⟩ := h.below r hr
      simp [hpath] at hn
    | succ n ih =>
      intro r hr hn
      by_contra hkept
      rw [Bool.not_eq_false] at hkept
      rcases h.enclosed r hr with ⟨e, he, hparent, ⟨hinitial, hne⟩, -⟩ | ⟨hparent, -⟩
      · have hshorter : e.path.length < r.path.length := by
          refine lt_of_le_of_ne hinitial.length_le fun heq => hne (hinitial.eq_of_length heq)
        have hwithheld := ih e he (by omega)
        rw [hclosed r hr hkept e.digest hparent] at hwithheld
        cases hwithheld
      · rw [hclosed r hr hkept digest hparent] at hdigest
        cases hdigest
  exact fun r hr => hlength r.path.length r hr le_rfl

/-! ### The loops -/

def IndexOrdered (s : DisclosureProcessor) : Prop :=
  ∀ digest d, s.disclosureByDigest.lookup digest = some d → Ordered d.value

theorem Advances.indexOrdered (h : Advances s s' new) (hindex : s.IndexOrdered) : s'.IndexOrdered := by
  intro digest d hd
  rw [h.index] at hd
  exact hindex digest d hd

/-- A part of the walk succeeds with the kept disclosures too, wherever it starts. -/
def Repeats {α : Type} (keep : String → Bool) (s s' : DisclosureProcessor)
    (run : ClaimPath → Option String → DisclosureProcessor → Except SdJwtError (α × DisclosureProcessor)) (out : α) :
    Prop :=
  ∀ t, Follows keep s t → ∀ path parent, ∃ t', run path parent t = .ok (out, t') ∧ Follows keep s' t'

/-- A walk that returns a clean value whose records all lie below its place, and that prunes this value when it
is repeated with the kept disclosures. -/
def Sound (keep : String → Bool) (walk : Walk) : Prop :=
  ∀ {value path parent s v s'}, Ordered value → s.IndexOrdered → walk value path parent s = .ok (v, s') →
    ∃ new, Advances s s' new ∧ Holds path parent v new ∧ Clean v ∧ Ordered v ∧
      ∀ drop, Marks drop keep path new → Closed keep new → Repeats keep s s' (walk value) (prune drop v)

/-- The paths at free steps that are dropped are those of the records that are not kept. -/
def MarksFree (drop : ClaimPath → Bool) (keep : String → Bool) (path : ClaimPath) (value : Json)
    (new : List VerifiedDisclosure) : Prop :=
  ∀ step rest, child value step = none → (drop (step :: rest) = true ↔
    ∃ r ∈ new, r.path = path ++ step :: rest ∧ keep r.digest = false)

/-- What the marks say about the first child a loop puts in, and about the children after it. The child
may have a record of its own, at its own place. -/
theorem MarksFree.grow {value' : Json} {here nested : List VerifiedDisclosure} {v : Json}
    {parent' : Option String} (h : MarksFree drop keep path value (here ++ nested ++ more))
    (hfree : child value step = none) (hstep : child value' step ≠ none)
    (hother : ∀ other, child value' other = none → child value other = none)
    (hhere : ∀ r ∈ here, r.path = path ++ [step]) (hholds : Holds (path ++ [step]) parent' v nested)
    (hfresh : Fresh path value' more) : (drop [step] = true ↔ ∃ r ∈ here, keep r.digest = false) ∧
      Marks (below drop step) keep (path ++ [step]) nested ∧ MarksFree drop keep path value' more := by
  have hafter : ∀ r ∈ more, ∀ rest, r.path ≠ path ++ step :: rest :=
    fun r hr rest hpath => hstep (hfresh.child_eq_none hr hpath)
  have hplace {r : VerifiedDisclosure} {step' : ClaimPathElement} {rest : ClaimPath} (hr : r ∈ here)
      (hpath : r.path = path ++ step' :: rest) : step' = step ∧ rest = [] := by
    rw [hhere r hr, List.append_right_inj, List.cons.injEq] at hpath
    exact ⟨hpath.1.symm, hpath.2.symm⟩
  refine ⟨?_, fun step' rest => ?_, fun step' rest hnone => ?_⟩
  · rw [h step [] hfree, exists_append_left fun r hr h => hafter r hr _ h.1,
      exists_append_left fun r hr h => (hholds.below_child hr h.1).2 rfl]
    exact exists_congr fun r => and_congr_right fun hr => and_iff_right (hhere r hr)
  · rw [List.append_assoc]
    refine (h step (step' :: rest) hfree).trans ?_
    rw [exists_append_left fun r hr h => hafter r hr _ h.1]
    exact exists_append_right fun r hr h => List.cons_ne_nil _ _ (hplace hr h.1).2
  · have hne : step' ≠ step := by
      rintro rfl
      exact hstep hnone
    refine (h step' rest (hother step' hnone)).trans (exists_append_right fun r hr h => hne ?_)
    rcases List.mem_append.mp hr with hr | hr
    · exact (hplace hr h.1).1
    · exact (hholds.below_child hr h.1).1

section Loops
variable {out object : List (String × Json)} {before : List VerifiedDisclosure} (hwalk : Sound keep walk)
include hwalk

/-- A disclosure that a loop opens at a free step is passed over where the step is dropped, and opened again
elsewhere. -/
theorem Opens.grow {d : Disclosure} {v : Json} (hindex : s.IndexOrdered)
    (hlookup : s.disclosureByDigest.lookup digest = some d) (h : Opens p walk digest d (path ++ [step]) parent s v s') :
    ∃ opened, Advances s s' opened ∧ Part (path ++ [step]) parent v opened ∧
      ∀ {value value' more}, child value step = none → child value' step ≠ none →
        (∀ other, child value' other = none → child value other = none) → Fresh path value' more →
        ∀ drop, MarksFree drop keep path value (opened ++ more) → Closed keep (opened ++ more) →
          MarksFree drop keep path value' more ∧ ∀ t, Follows keep s t → ∀ path₂ parent₂, ∃ t', Follows keep s' t' ∧
            (drop [step] = true ∧ keep digest = false ∧ t' = t ∨ ¬ drop [step] = true ∧ keep digest = true ∧
              Opens p walk digest d path₂ parent₂ t (prune (below drop step) v) t') := by
  obtain ⟨s₁, s₂, hpay, hrecord, hrun⟩ := h
  have hopened := recordDisclosure_advances hlookup hpay hrecord
  obtain ⟨nested, hnested, hholds, hclean, hordered, hagain⟩ :=
    hwalk (hindex digest d hlookup) (hopened.indexOrdered hindex) hrun
  have hadvances := hopened.trans hnested
  refine ⟨_, hadvances, hholds.disclosed hclean hordered, ?_⟩
  intro value value' more hfree hstep hother hfresh drop hmarks hclosed
  obtain ⟨hhere, hmarks₁, hmarks₂⟩ := hmarks.grow hfree hstep hother (by simp [entry]) hholds hfresh
  refine ⟨hmarks₂, fun t hfollows path₂ parent₂ => ?_⟩
  have hclosed₁ : Closed keep nested := hclosed.subset fun r hr => by simp [hr]
  cases hkeep : keep digest with
  | false =>
    refine ⟨t, hfollows.skip hadvances ?_, .inl ⟨hhere.mpr ⟨_, List.mem_singleton_self _, hkeep⟩, rfl, rfl⟩⟩
    exact List.forall_mem_cons.mpr ⟨hkeep, hholds.withheld hclosed₁ hkeep⟩
  | true =>
    obtain ⟨t₁, t₂, hpay₂, hrecord₂, hfollows₂⟩ := hfollows.record hkeep hpay hrecord path₂ parent₂
    obtain ⟨t', ht', hfollows'⟩ := hagain _ hmarks₁ hclosed₁ t₂ hfollows₂ path₂ (some digest)
    refine ⟨t', hfollows', .inr ⟨fun hdrop => ?_, rfl, t₁, t₂, hpay₂, hrecord₂, ht'⟩⟩
    obtain ⟨r, hr, hwithheld⟩ := hhere.mp hdrop
    obtain rfl := List.mem_singleton.mp hr
    cases hkeep.symm.trans hwithheld

theorem processMembers_sound {members : List (String × Json)} (hindex : s.IndexOrdered)
    (hsorted : (members.map Prod.fst).Pairwise (· < ·)) (hordered : ∀ kv ∈ members, Ordered kv.2)
    (h : processMembers walk path parent members s = .ok (out, s')) :
    ∃ new, Advances s s' new ∧ Holds path parent (.obj out) new ∧ out.map Prod.fst = members.map Prod.fst ∧
      ∀ drop, (∀ name ∈ members.map Prod.fst, ∀ rest, drop (.name name :: rest) = true ↔
          ∃ r ∈ new, r.path = path ++ .name name :: rest ∧ keep r.digest = false) → Closed keep new →
        Repeats keep s s' (processMembers walk · · members) (pruneMembers drop out) := by
  induction members generalizing s out with
  | nil =>
    cases h
    exact ⟨[], .refl _, .leaf (by rintro (_ | _) <;> rfl), rfl, fun _ _ _ t hfollows _ _ => ⟨t, rfl, hfollows⟩⟩
  | cons kv rest ih =>
    obtain ⟨name, value⟩ := kv
    obtain ⟨v, s₁, tail, hv, htail, rfl⟩ := processMembers_cons.mp h
    rw [List.map_cons, List.pairwise_cons] at hsorted
    obtain ⟨first, hfirst, hholds, hclean, hvordered, hagain⟩ := hwalk (hordered _ List.mem_cons_self) hindex hv
    obtain ⟨more, hmore, hrest, hnames, hagain'⟩ := ih (hfirst.indexOrdered hindex) hsorted.2
      (fun kv hkv => hordered kv (List.mem_cons_of_mem _ hkv)) htail
    have hfree : tail.lookup name = none := by
      rw [OrdMap.lookup_eq_none, hnames]
      exact fun hmem => lt_irrefl _ (hsorted.1 name hmem)
    refine ⟨first ++ more, hfirst.trans hmore, ?_, by simp [hnames], ?_⟩
    · -- The loop records the first member first; the tail's records hold of the tail alone.
      refine (hrest.grow (hholds.part hclean hvordered) hfree ?_ ?_).perm List.perm_append_comm
      · exact List.lookup_cons_self
      · rintro (other | i) hne
        · have hother : other ≠ name := fun heq => hne (congrArg _ heq)
          show ((name, v) :: tail).lookup other = _
          rw [OrdMap.lookup_cons_eq_ite, if_neg hother]
          rfl
        · rfl
    intro drop hmarks hclosed t hfollows path₂ parent₂
    -- No record of the tail lies below the first member, and none of the first below the tail.
    have hafter : ∀ r ∈ more, ∀ rest, r.path ≠ path ++ .name name :: rest :=
      fun r hr rest hpath => hrest.child_ne_none hr hpath hfree
    have hhere : drop [.name name] = false := by
      by_contra hdrop
      rw [Bool.not_eq_false, hmarks name (by simp)] at hdrop
      obtain ⟨r, hr, hpath, -⟩ := hdrop
      rcases List.mem_append.mp hr with hr | hr
      · exact (hholds.below_child hr hpath).2 rfl
      · exact hafter r hr _ hpath
    have hmarks₁ : Marks (below drop (.name name)) keep (path ++ [.name name]) first := by
      intro step tail'
      rw [List.append_assoc]
      exact (hmarks name (by simp) (step :: tail')).trans (exists_append_left fun r hr h => hafter r hr _ h.1)
    have hmarks₂ : ∀ other ∈ rest.map Prod.fst, ∀ tail', drop (.name other :: tail') = true ↔
        ∃ r ∈ more, r.path = path ++ .name other :: tail' ∧ keep r.digest = false := by
      intro other hother tail'
      refine (hmarks other (by simp [hother]) tail').trans (exists_append_right fun r hr h => ?_)
      obtain ⟨⟨⟩, -⟩ := hholds.below_child hr h.1
      exact lt_irrefl _ (hsorted.1 _ hother)
    obtain ⟨t₁, ht₁, hfollows₁⟩ := hagain _ hmarks₁ (hclosed.subset (List.subset_append_left _ _)) t hfollows
      (path₂ ++ [.name name]) parent₂
    obtain ⟨t', ht', hfollows'⟩ := hagain' drop hmarks₂ (hclosed.subset (List.subset_append_right _ _)) t₁ hfollows₁
      path₂ parent₂
    refine ⟨t', processMembers_cons.mpr ⟨_, t₁, _, ht₁, ht', ?_⟩, hfollows'⟩
    rw [pruneMembers_cons, hhere]
    rfl

theorem processDigests_sound {digests : List Json} (hindex : s.IndexOrdered)
    (hobject : Holds path parent (.obj object) before) (htidy : Tidy object)
    (h : processDigests p walk path parent digests object s = .ok (out, s')) :
    ∃ new, Advances s s' new ∧ Holds path parent (.obj out) (before ++ new) ∧ Tidy out ∧
      Fresh path (.obj object) new ∧ ∀ drop, MarksFree drop keep path (.obj object) new → Closed keep new →
        Repeats keep s s' (processDigests p walk · · digests (pruneMembers drop object)) (pruneMembers drop out) := by
  induction digests generalizing s object before with
  | nil =>
    cases h
    exact ⟨[], .refl _, by rwa [List.append_nil], htidy, by simp [Fresh],
      fun _ _ _ t hfollows _ _ => ⟨t, rfl, hfollows⟩⟩
  | cons value rest ih =>
    obtain ⟨digest, hdigest, s₁, hmet, hcases⟩ := processDigests_cons.mp h
    have hadvances := encounterDigest_advances hmet
    have hindex₁ := hadvances.indexOrdered hindex
    rcases hcases with ⟨hnone, hrest⟩ | ⟨d, name, v, s₂, hlookup, hname, haddable, hopens, hrest⟩
    · obtain ⟨new, hnew, hholds, htidy', hfresh, hagain⟩ := ih hindex₁ hobject htidy hrest
      refine ⟨new, hadvances.trans hnew, hholds, htidy', hfresh, ?_⟩
      intro drop hmarks hclosed t hfollows path₂ parent₂
      obtain ⟨t₁, hmet₂, hfollows₁⟩ := hfollows.encounter hmet
      obtain ⟨t', ht', hfollows'⟩ := hagain drop hmarks hclosed t₁ hfollows₁ path₂ parent₂
      refine ⟨t', processDigests_cons.mpr ⟨digest, hdigest, t₁, hmet₂, .inl ⟨?_, ht'⟩⟩, hfollows'⟩
      rw [hfollows₁.index, hnone, ite_self]
    · have hfree : object.lookup name = none := by
        simpa [Json.hasKey] using haddable.2
      have hchild : child (.obj object) (.name name) = none := hfree
      have hput : child (.obj (OrdMap.insert name v object)) (.name name) ≠ none := by
        simp [child, OrdMap.lookup_insert]
      have hold (step : ClaimPathElement) (hnone : child (.obj (OrdMap.insert name v object)) step = none) :
          child (.obj object) step = none := by
        cases step with
        | name other => exact (lookup_insert_eq_none.mp hnone).2
        | index i => rfl
      obtain ⟨opened, hopened, hpart, hgrow⟩ := hopens.grow hwalk hindex₁ hlookup
      obtain ⟨more, hmore, hout, htidy', hfresh, hagain⟩ := ih (hopened.indexOrdered hindex₁)
        (hobject.insert hpart hfree) (htidy.insert v haddable) hrest
      refine ⟨opened ++ more, (hadvances.trans hopened).trans hmore, by rwa [← List.append_assoc], htidy',
        (hpart.fresh hchild).append (hfresh.mono hold), ?_⟩
      intro drop hmarks hclosed t hfollows path₂ parent₂
      obtain ⟨t₁, hmet₂, hfollows₁⟩ := hfollows.encounter hmet
      obtain ⟨hmarks', hplaces⟩ := hgrow hchild hput hold hfresh drop hmarks hclosed
      obtain ⟨t₂, hfollows₂, hplace⟩ := hplaces t₁ hfollows₁ (path₂ ++ [.name name]) parent₂
      obtain ⟨t', ht', hfollows'⟩ := hagain drop hmarks' (hclosed.subset (List.subset_append_right _ _)) t₂ hfollows₂
        path₂ parent₂
      rw [pruneMembers_insert htidy.sorted hfree] at ht'
      refine ⟨t', processDigests_cons.mpr ⟨digest, hdigest, t₁, hmet₂, ?_⟩, hfollows'⟩
      rw [hfollows₁.index]
      rcases hplace with ⟨hdrop, hkeep, rfl⟩ | ⟨hdrop, hkeep, hopens₂⟩
      · rw [if_pos hdrop] at ht'
        exact .inl ⟨by rw [hkeep]; rfl, ht'⟩
      · rw [if_neg hdrop] at ht'
        refine .inr ⟨d, name, _, t₂, by rwa [hkeep], hname, ⟨haddable.1, ?_⟩, hopens₂, ht'⟩
        rw [Json.hasKey, lookup_pruneMembers, if_neg hdrop, hfree]
        rfl

theorem processElements_sound {elements done out : List Json} (hindex : s.IndexOrdered)
    (hordered : ∀ v ∈ elements, Ordered v) (hdone : Holds path parent (.arr done) before)
    (h : processElements p walk path parent elements done s = .ok (out, s')) :
    ∃ new, Advances s s' new ∧ Holds path parent (.arr out) (before ++ new) ∧ Fresh path (.arr done) new ∧
      ∀ drop, MarksFree drop keep path (.arr done) new → Closed keep new →
        Repeats keep s s' (processElements p walk · · elements (pruneElements drop 0 done)) (pruneElements drop 0 out) := by
  induction elements generalizing s done before with
  | nil =>
    cases h
    exact ⟨[], .refl _, by rwa [List.append_nil], by simp [Fresh], fun _ _ _ t hfollows _ _ => ⟨t, rfl, hfollows⟩⟩
  | cons element rest ih =>
    have hrest_ordered : ∀ v ∈ rest, Ordered v := fun v hv => hordered v (List.mem_cons_of_mem _ hv)
    have hfree : child (.arr done) (.index done.length) = none := by simp [child]
    have hput (v : Json) : child (.arr (done ++ [v])) (.index done.length) ≠ none := by simp [child]
    rcases processElements_cons.mp h with ⟨hplace, v, s₁, hv, hrest⟩ | ⟨digest, hplace, s₁, hmet, hcases⟩
    · obtain ⟨first, hfirst, hholds, hclean, hvordered, hagain⟩ := hwalk (hordered _ List.mem_cons_self) hindex hv
      have hpart := hholds.part hclean hvordered
      obtain ⟨more, hmore, hout, hfresh, hagain'⟩ :=
        ih (hfirst.indexOrdered hindex) hrest_ordered (hdone.push hpart) hrest
      refine ⟨first ++ more, hfirst.trans hmore, by rwa [← List.append_assoc],
        (hpart.fresh hfree).append (hfresh.mono fun _ => child_push), ?_⟩
      intro drop hmarks hclosed t hfollows path₂ parent₂
      have hall : MarksFree drop keep path (.arr done) ([] ++ first ++ more) := hmarks
      obtain ⟨hhere, hmarks₁, hmarks₂⟩ :=
        hall.grow hfree (hput v) (fun step => child_push) (by simp) hholds hfresh
      have hdrop : ¬ drop [.index done.length] = true := by
        rw [hhere]
        simp
      obtain ⟨t₁, ht₁, hfollows₁⟩ := hagain _ hmarks₁ (hclosed.subset (List.subset_append_left _ _)) t hfollows
        (path₂ ++ [.index (pruneElements drop 0 done).length]) parent₂
      obtain ⟨t', ht', hfollows'⟩ := hagain' drop hmarks₂ (hclosed.subset (List.subset_append_right _ _)) t₁ hfollows₁
        path₂ parent₂
      rw [pruneElements_append, if_neg hdrop] at ht'
      exact ⟨t', processElements_cons.mpr (.inl ⟨hplace, _, t₁, ht₁, ht'⟩), hfollows'⟩
    · have hadvances := encounterDigest_advances hmet
      have hindex₁ := hadvances.indexOrdered hindex
      rcases hcases with ⟨hnone, hrest⟩ | ⟨d, v, s₂, hlookup, hname, hopens, hrest⟩
      · obtain ⟨new, hnew, hout, hfresh, hagain⟩ := ih hindex₁ hrest_ordered hdone hrest
        refine ⟨new, hadvances.trans hnew, hout, hfresh, ?_⟩
        intro drop hmarks hclosed t hfollows path₂ parent₂
        obtain ⟨t₁, hmet₂, hfollows₁⟩ := hfollows.encounter hmet
        obtain ⟨t', ht', hfollows'⟩ := hagain drop hmarks hclosed t₁ hfollows₁ path₂ parent₂
        refine ⟨t', processElements_cons.mpr (.inr ⟨digest, hplace, t₁, hmet₂, .inl ⟨?_, ht'⟩⟩), hfollows'⟩
        rw [hfollows₁.index, hnone, ite_self]
      · obtain ⟨opened, hopened, hpart, hgrow⟩ := hopens.grow hwalk hindex₁ hlookup
        obtain ⟨more, hmore, hout, hfresh, hagain⟩ :=
          ih (hopened.indexOrdered hindex₁) hrest_ordered (hdone.push hpart) hrest
        refine ⟨opened ++ more, (hadvances.trans hopened).trans hmore, by rwa [← List.append_assoc],
          (hpart.fresh hfree).append (hfresh.mono fun _ => child_push), ?_⟩
        intro drop hmarks hclosed t hfollows path₂ parent₂
        obtain ⟨t₁, hmet₂, hfollows₁⟩ := hfollows.encounter hmet
        obtain ⟨hmarks', hplaces⟩ := hgrow hfree (hput v) (fun step => child_push) hfresh drop hmarks hclosed
        obtain ⟨t₂, hfollows₂, hplace'⟩ :=
          hplaces t₁ hfollows₁ (path₂ ++ [.index (pruneElements drop 0 done).length]) parent₂
        obtain ⟨t', ht', hfollows'⟩ := hagain drop hmarks' (hclosed.subset (List.subset_append_right _ _)) t₂ hfollows₂
          path₂ parent₂
        rw [pruneElements_append] at ht'
        refine ⟨t', processElements_cons.mpr (.inr ⟨digest, hplace, t₁, hmet₂, ?_⟩), hfollows'⟩
        rw [hfollows₁.index]
        rcases hplace' with ⟨hdrop, hkeep, rfl⟩ | ⟨hdrop, hkeep, hopens₂⟩
        · rw [if_pos hdrop, List.append_nil] at ht'
          exact .inl ⟨by rw [hkeep]; rfl, ht'⟩
        · rw [if_neg hdrop] at ht'
          exact .inr ⟨d, _, t₂, by rwa [hkeep], hname, hopens₂, ht'⟩

end Loops

/-- The walk is sound at every depth. -/
theorem processValue_sound (p : Platform) (keep : String → Bool) (levels : ℕ) :
    ∀ isRoot, Sound keep (processValue p levels isRoot) := by
  induction levels with
  | zero =>
    intro isRoot value path parent s v s' _ _ h
    cases h
  | succ levels ih =>
    intro isRoot value path parent s v s' hordered hindex h
    by_cases hscalar : IsScalar value
    · rw [processValue_scalar hscalar] at h
      cases h
      refine ⟨[], .refl _, .leaf hscalar.child, hscalar.everywhere, hscalar.everywhere, ?_⟩
      intro drop _ _ t hfollows path₂ parent₂
      exact ⟨t, by rw [processValue_scalar hscalar, prune_scalar hscalar], hfollows⟩
    cases value with
    | obj object =>
      obtain ⟨halg, hplace, digests, kept, s₁, out, hdigests, hkept, hout, rfl⟩ := processValue_obj.mp h
      obtain ⟨hsorted, hmembers⟩ := permanent_ordered hordered
      obtain ⟨first, hfirst, hholds, hnames, hagain⟩ := processMembers_sound (ih false) hindex hsorted hmembers hkept
      obtain ⟨more, hmore, hholds', htidy, hfresh, hagain'⟩ := processDigests_sound (ih false)
        (hfirst.indexOrdered hindex) hholds (tidy_permanent hsorted hplace hnames) hout
      refine ⟨first ++ more, hfirst.trans hmore, hholds', everywhere_iff.mpr ⟨?_, hholds'.clean⟩,
        everywhere_iff.mpr ⟨?_, hholds'.ordered⟩, ?_⟩
      · rintro members ⟨⟩
        exact htidy.unreserved
      · rintro members ⟨⟩
        exact htidy.sorted
      intro drop hmarks hclosed t hfollows path₂ parent₂
      -- The records of the members lie at the names of the members, those of the digests at other names.
      have hmarks₁ : ∀ name ∈ (permanent object).map Prod.fst, ∀ rest, drop (.name name :: rest) = true ↔
          ∃ r ∈ first, r.path = path ++ .name name :: rest ∧ keep r.digest = false := by
        intro name hname rest
        have hpresent : child (.obj kept) (.name name) ≠ none := by
          rw [child, ne_eq, OrdMap.lookup_eq_none, hnames, not_not]
          exact hname
        exact (hmarks (.name name) rest).trans
          (exists_append_left fun r hr h => hpresent (hfresh.child_eq_none hr h.1))
      have hmarks₂ : MarksFree drop keep path (.obj kept) more := by
        intro step rest hnone
        exact (hmarks step rest).trans (exists_append_right fun r hr h => hholds.child_ne_none hr h.1 hnone)
      obtain ⟨t₁, ht₁, hfollows₁⟩ := hagain drop hmarks₁ (hclosed.subset (List.subset_append_left _ _)) t hfollows
        path₂ parent₂
      obtain ⟨t', ht', hfollows'⟩ := hagain' drop hmarks₂ (hclosed.subset (List.subset_append_right _ _)) t₁ hfollows₁
        path₂ parent₂
      exact ⟨t', processValue_obj.mpr ⟨halg, hplace, digests, _, t₁, _, hdigests, ht₁, ht', rfl⟩, hfollows'⟩
    | arr elements =>
      obtain ⟨out, hout, rfl⟩ := processValue_arr.mp h
      have hstart : Holds path parent (.arr []) [] := .leaf (by rintro (_ | _) <;> rfl)
      obtain ⟨new, hnew, hholds, -, hagain⟩ :=
        processElements_sound (ih false) hindex (fun v hv => hordered.element hv) hstart hout
      refine ⟨new, hnew, hholds, everywhere_iff.mpr ⟨by rintro _ ⟨⟩, hholds.clean⟩,
        everywhere_iff.mpr ⟨by rintro _ ⟨⟩, hholds.ordered⟩, ?_⟩
      intro drop hmarks hclosed t hfollows path₂ parent₂
      obtain ⟨t', ht', hfollows'⟩ :=
        hagain drop (fun step rest _ => hmarks step rest) hclosed t hfollows path₂ parent₂
      exact ⟨t', processValue_arr.mpr ⟨_, ht', rfl⟩, hfollows'⟩
    | null | bool | num | str => exact absurd trivial hscalar

end DisclosureProcessor

end EuWallet.Formats
