import EuWallet.Formats.Withholding
import EuWallet.Wallet.ClaimLabels

/-! # The consent list of an SD-JWT

Which disclosures `select_authenticated_sdjwt_disclosures_for_paths` takes for the matched paths, and what
a verifier sees of the credential with only these. A disclosure is taken if its path and a matched path lie
on one line (`Touches`). This is closed under parents already, so the loop that adds parents adds nothing,
and a verifier sees the leaves that the selection lists (`selectForPaths_honest`). -/

namespace EuWallet.Wallet

open Codec Crypto Formats Lib

/-! ### Leaves -/

/-- A value that is listed at its own path. -/
def IsLeaf (value : Json) : Prop := IsScalar value ∨ value = .obj [] ∨ value = .arr []

theorem IsLeaf.child {value : Json} (h : IsLeaf value) (step : ClaimPathElement) : child value step = none := by
  rcases h with h | rfl | rfl
  · exact h.child step
  · cases step <;> rfl
  · cases step <;> rfl

def LeafAt (value : Json) (path leaf : ClaimPath) : Prop :=
  leaf ≠ [] ∧ ∃ rest v, leaf = path ++ rest ∧ valueAt value rest = some v ∧ IsLeaf v

section Leaves
variable {path leaf : ClaimPath}

/-- The leaves of a value that is none are those of its children. -/
theorem leafAt_iff_child {value : Json} (h : ¬ IsLeaf value) :
    LeafAt value path leaf ↔ ∃ step c, child value step = some c ∧ LeafAt c (path ++ [step]) leaf := by
  constructor
  · rintro ⟨hne, rest, v, hleaf, hat, hv⟩
    cases rest with
    | nil =>
      cases hat
      exact absurd hv h
    | cons step rest =>
      rw [valueAt_cons] at hat
      obtain ⟨c, hc, hrest⟩ := Option.bind_eq_some_iff.mp hat
      exact ⟨step, c, hc, hne, rest, v, by simpa using hleaf, hrest, hv⟩
  · rintro ⟨step, c, hc, hne, rest, v, hleaf, hat, hv⟩
    refine ⟨hne, step :: rest, v, by simpa using hleaf, ?_, hv⟩
    rw [valueAt_cons, hc]
    exact hat

theorem mem_leaf {value : Json} (h : IsLeaf value) :
    leaf ∈ (if path.isEmpty then [] else [path]) ↔ LeafAt value path leaf := by
  have hself : LeafAt value path leaf ↔ leaf ≠ [] ∧ leaf = path := by
    refine and_congr_right fun _ => ⟨?_, ?_⟩
    · rintro ⟨rest, v, hleaf, hat, -⟩
      cases rest with
      | nil => simpa using hleaf
      | cons step rest =>
        rw [valueAt_cons, h.child] at hat
        cases hat
    · intro hleaf
      exact ⟨[], value, by simpa using hleaf, rfl, h⟩
  rw [hself]
  cases path with
  | nil => simp
  | cons step path =>
    simp only [List.isEmpty_cons, Bool.false_eq_true, if_false, List.mem_singleton]
    exact ⟨fun hleaf => ⟨by simp [hleaf], hleaf⟩, fun hleaf => hleaf.2⟩

mutual

theorem mem_collectJsonLeafPaths : ∀ (value : Json) (path : ClaimPath), Ordered value →
    (leaf ∈ collectJsonLeafPaths value path ↔ LeafAt value path leaf)
  | .obj [], path, _ => mem_leaf (.inr (.inl rfl))
  | .obj (m :: ms), path, hordered => by
    have hmembers : ∀ kv ∈ m :: ms, Ordered kv.2 := fun kv hkv =>
      hordered.member (OrdMap.lookup_of_mem hordered.self hkv)
    rw [leafAt_iff_child (by rintro (h | h | h) <;> cases h)]
    refine (mem_memberLeafPaths (m :: ms) path hmembers).trans ⟨?_, ?_⟩
    · rintro ⟨kv, hkv, hleaf⟩
      exact ⟨.name kv.1, kv.2, OrdMap.lookup_of_mem hordered.self hkv, hleaf⟩
    · rintro ⟨step, c, hc, hleaf⟩
      cases step with
      | name name => exact ⟨(name, c), OrdMap.mem_of_lookup hc, hleaf⟩
      | index i => cases hc
  | .arr [], path, _ => mem_leaf (.inr (.inr rfl))
  | .arr (v :: vs), path, hordered => by
    have helements : ∀ c ∈ v :: vs, Ordered c := fun c hc => hordered.element hc
    rw [leafAt_iff_child (by rintro (h | h | h) <;> cases h)]
    refine (mem_elementLeafPaths (v :: vs) 0 path helements).trans ⟨?_, ?_⟩
    · rintro ⟨i, c, hc, hleaf⟩
      exact ⟨.index i, c, hc, by simpa using hleaf⟩
    · rintro ⟨step, c, hc, hleaf⟩
      cases step with
      | name name => cases hc
      | index i => exact ⟨i, c, hc, by simpa using hleaf⟩
  | .null, path, _ => mem_leaf (.inl trivial)
  | .bool _, path, _ => mem_leaf (.inl trivial)
  | .num _, path, _ => mem_leaf (.inl trivial)
  | .str _, path, _ => mem_leaf (.inl trivial)

theorem mem_memberLeafPaths : ∀ (members : List (String × Json)) (path : ClaimPath),
    (∀ kv ∈ members, Ordered kv.2) → (leaf ∈ memberLeafPaths members path ↔
      ∃ kv ∈ members, LeafAt kv.2 (path ++ [.name kv.1]) leaf)
  | [], path, _ => by simp [memberLeafPaths]
  | (name, c) :: rest, path, hordered => by
    rw [List.forall_mem_cons] at hordered
    rw [memberLeafPaths, List.mem_append, mem_collectJsonLeafPaths c _ hordered.1,
      mem_memberLeafPaths rest path hordered.2]
    simp

theorem mem_elementLeafPaths : ∀ (elements : List Json) (i : ℕ) (path : ClaimPath),
    (∀ c ∈ elements, Ordered c) → (leaf ∈ elementLeafPaths elements i path ↔
      ∃ n c, elements[n]? = some c ∧ LeafAt c (path ++ [.index (i + n)]) leaf)
  | [], i, path, _ => by simp [elementLeafPaths]
  | c :: rest, i, path, hordered => by
    rw [List.forall_mem_cons] at hordered
    rw [elementLeafPaths, List.mem_append, mem_collectJsonLeafPaths c _ hordered.1,
      mem_elementLeafPaths rest (i + 1) path hordered.2]
    constructor
    · rintro (hleaf | ⟨n, d, hd, hleaf⟩)
      · exact ⟨0, c, rfl, hleaf⟩
      · exact ⟨n + 1, d, hd, by rwa [Nat.add_assoc, Nat.add_comm 1] at hleaf⟩
    · rintro ⟨n, d, hd, hleaf⟩
      cases n with
      | zero =>
        cases hd
        exact .inl hleaf
      | succ n => exact .inr ⟨n, d, hd, by rwa [Nat.add_assoc, Nat.add_comm 1]⟩

end

end Leaves

/-! ### Selected disclosures -/

def Touches (matched : List ClaimPath) (path : ClaimPath) : Prop := ∃ m ∈ matched, path <+: m ∨ m <+: path

instance (matched : List ClaimPath) (path : ClaimPath) : Decidable (Touches matched path) :=
  inferInstanceAs (Decidable (∃ m ∈ matched, path <+: m ∨ m <+: path))

theorem Touches.of_prefix {matched : List ClaimPath} {path upper : ClaimPath} (h : Touches matched path)
    (hinitial : upper <+: path) : Touches matched upper := by
  obtain ⟨m, hm, hpath | hpath⟩ := h
  · exact ⟨m, hm, .inl (hinitial.trans hpath)⟩
  · exact ⟨m, hm, List.prefix_or_prefix_of_prefix hinitial hpath⟩

section Selection
variable {p : Platform} {a : AuthenticatedSdJwtHolding} {matched : List ClaimPath} {r : VerifiedDisclosure}
  {selected : List String}

theorem claimPathIsPrefix_iff {short path : ClaimPath} : claimPathIsPrefix short path = true ↔ short <+: path :=
  List.isPrefixOf_iff_prefix

theorem mem_touchedDigests {digest : String} : digest ∈ touchedDigests a matched ↔
    ∃ r ∈ a.processed.disclosures, r.digest = digest ∧ Touches matched r.path := by
  simp only [touchedDigests, Core.mem_foldl_pushNew, List.not_mem_nil, false_or, List.mem_flatMap, List.mem_map,
    List.mem_filter, Bool.or_eq_true, claimPathIsPrefix_iff, Touches]
  constructor
  · rintro ⟨m, hm, r, ⟨hr, htouches⟩, hdigest⟩
    exact ⟨r, hr, hdigest, m, hm, htouches⟩
  · rintro ⟨r, hr, hdigest, m, hm, htouches⟩
    exact ⟨m, hm, r, ⟨hr, htouches⟩, hdigest⟩

theorem touched_iff (hnodup : (a.processed.disclosures.map (·.digest)).Nodup) (hr : r ∈ a.processed.disclosures) :
    r.digest ∈ touchedDigests a matched ↔ Touches matched r.path := by
  rw [mem_touchedDigests]
  constructor
  · rintro ⟨e, he, hdigest, htouches⟩
    rwa [← List.inj_on_of_nodup_map hnodup he hr hdigest]
  · exact fun htouches => ⟨r, hr, rfl, htouches⟩

def IsControlPath (path : ClaimPath) : Prop := ∃ root ∈ sdjwtControlClaims, path.head? = some (.name root)

theorem mem_visibleSdjwtClaims {label : String} (hordered : Ordered (.obj a.processed.claims)) :
    label ∈ visibleSdjwtClaims p a selected ↔
      ∃ path, sdjwtPathString p path = label ∧ LeafAt (.obj a.processed.claims) [] path ∧
        leafIsVisible a selected path = true := by
  rw [visibleSdjwtClaims, ← List.foldl_map, Core.mem_foldl_pushNew]
  simp only [List.not_mem_nil, false_or, List.mem_map, List.mem_filter, mem_collectJsonLeafPaths _ _ hordered]
  exact exists_congr fun path => and_comm

theorem leafIsVisible_iff {path : ClaimPath} (hclean : Clean (.obj a.processed.claims))
    (hleaf : LeafAt (.obj a.processed.claims) [] path) : leafIsVisible a selected path = true ↔
      ¬ IsControlPath path ∧ ∀ r ∈ a.processed.disclosures, r.path <+: path → r.digest ∈ selected := by
  obtain ⟨hne, rest, v, rfl, hat, -⟩ := hleaf
  cases path with
  | nil => exact absurd rfl hne
  | cons step rest =>
    obtain ⟨c, hc, -⟩ := Option.bind_eq_some_iff.mp hat
    cases step with
    | index i => cases hc
    | name root =>
      have hroot : root ≠ "_sd_alg" := by
        rintro rfl
        have hnone := hclean.self "_sd_alg" (by decide)
        have hc : a.processed.claims.lookup "_sd_alg" = some c := hc
        rw [Json.hasKey, hc] at hnone
        cases hnone
      have hselected : ((a.processed.disclosures.filter fun r => claimPathIsPrefix r.path (.name root :: rest)).all
          fun r => selected.contains r.digest) = true ↔
            ∀ r ∈ a.processed.disclosures, r.path <+: .name root :: rest → r.digest ∈ selected := by
        simp only [List.all_eq_true, List.mem_filter, claimPathIsPrefix_iff, List.contains_iff_mem, and_imp]
      simp only [leafIsVisible, List.head?_cons, Bool.and_eq_true, hselected]
      simp [IsControlPath, hroot]

/-- A text stands for one record. -/
theorem raw_mem_touching (hnodup : (a.processed.disclosures.map (·.raw)).Nodup) (hr : r ∈ a.processed.disclosures) :
    r.raw ∈ (a.processed.disclosures.filter fun r => Touches matched r.path).map (·.raw) ↔
      Touches matched r.path := by
  simp only [List.mem_map, List.mem_filter, decide_eq_true_iff]
  constructor
  · rintro ⟨e, ⟨he, htouches⟩, hraw⟩
    rwa [← List.inj_on_of_nodup_map hnodup he hr hraw]
  · exact fun htouches => ⟨r, ⟨hr, htouches⟩, rfl⟩

/-! ### What is selected -/

variable (hparents : ∀ r ∈ a.processed.disclosures, DisclosureProcessor.Encloses a.processed.disclosures none r)
include hparents

theorem touching_closed (hnodup : (a.processed.disclosures.map (·.raw)).Nodup) :
    ClosedUnderParents a.processed.disclosures
      ((a.processed.disclosures.filter fun r => Touches matched r.path).map (·.raw)) := by
  intro r hr hraw parent hparent
  rw [raw_mem_touching hnodup hr] at hraw
  rcases hparents r hr with ⟨e, he, hdigest, ⟨hinitial, -⟩, -⟩ | ⟨hnone, -⟩
  · refine ⟨e, he, Option.some.inj (hdigest.symm.trans hparent), ?_⟩
    exact (raw_mem_touching hnodup he).mpr (hraw.of_prefix hinitial)
  · rw [hnone] at hparent
    cases hparent

variable (hnodup : (a.processed.disclosures.map (·.digest)).Nodup)
include hnodup

theorem addSdjwtDisclosureDependencies_touched :
    addSdjwtDisclosureDependencies a (touchedDigests a matched) = touchedDigests a matched := by
  refine List.foldlRecOn (motive := (· = touchedDigests a matched)) _ _ rfl ?_
  rintro _ rfl digest hdigest
  cases hfound : a.processed.disclosures.find? (·.digest == digest) with
  | none => rfl
  | some r =>
    have hr : r ∈ a.processed.disclosures := List.mem_of_find?_eq_some hfound
    have hdigest' : r.digest = digest := by simpa using List.find?_some hfound
    rw [← hdigest', touched_iff hnodup hr] at hdigest
    rcases hparents r hr with ⟨e, he, hparent, ⟨hinitial, -⟩, -⟩ | ⟨hparent, -⟩
    · have hmem : e.digest ∈ touchedDigests a matched := (touched_iff hnodup he).mpr (hdigest.of_prefix hinitial)
      simp [hparent, pushNew, hmem]
    · simp [hparent]

theorem closeDependencies_touched (rounds : ℕ) :
    closeDependencies a rounds (touchedDigests a matched) = touchedDigests a matched := by
  induction rounds with
  | zero => rfl
  | succ rounds ih => rw [closeDependencies, addSdjwtDisclosureDependencies_touched hparents hnodup, ih]

theorem selectForPaths_disclosures :
    (selectAuthenticatedSdjwtDisclosuresForPaths p a matched).disclosures =
      (a.processed.disclosures.filter fun r => Touches matched r.path).map (·.raw) := by
  simp only [selectAuthenticatedSdjwtDisclosuresForPaths, closeDependencies_touched hparents hnodup]
  congr 1
  refine List.filter_congr fun r hr => ?_
  rw [Bool.eq_iff_iff, List.contains_iff_mem, decide_eq_true_iff]
  exact touched_iff hnodup hr

theorem mem_revealedClaims (hclean : Clean (.obj a.processed.claims)) (hordered : Ordered (.obj a.processed.claims))
    {label : String} : label ∈ (selectAuthenticatedSdjwtDisclosuresForPaths p a matched).revealedClaims ↔
      ∃ path, sdjwtPathString p path = label ∧ LeafAt (.obj a.processed.claims) [] path ∧ ¬ IsControlPath path ∧
        ∀ r ∈ a.processed.disclosures, r.path <+: path → Touches matched r.path := by
  simp only [selectAuthenticatedSdjwtDisclosuresForPaths, closeDependencies_touched hparents hnodup,
    mem_visibleSdjwtClaims hordered]
  refine exists_congr fun path => and_congr_right fun _ => and_congr_right fun hleaf => ?_
  rw [leafIsVisible_iff hclean hleaf]
  refine and_congr_right fun _ => forall_congr' fun r => forall_congr' fun hr => ?_
  rw [touched_iff hnodup hr]

end Selection

/-! ### What a verifier sees -/

def SeesScalar (drop : ClaimPath → Bool) (whole seen : List (String × Json)) (path : ClaimPath) : Prop :=
  ∃ shown v, valueAt (.obj seen) shown = some v ∧ IsScalar v ∧ origin drop (.obj whole) shown = path

def HasScalar (whole : List (String × Json)) (path : ClaimPath) : Prop :=
  ∃ v, valueAt (.obj whole) path = some v ∧ IsScalar v

section Seen
variable {drop : ClaimPath → Bool} {whole : List (String × Json)} {path : ClaimPath}

theorem isScalar_prune {value : Json} (h : IsScalar (prune drop value)) : IsScalar value := by
  cases value <;> exact h

theorem seesScalar_iff : SeesScalar drop whole (pruneMembers drop whole) path ↔
    HasScalar whole path ∧ Survives drop path := by
  constructor
  · rintro ⟨shown, v, hshown, hv, rfl⟩
    have hshown : valueAt (prune drop (.obj whole)) shown = some v := hshown
    obtain ⟨u, hu, hsurvives, rfl⟩ := valueAt_prune hshown
    exact ⟨⟨u, hu, isScalar_prune hv⟩, hsurvives⟩
  · rintro ⟨⟨v, hat, hv⟩, hsurvives⟩
    obtain ⟨shown, horigin, hshown⟩ := exists_origin hat hsurvives
    rw [prune_scalar hv] at hshown
    exact ⟨shown, v, hshown, hv, horigin⟩

theorem HasScalar.leafAt (h : HasScalar whole path) : LeafAt (.obj whole) [] path := by
  obtain ⟨v, hat, hv⟩ := h
  refine ⟨?_, path, v, rfl, hat, .inl hv⟩
  rintro rfl
  cases hat
  exact hv

end Seen

/-- **The consent list is honest and complete.** The selected disclosures are those whose path and a matched
path lie on one line, and they are closed under parents. A verifier who gets only these sees every matched
value whole, and outside the claims of the protocol the scalars it sees are those whose labels are listed.
Every label listed is that of such a scalar or of an empty object or array. -/
theorem selectForPaths_honest {p : Platform} (hjson : ∀ b v, p.parseJson b = some v → Ordered v)
    (hcompact : Compact p) (hquotes : Quotes p) {c : SdJwtVc} {issuerKey : Bytes} {alg : Alg}
    {a : AuthenticatedSdJwtHolding} (h : c.verifyAndProcess p issuerKey alg = .ok a.processed)
    {matched : List ClaimPath} (hmatched : ∀ m ∈ matched, (valueAt (.obj a.processed.claims) m).isSome)
    {selection : SdJwtDisclosureSelection}
    (hselection : selectAuthenticatedSdjwtDisclosuresForPaths p a matched = selection)
    (keyBindingJwt : Option String) :
    selection.disclosures = (a.processed.disclosures.filter fun r => Touches matched r.path).map (·.raw) ∧
      ClosedUnderParents a.processed.disclosures selection.disclosures ∧
      ∃ seen, (SdJwtVc.mk c.issuerJwt selection.disclosures keyBindingJwt).verifyAndProcess p issuerKey alg = .ok seen ∧
        (∀ m ∈ matched, ∃ shown,
          origin (withheld a.processed.disclosures selection.disclosures) (.obj a.processed.claims) shown = m ∧
            valueAt (.obj seen.claims) shown = valueAt (.obj a.processed.claims) m) ∧
        (∀ path, SeesScalar (withheld a.processed.disclosures selection.disclosures) a.processed.claims seen.claims path ∧
            ¬ IsControlPath path ↔
          HasScalar a.processed.claims path ∧ sdjwtPathString p path ∈ selection.revealedClaims) ∧
        ∀ label ∈ selection.revealedClaims, ∃ path, sdjwtPathString p path = label ∧
          (HasScalar a.processed.claims path ∨ valueAt (.obj a.processed.claims) path = some (.obj []) ∨
            valueAt (.obj a.processed.claims) path = some (.arr [])) := by
  obtain ⟨hholds, hclean, hordered⟩ := SdJwtVc.verifyAndProcess_holds hjson h
  obtain ⟨hperm, hprovided, hdigests⟩ := SdJwtVc.verifyAndProcess_records hjson h
  have hraws : (a.processed.disclosures.map (·.raw)).Nodup := hperm.nodup_iff.mpr hprovided
  have hdisclosures : selection.disclosures =
      (a.processed.disclosures.filter fun r => Touches matched r.path).map (·.raw) := by
    rw [← hselection]
    exact selectForPaths_disclosures hholds.enclosed hdigests
  have hrevealed {label : String} : label ∈ selection.revealedClaims ↔
      ∃ path, sdjwtPathString p path = label ∧ LeafAt (.obj a.processed.claims) [] path ∧ ¬ IsControlPath path ∧
        ∀ r ∈ a.processed.disclosures, r.path <+: path → Touches matched r.path := by
    rw [← hselection]
    exact mem_revealedClaims hholds.enclosed hdigests hclean hordered
  have hclosed : ClosedUnderParents a.processed.disclosures selection.disclosures := by
    rw [hdisclosures]
    exact touching_closed hholds.enclosed hraws
  have hsublist : selection.disclosures.Sublist (a.processed.disclosures.map (·.raw)) := by
    rw [hdisclosures]
    exact List.filter_sublist.map _
  have hsurvives {path : ClaimPath} : Survives (withheld a.processed.disclosures selection.disclosures) path ↔
      ∀ r ∈ a.processed.disclosures, r.path <+: path → Touches matched r.path := by
    rw [survives_withheld hholds.below, hdisclosures]
    refine forall_congr' fun r => forall_congr' fun hr => ?_
    rw [raw_mem_touching hraws hr, not_imp_not]
  obtain ⟨records, hseen⟩ := SdJwtVc.verifyAndProcess_pruned hjson hcompact h (hsublist.nodup hraws)
    (fun raw hraw => hperm.subset (hsublist.subset hraw)) hclosed keyBindingJwt
  refine ⟨hdisclosures, hclosed, _, hseen, fun m hm => ?_, fun path => ?_, fun label hlabel => ?_⟩
  · -- No disclosure above or below a matched path is withheld.
    obtain ⟨v, hv⟩ := Option.isSome_iff_exists.mp (hmatched m hm)
    obtain ⟨shown, horigin, hshown⟩ := exists_origin hv (hsurvives.mpr fun r _ hr => ⟨m, hm, .inl hr⟩)
    refine ⟨shown, horigin, ?_⟩
    have hbelow (rest : ClaimPath) :
        under (withheld a.processed.disclosures selection.disclosures) m rest = false := by
      by_contra hdrop
      rw [under, Bool.not_eq_false, withheld_eq_true] at hdrop
      obtain ⟨r, hr, hpath, hraw⟩ := hdrop
      rw [hdisclosures, raw_mem_touching hraws hr] at hraw
      exact hraw ⟨m, hm, .inr (hpath ▸ List.prefix_append m rest)⟩
    rw [prune_eq_self hbelow] at hshown
    exact hshown.trans hv.symm
  · rw [seesScalar_iff, hsurvives, hrevealed]
    constructor
    · rintro ⟨⟨hscalar, htouched⟩, hcontrol⟩
      exact ⟨hscalar, path, rfl, hscalar.leafAt, hcontrol, htouched⟩
    · rintro ⟨hscalar, other, hlabel, -, hcontrol, htouched⟩
      obtain rfl := sdjwtPathString_injective hquotes hlabel
      exact ⟨⟨hscalar, htouched⟩, hcontrol⟩
  · obtain ⟨path, hlabel, ⟨-, _, v, rfl, hat, hleaf⟩, -⟩ := hrevealed.mp hlabel
    refine ⟨path, hlabel, ?_⟩
    rcases hleaf with hscalar | rfl | rfl
    · exact .inl ⟨v, hat, hscalar⟩
    · exact .inr (.inl hat)
    · exact .inr (.inr hat)

/-! ### A sample -/

theorem compactPlatform_quotes : Quotes Sample.compactPlatform where
  opens name := ⟨_, String.toList_ofList⟩
  delimited {name other after after'} h := by
    have htext (s : String) (rest : List Char) : (Sample.compactPlatform.renderJson (.str s)).toList ++ rest =
        '"' :: (s.toList.flatMap (fun c => ['\\', c]) ++ '"' :: rest) := by
      simp [Sample.compactPlatform, Sample.written, Sample.quoted]
    rw [htext, htext] at h
    have hcode {c d : Char} {t u : List Char} (h : ['\\', c] ++ t = ['\\', d] ++ u) : c = d ∧ t = u :=
      List.cons.inj (List.cons.inj h).2
    obtain ⟨hname, hafter⟩ := coded_cancel (fun c => ⟨by simp, by simp⟩) hcode (List.cons.inj h).2
    exact ⟨String.toList_inj.mp hname, hafter⟩

/-- The second element is asked for: the array is disclosed without the first one, and the list says so. -/
theorem selectForPaths_honest_sample :
    selectAuthenticatedSdjwtDisclosuresForPaths Sample.compactPlatform ⟨Sample.processed⟩ [[.name "a", .index 1]] =
        ⟨[Sample.member], ["a[1]"]⟩ ∧
      ∃ seen, (Sample.token [Sample.member]).verifyAndProcess Sample.compactPlatform [] .es256 = .ok seen ∧
        SeesScalar (withheld Sample.processed.disclosures [Sample.member]) Sample.processed.claims seen.claims
          [.name "a", .index 1] := by
  have hselection : selectAuthenticatedSdjwtDisclosuresForPaths Sample.compactPlatform ⟨Sample.processed⟩
      [[.name "a", .index 1]] = ⟨[Sample.member], ["a[1]"]⟩ := by decide
  refine ⟨hselection, ?_⟩
  obtain ⟨-, -, seen, hseen, -, hlisted, -⟩ := selectForPaths_honest Sample.compactPlatform_ordered
    Sample.compactPlatform_compact compactPlatform_quotes Sample.token_processed_compact (by decide)
    hselection none
  have hscalar : HasScalar Sample.processed.claims [.name "a", .index 1] := ⟨.num (.posInt 1), by decide, trivial⟩
  exact ⟨seen, hseen, ((hlisted _).mpr ⟨hscalar, by decide⟩).1⟩

end EuWallet.Wallet
