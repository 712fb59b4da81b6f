import EuWallet.Lib.SimplePaths
import EuWallet.X509.Leaf
import Mathlib.Data.List.GetD

/-! # The search for a path

`explore_paths` keeps one stack and one record of budgets for the whole search. Within the budgets it
lists the simple paths of the graph whose edges lead from a certificate to its possible issuers, and
`validate_path` accepts a bundle when exactly one of them is valid. -/

namespace EuWallet.X509

open Codec Crypto Lib Lib.SimplePaths

/-- A certificate may have been issued by another: the names match and the key identifiers do not
contradict each other. -/
def mayIssue (child parent : ParsedCert) : Bool :=
  issuerNameMatches child parent && authorityKeyMatches child parent

/-! ### The search lists simple paths -/

section Search

variable (supplied anchors : List ParsedCert)

/-- The places of the supplied certificates that may have issued the one at a place. -/
def issuersOf (current : ℕ) : List ℕ :=
  match supplied[current]? with
  | none => []
  | some child =>
    (supplied.zipIdx.filter fun x => x.2 ≠ current && mayIssue child x.1).map (·.2)

/-- The places of the trust anchors that may have issued the certificate at a place. -/
def anchorsOf (current : ℕ) : List ℕ :=
  match supplied[current]? with
  | none => []
  | some child => (anchors.zipIdx.filter fun x => mayIssue child x.1).map (·.2)

/-- A path of the graph as the search records it. -/
def built (x : List ℕ × ℕ) : BuiltPath := ⟨x.1, x.2⟩

/-- A part of the search that stayed within the budgets: it did so from its start, and the completed
paths it added are the given ones. -/
def Adds (s s' : PathSearch) (found : List BuiltPath) : Prop :=
  s'.budgetExceeded = false → s.budgetExceeded = false ∧ s'.complete = s.complete ++ found

variable {supplied anchors}

theorem Adds.refl (s : PathSearch) : Adds s s [] := fun h => ⟨h, (List.append_nil _).symm⟩

theorem Adds.trans {s t u : PathSearch} {found more : List BuiltPath} (h : Adds s t found)
    (h' : Adds t u more) : Adds s u (found ++ more) := by
  intro hu
  obtain ⟨ht, hmore⟩ := h' hu
  obtain ⟨hs, hfound⟩ := h ht
  exact ⟨hs, by rw [hmore, hfound, List.append_assoc]⟩

theorem Adds.of_exceeded {s s' : PathSearch} {found : List BuiltPath}
    (h : s'.budgetExceeded = true) : Adds s s' found := by
  intro h'
  rw [h] at h'
  cases h'

theorem countStep_adds (s : PathSearch) : Adds s s.countStep [] := by
  intro h
  simp only [PathSearch.countStep, Bool.or_eq_false_iff] at h
  exact ⟨h.1, (List.append_nil _).symm⟩

theorem countCandidate_adds (s : PathSearch) (n : ℕ) : Adds s (s.countCandidate n) [] := by
  unfold PathSearch.countCandidate
  split
  · exact .of_exceeded rfl
  · exact countStep_adds s

theorem exploreAnchors_adds (child : ParsedCert) (path : List ℕ) (l : List (ParsedCert × ℕ)) :
    ∀ (s : PathSearch) (n : ℕ), Adds s (exploreAnchors child path l (s, n)).1
      ((l.filter fun x => mayIssue child x.1).map fun x => ⟨path, x.2⟩) := by
  induction l with
  | nil => exact fun s _ => .refl s
  | cons a l ih =>
    intro s n
    simp only [exploreAnchors]
    split_ifs with hexceeded hname hkey hcount hfull
    · exact .of_exceeded hexceeded
    · have hno : mayIssue child a.1 = false := by simp_all [mayIssue]
      rw [List.filter_cons, if_neg (by simp only [hno]; decide)]
      exact ih s n
    · have hno : mayIssue child a.1 = false := by simp_all [mayIssue]
      rw [List.filter_cons, if_neg (by simp only [hno]; decide)]
      exact ih { s with sawAuthorityKeyMismatch := true } n
    · exact .of_exceeded hcount
    · exact .of_exceeded rfl
    · have hyes : mayIssue child a.1 = true := by simp_all [mayIssue]
      rw [List.filter_cons, if_pos hyes, List.map_cons]
      have hpush : Adds (s.countCandidate (n + 1)) { s.countCandidate (n + 1) with
            complete := (s.countCandidate (n + 1)).complete ++ [⟨path, a.2⟩] } [⟨path, a.2⟩] :=
        fun h => ⟨h, rfl⟩
      exact ((countCandidate_adds s (n + 1)).trans hpush).trans (ih _ _)

theorem exploreParents_adds {explore : ℕ → List ℕ → PathSearch → PathSearch} {found : ℕ → List ℕ → List BuiltPath}
    (hexplore : ∀ i q s, Adds s (explore i q s) (found i q)) (child : ParsedCert) (current : ℕ)
    (path : List ℕ) (l : List (ParsedCert × ℕ)) :
    ∀ (s : PathSearch) (n : ℕ), Adds s (exploreParents explore child current path l (s, n)).1
      ((((l.filter fun x => x.2 ≠ current && mayIssue child x.1).map (·.2)).filter
        (· ∉ path)).flatMap fun i => found i (path ++ [i])) := by
  induction l with
  | nil => exact fun s _ => .refl s
  | cons a l ih =>
    intro s n
    simp only [exploreParents]
    split_ifs with hexceeded hname hkey hcount hloop
    · exact .of_exceeded hexceeded
    · have hno : (a.2 ≠ current && mayIssue child a.1) = false := by
        by_cases hcurrent : a.2 = current <;> simp_all [mayIssue]
      rw [List.filter_cons, if_neg (by simp only [hno]; decide)]
      exact ih s n
    · have hno : (a.2 ≠ current && mayIssue child a.1) = false := by simp_all [mayIssue]
      rw [List.filter_cons, if_neg (by simp only [hno]; decide)]
      exact ih { s with sawAuthorityKeyMismatch := true } n
    · exact .of_exceeded hcount
    · have hyes : (a.2 ≠ current && mayIssue child a.1) = true := by simp_all [mayIssue]
      rw [List.filter_cons, if_pos hyes, List.map_cons, List.filter_cons, if_neg (by simpa using hloop)]
      have hflag : Adds (s.countCandidate (n + 1)) { s.countCandidate (n + 1) with sawLoop := true } [] :=
        fun h => ⟨h, (List.append_nil _).symm⟩
      exact ((countCandidate_adds s (n + 1)).trans hflag).trans (ih _ _)
    · have hyes : (a.2 ≠ current && mayIssue child a.1) = true := by simp_all [mayIssue]
      rw [List.filter_cons, if_pos hyes, List.map_cons, List.filter_cons,
        if_pos (by simpa using hloop), List.flatMap_cons]
      exact ((countCandidate_adds s (n + 1)).trans (hexplore _ _ _)).trans (ih _ _)

theorem explorePaths_adds (depth : ℕ) : ∀ (current : ℕ) (path : List ℕ) (s : PathSearch),
    Adds s (explorePaths supplied anchors depth current path s)
      ((paths (issuersOf supplied) (anchorsOf supplied anchors) depth current path).map built) := by
  induction depth with
  | zero => exact fun _ _ s => .refl s
  | succ depth ih =>
    intro current path s
    simp only [explorePaths]
    split_ifs with hexceeded hcount
    · exact .of_exceeded hexceeded
    · exact .of_exceeded hcount
    · rw [paths, List.map_append, List.map_map, List.map_flatMap]
      cases hchild : supplied[current]? with
      | none => simpa [anchorsOf, issuersOf, hchild] using countStep_adds s
      | some child =>
        have hanchors := exploreAnchors_adds child path anchors.zipIdx s.countStep 0
        have hparents := exploreParents_adds ih child current path supplied.zipIdx
          (exploreAnchors child path anchors.zipIdx (s.countStep, 0)).1
          (exploreAnchors child path anchors.zipIdx (s.countStep, 0)).2
        simp only [anchorsOf, issuersOf, hchild, List.map_map]
        exact ((countStep_adds s).trans hanchors).trans hparents

end Search

/-! ### Exactly one completed path is valid -/

/-- What a completed path contributes: the path with its effective policies, if it is valid. -/
def accepted (p : Platform) (now : ℤ) (path : List ParsedCert) : Option (List ParsedCert) :=
  (validateBuiltPath p path now).toOption.map (setLeafPolicies · path)

variable {p : Platform} {path supplied : List ParsedCert} {policies : List String} {now : ℤ} {leaf : ParsedCert}

theorem accepted_eq_some {q : List ParsedCert} : accepted p now path = some q ↔
    ∃ policies, validateBuiltPath p path now = .ok policies ∧ q = setLeafPolicies policies path := by
  unfold accepted
  cases validateBuiltPath p path now with
  | error e => simp [Except.toOption]
  | ok policies => simp [Except.toOption, eq_comm]

theorem selectPath_eq_ok (p : Platform) (now : ℤ) (supplied anchors : List ParsedCert)
    (bs : List BuiltPath) : ∀ (valid : Option (List ParsedCert)) (err : Option X509Error) (path : List ParsedCert),
      (∃ err', selectPath p now supplied anchors bs valid err = .ok (some path, err')) ↔
        valid.toList ++ bs.filterMap (fun b => accepted p now (candidatePath supplied anchors b)) = [path] := by
  induction bs with
  | nil =>
    intro valid err path
    cases valid <;> simp [selectPath]
  | cons b bs ih =>
    intro valid err path
    cases hvalid : validateBuiltPath p (candidatePath supplied anchors b) now with
    | error e =>
      have hskip : accepted p now (candidatePath supplied anchors b) = none := by
        simp [accepted, hvalid, Except.toOption]
      simp only [List.filterMap_cons, hskip]
      simp only [selectPath, hvalid]
      exact ih valid _ path
    | ok policies =>
      have hhit : accepted p now (candidatePath supplied anchors b) =
          some (setLeafPolicies policies (candidatePath supplied anchors b)) :=
        accepted_eq_some.mpr ⟨policies, hvalid, rfl⟩
      simp only [List.filterMap_cons, hhit]
      cases valid with
      | none =>
        simp only [selectPath, hvalid]
        exact ih (some _) err path
      | some q => simp [selectPath, hvalid]

theorem searchPath_eq_ok {anchors : List ParsedCert} {leaf : ℕ}
    (hbudget : (explorePaths supplied anchors supplied.length leaf [leaf] {}).budgetExceeded = false) :
    searchPath p now supplied anchors leaf = .ok path ↔
      (paths (issuersOf supplied) (anchorsOf supplied anchors) supplied.length leaf [leaf]).filterMap
        (fun x => accepted p now (candidatePath supplied anchors (built x))) = [path] := by
  have hcomplete := (explorePaths_adds supplied.length leaf [leaf] {} hbudget).2
  have hselect := selectPath_eq_ok p now supplied anchors
    (explorePaths supplied anchors supplied.length leaf [leaf] {}).complete none none path
  have hlist : (explorePaths supplied anchors supplied.length leaf [leaf] {}).complete.filterMap
      (fun b => accepted p now (candidatePath supplied anchors b)) =
      (paths (issuersOf supplied) (anchorsOf supplied anchors) supplied.length leaf
        [leaf]).filterMap (fun x => accepted p now (candidatePath supplied anchors (built x))) := by
    rw [hcomplete, List.nil_append, List.filterMap_map]
    rfl
  rw [Option.toList_none, List.nil_append, hlist] at hselect
  rw [← hselect]
  simp only [searchPath, guard_eq_ok, bind_eq_ok, hbudget, Bool.false_eq_true, not_false_eq_true, true_and]
  constructor
  · rintro ⟨⟨found, err⟩, hsel, h⟩
    cases found with
    | some q => exact ⟨err, by rw [hsel, pure_eq_ok.mp h]⟩
    | none =>
      cases err with
      | some e => exact absurd h throw_ne_ok
      | none =>
        simp only [guard_eq_ok] at h
        exact absurd h.2.2 throw_ne_ok
  · rintro ⟨err, hsel⟩
    exact ⟨_, hsel, rfl⟩

/-! ### The head of the accepted path -/

/-- A path that starts at a certificate up to the policies path validation puts into it. -/
def HeadIs (leaf : ParsedCert) (path : List ParsedCert) : Prop :=
  ∃ policies rest, path = { leaf with policies } :: rest

theorem candidatePath_head (anchors : List ParsedCert) {b : BuiltPath} {i : ℕ} (hb : b.suppliedIndices.head? = some i) (hi : supplied[i]? = some leaf) :
    ∃ rest, candidatePath supplied anchors b = leaf :: rest := by
  obtain ⟨indices, anchor⟩ := b
  cases indices with
  | nil => cases hb
  | cons j indices =>
    obtain rfl : j = i := Option.some.inj hb
    exact ⟨_, by simp only [candidatePath, List.filterMap_cons, hi, List.cons_append]; rfl⟩

theorem searchPath_head {anchors : List ParsedCert} {i : ℕ} (hi : supplied[i]? = some leaf)
    (h : searchPath p now supplied anchors i = .ok path) : HeadIs leaf path := by
  have hbudget : (explorePaths supplied anchors supplied.length i [i] {}).budgetExceeded = false := by
    simp only [searchPath, guard_eq_ok] at h
    exact Bool.eq_false_iff.mpr h.1
  have hmem := List.mem_singleton_self path
  rw [← (searchPath_eq_ok hbudget).mp h] at hmem
  obtain ⟨⟨indices, anchor⟩, hindices, haccepted⟩ := List.mem_filterMap.mp hmem
  obtain ⟨policies, -, rfl⟩ := accepted_eq_some.mp haccepted
  -- every path the search lists continues the one it starts with
  obtain ⟨more, hmore⟩ := isPrefix_of_mem_paths hindices
  obtain ⟨rest, hrest⟩ := candidatePath_head anchors (b := built (indices, anchor))
    (show indices.head? = some i by rw [← hmore]; rfl) hi
  rw [hrest]
  exact ⟨policies, rest, rfl⟩

/-- At the head of an accepted path stands the one certificate that issues no other. -/
theorem validatePath_leaf {chain : List Bytes} {trustAnchors : List ParsedCert}
    (h : validatePath p chain trustAnchors now = .ok path) :
    ∃ certs leaf, chain.mapM (parseCert p) = .ok certs ∧
      (∀ c, IssuesNoOther certs c ↔ c = leaf) ∧ HeadIs leaf path := by
  simp only [validatePath, guard_eq_ok, bind_eq_ok] at h
  obtain ⟨-, -, -, -, -, certs, hcerts, -, h⟩ := h
  split at h
  · rename_i i hleaf
    obtain ⟨leaf, hi, huniq⟩ := issuesNoOther_iff_eq hleaf
    have hperm := List.perm_insertionSort (fun a b => certificateLe a b = true) certs
    exact ⟨certs, leaf, hcerts, fun c => (IssuesNoOther.perm hperm).symm.trans (huniq c), searchPath_head hi h⟩
  · exact absurd h throw_ne_ok
  · exact absurd h throw_ne_ok

/-! ### The paths of a bundle

The bundle is a list of distinct encodings, of which `parsed` gives the certificates. Sorting it
changes the order in which paths are found and not the paths. -/

section Bundle

variable (parsed : Bytes → ParsedCert)

/-- The certificates of a path that is given by encodings of the bundle and a trust anchor. -/
def certificates (x : List Bytes × ParsedCert) : List ParsedCert := x.1.map parsed ++ [x.2]

structure BundlePath (chain : List Bytes) (trustAnchors : List ParsedCert) (leaf : Bytes)
    (x : List Bytes × ParsedCert) : Prop where
  starts : x.1.head? = some leaf
  distinct : x.1.Nodup
  supplied : ∀ der ∈ x.1, der ∈ chain
  trusted : x.2 ∈ trustAnchors
  linked : (certificates parsed x).IsChain fun child parent => mayIssue child parent = true

/-- The certificates of a bundle that may have issued the given one. -/
def bundleIssuers (chain : List Bytes) (der : Bytes) : List Bytes :=
  chain.filter fun other => other ≠ der && mayIssue (parsed der) (parsed other)

def bundleAnchors (trustAnchors : List ParsedCert) (der : Bytes) : List ParsedCert :=
  trustAnchors.filter (mayIssue (parsed der))

variable {parsed}

variable {trustAnchors : List ParsedCert} {chain : List Bytes}

theorem climb_iff {anchor : ParsedCert} : ∀ {der : Bytes} {rest : List Bytes}, (der :: rest).Nodup →
    (Climb (bundleIssuers parsed chain) (bundleAnchors parsed trustAnchors) der rest anchor ↔
        (∀ other ∈ rest, other ∈ chain) ∧ anchor ∈ trustAnchors ∧ (certificates parsed (der :: rest, anchor)).IsChain
            fun child parent => mayIssue child parent = true) := by
  intro der rest hnodup
  induction rest generalizing der with
  | nil =>
    constructor
    · rintro (⟨hgoal⟩)
      obtain ⟨hmem, hissue⟩ := List.mem_filter.mp hgoal
      exact ⟨by simp, hmem, by simpa [certificates] using hissue⟩
    · rintro ⟨-, hmem, hissue⟩
      exact .goal (List.mem_filter.mpr ⟨hmem, by simpa [certificates] using hissue⟩)
  | cons next rest ih =>
    obtain ⟨hfresh, hrest⟩ := List.nodup_cons.mp hnodup
    have hne : next ≠ der := fun h => hfresh (h ▸ List.mem_cons_self)
    have hcons : (certificates parsed (der :: next :: rest, anchor)).IsChain
          (fun child parent => mayIssue child parent = true) ↔ mayIssue (parsed der) (parsed next) = true ∧
          (certificates parsed (next :: rest, anchor)).IsChain fun child parent => mayIssue child parent = true := by
      simp [certificates, List.isChain_cons_cons]
    rw [hcons, List.forall_mem_cons]
    constructor
    · rintro (_ | ⟨hnext, way⟩)
      obtain ⟨hmem, hissue⟩ := List.mem_filter.mp hnext
      obtain ⟨hall, htrust, hlinked⟩ := (ih hrest).mp way
      exact ⟨⟨hmem, hall⟩, htrust, by simp_all, hlinked⟩
    · rintro ⟨⟨hmem, hall⟩, htrust, hissue, hlinked⟩
      exact .next (List.mem_filter.mpr ⟨hmem, by simp [hne, hissue]⟩)
        ((ih hrest).mpr ⟨hall, htrust, hlinked⟩)

theorem mem_paths_bundle {leaf : Bytes} (hleaf : leaf ∈ chain) (x : List Bytes × ParsedCert) :
    x ∈ paths (bundleIssuers parsed chain) (bundleAnchors parsed trustAnchors) chain.length leaf
        [leaf] ↔ BundlePath parsed chain trustAnchors leaf x := by
  obtain ⟨ders, anchor⟩ := x
  have hclosed : ∀ a, ∀ b ∈ bundleIssuers parsed chain a, b ∈ chain.toFinset :=
    fun a b hb => List.mem_toFinset.mpr (List.mem_of_mem_filter hb)
  rw [mem_paths hclosed chain.length (List.nodup_singleton leaf) (by simpa using hleaf)
    (by have := chain.toFinset_card_le; simp only [List.length_singleton]; omega)]
  constructor
  · rintro ⟨rest, rfl, way, hnodup⟩
    obtain ⟨hall, htrust, hlinked⟩ := (climb_iff hnodup).mp way
    exact ⟨rfl, hnodup, List.forall_mem_cons.mpr ⟨hleaf, hall⟩, htrust, hlinked⟩
  · rintro ⟨hstart, hnodup, hall, htrust, hlinked⟩
    obtain ⟨rest, rfl⟩ : ∃ rest, ders = leaf :: rest := List.head?_eq_some_iff.mp hstart
    exact ⟨rest, rfl, (climb_iff hnodup).mpr
      ⟨fun d hd => hall d (List.mem_cons_of_mem _ hd), htrust, hlinked⟩, hnodup⟩

theorem nodup_paths_bundle {leaf : Bytes} (hchain : chain.Nodup) (hanchors : trustAnchors.Nodup) :
    (paths (bundleIssuers parsed chain) (bundleAnchors parsed trustAnchors) chain.length leaf [leaf]).Nodup :=
  nodup_paths (fun _ => hchain.filter _) (fun _ => hanchors.filter _) _ _ _

/-! ### Places and encodings -/

theorem map_getD_filter_zipIdx {α : Type} {l : List α} {P : α × ℕ → Bool} {Q : α → Bool}
    (h : ∀ x ∈ l.zipIdx, P x = Q x.1) (d : α) : ((l.zipIdx.filter P).map (·.2)).map (l.getD · d) = l.filter Q := by
  have hget : ∀ x ∈ l.zipIdx.filter (Q ∘ Prod.fst), l.getD x.2 d = x.1 := by
    intro x hx
    rw [List.getD_eq_getElem?_getD, List.mem_zipIdx_iff_getElem?.mp (List.mem_of_mem_filter hx), Option.getD_some]
  calc ((l.zipIdx.filter P).map (·.2)).map (l.getD · d)
      = (l.zipIdx.filter (Q ∘ Prod.fst)).map fun x => l.getD x.2 d := by
        rw [List.filter_congr h, List.map_map]
        rfl
    _ = (l.zipIdx.filter (Q ∘ Prod.fst)).map Prod.fst := List.map_congr_left hget
    _ = l.filter Q := by rw [← List.filter_map, List.zipIdx_map_fst]

variable {anchors : List ParsedCert} {i : ℕ}

theorem getD_injOn (hchain : chain.Nodup) : Set.InjOn (fun i => chain.getD i []) {i | i < chain.length} := by
  intro i hi j hj hij
  simp only [List.getD_eq_getElem _ _ hi, List.getD_eq_getElem _ _ hj] at hij
  exact (hchain.getElem_inj_iff).mp hij

theorem mem_issuersOf_lt {current : ℕ} (h : i ∈ issuersOf supplied current) : i < supplied.length := by
  unfold issuersOf at h
  split at h
  · cases h
  · obtain ⟨x, hx, rfl⟩ := List.mem_map.mp h
    exact (List.getElem?_eq_some_iff.mp (List.mem_zipIdx_iff_getElem?.mp (List.mem_of_mem_filter hx))).1

theorem mem_anchorsOf_lt {current : ℕ} (h : i ∈ anchorsOf supplied anchors current) : i < anchors.length := by
  unfold anchorsOf at h
  split at h
  · cases h
  · obtain ⟨x, hx, rfl⟩ := List.mem_map.mp h
    exact (List.getElem?_eq_some_iff.mp (List.mem_zipIdx_iff_getElem?.mp (List.mem_of_mem_filter hx))).1

theorem bundleIssuers_getD (hchain : chain.Nodup) (hi : i < chain.length) :
    bundleIssuers parsed chain (chain.getD i []) = (issuersOf (chain.map parsed) i).map (chain.getD · []) := by
  have hchild : (chain.map parsed)[i]? = some (parsed (chain.getD i [])) := by
    simp [hi]
  simp only [issuersOf, hchild, List.zipIdx_map, List.filter_map, List.map_map]
  symm
  refine (List.map_map).symm.trans (map_getD_filter_zipIdx (fun x hx => ?_) [])
  obtain ⟨hlt, hx⟩ := List.getElem?_eq_some_iff.mp (List.mem_zipIdx_iff_getElem?.mp hx)
  have hplace : x.2 = i ↔ x.1 = chain.getD i [] := by
    rw [← hx, List.getD_eq_getElem _ _ hi, hchain.getElem_inj_iff]
  simp [hplace]

theorem bundleAnchors_getD (a₀ : ParsedCert) (hi : i < chain.length) :
    bundleAnchors parsed anchors (chain.getD i []) =
      (anchorsOf (chain.map parsed) anchors i).map (anchors.getD · a₀) := by
  have hchild : (chain.map parsed)[i]? = some (parsed (chain.getD i [])) := by
    simp [hi]
  simp only [anchorsOf, hchild]
  exact (map_getD_filter_zipIdx (fun _ _ => rfl) a₀).symm

theorem paths_places (hchain : chain.Nodup) (a₀ : ParsedCert) (hi : i < chain.length) (depth : ℕ) :
    paths (bundleIssuers parsed chain) (bundleAnchors parsed anchors) depth (chain.getD i []) [chain.getD i []] =
      (paths (issuersOf (chain.map parsed)) (anchorsOf (chain.map parsed) anchors) depth i [i]).map
        (Prod.map (List.map (chain.getD · [])) (anchors.getD · a₀)) :=
  paths_map (getD_injOn hchain)
    (fun _ _ _ hb => (mem_issuersOf_lt hb).trans_eq (List.length_map parsed))
    (fun _ hlt => bundleIssuers_getD hchain hlt) (fun _ hlt => bundleAnchors_getD a₀ hlt) depth i hi
    [i] (by simpa using hi)

theorem candidatePath_built {indices : List ℕ} {a : ℕ} (a₀ : ParsedCert)
    (hindices : ∀ i ∈ indices, i < chain.length) (ha : a < anchors.length) :
    candidatePath (chain.map parsed) anchors (built (indices, a)) =
      certificates parsed (Prod.map (List.map (chain.getD · [])) (anchors.getD · a₀) (indices, a)) := by
  have hmap : indices.filterMap ((chain.map parsed)[·]?) = (indices.map (chain.getD · [])).map parsed := by
    rw [List.map_map, ← List.filterMap_eq_map (f := parsed ∘ (chain.getD · []))]
    refine List.filterMap_congr fun i hi => ?_
    simp [hindices i hi]
  simp only [candidatePath, built, certificates, Prod.map_apply, hmap,
    List.getElem?_eq_getElem ha, Option.toList_some, List.getD_eq_getElem _ _ ha]

theorem searchPath_bundle {p : Platform} {now : ℤ} (hchain : chain.Nodup) (hne : anchors ≠ []) (hi : i < chain.length)
    (hbudget : (explorePaths (chain.map parsed) anchors (chain.map parsed).length i [i]
      {}).budgetExceeded = false) {path : List ParsedCert} :
    searchPath p now (chain.map parsed) anchors i = .ok path ↔
      (paths (bundleIssuers parsed chain) (bundleAnchors parsed anchors) chain.length
        (chain.getD i []) [chain.getD i []]).filterMap
          (fun x => accepted p now (certificates parsed x)) = [path] := by
  obtain ⟨a₀, -⟩ := List.exists_mem_of_ne_nil anchors hne
  rw [searchPath_eq_ok hbudget, List.length_map, paths_places hchain a₀ hi, List.filterMap_map]
  rw [List.filterMap_congr fun x hx => ?_]
  have hclosed : ∀ j ∈ {i | i < chain.length}, ∀ k ∈ issuersOf (chain.map parsed) j, k ∈ {i | i < chain.length} :=
    fun _ _ _ hb => (mem_issuersOf_lt hb).trans_eq (List.length_map parsed)
  obtain ⟨hindices, j, -, ha⟩ := mem_nodes_of_mem_paths hclosed hi (by simpa using hi) hx
  exact congrArg (accepted p now) (candidatePath_built a₀ hindices (mem_anchorsOf_lt ha))

end Bundle

/-! ### Accepted paths are signed -/

/-- The signature on a certificate verifies under the key of another. -/
def SignedBy (p : Platform) (child parent : ParsedCert) : Prop :=
  p.verifyCertificate child.sigAlg parent.publicKeyRaw child.tbsDer child.signature = true

theorem checkLink_signed {child parent : ParsedCert} (h : checkLink p child parent = .ok ()) :
    SignedBy p child parent := by
  simp only [checkLink, guard_eq_ok, bind_eq_ok] at h
  obtain ⟨-, -, key, -, -, h⟩ := h
  split at h
  · cases h
  · rename_i hverified
    simpa [SignedBy] using hverified

theorem isChain_of_forall_mem_zip {α : Type} {R : α → α → Prop} :
    ∀ {l : List α}, (∀ x ∈ l.zip (l.drop 1), R x.1 x.2) → l.IsChain R
  | [], _ => .nil
  | [a], _ => .singleton a
  | a :: b :: _, h => .cons_cons (h (a, b) List.mem_cons_self)
      (isChain_of_forall_mem_zip fun x hx => h x (List.mem_cons_of_mem _ hx))

theorem validateBuiltPath_signed (h : validateBuiltPath p path now = .ok policies) : path.IsChain (SignedBy p) := by
  simp only [validateBuiltPath, bind_eq_ok] at h
  obtain ⟨_, -, _, -, _, -, _, -, _, -, _, -, _, hlinks, -⟩ := h
  exact isChain_of_forall_mem_zip fun x hx => checkLink_signed (forM_ok _ hlinks x hx)

theorem signed_setLeafPolicies (h : path.IsChain (SignedBy p)) :
    (setLeafPolicies policies path).IsChain (SignedBy p) := by
  cases path with
  | nil => exact h
  | cons leaf rest =>
    cases rest with
    | nil => exact .singleton _
    | cons issuer rest =>
      obtain ⟨hleaf, hrest⟩ := List.isChain_cons_cons.mp h
      exact .cons_cons hleaf hrest

theorem getLast?_setLeafPolicies_certificates {parsed : Bytes → ParsedCert}
    {x : List Bytes × ParsedCert} (hne : x.1 ≠ []) :
    (setLeafPolicies policies (certificates parsed x)).getLast? = some x.2 := by
  obtain ⟨ders, anchor⟩ := x
  cases ders with
  | nil => exact absurd rfl hne
  | cons der ders =>
    simp only [certificates, List.map_cons, List.cons_append, setLeafPolicies]
    rw [← List.cons_append, List.getLast?_concat]

/-! ### The paths `validate_path` accepts -/

theorem hasDuplicate_eq_false {α : Type} {eq : α → α → Bool} {l : List α} :
    hasDuplicate eq l = false ↔ l.Pairwise fun a b => eq a b = false := by
  induction l with
  | nil => simp [hasDuplicate]
  | cons a l ih => simp [hasDuplicate, ih]

theorem filterMap_eq_singleton {α β : Type} {l : List α} (hl : l.Nodup) {f : α → Option β} {b : β} :
    l.filterMap f = [b] ↔ ∃ x ∈ l, f x = some b ∧ ∀ y ∈ l, (f y).isSome → y = x := by
  induction l with
  | nil => simp
  | cons a l ih =>
    obtain ⟨hfresh, hl⟩ := List.nodup_cons.mp hl
    cases ha : f a with
    | none =>
      rw [List.filterMap_cons, ha]
      refine (ih hl).trans ⟨?_, ?_⟩
      · rintro ⟨x, hx, hb, huniq⟩
        refine ⟨x, List.mem_cons_of_mem a hx, hb, List.forall_mem_cons.mpr ⟨?_, huniq⟩⟩
        simp [ha]
      · rintro ⟨x, hx, hb, huniq⟩
        rcases List.mem_cons.mp hx with rfl | hx
        · rw [ha] at hb
          cases hb
        · exact ⟨x, hx, hb, fun y hy => huniq y (List.mem_cons_of_mem a hy)⟩
    | some c =>
      rw [List.filterMap_cons, ha]
      constructor
      · intro h
        obtain ⟨rfl, hnone⟩ := List.cons.inj h
        refine ⟨a, List.mem_cons_self, ha, List.forall_mem_cons.mpr ⟨fun _ => rfl, ?_⟩⟩
        intro y hy hsome
        rw [List.filterMap_eq_nil_iff.mp hnone y hy] at hsome
        cases hsome
      · rintro ⟨x, hx, hb, huniq⟩
        obtain rfl : a = x := huniq a List.mem_cons_self (by simp [ha])
        obtain rfl : c = b := Option.some.inj (ha.symm.trans hb)
        refine congrArg _ (List.filterMap_eq_nil_iff.mpr fun y hy => ?_)
        refine Option.not_isSome_iff_eq_none.mp fun hsome => hfresh ?_
        exact huniq y (List.mem_cons_of_mem a hy) hsome ▸ hy

structure Searchable (p : Platform) (parsed : Bytes → ParsedCert) (chain : List Bytes)
    (trustAnchors : List ParsedCert) (leaf : Bytes) : Prop where
  parses : ∀ der ∈ chain, parseCert p der = .ok (parsed der)
  distinct : chain.Nodup
  anchorsDistinct : trustAnchors.Pairwise fun l r => certificateEq l r = false
  disjoint : ∀ der ∈ chain, ∀ anchor ∈ trustAnchors, certificateEq (parsed der) anchor = false
  leaf_iff : ∀ der, (der ∈ chain ∧ ∀ child ∈ chain, child ≠ der →
    issuerNameMatches (parsed child) (parsed der) = false) ↔ der = leaf
  suppliedBudget : chain.length ≤ maxSuppliedCertificates
  anchorBudget : trustAnchors.length ≤ maxTrustAnchors
  searchBudget : ∀ i ∈ leafIndices ((chain.map parsed).insertionSort (certificateLe · ·)),
    (explorePaths ((chain.map parsed).insertionSort (certificateLe · ·))
      (trustAnchors.insertionSort (certificateLe · ·)) chain.length i [i] {}).budgetExceeded = false

section Accepts

variable {parsed : Bytes → ParsedCert} {chain : List Bytes} {trustAnchors : List ParsedCert} {leaf : Bytes}

/-- The bundle in the order in which `validate_path` searches it. -/
def sortedBundle (parsed : Bytes → ParsedCert) (chain : List Bytes) : List Bytes :=
  chain.insertionSort fun l r => certificateLe (parsed l) (parsed r) = true

theorem map_sortedBundle : (sortedBundle parsed chain).map parsed =
    (chain.map parsed).insertionSort (certificateLe · ·) :=
  List.map_insertionSort _ _ parsed chain fun _ _ _ _ => Iff.rfl

theorem sortedBundle_perm : (sortedBundle parsed chain).Perm chain := List.perm_insertionSort _ _

theorem mapM_eq_ok_map {ε α β : Type} {f : α → Except ε β} {g : α → β} :
    ∀ {l : List α}, (∀ a ∈ l, f a = .ok (g a)) → l.mapM f = .ok (l.map g)
  | [], _ => rfl
  | a :: l, h => by
    rw [List.mapM_cons, h a List.mem_cons_self, mapM_eq_ok_map fun b hb => h b (List.mem_cons_of_mem a hb)]
    rfl

section
variable (h : Searchable p parsed chain trustAnchors leaf)
include h

theorem Searchable.leaf_mem : leaf ∈ chain :=
  ((h.leaf_iff leaf).mpr rfl).1

theorem Searchable.leafIndices_eq : ∃ i, leafIndices ((sortedBundle parsed chain).map parsed) = [i] ∧
      i < (sortedBundle parsed chain).length ∧ (sortedBundle parsed chain).getD i [] = leaf := by
  have hnodup : (sortedBundle parsed chain).Nodup := sortedBundle_perm.nodup_iff.mpr h.distinct
  have hmem : ∀ der, der ∈ sortedBundle parsed chain ↔ der ∈ chain := fun der =>
    sortedBundle_perm.mem_iff
  obtain ⟨i, hi, hget⟩ := List.getElem_of_mem ((hmem leaf).mpr h.leaf_mem)
  refine ⟨i, List.perm_singleton.mp ((List.perm_ext_iff_of_nodup ?_ (List.nodup_singleton i)).mpr
    fun j => ?_), hi, by rw [List.getD_eq_getElem _ _ hi, hget]⟩
  · refine List.Nodup.sublist (List.filter_sublist.map _) ?_
    rw [List.zipIdx_map_snd]
    exact List.nodup_range'
  · rw [mem_leafIndices, List.mem_singleton]
    -- a place is a leaf index when the encoding there issues no other encoding
    have hplace : ∀ {k : ℕ} (hk : k < (sortedBundle parsed chain).length),
        (sortedBundle parsed chain)[k] = leaf ↔ k = i := fun hk => by
      rw [← hget, hnodup.getElem_inj_iff]
    constructor
    · rintro ⟨c, hj, hnone⟩
      obtain ⟨hlt, rfl⟩ := List.getElem?_eq_some_iff.mp hj
      rw [List.length_map] at hlt
      refine (hplace hlt).mp ((h.leaf_iff _).mp ⟨(hmem _).mp (List.getElem_mem hlt), ?_⟩)
      intro child hchild hne
      obtain ⟨k, hk, rfl⟩ := List.getElem_of_mem ((hmem child).mpr hchild)
      have hkj : k ≠ j := fun hkj => hne (by simp [hkj])
      simpa using hnone k (parsed (sortedBundle parsed chain)[k]) hkj (by simp [hk])
    · rintro rfl
      refine ⟨parsed leaf, by simp [hi, hget], fun k child hkj hchild => ?_⟩
      obtain ⟨hlt, rfl⟩ := List.getElem?_eq_some_iff.mp hchild
      rw [List.length_map] at hlt
      rw [List.getElem_map]
      refine ((h.leaf_iff leaf).mpr rfl).2 _ ((hmem _).mp (List.getElem_mem hlt)) ?_
      exact fun heq => hkj ((hplace hlt).mp heq)

theorem Searchable.validatePath_eq_ok {now : ℤ}
    {path : List ParsedCert} : validatePath p chain trustAnchors now = .ok path ↔
      ∃ x, BundlePath parsed chain trustAnchors leaf x ∧ accepted p now (certificates parsed x) = some path ∧
        ∀ y, BundlePath parsed chain trustAnchors leaf y →
          (accepted p now (certificates parsed y)).isSome → y = x := by
  have hchain : (sortedBundle parsed chain).Nodup := sortedBundle_perm.nodup_iff.mpr h.distinct
  have hperm := List.perm_insertionSort (certificateLe · ·) trustAnchors
  have hanchors : (trustAnchors.insertionSort (certificateLe · ·)).Nodup := by
    refine hperm.nodup_iff.mpr (h.anchorsDistinct.imp fun {l r} hne heq => ?_)
    simp [heq, certificateEq] at hne
  obtain ⟨i, hleaf, hi, hget⟩ := h.leafIndices_eq
  have hpaths : ∀ x, x ∈ paths (bundleIssuers parsed (sortedBundle parsed chain))
        (bundleAnchors parsed (trustAnchors.insertionSort (certificateLe · ·)))
        (sortedBundle parsed chain).length leaf [leaf] ↔
      BundlePath parsed chain trustAnchors leaf x := fun x => by
    rw [mem_paths_bundle (sortedBundle_perm.mem_iff.mpr h.leaf_mem)]
    exact ⟨fun b => ⟨b.starts, b.distinct, fun d hd => sortedBundle_perm.mem_iff.mp (b.supplied d hd),
        hperm.mem_iff.mp b.trusted, b.linked⟩,
      fun b => ⟨b.starts, b.distinct, fun d hd => sortedBundle_perm.mem_iff.mpr (b.supplied d hd),
        hperm.mem_iff.mpr b.trusted, b.linked⟩⟩
  by_cases hne : trustAnchors = []
  · -- without an anchor there is no path, and the call fails
    constructor
    · intro hok
      simp only [validatePath, guard_eq_ok, hne] at hok
      exact absurd rfl hok.2.2.1
    · rintro ⟨x, hx, -⟩
      exact absurd hx.trusted (hne ▸ List.not_mem_nil)
  have hne' : trustAnchors.insertionSort (certificateLe · ·) ≠ [] := fun hnil =>
    hne (hnil ▸ hperm).nil_eq.symm
  have hsearch : validatePath p chain trustAnchors now = .ok path ↔
      searchPath p now ((sortedBundle parsed chain).map parsed)
        (trustAnchors.insertionSort (certificateLe · ·)) i = .ok path := by
    have hempty : ¬ chain.isEmpty = true := by
      simpa using List.ne_nil_of_mem h.leaf_mem
    have hbudgets : ¬ (maxSuppliedCertificates < chain.length ∨ maxTrustAnchors < trustAnchors.length) := by
      have hsupplied := h.suppliedBudget
      have htrusted := h.anchorBudget
      omega
    have hduplicate : ¬ hasDuplicate (· == ·) chain = true := by
      rw [Bool.not_eq_true, hasDuplicate_eq_false]
      exact h.distinct.imp fun {a b} hab => by simpa using hab
    have hanchor : ¬ hasDuplicate certificateEq trustAnchors = true := by
      rw [Bool.not_eq_true, hasDuplicate_eq_false]
      exact h.anchorsDistinct
    have hsupplied : ¬ (((sortedBundle parsed chain).map parsed).any fun c =>
        (trustAnchors.insertionSort (certificateLe · ·)).any (certificateEq c)) = true := by
      simp only [List.any_eq_true, List.mem_map, not_exists, not_and, Bool.not_eq_true]
      rintro _ ⟨der, hder, rfl⟩ anchor ha
      exact h.disjoint der (sortedBundle_perm.mem_iff.mp hder) anchor (hperm.mem_iff.mp ha)
    simp only [validatePath, guard_eq_ok, bind_eq_ok, mapM_eq_ok_map h.parses, Except.ok.injEq,
      exists_eq_left', ← map_sortedBundle, hempty, hbudgets, hduplicate, hanchor, hsupplied, hleaf,
      List.isEmpty_iff, hne, Bool.false_eq_true, not_false_eq_true, true_and]
  have hlength : chain.length = ((sortedBundle parsed chain).map parsed).length := by
    rw [List.length_map, sortedBundle_perm.length_eq]
  have hbudget := h.searchBudget i (by rw [← map_sortedBundle, hleaf]; exact List.mem_singleton_self i)
  rw [← map_sortedBundle, hlength] at hbudget
  rw [hsearch, searchPath_bundle hchain hne' hi hbudget, hget,
    filterMap_eq_singleton (nodup_paths_bundle hchain hanchors)]
  simp [hpaths]

end

/-- **The path search is sound and complete.** `validate_path` succeeds when exactly one path of the
bundle is valid, and returns that path with the effective policies in its leaf; the path ends in a
trust anchor and every certificate of it is signed by the next. -/
theorem validatePath_iff_unique (h : Searchable p parsed chain trustAnchors leaf) (now : ℤ) :
    ((∃ path, validatePath p chain trustAnchors now = .ok path) ↔ ∃! x, BundlePath parsed chain trustAnchors leaf x ∧
        ∃ policies, validateBuiltPath p (certificates parsed x) now = .ok policies) ∧
    ∀ path, validatePath p chain trustAnchors now = .ok path →
      (∃ x policies, BundlePath parsed chain trustAnchors leaf x ∧
        validateBuiltPath p (certificates parsed x) now = .ok policies ∧
        path = setLeafPolicies policies (certificates parsed x)) ∧
      (∃ anchor ∈ trustAnchors, path.getLast? = some anchor) ∧ path.IsChain (SignedBy p) := by
  have hvalid : ∀ x, (accepted p now (certificates parsed x)).isSome ↔
      ∃ policies, validateBuiltPath p (certificates parsed x) now = .ok policies := fun x => by
    simp only [Option.isSome_iff_exists, accepted_eq_some]
    exact ⟨fun ⟨_, policies, hok, _⟩ => ⟨policies, hok⟩, fun ⟨policies, hok⟩ => ⟨_, policies, hok, rfl⟩⟩
  refine ⟨⟨?_, ?_⟩, ?_⟩
  · rintro ⟨path, hpath⟩
    obtain ⟨x, hx, hacc, huniq⟩ := h.validatePath_eq_ok.mp hpath
    exact ⟨x, ⟨hx, (hvalid x).mp (by rw [hacc]; rfl)⟩, fun y hy => huniq y hy.1 ((hvalid y).mpr hy.2)⟩
  · rintro ⟨x, ⟨hx, policies, hok⟩, huniq⟩
    exact ⟨_, h.validatePath_eq_ok.mpr ⟨x, hx, accepted_eq_some.mpr ⟨policies, hok, rfl⟩,
      fun y hy hsome => huniq y ⟨hy, (hvalid y).mp hsome⟩⟩⟩
  · intro path hpath
    obtain ⟨x, hx, hacc, -⟩ := h.validatePath_eq_ok.mp hpath
    obtain ⟨policies, hok, rfl⟩ := accepted_eq_some.mp hacc
    have hne : x.1 ≠ [] := fun hnil => by simpa [hnil] using hx.starts
    exact ⟨⟨x, policies, hx, hok, rfl⟩, ⟨x.2, hx.trusted, getLast?_setLeafPolicies_certificates hne⟩,
      signed_setLeafPolicies (validateBuiltPath_signed hok)⟩

end Accepts

/-! ### Small certificates -/

namespace Toy

def name (s : String) : Name := [[("2.5.4.3", ⟨.utf8String, utf8 s, none⟩)]]

def ed25519 : AlgorithmIdentifier := ⟨oidEd25519, none⟩

/-- A certificate whose contents, signature and key are made of one byte. -/
def certificate (byte : UInt8) (subject issuer : String) (extensions : List Extension) : Certificate where
  tbsDer := [byte]
  signature := some [byte]
  signatureAlgorithm := ed25519
  tbsSignature := ed25519
  spkiDer := []
  spkiAlgorithm := ed25519
  subjectPublicKey := some (List.replicate 32 byte)
  subject := name subject
  subjectDer := []
  subjectText := subject
  issuer := name issuer
  issuerDer := []
  issuerText := issuer
  notBefore := 0
  notAfter := 100
  extensions := some extensions

end Toy

/-! ### A bundle with two issuers of one name

The relying party is certified by `ca`, and `ca` by the anchor `root`. The bundle also holds a
certificate with the names of `ca` and another key, so that the search completes two paths. -/

namespace TwoIssuers

open Toy

def issuing : List Extension :=
  [⟨"2.5.29.19", true, .basicConstraints true none⟩, ⟨"2.5.29.15", true, .keyUsage false true⟩]

/-- Certificate 1 signed certificate 2, and that one certificate 4. -/
def platform : Platform := { (default : Platform) with
  verifyCertificate := fun _ key tbs _ =>
    (key == List.replicate 32 1 && tbs == [2]) || (key == List.replicate 32 2 && tbs == [4])
  validateCertificatePublicKey := fun _ _ => true
  decodeCertificate := fun der =>
    if der = [1] then some (certificate 1 "root" "root" issuing)
    else if der = [2] then some (certificate 2 "ca" "root" issuing)
    else if der = [3] then some (certificate 3 "ca" "root" issuing)
    else if der = [4] then
      some (certificate 4 "rp" "ca" [⟨"2.5.29.15", true, .keyUsage true false⟩])
    else none }

def chain : List Bytes := [[3], [4], [2]]

def anchors : List ParsedCert := (parseCert platform [1]).toOption.toList

/-- The certificate of an encoding of the bundle. -/
def parsed (der : Bytes) : ParsedCert :=
  (parseCert platform der).toOption.getD
    { tbsDer := [], signature := [], sigAlg := .ed25519, spkiDer := [], publicKeyRaw := []
      subject := "", issuer := "", uriSans := [], notBefore := 0, notAfter := 0, isCa := false
      eku := [], policies := []
      constraints := {
        subjectDer := [], issuerDer := [], canonicalSubject := [], canonicalIssuer := []
        signatureAlgorithmsMatch := false, publicKeyAlgorithm := none } }

theorem searchable : Searchable platform parsed chain anchors [4] where
  parses := by decide
  distinct := by decide
  anchorsDistinct := by decide
  disjoint := by decide
  leaf_iff := by
    have hleaves : ∀ der ∈ chain, (∀ child ∈ chain, child ≠ der →
        issuerNameMatches (parsed child) (parsed der) = false) ↔ der = [4] := by decide
    intro der
    constructor
    · rintro ⟨hmem, hnone⟩
      exact (hleaves der hmem).mp hnone
    · rintro rfl
      exact ⟨by decide, (hleaves [4] (by decide)).mpr rfl⟩
  suppliedBudget := by decide
  anchorBudget := by decide
  searchBudget := by decide

end TwoIssuers

/-- Two paths are completed and one of them is valid. -/
theorem validatePath_iff_unique_twoIssuers :
    (explorePaths (TwoIssuers.chain.map TwoIssuers.parsed) TwoIssuers.anchors 3 1 [1] {}).complete.length = 2 ∧
      ∃! x, BundlePath TwoIssuers.parsed TwoIssuers.chain TwoIssuers.anchors [4] x ∧
        ∃ policies, validateBuiltPath TwoIssuers.platform (certificates TwoIssuers.parsed x) 10 =
          .ok policies := by
  have hok : (validatePath TwoIssuers.platform TwoIssuers.chain TwoIssuers.anchors 10).toOption.isSome
      = true := by decide
  refine ⟨by decide, (validatePath_iff_unique TwoIssuers.searchable 10).1.mp ?_⟩
  cases hpath : validatePath TwoIssuers.platform TwoIssuers.chain TwoIssuers.anchors 10 with
  | ok path => exact ⟨path, rfl⟩
  | error e =>
    rw [hpath] at hok
    cases hok

end EuWallet.X509
