import EuWallet.X509.Path
import EuWallet.Lib.Except
import Mathlib.Data.Finset.Union
import Mathlib.Data.Finset.Image
import Mathlib.Data.String.Basic

/-! # Certificate policies along a path

`validate_certificate_policies` walks from the certificate below the anchor down to the leaf and
carries a set of policies and three counters. Here the walk is compared with RFC 5280: the mappings of
one certificate are meant to apply all at once, and the requirement of an explicit policy is meant to
be checked once more after the leaf. The code applies the mappings one after another and has no check
after the leaf, so both comparisons come with the exact condition under which they hold. -/

namespace EuWallet.X509

open Codec Lib

/-! ### Sets of policies as lists -/

variable {x : String} {M M' : List (String × String)} {E l : List String} {w w' : PolicyWalk}
    {cert : ParsedCert} {certs issuers : List ParsedCert} {r : RfcWalk} {m : String × String}

@[simp] theorem mem_toSet : x ∈ toSet l ↔ x ∈ l := by
  simp [toSet]

/-- The list form of a `BTreeSet`: ascending and without repetitions. -/
def IsSet (l : List String) : Prop := l.Pairwise (· < ·)

theorem isSet_toSet (l : List String) : IsSet (toSet l) := by
  have hle : (toSet l).Pairwise (· ≤ ·) := List.pairwise_insertionSort _ _
  have hne : (toSet l).Pairwise (· ≠ ·) :=
    (List.perm_insertionSort _ _).nodup_iff.mpr (List.nodup_dedup l)
  exact (hle.and hne).imp fun h => lt_of_le_of_ne h.1 h.2

theorem IsSet.filter (h : IsSet l) (P : String → Bool) : IsSet (l.filter P) :=
  List.Pairwise.filter P h

theorem IsSet.eq_of_mem_iff {l' : List String} (h : IsSet l) (h' : IsSet l') (hmem : ∀ x, x ∈ l ↔ x ∈ l')
    : l = l' := by
  have hperm : l.Perm l' :=
    (List.perm_ext_iff_of_nodup (h.imp ne_of_lt) (h'.imp ne_of_lt)).mpr hmem
  exact hperm.eq_of_pairwise (fun a b _ _ hab hba => absurd hab (not_lt_of_gt hba)) h h'

/-! ### The mappings of one certificate -/

/-- What the mappings of one certificate mean: the issuer-domain policies are taken out, and the
subject-domain policies of those that were valid are put in. -/
def simultaneous (E : Finset String) (M : List (String × String)) : Finset String :=
  (E \ (M.map Prod.fst).toFinset) ∪ ((M.filter (·.1 ∈ E)).map Prod.snd).toFinset

theorem mem_simultaneous {E : Finset String} : x ∈ simultaneous E M ↔
      (x ∈ E ∧ ∀ m ∈ M, m.1 ≠ x) ∨ ∃ m ∈ M, m.1 ∈ E ∧ m.2 = x := by
  simp only [simultaneous, Finset.mem_union, Finset.mem_sdiff, List.mem_toFinset, List.mem_map,
    List.mem_filter, decide_eq_true_eq, not_exists, not_and, and_assoc, ne_eq]

theorem mem_mapPolicies_concat : x ∈ mapPolicies E (M ++ [m]) ↔
    (m.1 ∈ E ∧ (x = m.2 ∨ x ∈ mapPolicies E M ∧ x ≠ m.1)) ∨ (m.1 ∉ E ∧ x ∈ mapPolicies E M) := by
  unfold mapPolicies
  by_cases h : m.1 ∈ E <;> simp [h]

/-- No policy that a mapping put in is taken out by a later mapping, unless yet a later one puts it in
again. -/
def Unchained (E : List String) (M : List (String × String)) : Prop :=
  ∀ earlier s t later, M = earlier ++ (s, t) :: later → s ∈ E → t ≠ s →
    (∃ m ∈ earlier, m.1 ∈ E ∧ m.2 = s) → ∃ m ∈ later, m.1 ∈ E ∧ m.2 = s

/-- Mappings whose subject-domain policies are no issuer-domain policies do not chain. -/
theorem unchained_of_disjoint (E : List String) (h : ∀ m ∈ M, ∀ n ∈ M, m.2 ≠ n.1) :
    Unchained E M := by
  rintro earlier s t later rfl - - ⟨m, hm, -, hms⟩
  exact absurd hms (h m (by simp [hm]) (s, t) (by simp))

/-- A mapping takes out a policy that an earlier one put in, and none puts it in again. -/
def Chains (E : List String) (M : List (String × String)) (x : String) : Prop :=
  ∃ earlier t later, M = earlier ++ (x, t) :: later ∧ x ∈ E ∧ t ≠ x ∧
    (∃ m ∈ earlier, m.1 ∈ E ∧ m.2 = x) ∧ ¬ ∃ m ∈ later, m.1 ∈ E ∧ m.2 = x

theorem unchained_iff : Unchained E M ↔ ∀ x, ¬ Chains E M x := by
  constructor
  · rintro h x ⟨earlier, t, later, hM, hx, ht, hput, hlast⟩
    exact hlast (h earlier x t later hM hx ht hput)
  · intro h earlier s t later hM hs ht hput
    by_contra hlast
    exact h s ⟨earlier, t, later, hM, hs, ht, hput, hlast⟩

theorem chains_concat : Chains E (M ++ [m]) x ↔ (Chains E M x ∧ ¬ (m.1 ∈ E ∧ m.2 = x))
    ∨ (m.1 = x ∧ x ∈ E ∧ m.2 ≠ x ∧ ∃ n ∈ M, n.1 ∈ E ∧ n.2 = x) := by
  constructor
  · rintro ⟨earlier, t, later, hM, hx, ht, hput, hlast⟩
    rcases List.eq_nil_or_concat later with rfl | ⟨later, k, rfl⟩
    · obtain ⟨rfl, hm⟩ := List.append_inj' hM rfl
      obtain rfl := List.singleton_inj.mp hm
      exact .inr ⟨rfl, hx, ht, hput⟩
    · obtain ⟨rfl, hm⟩ := List.append_inj' (hM.trans (by simp : _ = (earlier ++ (x, t) :: later) ++ [k])) rfl
      obtain rfl := List.singleton_inj.mp hm
      exact .inl ⟨⟨earlier, t, later, rfl, hx, ht, hput, fun ⟨n, hn, h⟩ => hlast ⟨n, by simp [hn], h⟩⟩,
        fun h => hlast ⟨m, by simp, h⟩⟩
  · rintro (⟨⟨earlier, t, later, rfl, hx, ht, hput, hlast⟩, hm⟩ | ⟨rfl, hx, ht, hput⟩)
    · refine ⟨earlier, t, later ++ [m], by simp, hx, ht, hput, ?_⟩
      rintro ⟨n, hn, h⟩
      rcases List.mem_append.mp hn with hn | hn
      · exact hlast ⟨n, hn, h⟩
      · exact hm (List.mem_singleton.mp hn ▸ h)
    · exact ⟨M, m.2, [], rfl, hx, ht, hput, by simp⟩

/-- The mappings one after another have the effect they are meant to have, except for what chains. -/
theorem mem_mapPolicies (E : List String) (M : List (String × String)) :
    x ∈ mapPolicies E M ↔ x ∈ simultaneous E.toFinset M ∧ ¬ Chains E M x := by
  simp only [mem_simultaneous, List.mem_toFinset]
  induction M using List.reverseRecOn with
  | nil => simp [mapPolicies, Chains]
  | append_singleton M m ih =>
    rw [mem_mapPolicies_concat, ih, chains_concat]
    simp only [List.mem_append, List.mem_singleton, or_imp, forall_and, forall_eq, or_and_right, exists_or, exists_eq_left]
    grind

theorem mapPolicies_subset_simultaneous (E : List String) (M : List (String × String)) :
    (mapPolicies E M).toFinset ⊆ simultaneous E.toFinset M := fun _ hx =>
  ((mem_mapPolicies E M).mp (List.mem_toFinset.mp hx)).1

theorem mapPolicies_eq_simultaneous_iff : (mapPolicies E M).toFinset = simultaneous E.toFinset M ↔ Unchained E M := by
  rw [Finset.ext_iff, unchained_iff]
  simp only [List.mem_toFinset, mem_mapPolicies, and_iff_left_iff_imp]
  refine forall_congr' fun x => ⟨fun h hchains => h ?_ hchains, fun h _ => h⟩
  obtain ⟨earlier, t, later, rfl, -, -, ⟨m, hm, hmE, hmx⟩, -⟩ := hchains
  exact mem_simultaneous.mpr (.inr ⟨m, by simp [hm], by simpa using hmE, hmx⟩)

theorem isSet_mapPolicies (h : IsSet E) (M : List (String × String)) : IsSet (mapPolicies E M) := by
  induction M using List.reverseRecOn with
  | nil => exact h
  | append_singleton M m ih =>
    unfold mapPolicies at ih ⊢
    rw [List.foldl_append, List.foldl_cons, List.foldl_nil]
    split_ifs
    · exact isSet_toSet _
    · exact ih

theorem simultaneous_perm {E : Finset String} (h : M.Perm M') : simultaneous E M = simultaneous E M' := by
  ext x
  simp [mem_simultaneous, h.mem_iff]

/-- Two orders of the same mappings have the same effect when neither of them chains. -/
theorem mapPolicies_perm (hE : IsSet E) (hperm : M.Perm M') (h : Unchained E M) (h' : Unchained E M')
    : mapPolicies E M = mapPolicies E M' := by
  refine (isSet_mapPolicies hE M).eq_of_mem_iff (isSet_mapPolicies hE M') fun x => ?_
  rw [← List.mem_toFinset, mapPolicies_eq_simultaneous_iff.mpr h, simultaneous_perm hperm,
    ← mapPolicies_eq_simultaneous_iff.mpr h', List.mem_toFinset]

/-! ### One certificate -/

/-- The set of policies valid before the mappings of a certificate are applied. -/
def expectedPolicies (w : PolicyWalk) (cert : ParsedCert) : Option (List String) :=
  match cert.constraints.policy.policies with
  | some policies => intersectPolicies w policies
  | none => some []

/-- A counter after one certificate: it goes down by one unless the certificate is a self-issued
issuer, and a limit of the certificate caps it. -/
def lowered (cert : ParsedCert) (index : ℕ) (limit : Option ℕ) (n : ℕ) : ℕ :=
  let n := if !selfIssued cert || index == 0 then n - 1 else n
  (limit.map (min n)).getD n

/-- The policy extensions of a certificate that the walk refuses whatever the valid policies are. -/
def Refuses (policyMapping : ℕ) (cert : ParsedCert) : Prop :=
  cert.constraints.policy.error ≠ none ∨
    cert.constraints.policy.mappings ≠ [] ∧ (cert.isCa = false ∨ policyMapping = 0)

/-- The walk after one certificate that is not refused. -/
def nextWalk (w : PolicyWalk) (cert : ParsedCert) (index : ℕ) : PolicyWalk where
  explicitPolicy := lowered cert index cert.constraints.policy.requireExplicitPolicy w.explicitPolicy
  policyMapping := lowered cert index cert.constraints.policy.inhibitPolicyMapping w.policyMapping
  inhibitAnyPolicy :=
    lowered cert index cert.constraints.policy.inhibitAnyPolicy w.inhibitAnyPolicy
  valid := (expectedPolicies w cert).map (mapPolicies · cert.constraints.policy.mappings)

/-- The checks of `policyStep` in their order. -/
theorem policyStep_of_no_error (index : ℕ) (herr : cert.constraints.policy.error = none) : policyStep w cert index =
      if !cert.constraints.policy.mappings.isEmpty && !cert.isCa then
        .error (.pathInvalid "PolicyMappings only permitted in CA certificates")
      else if !cert.constraints.policy.mappings.isEmpty && w.policyMapping == 0 then
        .error (.pathInvalid "certificate policy mapping is inhibited")
      else if w.explicitPolicy == 0 && (nextWalk w cert index).valid.any List.isEmpty then
        .error (.pathInvalid "explicit certificate policy is required")
      else .ok (nextWalk w cert index) := by
  unfold policyStep
  simp only [herr]
  rfl

theorem policyStep_of_error {what : String} (index : ℕ) (herr : cert.constraints.policy.error = some what) :
    policyStep w cert index = .error (.pathInvalid what) := by
  unfold policyStep
  simp only [herr]
  rfl

theorem any_isEmpty_iff {o : Option (List String)} : o.any List.isEmpty = true ↔ o = some [] := by
  cases o <;> simp

theorem policyStep_eq_ok {index : ℕ} : policyStep w cert index = .ok w' ↔ ¬ Refuses w.policyMapping cert ∧
    ¬ (w.explicitPolicy = 0 ∧ (nextWalk w cert index).valid = some []) ∧ w' = nextWalk w cert index := by
  unfold Refuses
  cases herr : cert.constraints.policy.error with
  | some what => simp [policyStep_of_error index herr]
  | none =>
    rw [policyStep_of_no_error index herr, ← any_isEmpty_iff]
    split_ifs with h1 h2 h3
    · simp_all
    · simp_all
    · simp_all
    · rw [Except.ok.injEq, eq_comm]
      simp_all

/-! ### The walk over a path -/

/-- The walk before its first certificate, for a path of `count` certificates below the anchor. -/
def startWalk (count : ℕ) : PolicyWalk := ⟨count + 1, count + 1, count + 1, none⟩

def leafPolicies (leaf : ParsedCert) : List String :=
  toSet ((leaf.constraints.policy.policies.getD []).filter (· ≠ oidAnyPolicy))

theorem foldlM_zipIdx_reverse (issuers : List ParsedCert) (k : ℕ) (w : PolicyWalk) :
    (issuers.zipIdx (k + 1)).reverse.foldlM (fun w ci => policyStep w ci.1 ci.2) w =
      issuers.reverse.foldlM (fun w cert => policyStep w cert 1) w := by
  induction issuers generalizing k with
  | nil => rfl
  | cons c issuers ih =>
    rw [List.zipIdx_cons, List.reverse_cons, List.reverse_cons, List.foldlM_append, List.foldlM_append, ih]
    rfl

theorem validateCertificatePolicies_eq (leaf : ParsedCert) (issuers : List ParsedCert) (anchor : ParsedCert) :
    validateCertificatePolicies (leaf :: issuers ++ [anchor]) = (do
      let w ← issuers.reverse.foldlM (fun w cert => policyStep w cert 1)
        (startWalk (issuers.length + 1))
      let w ← policyStep w leaf 0
      return w.valid.getD (leafPolicies leaf)) := by
  have hcount : (leaf :: issuers ++ [anchor]).length - 1 = issuers.length + 1 := by simp
  have htake : (leaf :: issuers ++ [anchor]).take (issuers.length + 1) = leaf :: issuers := by simp
  unfold validateCertificatePolicies
  simp only [hcount, htake]
  rw [List.zipIdx_cons, List.reverse_cons, List.foldlM_append, foldlM_zipIdx_reverse, bind_assoc]
  simp only [List.foldlM_cons, List.foldlM_nil, bind_pure, List.cons_append]
  rfl

/-! ### The order of the mappings -/

/-- The same certificate with other policy mappings. -/
def ParsedCert.withMappings (cert : ParsedCert) (mappings : List (String × String)) : ParsedCert :=
  { cert with constraints := { cert.constraints with
      policy := { cert.constraints.policy with mappings } } }

/-- Two certificates that differ at most in the order of their mappings. -/
def SameUpToOrder (cert cert' : ParsedCert) : Prop :=
  ∃ mappings, cert.constraints.policy.mappings.Perm mappings ∧ cert' = cert.withMappings mappings

/-- At this certificate the mappings do not chain. -/
def UnchainedAt (w : PolicyWalk) (cert : ParsedCert) : Prop :=
  ∀ E, expectedPolicies w cert = some E → Unchained E cert.constraints.policy.mappings

def WalkUnchained : PolicyWalk → List ParsedCert → Prop
  | _, [] => True
  | w, cert :: certs => UnchainedAt w cert ∧
      ∀ w', policyStep w cert 1 = .ok w' → WalkUnchained w' certs

/-- On the whole path, the mappings of no certificate chain. -/
def PathUnchained (leaf : ParsedCert) (issuers : List ParsedCert) : Prop :=
  WalkUnchained (startWalk (issuers.length + 1)) issuers.reverse ∧
    ∀ w, issuers.reverse.foldlM (fun w cert => policyStep w cert 1)
      (startWalk (issuers.length + 1)) = .ok w → UnchainedAt w leaf

/-- The valid policies of a walk are kept as a set. -/
def PolicyWalk.Canonical (w : PolicyWalk) : Prop := ∀ l, w.valid = some l → IsSet l

theorem isSet_expectedPolicies (hw : w.Canonical) (h : expectedPolicies w cert = some E) :
    IsSet E := by
  unfold expectedPolicies intersectPolicies at h
  dsimp only at h
  split at h
  · split at h
    · split_ifs at h
      obtain rfl := Option.some.inj h
      exact isSet_toSet _
    · next expected hvalid =>
      obtain rfl := Option.some.inj h
      split_ifs
      · exact isSet_toSet _
      · exact (hw _ hvalid).filter _
  · obtain rfl := Option.some.inj h
    exact List.Pairwise.nil

theorem nextWalk_canonical (hw : w.Canonical) (cert : ParsedCert) (index : ℕ) :
    (nextWalk w cert index).Canonical := by
  intro l hl
  obtain ⟨E, hE, rfl⟩ := Option.map_eq_some_iff.mp hl
  exact isSet_mapPolicies (isSet_expectedPolicies hw hE) _

theorem policyStep_perm (hw : w.Canonical) {cert' : ParsedCert} (index : ℕ)
    (hsame : SameUpToOrder cert cert') (h : UnchainedAt w cert) (h' : UnchainedAt w cert') :
    policyStep w cert index = policyStep w cert' index := by
  obtain ⟨mappings, hperm, rfl⟩ := hsame
  have hvalid : nextWalk w cert index = nextWalk w (cert.withMappings mappings) index := by
    have hmap : (expectedPolicies w cert).map (mapPolicies · cert.constraints.policy.mappings) =
        (expectedPolicies w cert).map (mapPolicies · mappings) := by
      cases hE : expectedPolicies w cert with
      | none => rfl
      | some E =>
        exact congrArg some (mapPolicies_perm (isSet_expectedPolicies hw hE) hperm (h E hE) (h' E hE))
    unfold nextWalk
    rw [hmap]
    rfl
  have hempty : cert.constraints.policy.mappings.isEmpty = mappings.isEmpty := by
    rw [Bool.eq_iff_iff, List.isEmpty_iff, List.isEmpty_iff]
    exact ⟨fun h0 => (h0 ▸ hperm).nil_eq.symm, fun h0 => (h0 ▸ hperm).eq_nil⟩
  cases herr : cert.constraints.policy.error with
  | some what =>
    have herr' : (cert.withMappings mappings).constraints.policy.error = some what := herr
    rw [policyStep_of_error index herr, policyStep_of_error index herr']
  | none =>
    have herr' : (cert.withMappings mappings).constraints.policy.error = none := herr
    rw [policyStep_of_no_error index herr, policyStep_of_no_error index herr', hvalid, hempty]
    rfl

/-- Two walks over the same certificates with reordered mappings agree. -/
theorem foldlM_policyStep_perm {certs' : List ParsedCert}
    (hsame : List.Forall₂ SameUpToOrder certs certs') (hw : w.Canonical) (h : WalkUnchained w certs)
    (h' : WalkUnchained w certs') : certs.foldlM (fun w cert => policyStep w cert 1) w =
      certs'.foldlM (fun w cert => policyStep w cert 1) w := by
  induction hsame generalizing w with
  | nil => rfl
  | @cons cert cert' certs certs' hc _ ih =>
    have hstep := policyStep_perm hw 1 hc h.1 h'.1
    rw [List.foldlM_cons, List.foldlM_cons, ← hstep]
    cases hres : policyStep w cert 1 with
    | error e => rfl
    | ok w' =>
      obtain ⟨-, -, rfl⟩ := policyStep_eq_ok.mp hres
      exact ih (nextWalk_canonical hw cert 1) (h.2 _ hres) (h'.2 _ (hstep ▸ hres))

theorem walk_canonical (hw : w.Canonical) (h : certs.foldlM (fun w cert => policyStep w cert 1) w = .ok w')
    : w'.Canonical := by
  induction certs generalizing w with
  | nil =>
    obtain rfl := pure_eq_ok.mp h
    exact hw
  | cons cert certs ih =>
    obtain ⟨w₁, h₁, h₂⟩ := bind_eq_ok.mp h
    obtain ⟨-, -, rfl⟩ := policyStep_eq_ok.mp h₁
    exact ih (nextWalk_canonical hw cert 1) h₂

theorem startWalk_canonical (count : ℕ) : (startWalk count).Canonical := fun _ h => nomatch h

theorem validateCertificatePolicies_perm {leaf leaf' anchor : ParsedCert}
    {issuers' : List ParsedCert} (hleaf : SameUpToOrder leaf leaf')
    (hissuers : List.Forall₂ SameUpToOrder issuers issuers') (h : PathUnchained leaf issuers)
    (h' : PathUnchained leaf' issuers') : validateCertificatePolicies (leaf :: issuers ++ [anchor]) =
      validateCertificatePolicies (leaf' :: issuers' ++ [anchor]) := by
  obtain ⟨hwalk, hlast⟩ := h
  obtain ⟨hwalk', hlast'⟩ := h'
  have hrev : List.Forall₂ SameUpToOrder issuers.reverse issuers'.reverse :=
    List.forall₂_reverse_iff.mpr hissuers
  rw [← hissuers.length_eq] at hwalk' hlast'
  have hup := foldlM_policyStep_perm hrev (startWalk_canonical _) hwalk hwalk'
  rw [validateCertificatePolicies_eq, validateCertificatePolicies_eq, ← hissuers.length_eq, ← hup]
  cases hres : issuers.reverse.foldlM (fun w cert => policyStep w cert 1)
      (startWalk (issuers.length + 1)) with
  | error e => rfl
  | ok w =>
    have hw := walk_canonical (startWalk_canonical _) hres
    have hstep := policyStep_perm hw 0 hleaf (hlast w hres) (hlast' w (hup ▸ hres))
    obtain ⟨mappings, -, rfl⟩ := hleaf
    exact congrArg (fun x => x >>= fun w => pure (w.valid.getD (leafPolicies leaf))) hstep

/-- The set carried to the next certificate is the simultaneous one exactly when the mappings do not
chain, and on paths where they never chain the order of the mappings makes no difference to the
outcome. -/
theorem policy_mappings_simultaneous_iff (leaf leaf' anchor : ParsedCert) (issuers issuers' : List ParsedCert) :
    (∀ (w w' : PolicyWalk) (cert : ParsedCert) (index : ℕ) (E : List String),
      expectedPolicies w cert = some E → policyStep w cert index = .ok w' → (w'.valid.map List.toFinset =
            some (simultaneous E.toFinset cert.constraints.policy.mappings) ↔
          Unchained E cert.constraints.policy.mappings)) ∧
      (SameUpToOrder leaf leaf' → List.Forall₂ SameUpToOrder issuers issuers' →
        PathUnchained leaf issuers → PathUnchained leaf' issuers' →
          validateCertificatePolicies (leaf :: issuers ++ [anchor]) =
            validateCertificatePolicies (leaf' :: issuers' ++ [anchor])) := by
  refine ⟨fun w w' cert index E hE hstep => ?_, ?_⟩
  · obtain ⟨-, -, rfl⟩ := policyStep_eq_ok.mp hstep
    rw [← mapPolicies_eq_simultaneous_iff]
    simp [nextWalk, hE]
  · exact validateCertificatePolicies_perm

namespace PolicySample

/-- A certificate of which only the names, the role and the policy extensions matter. -/
def certificate (subject issuer : String) (isCa : Bool) (policy : CertificatePolicyState) : ParsedCert where
  tbsDer := []
  signature := []
  sigAlg := .ed25519
  spkiDer := []
  publicKeyRaw := []
  subject := subject
  issuer := issuer
  uriSans := []
  notBefore := 0
  notAfter := 0
  isCa := isCa
  eku := []
  policies := []
  constraints := {
    subjectDer := []
    issuerDer := []
    canonicalSubject := [[("2.5.4.3", subject)]]
    canonicalIssuer := [[("2.5.4.3", issuer)]]
    signatureAlgorithmsMatch := true
    publicKeyAlgorithm := some .ed25519
    policy := policy }

def anchor : ParsedCert := certificate "root" "root" true {}

/-- An issuer that asserts the policies 1 and 2, requires an explicit policy and maps its policies. -/
def issuer (mappings : List (String × String)) : ParsedCert :=
  certificate "ca" "root" true
    { policies := some ["1", "2"], mappings := mappings, requireExplicitPolicy := some 0 }

def leaf : ParsedCert := certificate "leaf" "ca" false { policies := some ["2"] }

end PolicySample

open PolicySample

theorem pathUnchained {mappings : List (String × String)} (h : ∀ m ∈ mappings, ∀ n ∈ mappings, m.2 ≠ n.1) :
    PathUnchained leaf [issuer mappings] :=
  ⟨⟨fun E _ => unchained_of_disjoint E h, fun _ _ => trivial⟩,
    fun _ _ E _ => unchained_of_disjoint E nofun⟩

/-- The mappings 1 to 3 and 2 to 4 do not chain, in either order. -/
theorem policy_mappings_unchained : (nextWalk (startWalk 2) (issuer [("1", "3"), ("2", "4")]) 1).valid.map
        List.toFinset = some (simultaneous {"1", "2"} [("1", "3"), ("2", "4")]) ∧ validateCertificatePolicies
          (leaf :: [issuer [("1", "3"), ("2", "4")]] ++ [anchor]) = validateCertificatePolicies
          (leaf :: [issuer [("2", "4"), ("1", "3")]] ++ [anchor]) := by
  constructor
  · exact ((policy_mappings_simultaneous_iff leaf leaf anchor [] []).1 (startWalk 2) _
      (issuer [("1", "3"), ("2", "4")]) 1 ["1", "2"] (by decide)
      (policyStep_eq_ok.mpr ⟨by unfold Refuses; decide, by decide, rfl⟩)).mpr
      (unchained_of_disjoint _ (by decide))
  · refine (policy_mappings_simultaneous_iff _ _ _ _ _).2 ⟨[], .nil, rfl⟩
      (.cons ⟨[("2", "4"), ("1", "3")], .swap .., rfl⟩ .nil)
      (pathUnchained (by decide))
      (pathUnchained (by decide))

/-- The mappings 1 to 2 and 2 to 3 chain: in this order policy 2 is lost and the leaf that asserts it
is refused, in the other order it is accepted. -/
theorem policy_mappings_chained : mapPolicies ["1", "2"] [("1", "2"), ("2", "3")] = ["3"] ∧
    simultaneous {"1", "2"} [("1", "2"), ("2", "3")] = {"2", "3"} ∧ validateCertificatePolicies (leaf ::
        [issuer [("1", "2"), ("2", "3")]] ++ [anchor]) =
      .error (.pathInvalid "explicit certificate policy is required") ∧ validateCertificatePolicies (leaf ::
        [issuer [("2", "3"), ("1", "2")]] ++ [anchor]) = .ok ["2"] := by
  decide

/-! ### The walk of RFC 5280, section 6.1 -/

/-- The state variables of the RFC. The valid policy tree is kept as the set of policies its deepest
nodes expect; `none` is a tree that still accepts every policy. -/
structure RfcWalk where
  explicitPolicy : ℕ
  policyMapping : ℕ
  inhibitAnyPolicy : ℕ
  valid : Option (Finset String)

/-- 6.1.3 (d) and (e): the policies of one certificate. -/
def rfcIntersect (anyAllowed : Bool) (policies : Option (List String))
    (valid : Option (Finset String)) : Option (Finset String) :=
  match policies with
  | none => some ∅
  | some policies =>
    if policies.contains oidAnyPolicy && anyAllowed then valid
    else
      let concrete := (policies.filter (· ≠ oidAnyPolicy)).toFinset
      some ((valid.map (· ∩ concrete)).getD concrete)

/-- 6.1.3 and 6.1.4: an issuing certificate, with its mappings and the counters for the next one. -/
def RfcWalk.issuer (r : RfcWalk) (cert : ParsedCert) : RfcWalk :=
  let q := cert.constraints.policy
  let count (limit : Option ℕ) (n : ℕ) : ℕ :=
    let n := if selfIssued cert then n else n - 1
    (limit.map (min n)).getD n
  let valid := rfcIntersect (0 < r.inhibitAnyPolicy || selfIssued cert) q.policies r.valid
  { explicitPolicy := count q.requireExplicitPolicy r.explicitPolicy
    policyMapping := count q.inhibitPolicyMapping r.policyMapping
    inhibitAnyPolicy := count q.inhibitAnyPolicy r.inhibitAnyPolicy
    valid := valid.map fun E =>
      if 0 < r.policyMapping then simultaneous E q.mappings
      else E \ (q.mappings.map Prod.fst).toFinset }

/-- The state before the leaf, for the issuers of a path in the order leaf to anchor. -/
def rfcWalk (issuers : List ParsedCert) : RfcWalk :=
  issuers.reverse.foldl RfcWalk.issuer
    ⟨issuers.length + 2, issuers.length + 2, issuers.length + 2, none⟩

/-- 6.1.5 (a) and (b): the counter after the leaf. -/
def wrapUpExplicit (issuers : List ParsedCert) (leaf : ParsedCert) : ℕ :=
  if leaf.constraints.policy.requireExplicitPolicy = some 0 then 0
  else (rfcWalk issuers).explicitPolicy - 1

def wholePathPolicies (issuers : List ParsedCert) (leaf : ParsedCert) : Option (Finset String) :=
  rfcIntersect (0 < (rfcWalk issuers).inhibitAnyPolicy) leaf.constraints.policy.policies
    (rfcWalk issuers).valid

structure SameCounters (w : PolicyWalk) (r : RfcWalk) : Prop where
  explicitPolicy : w.explicitPolicy = r.explicitPolicy
  policyMapping : w.policyMapping = r.policyMapping
  inhibitAnyPolicy : w.inhibitAnyPolicy = r.inhibitAnyPolicy

structure Within (w : PolicyWalk) (r : RfcWalk) : Prop where
  counters : SameCounters w r
  valid : ∀ R, r.valid = some R → ∃ l, w.valid = some l ∧ l.toFinset ⊆ R

theorem within_start (count : ℕ) : Within (startWalk count) ⟨count + 1, count + 1, count + 1, none⟩ :=
  ⟨⟨rfl, rfl, rfl⟩, nofun⟩

theorem expectedPolicies_within (h : Within w r) {anyAllowed : Bool}
    (hany : 0 < w.inhibitAnyPolicy → anyAllowed = true) {R : Finset String}
    (hR : rfcIntersect anyAllowed cert.constraints.policy.policies r.valid = some R) :
    ∃ l, expectedPolicies w cert = some l ∧ l.toFinset ⊆ R := by
  unfold rfcIntersect at hR
  unfold expectedPolicies
  cases hq : cert.constraints.policy.policies with
  | none =>
    exact ⟨[], rfl, by simp⟩
  | some policies =>
    rw [hq] at hR
    unfold intersectPolicies
    dsimp only at hR ⊢
    split_ifs at hR with hskip
    · -- the RFC keeps its set, so the code must have one, and at most keeps it too
      obtain ⟨l, hl, hsub⟩ := h.valid R hR
      rw [hl]
      refine ⟨_, rfl, fun x hx => hsub ?_⟩
      rw [List.mem_toFinset] at hx ⊢
      split_ifs at hx
      · rw [mem_toSet, List.mem_append] at hx
        exact hx.elim List.mem_of_mem_filter id
      · exact List.mem_of_mem_filter hx
    · have hno : ¬ ((policies.contains oidAnyPolicy && decide (0 < w.inhibitAnyPolicy)) = true) := by
        intro hc
        rw [Bool.and_eq_true, decide_eq_true_eq] at hc
        exact hskip (by rw [hc.1, hany hc.2]; rfl)
      obtain rfl := Option.some.inj hR
      simp only [if_neg hno]
      cases hv : w.valid with
      | none =>
        have hr : r.valid = none := by
          cases hr : r.valid with
          | none => rfl
          | some R =>
            obtain ⟨l, hl, -⟩ := h.valid R hr
            rw [hv] at hl
            cases hl
        refine ⟨_, rfl, fun x hx => ?_⟩
        simpa [hr] using hx
      | some expected =>
        refine ⟨_, rfl, fun x hx => ?_⟩
        cases hr : r.valid with
        | none => simp_all
        | some R =>
          obtain ⟨l, hl, hsub⟩ := h.valid R hr
          have hxR : x ∈ R := hsub (by simp_all)
          simp_all

theorem nextWalk_counters (h : SameCounters w r) (cert : ParsedCert) :
    SameCounters (nextWalk w cert 1) (r.issuer cert) := by
  constructor
  · simp only [nextWalk, lowered, RfcWalk.issuer, h.explicitPolicy]
    cases selfIssued cert <;> rfl
  · simp only [nextWalk, lowered, RfcWalk.issuer, h.policyMapping]
    cases selfIssued cert <;> rfl
  · simp only [nextWalk, lowered, RfcWalk.issuer, h.inhibitAnyPolicy]
    cases selfIssued cert <;> rfl

theorem nextWalk_within (h : Within w r) (hok : ¬ Refuses w.policyMapping cert) :
    Within (nextWalk w cert 1) (r.issuer cert) := by
  refine ⟨nextWalk_counters h.counters cert, fun R hR => ?_⟩
  obtain ⟨E, hE, rfl⟩ := Option.map_eq_some_iff.mp hR
  obtain ⟨l, hl, hsub⟩ := expectedPolicies_within h (fun hpos => by
    rw [← h.counters.inhibitAnyPolicy, decide_eq_true hpos, Bool.true_or]) hE
  refine ⟨mapPolicies l cert.constraints.policy.mappings, by rw [nextWalk, hl]; rfl, ?_⟩
  rcases eq_or_ne cert.constraints.policy.mappings [] with hM | hM
  · -- without mappings nothing changes
    intro x hx
    have hx' : x ∈ E := hsub (by simpa [hM, mapPolicies] using hx)
    split_ifs <;> simp [hM, simultaneous, hx']
  · have hpos : 0 < r.policyMapping := by
      rw [← h.counters.policyMapping]
      exact Nat.pos_of_ne_zero fun h0 => hok (.inr ⟨hM, .inr h0⟩)
    rw [if_pos hpos]
    intro x hx
    rw [mem_simultaneous]
    rcases mem_simultaneous.mp (mapPolicies_subset_simultaneous _ _ hx) with
      ⟨hin, hout⟩ | ⟨m, hm, hin, hmx⟩
    · exact .inl ⟨hsub hin, hout⟩
    · exact .inr ⟨m, hm, hsub hin, hmx⟩

/-! ### Whole walks -/

theorem foldl_counters (certs : List ParsedCert) (h : SameCounters w r) :
    SameCounters (certs.foldl (nextWalk · · 1) w) (certs.foldl RfcWalk.issuer r) := by
  induction certs generalizing w r with
  | nil => exact h
  | cons cert certs ih => exact ih (nextWalk_counters h cert)

theorem foldl_within (h : Within w r)
    (hok : ∀ above cert below, certs = above ++ cert :: below → ¬ Refuses (above.foldl RfcWalk.issuer r).policyMapping cert)
    : Within (certs.foldl (nextWalk · · 1) w) (certs.foldl RfcWalk.issuer r) := by
  induction certs generalizing w r with
  | nil => exact h
  | cons cert certs ih =>
    have hcert : ¬ Refuses w.policyMapping cert := by
      rw [h.counters.policyMapping]
      exact hok [] cert certs rfl
    refine ih (nextWalk_within h hcert) ?_
    rintro above c below rfl
    exact hok (cert :: above) c below rfl

/-- The counter never goes up. -/
theorem foldl_explicit_le (certs : List ParsedCert) (r : RfcWalk) :
    (certs.foldl RfcWalk.issuer r).explicitPolicy ≤ r.explicitPolicy := by
  induction certs generalizing r with
  | nil => exact le_refl _
  | cons cert certs ih =>
    refine (ih (r.issuer cert)).trans ?_
    simp only [RfcWalk.issuer]
    cases cert.constraints.policy.requireExplicitPolicy <;> split_ifs <;> simp

/-- Some certificate of the path has policy extensions that are refused outright: a recorded defect,
mappings in a certificate that is no CA, or mappings where they are inhibited. -/
def RefusedOnPath (issuers : List ParsedCert) (leaf : ParsedCert) : Prop :=
  (∃ above cert below, issuers.reverse = above ++ cert :: below ∧
    Refuses (above.foldl RfcWalk.issuer
      ⟨issuers.length + 2, issuers.length + 2, issuers.length + 2, none⟩).policyMapping cert) ∨
  Refuses (rfcWalk issuers).policyMapping leaf

theorem validateCertificatePolicies_ok {leaf anchor : ParsedCert} {policies : List String}
    (h : validateCertificatePolicies (leaf :: issuers ++ [anchor]) = .ok policies) :
    ¬ RefusedOnPath issuers leaf ∧ ∃ w, Within w (rfcWalk issuers) ∧
      ¬ (w.explicitPolicy = 0 ∧ (nextWalk w leaf 0).valid = some []) := by
  rw [validateCertificatePolicies_eq] at h
  obtain ⟨w, hwalk, hrest⟩ := bind_eq_ok.mp h
  obtain ⟨w', hleaf, -⟩ := bind_eq_ok.mp hrest
  obtain ⟨hsteps, rfl⟩ := (foldlM_eq_ok fun s c s' => by
    rw [policyStep_eq_ok, ← and_assoc]).mp hwalk
  obtain ⟨hrefuse, hexplicit, -⟩ := policyStep_eq_ok.mp hleaf
  have hissuers : ∀ above cert below, issuers.reverse = above ++ cert :: below → ¬ Refuses (above.foldl RfcWalk.issuer
        ⟨issuers.length + 2, issuers.length + 2, issuers.length + 2, none⟩).policyMapping cert := by
    intro above cert below heq
    rw [← (foldl_counters above (within_start (issuers.length + 1)).counters).policyMapping]
    exact (hsteps above cert below heq).1
  have hwithin := foldl_within (within_start (issuers.length + 1)) hissuers
  refine ⟨?_, _, hwithin, hexplicit⟩
  rintro (⟨above, cert, below, heq, hr⟩ | hr)
  · exact hissuers above cert below heq hr
  · rw [rfcWalk, ← hwithin.counters.policyMapping] at hr
    exact hrefuse hr

theorem validateCertificatePolicies_of_counter {leaf : ParsedCert} (anchor : ParsedCert)
    (hok : ¬ RefusedOnPath issuers leaf) (hpos : (rfcWalk issuers).explicitPolicy ≠ 0) :
    ∃ policies, validateCertificatePolicies (leaf :: issuers ++ [anchor]) = .ok policies := by
  have hcount := fun certs => foldl_counters certs (within_start (issuers.length + 1)).counters
  have hwalk : issuers.reverse.foldlM (fun w cert => policyStep w cert 1) (startWalk (issuers.length + 1)) =
      .ok (issuers.reverse.foldl (nextWalk · · 1) (startWalk (issuers.length + 1))) := by
    refine (foldlM_eq_ok fun s c s' => by rw [policyStep_eq_ok, ← and_assoc]).mpr ⟨?_, rfl⟩
    intro above cert below heq
    rw [(hcount above).policyMapping, (hcount above).explicitPolicy]
    refine ⟨fun hr => hok (.inl ⟨above, cert, below, heq, hr⟩), fun h => hpos ?_⟩
    have hle := foldl_explicit_le (cert :: below) (above.foldl RfcWalk.issuer
      ⟨issuers.length + 2, issuers.length + 2, issuers.length + 2, none⟩)
    rw [← List.foldl_append, ← heq, h.1] at hle
    exact Nat.le_zero.mp hle
  have hleaf : ∃ w, policyStep (issuers.reverse.foldl (nextWalk · · 1)
      (startWalk (issuers.length + 1))) leaf 0 = .ok w := by
    refine ⟨_, policyStep_eq_ok.mpr ⟨?_, ?_, rfl⟩⟩
    · rw [(hcount issuers.reverse).policyMapping]
      exact fun hr => hok (.inr hr)
    · rw [(hcount issuers.reverse).explicitPolicy]
      exact fun h => hpos h.1
  obtain ⟨w, hw⟩ := hleaf
  rw [validateCertificatePolicies_eq]
  exact ⟨_, bind_eq_ok.mpr ⟨_, hwalk, bind_eq_ok.mpr ⟨w, hw, rfl⟩⟩⟩

/-- After the leaf, a path without valid policies whose counter is at zero is refused exactly when the
counter was at zero before the leaf, or was not brought to zero by it, or the path has valid policies
after all or is refused for another reason. -/
theorem explicit_policy_wrapUp_iff (leaf anchor : ParsedCert) (issuers : List ParsedCert) :
    (wrapUpExplicit issuers leaf = 0 → wholePathPolicies issuers leaf = some ∅ →
      ∃ e, validateCertificatePolicies (leaf :: issuers ++ [anchor]) = .error e) ↔
    ((rfcWalk issuers).explicitPolicy = 0 ∨ (2 ≤ (rfcWalk issuers).explicitPolicy ∧
        leaf.constraints.policy.requireExplicitPolicy ≠ some 0) ∨
      wholePathPolicies issuers leaf ≠ some ∅ ∨ RefusedOnPath issuers leaf) := by
  constructor
  · intro hprop
    by_contra hcond
    simp only [not_or, not_and, ne_eq, not_not] at hcond
    obtain ⟨hpos, hlast, hempty, hok⟩ := hcond
    have hzero : wrapUpExplicit issuers leaf = 0 := by
      unfold wrapUpExplicit
      split_ifs with hreq
      · rfl
      · by_contra hne
        exact hreq (hlast (by omega))
    obtain ⟨e, he⟩ := hprop hzero hempty
    obtain ⟨policies, hp⟩ := validateCertificatePolicies_of_counter anchor hok hpos
    cases he.symm.trans hp
  · intro hcond hzero hempty
    cases hres : validateCertificatePolicies (leaf :: issuers ++ [anchor]) with
    | error e => exact ⟨e, rfl⟩
    | ok policies =>
      exfalso
      obtain ⟨hok, w, hwithin, hexplicit⟩ := validateCertificatePolicies_ok hres
      rcases hcond with h0 | ⟨h2, hreq⟩ | hne | hrefused
      · -- the set of the code is contained in the empty set of the RFC
        refine hexplicit ⟨hwithin.counters.explicitPolicy.trans h0, ?_⟩
        obtain ⟨l, hl, hsub⟩ := expectedPolicies_within hwithin (fun hpos => by
          rw [← hwithin.counters.inhibitAnyPolicy, decide_eq_true hpos]) hempty
        have hnil : l = [] := by
          rw [← List.toFinset_eq_empty_iff]
          exact Finset.subset_empty.mp hsub
        have hstill : mapPolicies [] leaf.constraints.policy.mappings = [] := by
          refine List.eq_nil_iff_forall_not_mem.mpr fun x hx => ?_
          simpa [mem_simultaneous] using ((mem_mapPolicies _ _).mp hx).1
        rw [nextWalk, hl, hnil, Option.map_some, hstill]
      · unfold wrapUpExplicit at hzero
        rw [if_neg hreq] at hzero
        omega
      · exact hne hempty
      · exact hok hrefused

/-- A leaf that requires an explicit policy itself and asserts none, below an issuer that asserts one,
is accepted. -/
theorem explicit_policy_wrapUp_missed : wrapUpExplicit [certificate "ca" "root" true { policies := some ["1"] }]
        (certificate "leaf" "ca" false { requireExplicitPolicy := some 0 }) = 0 ∧
      wholePathPolicies [certificate "ca" "root" true { policies := some ["1"] }]
        (certificate "leaf" "ca" false { requireExplicitPolicy := some 0 }) = some ∅ ∧
      validateCertificatePolicies
        (certificate "leaf" "ca" false { requireExplicitPolicy := some 0 } ::
          [certificate "ca" "root" true { policies := some ["1"] }] ++ [anchor]) = .ok [] := by
  decide

end EuWallet.X509
