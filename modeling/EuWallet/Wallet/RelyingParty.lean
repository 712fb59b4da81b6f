import EuWallet.Wallet.Ingest
import EuWallet.X509.Search

/-! # The key of a relying party

`resolve_rp` returns the key a request object is verified with and the DNS names its client identifier
is bound to. The names come from the validated leaf, the key from the first certificate of the bundle
as it was supplied. -/

namespace EuWallet.Wallet

open Codec Crypto Lib Trust X509

/-- The trust anchors `resolve_rp` validates against. -/
def Core.relyingPartyAnchors (p : Platform) (c : Core) : List ParsedCert :=
  c.trustStore.parsedAnchorsAt p .relyingPartyAccessCa c.nowEpoch

/-- The first certificate of a bundle has the key of every certificate that issues no other one. -/
def FirstCarriesLeafKey (p : Platform) (chain : List Bytes) : Prop :=
  ∀ certs, chain.mapM (parseCert p) = .ok certs → ∀ c, IssuesNoOther certs c →
    certs.head?.map (·.publicKeyRaw) = some c.publicKeyRaw

variable {chain : List Bytes}

theorem mapM_head {p : Platform} {certs : List ParsedCert} (h : chain.mapM (parseCert p) = .ok certs) :
    (chain.head?.bind fun der => (parseCert p der).toOption) = certs.head? := by
  cases chain with
  | nil =>
    simp only [List.mapM_nil, pure_eq_ok] at h
    subst h
    rfl
  | cons der chain =>
    simp only [List.mapM_cons, bind_eq_ok, pure_eq_ok] at h
    obtain ⟨first, hfirst, rest, -, rfl⟩ := h
    simp [hfirst, Except.toOption]

variable {profile : RelyingPartyProfile}

theorem relyingPartyProfile_dnsSans {leaf : ParsedCert} (h : relyingPartyProfile leaf = .ok profile)
    : profile.dnsSans = leaf.constraints.names.dns := by
  simp only [relyingPartyProfile, guard_eq_ok, pure_eq_ok] at h
  obtain ⟨-, -, -, rfl⟩ := h
  rfl

theorem checkRelyingParty_ok {p : Platform} {anchors : List ParsedCert} {now : ℤ} (h : checkRelyingParty p chain anchors now = .ok profile) :
    ∃ leaf rest, validatePath p chain anchors now = .ok (leaf :: rest) ∧
      profile.dnsSans = leaf.constraints.names.dns := by
  simp only [checkRelyingParty, bind_eq_ok] at h
  obtain ⟨path, hpath, h⟩ := h
  cases path with
  | nil => exact absurd h throw_ne_ok
  | cons leaf rest => exact ⟨leaf, rest, hpath, relyingPartyProfile_dnsSans h⟩

/-- **Key and names of a relying party.** For an accepted bundle the names are the validated leaf's;
the key is the leaf's exactly if the first supplied certificate has the leaf's key. -/
theorem resolveRp_key_eq_leaf_iff (p : Platform) (c : Core) (chain : List Bytes) (key : Bytes)
    (sans : List String) (h : c.resolveRp p chain = (true, key, sans)) :
    ∃ leaf rest, validatePath p chain (c.relyingPartyAnchors p) c.nowEpoch = .ok (leaf :: rest) ∧
      sans = leaf.constraints.names.dns ∧ (key = leaf.publicKeyRaw ↔ FirstCarriesLeafKey p chain) := by
  simp only [Core.resolveRp] at h
  split at h
  · rename_i profile hprofile
    obtain ⟨rfl, rfl⟩ := h
    obtain ⟨leaf, rest, hpath, hsans⟩ := checkRelyingParty_ok hprofile
    obtain ⟨certs, cert, hcerts, huniq, policies, rest', hhead⟩ := validatePath_leaf hpath
    have hkey : leaf.publicKeyRaw = cert.publicKeyRaw := by
      rw [(List.cons.inj hhead).1]
    refine ⟨leaf, rest, hpath, hsans, ?_⟩
    rw [mapM_head hcerts, hkey]
    -- the bundle is not empty: its leaf is one of its certificates
    obtain ⟨first, others, rfl⟩ := List.exists_cons_of_ne_nil
      (List.ne_nil_of_mem ((huniq cert).mpr rfl).1)
    simp only [List.head?_cons, Option.map_some, Option.getD_some]
    constructor
    · intro heq certs' hcerts' d hd
      obtain rfl : first :: others = certs' := Except.ok.inj (hcerts.symm.trans hcerts')
      rw [(huniq d).mp hd, List.head?_cons, Option.map_some, heq]
    · intro hfirst
      exact Option.some.inj (hfirst _ hcerts cert ((huniq cert).mpr rfl))
  · simp at h

/-! ### A bundle with a decoy

The relying party `rp` is certified by the anchor `root`. The decoy names itself `root` too, so that by
name it issues `rp` and is no leaf; nobody signed it. -/

namespace Decoy

open Toy

def root : Certificate := certificate 1 "root" "root"
  [⟨"2.5.29.19", true, .basicConstraints true none⟩, ⟨"2.5.29.15", true, .keyUsage false true⟩]

def rp : Certificate := certificate 2 "rp" "root"
  [⟨"2.5.29.15", true, .keyUsage true false⟩, ⟨"2.5.29.37", false, .extendedKeyUsage [ekuMdocReaderAuth]⟩,
    ⟨"2.5.29.32", false, .certificatePolicies [("1.2.3", false)]⟩,
    ⟨"2.5.29.17", false, .subjectAltName [.dnsName "rp.example"]⟩]

def decoy : Certificate := certificate 3 "root" "nobody" []

/-- The only valid certificate signature is the one of `root` on `rp`. -/
def platform : Platform := { (default : Platform) with
  verifyCertificate := fun _ key tbs sig => key == List.replicate 32 1 && tbs == [2] && sig == [2]
  validateCertificatePublicKey := fun _ _ => true
  decodeCertificate := fun der =>
    if der = [1] then some root else if der = [2] then some rp else if der = [3] then some decoy
    else none }

/-- A core that trusts `root` for relying parties. -/
def core : Core := { Core.new "wallet" "device" 0 with
  nowEpoch := 10
  trustStore := ⟨some ⟨1, 0, 100, [⟨[1], .relyingPartyAccessCa, .granted⟩], [], []⟩⟩ }

end Decoy

/-- With the decoy first, the key is the decoy's while the path starts at `rp`. -/
theorem resolveRp_decoy_key :
    Decoy.core.resolveRp Decoy.platform [[3], [2]] = (true, List.replicate 32 3, ["rp.example"]) ∧
      (validatePath Decoy.platform [[3], [2]] (Decoy.core.relyingPartyAnchors Decoy.platform)
        Decoy.core.nowEpoch).toOption.map (·.map (·.publicKeyRaw)) =
        some [List.replicate 32 2, List.replicate 32 1] := by
  constructor <;> decide

/-- A bundle of the leaf alone. -/
theorem resolveRp_key_eq_leaf_iff_single :
    Decoy.core.resolveRp Decoy.platform [[2]] = (true, List.replicate 32 2, ["rp.example"]) ∧
      ∃ leaf rest, validatePath Decoy.platform [[2]] (Decoy.core.relyingPartyAnchors Decoy.platform)
          Decoy.core.nowEpoch = .ok (leaf :: rest) ∧ ["rp.example"] = leaf.constraints.names.dns ∧
        (List.replicate 32 2 = leaf.publicKeyRaw ↔ FirstCarriesLeafKey Decoy.platform [[2]]) := by
  have h : Decoy.core.resolveRp Decoy.platform [[2]] = (true, List.replicate 32 2, ["rp.example"]) := by decide
  exact ⟨h, resolveRp_key_eq_leaf_iff _ _ _ _ _ h⟩

end EuWallet.Wallet
