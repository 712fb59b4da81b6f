import EuWallet.Wallet.Footprint

/-! # Current evidence

The checks made before a presentation is signed or sent, as facts: what they read of the core, and what
holds when they succeed. A credential's currency depends on the environment alone, so it survives
everything but the clock. -/

namespace EuWallet.Wallet

open Codec Crypto Formats Lib Presenter Protocol
open Trust

namespace Core

/-! ### What the checks read -/

def ofEnvironment (e : Environment) : Core where
  config := e.config
  nowEpoch := e.nowEpoch
  trustStore := e.trustStore
  devicePublicKey := e.devicePublicKey
  wua := e.wua
  catalogue := e.catalogue
  nextOperationId := 0

section Congruence
variable {p : Platform} {c c' : Core} (henv : c'.environment = c.environment)
include henv

theorem sdjwtCredentialIsCurrent_congr (stored : StoredSdJwtCredential) :
    c'.sdjwtCredentialIsCurrent p stored = c.sdjwtCredentialIsCurrent p stored := by
  have h (c : Core) : c.sdjwtCredentialIsCurrent p stored =
      (ofEnvironment c.environment).sdjwtCredentialIsCurrent p stored := rfl
  rw [h c', h c, henv]

theorem mdocCredentialIsCurrent_congr (stored : StoredMdocCredential) :
    c'.mdocCredentialIsCurrent p stored = c.mdocCredentialIsCurrent p stored := by
  have h (c : Core) : c.mdocCredentialIsCurrent p stored =
      (ofEnvironment c.environment).mdocCredentialIsCurrent p stored := rfl
  rw [h c', h c, henv]

theorem presentationTrustIsCurrent_congr (session : SessionInfo) :
    c'.presentationTrustIsCurrent p session = c.presentationTrustIsCurrent p session := by
  have h (c : Core) : c.presentationTrustIsCurrent p session =
      (ofEnvironment c.environment).presentationTrustIsCurrent p session := rfl
  rw [h c', h c, henv]

theorem resolveStatusProviderKey_congr (chain : List Bytes) :
    c'.resolveStatusProviderKey p chain = c.resolveStatusProviderKey p chain := by
  have h (c : Core) : c.resolveStatusProviderKey p chain =
      (ofEnvironment c.environment).resolveStatusProviderKey p chain := rfl
  rw [h c', h c, henv]

theorem nowEpoch_congr : c'.nowEpoch = c.nowEpoch := congrArg Environment.nowEpoch henv

theorem sourceIsCurrent_congr (hcredentials : c'.credentials = c.credentials)
    (hmdocs : c'.mdocHoldings = c.mdocHoldings) (source : PresentationCredentialReference) :
    c'.sourceIsCurrent p source = c.sourceIsCurrent p source := by
  cases source with
  | sdJwt holding authenticated =>
    simp only [sourceIsCurrent, hcredentials]
    split
    · rfl
    · exact sdjwtCredentialIsCurrent_congr henv _
  | mdoc holding =>
    simp only [sourceIsCurrent, hmdocs]
    split
    · rfl
    · exact mdocCredentialIsCurrent_congr henv _

theorem presentationEvidenceIsCurrent_congr (hsession : c'.session = c.session)
    (hcredentials : c'.credentials = c.credentials) (hmdocs : c'.mdocHoldings = c.mdocHoldings) :
    c'.presentationEvidenceIsCurrent p = c.presentationEvidenceIsCurrent p := by
  have hsource : c'.sourceIsCurrent p = c.sourceIsCurrent p :=
    funext (sourceIsCurrent_congr henv hcredentials hmdocs)
  unfold presentationEvidenceIsCurrent
  rw [hsession, hsource]
  split
  · rfl
  · rw [presentationTrustIsCurrent_congr henv]

theorem checkReferences_congr (hlists : c'.statusLists = c.statusLists) (all : List StatusReference) :
    ∀ (references : List StatusReference) (uris : List String),
      c'.checkReferences p all references uris = c.checkReferences p all references uris
  | [], _ => rfl
  | reference :: rest, uris => by
    have ih := checkReferences_congr hlists all rest
    simp [checkReferences, hlists, nowEpoch_congr henv, resolveStatusProviderKey_congr henv, ih]

theorem presentationStatusGate_congr (hsession : c'.session = c.session) (hlists : c'.statusLists = c.statusLists) :
    c'.presentationStatusGate p = c.presentationStatusGate p := by
  simp [presentationStatusGate, hsession, checkReferences_congr henv hlists]

theorem presentationSensitiveAbortReason_congr (hsession : c'.session = c.session)
    (hcredentials : c'.credentials = c.credentials) (hmdocs : c'.mdocHoldings = c.mdocHoldings)
    (hlists : c'.statusLists = c.statusLists) :
    c'.presentationSensitiveAbortReason p = c.presentationSensitiveAbortReason p := by
  simp [presentationSensitiveAbortReason, presentationEvidenceIsCurrent_congr henv hsession hcredentials hmdocs,
    presentationStatusGate_congr henv hsession hlists]

end Congruence

/-! ### What the checks establish -/

def SourceCurrent (p : Platform) (c : Core) : PresentationCredentialReference → Prop
  | .sdJwt holding authenticated => ∃ stored ∈ c.credentials, stored.holding = holding ∧
      stored.authenticated = authenticated ∧ c.sdjwtCredentialIsCurrent p stored = .ok ()
  | .mdoc holding => ∃ stored ∈ c.mdocHoldings, stored.holding = holding ∧
      c.mdocCredentialIsCurrent p stored = .ok ()

variable {p : Platform} {c : Core} {α : Type}

theorem sourceIsCurrent_ok {source : PresentationCredentialReference}
    (h : c.sourceIsCurrent p source = .ok ()) : SourceCurrent p c source := by
  cases source with
  | sdJwt holding authenticated =>
    simp only [sourceIsCurrent] at h
    split at h
    · cases h
    · next stored hfind =>
      have hkey := List.find?_some hfind
      simp only [Bool.and_eq_true, beq_iff_eq] at hkey
      exact ⟨stored, List.mem_of_find?_eq_some hfind, hkey.1, hkey.2, h⟩
  | mdoc holding =>
    simp only [sourceIsCurrent] at h
    split at h
    · cases h
    · next stored hfind =>
      have hkey := List.find?_some hfind
      rw [beq_iff_eq] at hkey
      exact ⟨stored, List.mem_of_find?_eq_some hfind, hkey, h⟩

structure EvidenceCurrent (p : Platform) (c : Core) (s : SessionInfo) : Prop where
  trust : c.presentationTrustIsCurrent p s = .ok ()
  nonempty : s.selectedSources ≠ []
  length : s.selectedSources.length = s.selectedCredentials.length
  sources : ∀ source ∈ s.selectedSources, SourceCurrent p c source

theorem presentationEvidenceIsCurrent_ok (h : c.presentationEvidenceIsCurrent p = .ok ()) :
    ∃ s, c.session = some s ∧ EvidenceCurrent p c s := by
  unfold presentationEvidenceIsCurrent at h
  split at h
  · cases h
  · next s hs =>
    obtain ⟨⟨⟩, htrust, h⟩ := bind_eq_ok.mp h
    obtain ⟨hlen, h⟩ := guard_eq_ok.mp h
    rw [not_or, not_not] at hlen
    refine ⟨s, hs, htrust, by simpa using hlen.1, hlen.2, fun source hsource => ?_⟩
    exact sourceIsCurrent_ok (forM_ok _ h source hsource)

theorem mem_pushNew [DecidableEq α] {xs : List α} {x y : α} : y ∈ pushNew xs x ↔ y ∈ xs ∨ y = x := by
  unfold pushNew
  split
  · next h =>
    have hx : x ∈ xs := by simpa using h
    exact ⟨Or.inl, fun hy => hy.elim id fun e => e ▸ hx⟩
  · simp

theorem mem_foldl_pushNew [DecidableEq α] {y : α} : ∀ {new xs : List α}, y ∈ new.foldl pushNew xs ↔ y ∈ xs ∨ y ∈ new
  | [], xs => by simp
  | x :: new, xs => by
    rw [List.foldl_cons, mem_foldl_pushNew, mem_pushNew, List.mem_cons, or_assoc]

/-- Dropping repeated names is dropping repeated things, if names tell them apart. -/
theorem foldl_pushNew_map {β : Type} [DecidableEq α] [DecidableEq β] {f : α → β} : ∀ (xs acc : List α),
    (∀ a ∈ acc ++ xs, ∀ b ∈ acc ++ xs, f a = f b → a = b) →
      (xs.map f).foldl pushNew (acc.map f) = (xs.foldl pushNew acc).map f
  | [], _, _ => rfl
  | x :: xs, acc, h => by
    have hpush : pushNew (acc.map f) (f x) = (pushNew acc x).map f := by
      have hmem : f x ∈ acc.map f ↔ x ∈ acc := by
        refine ⟨fun hx => ?_, List.mem_map_of_mem⟩
        obtain ⟨y, hy, hyx⟩ := List.mem_map.mp hx
        rwa [← h y (by simp [hy]) x (by simp) hyx]
      by_cases hx : x ∈ acc <;> simp [pushNew, hx, hmem]
    have hrest : ∀ a ∈ pushNew acc x ++ xs, a ∈ acc ++ x :: xs := by
      intro a ha
      rw [List.mem_append, mem_pushNew] at ha
      rcases ha with (ha | rfl) | ha <;> simp [*]
    rw [List.map_cons, List.foldl_cons, List.foldl_cons, hpush]
    exact foldl_pushNew_map xs _ fun a ha b hb => h a (hrest a ha) b (hrest b hb)

theorem presentationSensitiveAbortReason_none (h : c.presentationSensitiveAbortReason p = none) :
    c.presentationEvidenceIsCurrent p = .ok () ∧ c.presentationStatusGate p = .ready := by
  unfold presentationSensitiveAbortReason at h
  split at h
  · cases h
  · next hok =>
    refine ⟨hok, ?_⟩
    split at h
    · assumption
    · cases h
    · cases h
    · cases h

end Core

end EuWallet.Wallet
