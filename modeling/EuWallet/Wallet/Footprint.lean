import EuWallet.Lib.Except
import EuWallet.Wallet.Handle

/-! # What a flow may touch

The data of the core is split by the flow that owns it: ephemeral data (`flowData`), which a reset
drops, and data that survives (`storeData`). `Footprint g` relates the core before and after a piece of
flow `g`: the environment is the same, the surviving data of the other flows is the same, and the
ephemeral data of each other flow is either the same, with the flow as active as before, or gone, with
the flow inactive. An operation is registered for the flow that was active when its effect was emitted; a
piece of a flow registers none, and those it keeps still belong to the active flow (`Conduct`). -/

namespace EuWallet.Wallet

open Codec Crypto Formats Lib Presenter Protocol
open Trust

inductive FlowData where
  | none
  | presentation (vp : Oid4vp.State) (session : Option SessionInfo)
      (provenance : Option RelyingPartyProvenance) (references : List StatusReference)
  | payment (state : Payment.State) (pending : Option (String × ℕ))
      (summary : Option TxnLog.PaymentSummary) (hash : Hash32)
  | issuance (state : Oid4vci.State) (trusted : Bool) (issuerId : String) (chain : List Bytes)
      (candidates : List CredentialIssuerEvidence) (verified : Option AuthenticatedCredential)
      (hash : Hash32)
  | qes (state : Qes.State) (hash : Hash32)
  | walletTransfer (state : W2w.State)
  | proximity (flow : ProximityFlow)
  | dcApi (flow : DcApiFlow)

inductive StoreData where
  | none
  | presentation (seenNonces : List String) (statusLists : List (String × CachedStatusList))
  | payment (seenNonces : List ℕ)
  | issuance (seenCNonces : List ℕ) (credentials : List StoredSdJwtCredential)
      (mdocHoldings : List StoredMdocCredential) (assertion : String)
      (error : Option CredentialIngestionError)
  | qes (seenNonces : List ℕ)
  | walletTransfer (credential : Option Bytes)

/-- What no flow changes. -/
structure Environment where
  config : WalletConfig
  nowEpoch : ℤ
  trustStore : TrustStore
  devicePublicKey : Bytes
  wua : Option WalletUnitAttestation
  catalogue : Catalogue

namespace Core

def flowData (c : Core) : ActiveFlow → FlowData
  | .none => .none
  | .presentation => .presentation c.vp c.session c.pendingRpProvenance c.pendingStatusReferences
  | .payment => .payment c.payment c.payPending c.paySummary c.payConsentHash
  | .issuance => .issuance c.issuance c.issuerTrustedCurrent c.issuerIdCurrent
      c.issuerCertChainCurrent c.issuerCandidatesCurrent c.pendingVerifiedCredential
      c.issuanceConsentHash
  | .qes => .qes c.qes c.qesConsentHash
  | .walletTransfer => .walletTransfer c.w2w
  | .proximity => .proximity c.proximity
  | .dcApi => .dcApi c.dcapi

def storeData (c : Core) : ActiveFlow → StoreData
  | .presentation => .presentation c.seenNonces c.statusLists
  | .payment => .payment c.paySeenNonces
  | .issuance => .issuance c.issSeenCNonces c.credentials c.mdocHoldings c.issuerIdAssertionCurrent
      c.lastCredentialIngestionError
  | .qes => .qes c.qesSeenNonces
  | .walletTransfer => .walletTransfer c.w2wCredential
  | .none | .proximity | .dcApi => .none

def environment (c : Core) : Environment :=
  ⟨c.config, c.nowEpoch, c.trustStore, c.devicePublicKey, c.wua, c.catalogue⟩

def emptyFlow (f : ActiveFlow) : FlowData := (Core.new "" "" 0).flowData f

/-! ### The life of a flow, by owner -/

section Lifecycle
variable (c : Core) {f g : ActiveFlow}

@[simp] theorem flowData_resetFlow_self (f : ActiveFlow) :
    (c.resetFlow f).flowData f = emptyFlow f := by cases f <;> rfl

theorem flowData_resetFlow_of_ne (h : f ≠ g) : (c.resetFlow g).flowData f = c.flowData f := by
  cases f <;> cases g <;> first | rfl | exact absurd rfl h

theorem flowData_finishFlow_of_ne (h : f ≠ g) : (c.finishFlow g).flowData f = c.flowData f := by
  cases f <;> cases g <;> first | rfl | exact absurd rfl h

@[simp] theorem storeData_resetFlow : (c.resetFlow g).storeData f = c.storeData f := by
  cases f <;> cases g <;> rfl

@[simp] theorem storeData_finishFlow : (c.finishFlow g).storeData f = c.storeData f := by
  cases f <;> cases g <;> rfl

@[simp] theorem environment_resetFlow : (c.resetFlow g).environment = c.environment := by
  cases g <;> rfl

@[simp] theorem environment_finishFlow : (c.finishFlow g).environment = c.environment := by
  cases g <;> rfl

@[simp] theorem log_resetFlow : (c.resetFlow g).log = c.log := by cases g <;> rfl

theorem active_resetFlow : (c.resetFlow g).active = if c.active = g then .none else c.active := by
  cases g <;> rfl

theorem active_finishFlow : (c.finishFlow g).active = if c.active = g then .none else c.active := by
  cases g <;> rfl

theorem active_resetFlow_ne (hg : g ≠ .none) : (c.resetFlow g).active ≠ g := by
  rw [active_resetFlow]
  split
  · exact hg.symm
  · assumption

theorem active_resetFlow_iff (h : f ≠ g) (hf : f ≠ .none) : (c.resetFlow g).active = f ↔ c.active = f := by
  rw [active_resetFlow]
  split
  · next hc => simp [hc, h.symm, hf.symm]
  · rfl

theorem active_finishFlow_iff (h : f ≠ g) (hf : f ≠ .none) : (c.finishFlow g).active = f ↔ c.active = f := by
  rw [active_finishFlow]
  split
  · next hc => simp [hc, h.symm, hf.symm]
  · rfl

section
variable (g : ActiveFlow)

@[simp] theorem active_terminateAuditedFlow (code message : String) :
    (c.terminateAuditedFlow g code message).1.active = .none := by
  unfold terminateAuditedFlow
  split_ifs with hother
  · simp [active_resetFlow]
  · rw [not_and_or, not_not, not_not] at hother
    rcases hother with h | h <;> simp [active_resetFlow, h]

@[simp] theorem active_auditLogFaultEffects :
    (c.auditLogFaultEffects g).1.active = .none := active_terminateAuditedFlow _ _ _ _

@[simp] theorem active_auditLogCapacityEffects :
    (c.auditLogCapacityEffects g).1.active = .none := active_terminateAuditedFlow _ _ _ _

@[simp] theorem active_auditLogCandidateRejectionEffects :
    (c.auditLogCandidateRejectionEffects g).1.active = .none := active_terminateAuditedFlow _ _ _ _

theorem resetFlow_operations : (c.resetFlow g).pendingOperations.Sublist c.pendingOperations := by
  cases g <;> exact List.filter_sublist

end

@[simp] theorem flowData_markActive : (c.markActive g).flowData f = c.flowData f := by cases f <;> rfl

@[simp] theorem storeData_markActive : (c.markActive g).storeData f = c.storeData f := by
  cases f <;> rfl

@[simp] theorem environment_markActive : (c.markActive g).environment = c.environment := rfl

@[simp] theorem active_markActive : (c.markActive g).active = g := rfl

@[simp] theorem active_beginFlow : (c.beginFlow g).active = g := rfl

@[simp] theorem flowData_beginFlow_self (g : ActiveFlow) :
    (c.beginFlow g).flowData g = emptyFlow g := by simp [beginFlow]

@[simp] theorem storeData_beginFlow : (c.beginFlow g).storeData f = c.storeData f := by
  unfold beginFlow
  split <;> simp

@[simp] theorem environment_beginFlow : (c.beginFlow g).environment = c.environment := by
  unfold beginFlow
  split <;> simp

@[simp] theorem log_beginFlow : (c.beginFlow g).log = c.log := by
  have hmark (c : Core) : (c.markActive g).log = c.log := rfl
  unfold beginFlow
  rw [hmark]
  split <;> simp

theorem flowData_beginFlow_of_ne (h : f ≠ g) (hf : f ≠ .none) :
    (c.beginFlow g).flowData f = if c.active = f then emptyFlow f else c.flowData f := by
  simp only [beginFlow, flowData_markActive, flowData_resetFlow_of_ne _ h]
  by_cases hc : c.active = f
  · simp [hc, hf]
  · rw [if_neg hc]
    split
    · exact flowData_resetFlow_of_ne c (Ne.symm hc)
    · rfl

end Lifecycle

/-! ### Writing an entry -/

section Writing
variable {p : Platform} {c c' : Core} {entry : TxnLog.NewEntry} {result : Except TxnLog.LogError Unit}

/-- Writing an entry changes the ledger and nothing else. -/
theorem appendAuditEntry_eq (h : c.appendAuditEntry p entry = (c', result)) :
    ∃ log latch, c' = { c with log := log, auditLogAvailable := latch } := by
  unfold appendAuditEntry at h
  split at h <;> cases h
  · exact ⟨_, c.auditLogAvailable, rfl⟩
  · exact ⟨c.log, _, rfl⟩

theorem recordPresentation_eq (h : c.recordPresentation p = (c', result)) :
    ∃ log latch, c' = { c with log := log, auditLogAvailable := latch } := by
  unfold recordPresentation at h
  split at h
  · cases h
    exact ⟨c.log, c.auditLogAvailable, rfl⟩
  · exact appendAuditEntry_eq h

theorem recordPayment_eq (h : c.recordPayment p = (c', result)) :
    ∃ log latch, c' = { c with log := log, auditLogAvailable := latch } := by
  unfold recordPayment at h
  split at h
  · cases h
    exact ⟨c.log, c.auditLogAvailable, rfl⟩
  · exact appendAuditEntry_eq h

end Writing

/-! ### Footprints -/

inductive Elsewhere (f : ActiveFlow) (c c' : Core) : Prop
  | kept (data : c'.flowData f = c.flowData f) (active : c'.active = f ↔ c.active = f)
  | dropped (data : c'.flowData f = emptyFlow f) (active : c'.active ≠ f)

theorem Elsewhere.trans {f : ActiveFlow} {c c' c'' : Core} (h : Elsewhere f c c')
    (h' : Elsewhere f c' c'') : Elsewhere f c c'' := by
  cases h' with
  | dropped data' active' => exact .dropped data' active'
  | kept data' active' =>
    cases h with
    | kept data active => exact .kept (data'.trans data) (active'.trans active)
    | dropped data active => exact .dropped (data'.trans data) (mt active'.mp active)

structure Footprint (g : ActiveFlow) (c c' : Core) : Prop where
  environment : c'.environment = c.environment
  store : ∀ f ≠ g, c'.storeData f = c.storeData f
  others : ∀ f ≠ g, f ≠ .none → Elsewhere f c c'

/-- A piece of flow `g` keeps to the flow and registers no operation. -/
structure Conduct (g : ActiveFlow) (c c' : Core) : Prop extends Footprint g c c' where
  operations : c'.pendingOperations.Sublist c.pendingOperations

namespace Conduct
variable {g : ActiveFlow} {c c' c'' : Core}

protected theorem refl (c : Core) : Conduct g c c :=
  ⟨⟨rfl, fun _ _ => rfl, fun _ _ _ => .kept rfl Iff.rfl⟩, .refl _⟩

protected theorem trans (h : Conduct g c c') (h' : Conduct g c' c'') : Conduct g c c'' where
  environment := h'.environment.trans h.environment
  store f hf := (h'.store f hf).trans (h.store f hf)
  others f hf hn := (h.others f hf hn).trans (h'.others f hf hn)
  operations := h'.operations.trans h.operations

/-- Only what is the flow's own is changed. -/
theorem own (henv : c'.environment = c.environment) (hactive : c'.active = c.active)
    (hoperations : c'.pendingOperations = c.pendingOperations)
    (h : ∀ f ≠ g, c'.storeData f = c.storeData f ∧ c'.flowData f = c.flowData f) : Conduct g c c' :=
  ⟨⟨henv, fun f hf => (h f hf).1, fun f hf _ => .kept (h f hf).2 (by rw [hactive])⟩, by rw [hoperations]⟩

theorem ofPayment {a b d e s l v} : Conduct .payment c { c with
      payment := a, payPending := b, paySummary := d, payConsentHash := e, paySeenNonces := s
      log := l, auditLogAvailable := v } :=
  own rfl rfl rfl (by rintro ⟨⟩ _ <;> trivial)

theorem ofQes {a b s} : Conduct .qes c
    { c with qes := a, qesConsentHash := b, qesSeenNonces := s } :=
  own rfl rfl rfl (by rintro ⟨⟩ _ <;> trivial)

theorem ofIssuance {a b d e k m n s x y z w l v} : Conduct .issuance c { c with
      issuance := a, issuerTrustedCurrent := b, issuerIdCurrent := d, issuerCertChainCurrent := e
      issuerCandidatesCurrent := k, pendingVerifiedCredential := m, issuanceConsentHash := n
      issSeenCNonces := s, credentials := x, mdocHoldings := y, issuerIdAssertionCurrent := z
      lastCredentialIngestionError := w, log := l, auditLogAvailable := v } :=
  own rfl rfl rfl (by rintro ⟨⟩ _ <;> trivial)

theorem ofWalletTransfer {a b l v} : Conduct .walletTransfer c { c with
      w2w := a, w2wCredential := b, log := l, auditLogAvailable := v } :=
  own rfl rfl rfl (by rintro ⟨⟩ _ <;> trivial)

theorem ofProximity {a} : Conduct .proximity c { c with proximity := a } :=
  own rfl rfl rfl (by rintro ⟨⟩ _ <;> trivial)

theorem ofDcApi {a} : Conduct .dcApi c { c with dcapi := a } :=
  own rfl rfl rfl (by rintro ⟨⟩ _ <;> trivial)

theorem ofPresentation {a b d e s t l v} : Conduct .presentation c { c with
      vp := a, session := b, pendingRpProvenance := d, pendingStatusReferences := e, seenNonces := s
      statusLists := t, log := l, auditLogAvailable := v } :=
  own rfl rfl rfl (by rintro ⟨⟩ _ <;> trivial)

theorem resetFlow (g' : ActiveFlow) : Conduct g c (c.resetFlow g') where
  environment := by simp
  store f _ := by simp
  others f _ hn := by
    by_cases h : f = g'
    · subst h
      exact .dropped (by simp) (active_resetFlow_ne c hn)
    · exact .kept (flowData_resetFlow_of_ne c h) (active_resetFlow_iff c h hn)
  operations := resetFlow_operations c g'

theorem finishFlow : Conduct g c (c.finishFlow g) where
  environment := by simp
  store f _ := by simp
  others f hf hn := .kept (flowData_finishFlow_of_ne c hf) (active_finishFlow_iff c hf hn)
  operations := by cases g <;> exact List.filter_sublist

theorem beginFlow : Conduct g c (c.beginFlow g) where
  environment := by simp
  store f _ := by simp
  others f hf hn := by
    by_cases h : c.active = f
    · exact .dropped (by rw [flowData_beginFlow_of_ne c hf hn, if_pos h]) (by simpa using hf.symm)
    · exact .kept (by rw [flowData_beginFlow_of_ne c hf hn, if_neg h]) (by simp [h, hf.symm])
  operations := by
    refine (resetFlow_operations _ g).trans ?_
    split
    · exact resetFlow_operations c _
    · exact .refl _

variable {g' : ActiveFlow}

theorem terminateAuditedFlow {code message : String} : Conduct g c (c.terminateAuditedFlow g' code message).1 := by
  unfold Core.terminateAuditedFlow
  split
  · exact (resetFlow _).trans (resetFlow _)
  · exact resetFlow _

theorem latch : Conduct g c { c with auditLogAvailable := false } :=
  own rfl rfl rfl (by rintro ⟨⟩ _ <;> trivial)

theorem auditLogFaultEffects : Conduct g c (c.auditLogFaultEffects g').1 :=
  latch.trans terminateAuditedFlow

theorem auditLogCapacityEffects : Conduct g c (c.auditLogCapacityEffects g').1 :=
  terminateAuditedFlow

theorem auditLogCandidateRejectionEffects :
    Conduct g c (c.auditLogCandidateRejectionEffects g').1 := terminateAuditedFlow

end Conduct

/-! ### The footprint of the presentation driver

Aborting a presentation clears the marker of whichever flow is active, so the driver keeps to its flow
only while no other flow is active. -/

def NoOtherActive (c : Core) : Prop := c.active = .presentation ∨ c.active = .none

/-- A piece of the presentation flow, made while no other flow is active. -/
def PresentationConduct (c c' : Core) : Prop :=
  c.NoOtherActive → Conduct .presentation c c' ∧ c'.NoOtherActive

namespace PresentationConduct
variable {c c' c'' : Core}

protected theorem refl (c : Core) : PresentationConduct c c := fun h => ⟨.refl c, h⟩

protected theorem trans (h : PresentationConduct c c') (h' : PresentationConduct c' c'') :
    PresentationConduct c c'' := fun hc =>
  have ⟨hf, hc'⟩ := h hc
  have ⟨hf', hc''⟩ := h' hc'
  ⟨hf.trans hf', hc''⟩

theorem own {a b d e s t l v} : PresentationConduct c { c with
      vp := a, session := b, pendingRpProvenance := d, pendingStatusReferences := e, seenNonces := s
      statusLists := t, log := l, auditLogAvailable := v } :=
  fun h => ⟨.ofPresentation, h⟩

theorem abortPresentation {reason : Oid4vp.AbortReason} : PresentationConduct c (c.abortPresentation reason).1 := by
  intro hc
  refine ⟨⟨⟨rfl, fun f _ => by cases f <;> rfl, fun f hf hn => ?_⟩, List.filter_sublist⟩, .inr rfl⟩
  have hdata : (c.abortPresentation reason).1.flowData f = c.flowData f := by
    cases f <;> first | rfl | exact absurd rfl hf
  have hactive : c.active ≠ f := by
    rcases hc with h | h <;> rw [h]
    · exact hf.symm
    · exact hn.symm
  exact .kept hdata (by simp [Core.abortPresentation, hactive, hn.symm])

theorem terminateAuditedFlow {code message : String} :
    PresentationConduct c (c.terminateAuditedFlow .presentation code message).1 := by
  intro hc
  refine ⟨.terminateAuditedFlow, .inr ?_⟩
  rcases hc with h | h <;> simp [Core.terminateAuditedFlow, h, active_resetFlow]

theorem auditLogFaultEffects : PresentationConduct c (c.auditLogFaultEffects .presentation).1 :=
  PresentationConduct.trans .own .terminateAuditedFlow

end PresentationConduct

end Core

end EuWallet.Wallet
