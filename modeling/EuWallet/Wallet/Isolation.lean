import EuWallet.Wallet.Runs

/-! # One flow at a time

A machine that waits for something belongs to the active flow (`Confined`); only a stray status list
breaks this. From it: what the events of one flow do while another one is active. -/

namespace EuWallet.Protocol

/-- A machine that waits for something waited before, or was given an offer. -/
theorem Oid4vci.Transition.inProgress {p : Crypto.Platform} {env : Oid4vci.Env}
    {s next : Oid4vci.State} {i : Oid4vci.Input} {outputs : List Oid4vci.Output}
    (h : Oid4vci.Transition p env s i (next, outputs)) (hnext : next.InProgress) :
    s.InProgress ∨ ∃ offer, i = .credentialOffer offer := by
  cases h with
  | none => exact .inl hnext
  | refused | closed | issued => exact hnext.elim
  | reviewed => exact .inr ⟨_, rfl⟩
  | pushed | prompted | preAuthorized | opened | authorized | entered | proving | proved =>
    exact .inl trivial

end EuWallet.Protocol

namespace EuWallet.Wallet

open Codec Crypto Formats Lib Presenter Protocol
open Trust

namespace Core

theorem emptyFlow_not_inProgress (f : ActiveFlow) : ¬ (emptyFlow f).InProgress := by
  cases f <;> simp [emptyFlow, flowData, Core.new, FlowData.InProgress, Oid4vp.State.InProgress,
    Payment.State.InProgress, Oid4vci.State.InProgress, Qes.State.InProgress, Iso18013.State.InProgress]

/-- Only the machine of the active flow waits for something. -/
def Confined (c : Core) : Prop := ∀ f, (c.flowData f).InProgress → c.active = f

section Own
variable {p : Platform} {r : Entropy} {c : Core} {e : Event} {out : Core × List Effect} {input : Oid4vci.Input}

theorem notePayment_active : c.notePayment.active = c.active := by
  unfold notePayment
  split
  · rfl
  · split <;> rfl
  · rfl

theorem noteQes_active : c.noteQes.active = c.active := by
  unfold noteQes
  split <;> rfl

theorem PaymentEvent.confined (hown : c.payment.InProgress → c.active = .payment)
    (h : PaymentEvent p c e out) (hprogress : out.1.payment.InProgress) : out.1.active = .payment := by
  cases h with
  | unchanged =>
    rw [notePayment_payment] at hprogress
    rw [notePayment_active]
    exact hown hprogress
  | ignored => exact hown hprogress
  | refused | rejected | declined | unrecorded => exact hprogress.elim
  | asked => rfl
  | approved hpayment => exact hown (by rw [hpayment]; trivial)
  | authorized hactive => rwa [notePayment_active]
  | delivered _ hpayment hrecorded =>
    obtain ⟨log, latch, rfl⟩ := recordPayment_eq hrecorded
    have hbefore : c.payment.InProgress := hprogress
    rw [hpayment] at hbefore
    exact hbefore.elim

theorem QesEvent.confined (hown : c.qes.InProgress → c.active = .qes)
    (h : QesEvent p c e out) (hprogress : out.1.qes.InProgress) : out.1.active = .qes := by
  cases h with
  | unchanged =>
    rw [noteQes_qes] at hprogress
    rw [noteQes_active]
    exact hown hprogress
  | ignored => exact hown hprogress
  | refused | declined | signed => exact hprogress.elim
  | asked => rfl
  | approved hqes => exact hown (by rw [hqes]; trivial)
  | delivered _ hqes =>
    have hkept : (c.finishFlow .qes).qes = c.qes := rfl
    rw [hkept, hqes] at hprogress
    exact hprogress.elim

theorem TransferEvent.confined (hown : c.w2w = .awaitingTransfer → c.active = .walletTransfer)
    (h : TransferEvent p c e out) (hprogress : out.1.w2w = .awaitingTransfer) : out.1.active = .walletTransfer := by
  cases h with
  | busy => exact hown hprogress
  | offered => rfl
  | rejected | refused | unrecorded => cases hprogress
  | accepted _ _ _ _ hrecorded =>
    obtain ⟨log, latch, rfl⟩ := appendAuditEntry_eq hrecorded
    cases hprogress

theorem ProximityEvent.confined (hown : c.proximity.state.InProgress → c.active = .proximity)
    (h : ProximityEvent p r c e out) (hprogress : out.1.proximity.state.InProgress) : out.1.active = .proximity := by
  have hkept {flow : ProximityFlow} (hstate : c.proximity.state.InProgress) :
      (c.withProximity flow).active = .proximity := hown hstate
  cases h with
  | unavailable => exact hown hprogress
  | engaged => rfl
  | noted hstate =>
    refine hkept ?_
    rwa [← hstate]
  | refused | declined | terminated => exact hprogress.elim
  | established hstate => exact hkept (by rw [hstate]; trivial)
  | consented hactive | responded hactive => exact hactive

theorem DcApiEvent.confined (h : DcApiEvent p c e out) (hprogress : out.1.dcapi.presentation ≠ none) : out.1.active = .dcApi := by
  cases h with
  | unanswered | unprepared | declined | responded | ended => exact absurd rfl hprogress
  | asked => rfl
  | consented hactive => exact hactive

theorem auditLogFaultEffects_issuance : (c.auditLogFaultEffects .issuance).1.issuance = .idle := by
  unfold auditLogFaultEffects terminateAuditedFlow
  split <;> rfl

theorem IssuanceOutcome.confined
    (hown : c.issuance.InProgress ∨ (∃ offer, input = .credentialOffer offer) → c.active = .issuance)
    (h : IssuanceOutcome p c input out) (hprogress : out.1.issuance.InProgress) : out.1.active = .issuance := by
  cases h with
  | rejected =>
    exact hprogress.elim
  | moved hstep => exact hown (hstep.inProgress hprogress)
  | aborted | unstored => exact hprogress.elim
  | settled hissuance =>
    rw [finishFlow_judged, hissuance] at hprogress
    exact hprogress.elim
  | @stored _ _ verified c' _ _ _ _ _ _ hrecorded =>
    have hkept : ((c'.storeVerifiedCredential verified).finishFlow .issuance).issuance = c'.issuance :=
      storeVerifiedCredential_issuance verified
    obtain ⟨log, latch, rfl⟩ := appendAuditEntry_eq hrecorded
    rw [hkept] at hprogress
    exact hprogress.elim
  | unrecorded =>
    exact hprogress.elim

theorem spendCNonce_active (cNonce : ℕ) : (c.spendCNonce cNonce).active = c.active := by
  unfold spendCNonce
  split <;> rfl

theorem IssuanceEvent.confined (hown : c.issuance.InProgress → c.active = .issuance)
    (h : IssuanceEvent p c e out) (hprogress : out.1.issuance.InProgress) : out.1.active = .issuance := by
  cases h with
  | drove hdrives houtcome =>
    refine houtcome.confined ?_ hprogress
    rintro (hissuance | ⟨offer, rfl⟩)
    · exact hown hissuance
    · cases hdrives
  | offered houtcome => exact houtcome.confined (fun _ => rfl) hprogress
  | token houtcome =>
    rw [spendCNonce_issuance] at hprogress
    rw [spendCNonce_active]
    refine houtcome.confined ?_ hprogress
    rintro (hissuance | ⟨offer, ⟨⟩⟩)
    exact hown hissuance
  | received hissuance _ houtcome =>
    refine houtcome.confined (fun _ => ?_) hprogress
    exact hown (by rw [hissuance]; trivial)
  | unexpected =>
    simp only [rejectUnexpectedCredentialResponse] at hprogress ⊢
    split_ifs at hprogress ⊢
    · exact hprogress.elim
    · exact hown hprogress

theorem OwnEvent.confined {g : ActiveFlow} (hvp : c.VpOwned) (hconfined : c.Confined)
    (h : OwnEvent p r c e out g) (hprogress : (out.1.flowData g).InProgress) : out.1.active = g := by
  have hown := hconfined g
  cases g with
  | none => exact hprogress.elim
  | presentation => exact (VpEvent.owned hvp h).active hprogress
  | payment => exact PaymentEvent.confined hown h hprogress
  | issuance => exact IssuanceEvent.confined hown h hprogress
  | qes => exact QesEvent.confined hown h hprogress
  | walletTransfer => exact TransferEvent.confined hown h hprogress
  | proximity => exact ProximityEvent.confined hown h hprogress
  | dcApi => exact DcApiEvent.confined h hprogress

theorem EventOutcome.confined (hsteady : c.Steady) (hconfined : c.Confined) (hstray : ¬ c.Stray e)
    (h : EventOutcome p r c e out) : out.1.Confined := by
  intro f hprogress
  have hn : f ≠ .none := by
    rintro rfl
    exact hprogress
  rcases h.seenFrom hsteady f hn with hevent | ⟨hforeign, -⟩
  · exact OwnEvent.confined hsteady.vp hconfined hevent hprogress
  cases hforeign with
  | kept data active =>
    rw [data] at hprogress
    exact active.mpr (hconfined f hprogress)
  | dropped data =>
    rw [data] at hprogress
    exact absurd hprogress (emptyFlow_not_inProgress f)
  | orphaned stray => exact absurd stray hstray

/-! ### A finished issuance keeps no issuer -/

/-- The issuer of a credential that was issued is forgotten. -/
def Scrubbed (c : Core) : Prop :=
  ∀ format credential, c.issuance = .credentialIssued format credential → c.issuerIdCurrent = ""

theorem IssuanceOutcome.scrubbed (h : IssuanceOutcome p c input out) : out.1.Scrubbed := by
  intro format credential hissued
  cases h with
  | rejected =>
    cases hissued
  | @moved next _ hash _ hwaiting =>
    have hnext : next = .credentialIssued format credential := hissued
    rw [hnext] at hwaiting
    rcases hwaiting with h | h <;> cases h
  | aborted | unstored => cases hissued
  | settled | stored => rfl
  | unrecorded =>
    cases hissued

theorem IssuanceEvent.scrubbed (hscrubbed : c.Scrubbed) (h : IssuanceEvent p c e out) :
    out.1.Scrubbed := by
  cases h with
  | drove _ houtcome | offered houtcome | received _ _ houtcome => exact houtcome.scrubbed
  | @token _ cNonce c' _ houtcome =>
    intro format credential hissued
    rw [spendCNonce_issuance] at hissued
    have hid : (c'.spendCNonce cNonce).issuerIdCurrent = c'.issuerIdCurrent := by
      unfold spendCNonce
      split <;> rfl
    rw [hid]
    exact houtcome.scrubbed format credential hissued
  | unexpected =>
    intro format credential hissued
    simp only [rejectUnexpectedCredentialResponse] at hissued ⊢
    split_ifs at hissued ⊢
    · rfl
    · exact hscrubbed format credential hissued

theorem EventOutcome.scrubbed (hsteady : c.Steady) (hscrubbed : c.Scrubbed)
    (h : EventOutcome p r c e out) : out.1.Scrubbed := by
  rcases h.seenFrom hsteady .issuance nofun with hevent | ⟨hforeign, -⟩
  · exact IssuanceEvent.scrubbed hscrubbed hevent
  · rcases hforeign.data with data | data <;> replace data := FlowData.issuance.inj data
    · intro format credential hissued
      rw [data.1] at hissued
      rw [data.2.2.1]
      exact hscrubbed format credential hissued
    · exact fun _ _ _ => data.2.2.1

end Own

/-! ### Events of one flow while another is active -/

end Core

def Event.onlyOf : Event → Option ActiveFlow
  | .rpCertChainResolved _ _ | .statusListReceived _ _ _ _ | .presentationDelivered => some .presentation
  | .paymentApproved | .paymentDeclined | .paymentAuthorizationDelivered => some .payment
  | .qesAuthorized | .qesDeclined | .qesAuthorizationDelivered => some .qes
  | .credentialOfferAccepted | .credentialOfferDeclined | .parPushed _ | .authorizationCodeReturned _
  | .transactionCodeEntered _ | .tokenReceived _ _ | .credentialReceived _ _ => some .issuance
  | .proximityReaderEstablishment _ | .proximityReaderTermination => some .proximity
  | _ => none

namespace Core

/-- The pending operations of a flow. -/
def pendingOf (c : Core) (f : ActiveFlow) : List (ℕ × PendingOperation) :=
  c.pendingOperations.filter fun operation => operation.2.flow == f

structure Undisturbed (f : ActiveFlow) (c : Core) (out : Core × List Effect) : Prop where
  data : out.1.flowData f = c.flowData f
  active : out.1.active = c.active
  pending : out.1.pendingOf f = c.pendingOf f
  notClosed : Effect.close ∉ out.2

def Disturbs (c : Core) : Event → Prop
  | .statusListReceived _ _ _ _ | .proximityReaderTermination | .credentialOfferDeclined => True
  | .credentialOfferAccepted | .parPushed _ | .authorizationCodeReturned _ | .transactionCodeEntered _
  | .tokenReceived _ _ => ∃ format credential, c.issuance = .credentialIssued format credential
  | _ => False

variable {p : Platform} {r : Entropy} {c c' : Core} {f g : ActiveFlow} {effects : List Effect}

theorem Provisioned.confined (h : Provisioned p c) : c.Confined := fun f hprogress =>
  absurd (by rwa [h.flowData] at hprogress) (emptyFlow_not_inProgress f)

theorem Provisioned.scrubbed (h : Provisioned p c) : c.Scrubbed := by
  have hdata := FlowData.issuance.inj (h.flowData .issuance)
  exact fun _ _ _ => hdata.2.2.1

theorem Undisturbed.finishFlow (h : Undisturbed f c (c', effects)) (hactive : c.active = f)
    (hf : f ≠ g) : Undisturbed f c (c'.finishFlow g, effects) := by
  obtain ⟨hdata, hkept, hpending, hopen⟩ := h
  refine ⟨?_, ?_, ?_, hopen⟩
  · rw [flowData_finishFlow_of_ne _ hf, hdata]
  · rw [active_finishFlow, if_neg (by rw [hkept, hactive]; exact hf), hkept]
  · rw [← hpending]
    have hcleared : (c'.finishFlow g).pendingOperations =
        c'.pendingOperations.filter fun operation => operation.2.flow != g := by
      cases g <;> rfl
    simp only [pendingOf, hcleared, List.filter_filter]
    refine List.filter_congr fun operation _ => ?_
    by_cases hflow : operation.2.flow = f <;> simp [hflow, hf]

theorem rpCertChainResolved_undisturbed (hvp : ¬ c.vp.InProgress) (hf : f ≠ .presentation)
    (chain : List Bytes) (uris : List String) : Undisturbed f c (c.rpCertChainResolved p r chain uris) := by
  obtain ⟨provenance, trust, hdrive⟩ : ∃ provenance trust, c.rpCertChainResolved p r chain uris =
      (c.noted provenance c.pendingStatusReferences c.statusLists).drive p r (.rpTrustResolved trust) :=
    ⟨_, _, rfl⟩
  rw [hdrive, drive_of_not_inProgress (by exact hvp) (by simp)]
  exact ⟨by cases f <;> first | rfl | exact absurd rfl hf, rfl, rfl, by simp⟩

theorem presentationDelivered_undisturbed (hvp : ¬ c.vp.InProgress) (hactive : c.active = f)
    (hf : f ≠ .presentation) : Undisturbed f c (c.presentationDelivered p r) := by
  unfold presentationDelivered
  rw [drive_of_not_inProgress hvp (by simp)]
  have hself : Undisturbed f c (c, []) := ⟨rfl, rfl, rfl, by simp⟩
  dsimp only
  split
  · exact hself.finishFlow hactive hf
  · exact hself

theorem notePayment_undisturbed (hf : f ≠ .payment) : Undisturbed f c (c.notePayment, []) := by
  unfold notePayment
  split
  · exact ⟨by cases f <;> first | rfl | exact absurd rfl hf, rfl, rfl, by simp⟩
  · split <;> exact ⟨by cases f <;> rfl, rfl, rfl, by simp⟩
  · exact ⟨rfl, rfl, rfl, by simp⟩

theorem noteQes_undisturbed : Undisturbed f c (c.noteQes, []) := by
  unfold noteQes
  split <;> exact ⟨by cases f <;> rfl, rfl, rfl, by simp⟩

theorem drivePayment_undisturbed {input : Payment.Input} (hsettled : ∀ reason, c.payment ≠ .aborted reason)
    (hpayment : ¬ c.payment.InProgress) (hrequest : ∀ b, input ≠ .paymentAuthorizationRequest b)
    (hf : f ≠ .payment) : Undisturbed f c (c.drivePayment p input) := by
  rw [drivePayment_quiet hsettled]
  · exact notePayment_undisturbed hf
  · cases hstate : c.payment with
    | idle => cases input <;> first | rfl | exact absurd rfl (hrequest _)
    | awaitingConfirmation | awaitingSca => exact absurd trivial (by rwa [hstate] at hpayment)
    | authorized | aborted => cases input <;> rfl

theorem driveQes_undisturbed {input : Qes.Input} (hsettled : ∀ reason, c.qes ≠ .aborted reason)
    (hqes : ¬ c.qes.InProgress) (hrequest : ∀ b, input ≠ .signatureRequest b) :
    Undisturbed f c (c.driveQes p input) := by
  rw [driveQes_quiet hsettled]
  · exact noteQes_undisturbed
  · cases hstate : c.qes with
    | idle => cases input <;> first | rfl | exact absurd rfl (hrequest _)
    | awaitingAuthorization | awaitingSca => exact absurd trivial (by rwa [hstate] at hqes)
    | signed | aborted => cases input <;> rfl

variable {input : Oid4vci.Input}

/-- An issuance that has no transition and no credential to store. -/
theorem driveIssuance_still (hstep : ∀ env, Oid4vci.step p env c.issuance input = (c.issuance, []))
    (hformat : issuanceFormat c.issuance = none) : c.driveIssuance p input =
      (c.judged p).finishIssuance p c.issuance ((c.judged p).showPreparing p input []) := by
  have hadvance : c.advanceIssuance p input = (c.judged p, []) := by
    simp only [advanceIssuance, hstep]
    rfl
  have hkept : (c.judged p).issuance = c.issuance := rfl
  have hstore : (c.judged p).storeIfIssued p (isIssued c.issuance) = .ok (c.judged p) := by
    unfold storeIfIssued
    split
    · next h => rw [← hkept, h] at hformat; cases hformat
    · rfl
  simp [driveIssuance, hadvance, issuanceEntryAccepted, hkept, hformat, completeIssuance, hstore]

section
variable (hissuance : ¬ c.issuance.InProgress)
  (hissued : ∀ format credential, c.issuance ≠ .credentialIssued format credential)
include hissuance hissued

/-- An issuance that waits for nothing and was not issued has no transition but the first and the refusal. -/
theorem driveIssuance_quiet (hoffer : ∀ b, input ≠ .credentialOffer b) (hdecline : input ≠ .decline) :
    c.driveIssuance p input = (c.judged p, (c.judged p).showPreparing p input []) ∨
      c.driveIssuance p input = ((c.judged p).finishFlow .issuance, []) := by
  have hkept : (c.judged p).issuance = c.issuance := rfl
  cases hstate : c.issuance with
  | idle =>
    rw [driveIssuance_still (fun env => ?_) (by rw [hstate]; rfl)]
    · simp [finishIssuance, hkept, hstate]
    · rw [hstate]
      cases input <;> first | rfl | exact absurd rfl (hoffer _) | exact absurd rfl hdecline
  | aborted reason =>
    rw [driveIssuance_still (fun env => ?_) (by rw [hstate]; rfl)]
    · simp [finishIssuance, hkept, hstate, showPreparing_of_aborted (hkept.trans hstate)]
    · rw [hstate]
      cases input <;> first | rfl | exact absurd rfl hdecline
  | credentialIssued => exact absurd hstate (hissued _ _)
  | _ => exact absurd trivial (by rwa [hstate] at hissuance)

theorem driveIssuance_undisturbed (hoffer : ∀ b, input ≠ .credentialOffer b) (hdecline : input ≠ .decline)
    (hactive : c.active = f) (hf : f ≠ .issuance) : Undisturbed f c (c.driveIssuance p input) := by
  have hdata : (c.judged p).flowData f = c.flowData f := by
    cases f <;> first | rfl | exact absurd rfl hf
  rcases driveIssuance_quiet (p := p) hissuance hissued hoffer hdecline with h | h
  · rw [h]
    refine ⟨hdata, rfl, rfl, fun hclose => ?_⟩
    obtain hclose | ⟨document, hclose⟩ := mem_showPreparing hclose
    · cases hclose
    · cases hclose
  · rw [h]
    exact Undisturbed.finishFlow ⟨hdata, rfl, rfl, by simp⟩ hactive hf

theorem tokenReceived_undisturbed (hactive : c.active = f) (hf : f ≠ .issuance) (bound : Bool) (cNonce : ℕ) :
    Undisturbed f c (c.tokenReceived p bound cNonce) := by
  have hdrive : Undisturbed f c (c.driveIssuance p (.tokenResponse bound cNonce)) :=
    driveIssuance_undisturbed hissuance hissued (by simp) (by simp) hactive hf
  unfold tokenReceived
  dsimp only
  split
  · obtain ⟨hdata, hkept, hpending, hopen⟩ := hdrive
    refine ⟨?_, hkept, hpending, hopen⟩
    rw [← hdata]
    cases f <;> rfl
  · exact hdrive

end

theorem credentialReceived_undisturbed (hissuance : ¬ c.issuance.InProgress) (hactive : c.active = f)
    (hf : f ≠ .issuance) (hn : f ≠ .none) (format : String) (credential : Bytes) :
    Undisturbed f c (c.credentialReceived p format credential) := by
  have hreject : c.credentialReceived p format credential = c.rejectUnexpectedCredentialResponse := by
    unfold credentialReceived
    split
    · next hrequesting => exact absurd trivial (by rwa [hrequesting] at hissuance)
    · rfl
  have hrequesting : ∀ format, c.issuance ≠ .requestingCredential format := by
    intro format hstate
    exact absurd trivial (by rwa [hstate] at hissuance)
  rw [hreject]
  simp only [rejectUnexpectedCredentialResponse, hactive]
  rw [if_neg (by simp [hf]), if_neg (by simp [hf, hn])]
  refine ⟨by cases f <;> first | rfl | exact absurd rfl hf, hactive.symm, rfl, ?_⟩
  simp

theorem proximityReaderEstablishment_undisturbed
    (hsettled : ∀ reason, c.proximity.state ≠ .aborted reason) (hproximity : ¬ c.proximity.state.InProgress)
    (hf : f ≠ .proximity) (establishment : Bytes) :
    Undisturbed f c (c.proximityReaderEstablishment p establishment) := by
  have hengaged : ∀ engagement, c.proximity.state ≠ .engaged engagement := by
    intro engagement hstate
    exact absurd trivial (by rwa [hstate] at hproximity)
  unfold proximityReaderEstablishment
  split
  · rw [driveProximity_unawaited (by exact hsettled) (by exact hengaged)]
    exact ⟨by cases f <;> first | rfl | exact absurd rfl hf, rfl, rfl, by simp⟩
  · rw [driveProximity_unawaited hsettled hengaged]
    exact ⟨rfl, rfl, rfl, by simp⟩

/-! ### The events that close -/

theorem close_mem_errorThenClose (code message : String) :
    Effect.close ∈ errorThenClose code message := by simp [errorThenClose]

theorem statusListReceived_closes (hown : c.VpOwned) (hactive : c.active ≠ .presentation) (uri : String)
    (httpStatus : ℕ) (token : Bytes) (chain : List Bytes) :
    Effect.close ∈ (c.statusListReceived p r uri httpStatus token chain).2 := by
  have hsession : c.session = none := by
    by_contra hsome
    exact hactive (hown.active (hown.session hsome).inProgress)
  unfold statusListReceived
  rw [presentationEvidenceIsCurrent_of_no_session hsession]
  exact close_mem_errorThenClose _ _

theorem proximityReaderTermination_closes : Effect.close ∈ (c.driveProximity p .readerTermination).2 := by
  simp [driveProximity_terminated]

theorem credentialOfferDeclined_closes : Effect.close ∈ (c.driveIssuance p .decline).2 := by
  have hstep (env : Oid4vci.Env) : Oid4vci.step p env c.issuance .decline = (.aborted .userDeclined, [.close]) := by
    cases c.issuance with
    | offerParsed grant => cases grant <;> rfl
    | _ => rfl
  have hadvance : c.advanceIssuance p .decline = ((c.judged p).withIssuance (.aborted .userDeclined), [.close]) := by
    simp only [advanceIssuance, hstep]
    rfl
  have hstate : ((c.judged p).withIssuance (.aborted .userDeclined)).issuance = .aborted .userDeclined := rfl
  have hclosed : (c.driveIssuance p .decline).2 = [.close] := by
    simp only [driveIssuance, hadvance, issuanceEntryAccepted, hstate, issuanceFormat, Bool.not_true,
      Bool.false_eq_true, if_false, completeIssuance, collect_cons, collect_nil, translateIssuance,
      storeIfIssued, finishIssuance, showPreparing]
    split <;> rfl
  simp [hclosed]

theorem checkAuditEntry_nameless (hid : c.issuerIdCurrent = "") (format : String) :
    (c.checkAuditEntry (c.issuanceEntry format)).toOption = none := by
  cases hcheck : c.checkAuditEntry (c.issuanceEntry format) with
  | error => rfl
  | ok =>
    obtain ⟨-, hrest⟩ := guard_eq_ok.mp hcheck
    obtain ⟨bytes, hvalid, -⟩ := bind_eq_ok.mp hrest
    obtain ⟨-, hvalid⟩ := guard_eq_ok.mp hvalid
    obtain ⟨_, htext, -⟩ := bind_eq_ok.mp hvalid
    simp [issuanceEntry, hid, TxnLog.validateText] at htext

section
variable {format : Oid4vci.CredentialFormat} {credential : Bytes}
  (hstate : c.issuance = .credentialIssued format credential) (hid : c.issuerIdCurrent = "")
  (hdecline : input ≠ .decline)
include hstate hid hdecline

theorem driveIssuance_nameless : c.driveIssuance p input = ((c.judged p).withIssuance
      (.credentialIssued format credential)).auditLogCandidateRejectionEffects .issuance := by
  have hstep (env : Oid4vci.Env) : Oid4vci.step p env (.credentialIssued format credential) input =
      (.credentialIssued format credential, []) := by
    cases input <;> first | rfl | exact absurd rfl hdecline
  have hadvance : c.advanceIssuance p input =
      ((c.judged p).withIssuance (.credentialIssued format credential), []) := by
    simp only [advanceIssuance, hstate, hstep]
    rfl
  have hkept : ((c.judged p).withIssuance (.credentialIssued format credential)).issuance =
      .credentialIssued format credential := rfl
  have hunfit : (((c.judged p).withIssuance (.credentialIssued format credential)).checkAuditEntry
      (((c.judged p).withIssuance (.credentialIssued format credential)).issuanceEntry
        (formatName format))).toOption = none := checkAuditEntry_nameless hid _
  simp only [driveIssuance, hadvance, issuanceEntryAccepted, hkept, issuanceFormat, hunfit]
  rfl

theorem driveIssuance_issued_closes : Effect.close ∈ (c.driveIssuance p input).2 := by
  rw [driveIssuance_nameless hstate hid hdecline]
  exact close_mem_errorThenClose _ _

end

section Events
variable {e : Event} {out : Core × List Effect}

theorem undisturbed_iff_of_closes (hclose : Effect.close ∈ out.2) (hdisturbs : c.Disturbs e)
    : Undisturbed f c out ↔ ¬ c.Disturbs e :=
  iff_of_false (fun h => h.notClosed hclose) (not_not.mpr hdisturbs)

theorem driveIssuance_undisturbed_iff {input : Oid4vci.Input} (hscrubbed : c.Scrubbed) (hdecline : input ≠ .decline)
    (heffects : out.2 = (c.driveIssuance p input).2)
    (hdisturbs : c.Disturbs e ↔ ∃ format credential, c.issuance = .credentialIssued format credential)
    (hkeeps : (∀ format credential, c.issuance ≠ .credentialIssued format credential) →
      Undisturbed f c out) : Undisturbed f c out ↔ ¬ c.Disturbs e := by
  by_cases hissued : ∃ format credential, c.issuance = .credentialIssued format credential
  · refine undisturbed_iff_of_closes ?_ (hdisturbs.mpr hissued)
    obtain ⟨format, credential, hstate⟩ := hissued
    rw [heffects]
    exact driveIssuance_issued_closes hstate (hscrubbed _ _ hstate) hdecline
  · refine iff_of_true (hkeeps fun format credential hstate => hissued ⟨format, credential, hstate⟩) ?_
    rwa [hdisturbs]

theorem handleEvent_undisturbed_iff (hsteady : c.Steady) (hconfined : c.Confined)
    (hscrubbed : c.Scrubbed) (hn : c.active ≠ .none) (honly : e.onlyOf = some g) (hg : g ≠ c.active) :
    Undisturbed c.active c (c.handleEvent p r e) ↔ ¬ c.Disturbs e := by
  have hidle : ¬ (c.flowData g).InProgress := fun hprogress => hg (hconfined g hprogress).symm
  have hf := hg.symm
  have hself : Undisturbed c.active c (c, []) := ⟨rfl, rfl, rfl, by simp⟩
  have hissuance {input : Oid4vci.Input} (hactive : c.active ≠ .issuance)
      (hissuance : ¬ c.issuance.InProgress) (hdecline : input ≠ .decline) (hoffer : ∀ b, input ≠ .credentialOffer b)
      (hdisturbs : c.Disturbs e ↔ ∃ format credential, c.issuance = .credentialIssued format credential) :
      Undisturbed c.active c (c.driveIssuance p input) ↔ ¬ c.Disturbs e :=
    driveIssuance_undisturbed_iff hscrubbed hdecline rfl hdisturbs fun hissued =>
      driveIssuance_undisturbed hissuance hissued hoffer hdecline rfl hactive
  cases e <;> cases honly
  case rpCertChainResolved chain uris =>
    exact iff_of_true (rpCertChainResolved_undisturbed hidle hf chain uris) id
  case presentationDelivered => exact iff_of_true (presentationDelivered_undisturbed hidle rfl hf) id
  case statusListReceived uri httpStatus token chain =>
    exact undisturbed_iff_of_closes (statusListReceived_closes hsteady.vp hf uri httpStatus token chain)
      trivial
  case paymentApproved | paymentDeclined =>
    exact iff_of_true (drivePayment_undisturbed hsteady.payment hidle (by simp) hf) id
  case paymentAuthorizationDelivered =>
    refine iff_of_true ?_ id
    have hignored : c.paymentAuthorizationDelivered p = (c, []) := by
      unfold paymentAuthorizationDelivered
      split
      · next hactive _ => exact absurd hactive hf
      · rfl
    have hkept : Undisturbed c.active c (c.paymentAuthorizationDelivered p) := by rwa [hignored]
    exact hkept
  case qesAuthorized | qesDeclined =>
    exact iff_of_true (driveQes_undisturbed hsteady.qes hidle (by simp)) id
  case qesAuthorizationDelivered =>
    refine iff_of_true ?_ id
    have hignored : c.qesAuthorizationDelivered = (c, []) := by
      unfold qesAuthorizationDelivered
      split
      · next hactive _ => exact absurd hactive hf
      · rfl
    have hkept : Undisturbed c.active c c.qesAuthorizationDelivered := by rwa [hignored]
    exact hkept
  case credentialOfferDeclined => exact undisturbed_iff_of_closes credentialOfferDeclined_closes trivial
  case credentialOfferAccepted | parPushed | authorizationCodeReturned | transactionCodeEntered =>
    exact hissuance hf hidle (by simp) (by simp) Iff.rfl
  case tokenReceived bound cNonce =>
    refine driveIssuance_undisturbed_iff (p := p) hscrubbed
      (show Oid4vci.Input.tokenResponse bound cNonce ≠ .decline by simp) ?_ Iff.rfl fun hissued => tokenReceived_undisturbed hidle hissued rfl hf bound cNonce
    have htoken : (c.tokenReceived p bound cNonce).2 = (c.driveIssuance p (.tokenResponse bound cNonce)).2 := by
      unfold tokenReceived
      dsimp only
      split <;> rfl
    exact htoken
  case credentialReceived format credential =>
    exact iff_of_true (credentialReceived_undisturbed hidle rfl hf hn format credential) id
  case proximityReaderEstablishment establishment =>
    exact iff_of_true
      (proximityReaderEstablishment_undisturbed hsteady.proximity hidle hf establishment) id
  case proximityReaderTermination =>
    exact undisturbed_iff_of_closes proximityReaderTermination_closes trivial

end Events

/-- In every run, as long as no status list has come astray: an event that belongs to one flow leaves the
flow that is active instead undisturbed exactly if it is not one of the events that close. -/
theorem run_undisturbed_iff (hfresh : Provisioned p c) (inputs : List (Event × Entropy)) :
    Always (fun pre k => (∀ turn ∈ pre, ¬ turn.before.Stray turn.input.1) → k.before.active ≠ .none →
      ∀ flow, k.input.1.onlyOf = some flow → flow ≠ k.before.active →
        (Undisturbed k.before.active k.before (k.after, k.outputs) ↔ ¬ k.before.Disturbs k.input.1))
      (run p c inputs) := by
  refine run_invariant
    (fun pre c => (∀ turn ∈ pre, ¬ turn.before.Stray turn.input.1) → c.Confined ∧ c.Scrubbed)
    hfresh (fun _ => ⟨hfresh.confined, hfresh.scrubbed⟩) ?_ ?_ inputs
  · intro pre k htaken hinv hstray
    obtain ⟨hconfined, hscrubbed⟩ := hinv fun turn hturn => hstray turn (by simp [hturn])
    exact ⟨htaken.outcome.confined htaken.steady hconfined (hstray k (by simp)),
      htaken.outcome.scrubbed htaken.steady hscrubbed⟩
  · intro pre k htaken hinv hstray hactive flow honly hflow
    obtain ⟨hconfined, hscrubbed⟩ := hinv hstray
    rw [← htaken.result]
    exact handleEvent_undisturbed_iff htaken.steady hconfined hscrubbed hactive honly hflow

/-- A transfer is under way: a status list takes its marker away, a declined offer and the end of a
proximity session close it. -/
theorem run_transfer_disturbed : [Event.statusListReceived "" 200 [] [], .credentialOfferDeclined,
      .proximityReaderTermination].Forall fun e =>
    (run default (.new "wallet" "device" 0) [(.walletTransferOfferCreated, []), (e, [])]).map
        (fun k => (k.before.active, k.outputs.contains .close, k.after.active)) = [(.none, false, .walletTransfer),
        (.walletTransfer, true,
          if e = .statusListReceived "" 200 [] [] then .none else .walletTransfer)] := by
  decide

/-- An approval of a payment leaves the transfer alone. -/
theorem run_undisturbed_iff_transfer : ∃ k : Turn, (run default (.new "wallet" "device" 0)
        [(.walletTransferOfferCreated, []), (.paymentApproved, [])]).getLast? = some k ∧
      k.before.active = .walletTransfer ∧ Undisturbed k.before.active k.before (k.after, k.outputs) := by
  have hrun := run_undisturbed_iff (p := default) (.new "wallet" "device" 0)
    [(.walletTransferOfferCreated, []), (.paymentApproved, [])] [_] _ [] rfl (by simp [Stray])
    (by decide) .payment rfl (by decide)
  exact ⟨_, rfl, by decide, hrun.mpr id⟩

end Core

end EuWallet.Wallet
