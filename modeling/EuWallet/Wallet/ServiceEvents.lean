import EuWallet.Wallet.PresentationEvents

/-! # What an event can do to a payment, a signature or a transfer

One list of outcomes for each of the three flows, as for the presentation: the guard, the core and the
effects of every branch. The machines of payment and signature never stay aborted, since their drivers
reset the flow; that is the hypothesis under which the lists are complete. -/

namespace EuWallet.Wallet

open Codec Crypto Formats Lib Presenter Protocol
open Trust

namespace Core

/-! ### Payment -/

def paymentScreen (req : Payment.PaymentRequest) : ScreenDescription :=
  .paymentConfirmation ⟨req.creditorName, req.creditorAccount, req.amountMinor, req.currency⟩

def paymentSummary (req : Payment.PaymentRequest) : TxnLog.PaymentSummary :=
  ⟨req.creditorName, req.amountMinor, req.currency⟩

def withPayment (c : Core) (payment : Payment.State) : Core := { c with payment }

def awaitPayment (c : Core) (req : Payment.PaymentRequest) : Core :=
  { c with
    payment := .awaitingConfirmation req, payPending := some (req.responseUri, req.nonce) }

/-- A request whose confirmation screen is shown. -/
def askedPayment (p : Platform) (c : Core) (req : Payment.PaymentRequest) : Core :=
  { c with
    payment := .awaitingConfirmation req, payPending := some (req.responseUri, req.nonce)
    payConsentHash := consentHash p (paymentScreen req), paySummary := some (paymentSummary req) }

def paymentAborted : List Effect :=
  errorThenClose "payment_aborted" "The payment authorization could not be completed."

inductive PaymentEvent (p : Platform) (c : Core) : Event → Core × List Effect → Prop
  /-- No transition; the notes of the state are made again. -/
  | unchanged {e} : PaymentEvent p c e (c.notePayment, [])
  | ignored : PaymentEvent p c .paymentAuthorizationDelivered (c, [])
  | refused {b} : PaymentEvent p c (.paymentAuthorizationRequestReceived b)
      ((c.beginFlow .payment).resetFlow .payment, paymentAborted)
  /-- The audit entry of the request does not fit. -/
  | rejected {b} : PaymentEvent p c (.paymentAuthorizationRequestReceived b)
      ((c.beginFlow .payment).auditLogCandidateRejectionEffects .payment)
  | asked {b req} (parsed : Payment.parseRequest p b = some req)
      (fresh : Payment.requestRefusal ⟨c.paySeenNonces, c.config.deviceKeyRef⟩ req = none)
      (audit : c.log.checkAppend
        (c.paymentEntry (paymentSummary req) (consentHash p (paymentScreen req))) = .ok ()) :
      PaymentEvent p c (.paymentAuthorizationRequestReceived b)
        ((c.beginFlow .payment).askedPayment p req, [.render (paymentScreen req)])
  | approved {req} (payment : c.payment = .awaitingConfirmation req) :
      PaymentEvent p c .paymentApproved
        (c.withPayment (.awaitingSca ⟨req, Payment.dynamicLinkingBinding req⟩),
          [.sign c.config.deviceKeyRef (Payment.dynamicLinkingBinding req)])
  | declined {req} (payment : c.payment = .awaitingConfirmation req) :
      PaymentEvent p c .paymentDeclined (c.resetFlow .payment, [.close])
  | authorized {pending signature} (active : c.active = .payment)
      (payment : c.payment = .awaitingSca pending) :
      PaymentEvent p c (.deviceSignatureProduced signature)
        ((c.withPayment (.authorized signature)).notePayment,
          [.http .paymentAuthorization ((c.payPending.map (·.1)).getD "") signature])
  | delivered {c' signature} (active : c.active = .payment)
      (payment : c.payment = .authorized signature) (recorded : c.recordPayment p = (c', .ok ())) :
      PaymentEvent p c .paymentAuthorizationDelivered (c'.finishFlow .payment, [.close])
  | unrecorded {c' signature e} (active : c.active = .payment)
      (payment : c.payment = .authorized signature) (failed : c.recordPayment p = (c', .error e)) :
      PaymentEvent p c .paymentAuthorizationDelivered (c'.auditLogFaultEffects .payment)

section
variable {p : Platform} {c : Core} {reason : Payment.AbortReason} {input : Payment.Input} {out : Core × List Effect}

theorem finishPayment_of_not_aborted (h : ∀ reason, c.payment ≠ .aborted reason)
    (effects : List Effect) : c.finishPayment effects = (c, effects) := by
  unfold finishPayment
  split
  · next hreason => exact absurd hreason (h _)
  · rfl

theorem notePayment_payment : c.notePayment.payment = c.payment := by
  unfold notePayment
  split
  · rfl
  · split <;> rfl
  · rfl

theorem drivePayment_quiet (hsettled : ∀ reason, c.payment ≠ .aborted reason)
    (hstep : Payment.step p ⟨c.paySeenNonces, c.config.deviceKeyRef⟩ c.payment input =
      (c.payment, [])) : c.drivePayment p input = (c.notePayment, []) := by
  have hadvance : c.advancePayment p input = (c.notePayment, []) := by
    simp [advancePayment, hstep]
  simp only [drivePayment, hadvance, collect_nil]
  exact finishPayment_of_not_aborted (by rwa [notePayment_payment]) []

theorem drivePayment_aborted (hreason : reason ≠ .userDeclined)
    (hstep : Payment.step p ⟨c.paySeenNonces, c.config.deviceKeyRef⟩ c.payment input =
      (.aborted reason, [])) : c.drivePayment p input = (c.resetFlow .payment, paymentAborted) := by
  simp only [drivePayment, advancePayment, hstep, notePayment, collect_nil, finishPayment,
    List.contains_nil, Bool.false_eq_true, if_false, if_neg hreason, List.nil_append]
  rfl

theorem requestRefusal_ne_userDeclined {env : Payment.Env} {req : Payment.PaymentRequest} (h : Payment.requestRefusal env req = some reason) : reason ≠ .userDeclined := by
  unfold Payment.requestRefusal at h
  repeat' split at h
  all_goals first | (cases h; done) | (cases h; simp)

/-- A rejected entry ends the flow whatever state it has reached. -/
theorem auditLogCandidateRejectionEffects_payment (req : Payment.PaymentRequest) :
    (c.awaitPayment req).auditLogCandidateRejectionEffects .payment =
      c.auditLogCandidateRejectionEffects .payment := by
  have hactive : (c.awaitPayment req).active = c.active := rfl
  simp only [auditLogCandidateRejectionEffects, terminateAuditedFlow, hactive]
  cases c.active <;> rfl

theorem paymentRequest_event (b : Bytes) : PaymentEvent p c (.paymentAuthorizationRequestReceived b)
      ((c.beginFlow .payment).drivePayment p (.paymentAuthorizationRequest b)) := by
  set c₁ := c.beginFlow .payment with hc₁
  have hidle : c₁.payment = .idle := rfl
  have hseen : c₁.paySeenNonces = c.paySeenNonces := by
    have hstore : c₁.storeData .payment = c.storeData .payment := storeData_beginFlow c
    simpa [storeData] using hstore
  have henv : c₁.environment = c.environment := environment_beginFlow c
  have hconfig : c₁.config = c.config := congrArg Environment.config henv
  cases hparsed : Payment.parseRequest p b with
  | none =>
    have hstep : Payment.step p ⟨c₁.paySeenNonces, c₁.config.deviceKeyRef⟩ c₁.payment
        (.paymentAuthorizationRequest b) = (.aborted .malformedRequest, []) := by
      simp [Payment.step, hidle, hparsed]
    rw [drivePayment_aborted (by simp) hstep]
    exact .refused
  | some req =>
    cases hrefusal : Payment.requestRefusal ⟨c₁.paySeenNonces, c₁.config.deviceKeyRef⟩ req with
    | some reason =>
      rw [drivePayment_aborted (requestRefusal_ne_userDeclined hrefusal)
        (by simp [Payment.step, hidle, hparsed, hrefusal])]
      exact .refused
    | none =>
      have hadvance : c₁.advancePayment p (.paymentAuthorizationRequest b) =
          (c₁.awaitPayment req, [.renderPaymentConfirmation req.creditorName req.creditorAccount
            req.amountMinor req.currency]) := by
        simp only [advancePayment, Payment.step, hidle, hparsed, hrefusal, notePayment]
        rfl
      simp only [drivePayment, hadvance, collect_cons, collect_nil, List.append_nil, translatePayment]
      split
      · have hrejected : PaymentEvent p c (.paymentAuthorizationRequestReceived b)
            (c₁.auditLogCandidateRejectionEffects .payment) := .rejected
        exact hrejected
      · next haudit =>
        refine .asked hparsed (by rwa [hseen, hconfig] at hrefusal) ?_
        have hlog : (c₁.awaitPayment req).log = c.log := log_beginFlow c
        have hnow : (c₁.awaitPayment req).nowEpoch = c.nowEpoch := congrArg Environment.nowEpoch henv
        simp only [checkAuditEntry, paymentEntry, hlog, hnow] at haudit
        exact haudit

theorem paymentApproved_event (hsettled : ∀ reason, c.payment ≠ .aborted reason) :
    PaymentEvent p c .paymentApproved (c.drivePayment p .userApproved) := by
  cases hreq : c.payment with
  | awaitingConfirmation req =>
    convert PaymentEvent.approved hreq using 1
    simp only [drivePayment, advancePayment, Payment.step, hreq, notePayment, collect_cons, collect_nil,
      translatePayment, finishPayment, List.append_nil]
    rfl
  | _ =>
    rw [drivePayment_quiet hsettled (by rw [hreq]; rfl)]
    exact .unchanged

theorem paymentDeclined_event (hsettled : ∀ reason, c.payment ≠ .aborted reason) :
    PaymentEvent p c .paymentDeclined (c.drivePayment p .userDeclined) := by
  cases hreq : c.payment with
  | awaitingConfirmation req =>
    convert PaymentEvent.declined hreq using 1
    simp only [drivePayment, advancePayment, Payment.step, hreq, notePayment, collect_cons, collect_nil,
      translatePayment, finishPayment, List.append_nil]
    rfl
  | _ =>
    rw [drivePayment_quiet hsettled (by rw [hreq]; rfl)]
    exact .unchanged

theorem notePayment_payPending (h : ∀ req, c.payment ≠ .awaitingConfirmation req) :
    c.notePayment.payPending = c.payPending := by
  unfold notePayment
  split
  · next hreq => exact absurd hreq (h _)
  · split <;> rfl
  · rfl

theorem paymentSignature_event (hsettled : ∀ reason, c.payment ≠ .aborted reason)
    (hactive : c.active = .payment) (signature : Bytes) : PaymentEvent p c (.deviceSignatureProduced signature)
      (c.drivePayment p (.authCodeSignatureProduced signature)) := by
  cases hpending : c.payment with
  | awaitingSca pending =>
    have hadvance : c.advancePayment p (.authCodeSignatureProduced signature) =
        ((c.withPayment (.authorized signature)).notePayment, [.sendAuthorization signature, .close]) := by
      simp only [advancePayment, Payment.step, hpending]
      rfl
    have hstate : ((c.withPayment (.authorized signature)).notePayment).payment =
        .authorized signature := notePayment_payment
    have huri : ((c.withPayment (.authorized signature)).notePayment).payPending = c.payPending :=
      notePayment_payPending (by rintro req ⟨⟩)
    convert PaymentEvent.authorized hactive hpending using 1
    simp only [drivePayment, hadvance, collect_cons, collect_nil, translatePayment, hstate, List.append_nil, huri]
    exact finishPayment_of_not_aborted (by rw [hstate]; rintro reason ⟨⟩) _
  | _ =>
    rw [drivePayment_quiet hsettled (by rw [hpending]; rfl)]
    exact .unchanged

theorem paymentDelivered_event :
    PaymentEvent p c .paymentAuthorizationDelivered (c.paymentAuthorizationDelivered p) := by
  unfold paymentAuthorizationDelivered
  split
  · next hactive hauthorized =>
    split
    · next hfailed => exact .unrecorded hactive hauthorized hfailed
    · next hrecorded => exact .delivered hactive hauthorized hrecorded
  · exact .ignored

theorem notePayment_conduct (c : Core) : Conduct .payment c c.notePayment := by
  unfold notePayment
  split
  · exact .ofPayment
  · split
    · exact .ofPayment
    · exact .refl c
  · exact .refl c

theorem PaymentEvent.conduct {e : Event} (h : PaymentEvent p c e out) : Conduct .payment c out.1 := by
  cases h with
  | unchanged => exact notePayment_conduct c
  | ignored => exact .refl c
  | refused => exact Conduct.beginFlow.trans (.resetFlow _)
  | rejected => exact Conduct.beginFlow.trans .auditLogCandidateRejectionEffects
  | asked => exact Conduct.beginFlow.trans .ofPayment
  | approved => exact .ofPayment
  | declined => exact .resetFlow _
  | @authorized _ signature =>
    have hsigned : Conduct .payment c (c.withPayment (.authorized signature)) := .ofPayment
    exact hsigned.trans (notePayment_conduct _)
  | delivered _ _ hrecorded =>
    obtain ⟨log, latch, rfl⟩ := recordPayment_eq hrecorded
    exact Conduct.ofPayment.trans .finishFlow
  | unrecorded _ _ hfailed =>
    obtain ⟨log, latch, rfl⟩ := recordPayment_eq hfailed
    exact Conduct.ofPayment.trans .auditLogFaultEffects

/-! ### Qualified signature -/

def qesScreen (req : Qes.SignRequest) : ScreenDescription :=
  .signConfirmation ⟨req.documentName, req.qtspId, hexBytes req.documentHash⟩

def withQes (c : Core) (qes : Qes.State) : Core := { c with qes }

/-- A request whose confirmation screen is shown; its nonce is used up. -/
def askedQes (p : Platform) (c : Core) (req : Qes.SignRequest) : Core :=
  { c with
    qes := .awaitingAuthorization req, qesSeenNonces := pushNew c.qesSeenNonces req.nonce
    qesConsentHash := consentHash p (qesScreen req) }

/-- The effects of a signature request that is refused. -/
def qesAborted : List Effect :=
  errorThenClose "qes_aborted" "The qualified-signature authorization could not be completed."

inductive QesEvent (p : Platform) (c : Core) : Event → Core × List Effect → Prop
  /-- No transition; the notes of the state are made again. -/
  | unchanged {e} : QesEvent p c e (c.noteQes, [])
  | ignored : QesEvent p c .qesAuthorizationDelivered (c, [])
  | refused {b} : QesEvent p c (.qesSignRequestReceived b)
      ((c.beginFlow .qes).resetFlow .qes, qesAborted)
  | asked {b req} (parsed : Qes.parseRequest p b = some req)
      (fresh : req.nonce ∉ c.qesSeenNonces) :
      QesEvent p c (.qesSignRequestReceived b)
        ((c.beginFlow .qes).askedQes p req, [.render (qesScreen req)])
  | approved {req} (qes : c.qes = .awaitingAuthorization req) :
      QesEvent p c .qesAuthorized (c.withQes (.awaitingSca ⟨req, c.qesConsentHash⟩),
        [.sign c.config.deviceKeyRef (Qes.qesAuthorizationBinding req c.qesConsentHash)])
  | declined {req} (qes : c.qes = .awaitingAuthorization req) :
      QesEvent p c .qesDeclined (c.resetFlow .qes, [.close])
  | signed {pending signature} (active : c.active = .qes) (qes : c.qes = .awaitingSca pending) :
      QesEvent p c (.deviceSignatureProduced signature)
        (c.withQes (.signed signature), [.http .qesAuthorization "" signature])
  | delivered {signature} (active : c.active = .qes) (qes : c.qes = .signed signature) :
      QesEvent p c .qesAuthorizationDelivered (c.finishFlow .qes, [.close])

variable {reason : Qes.AbortReason} {req : Qes.SignRequest} {input : Qes.Input}

theorem finishQes_of_not_aborted (h : ∀ reason, c.qes ≠ .aborted reason)
    (effects : List Effect) : c.finishQes effects = (c, effects) := by
  unfold finishQes
  split
  · next hreason => exact absurd hreason (h _)
  · rfl

theorem noteQes_qes : c.noteQes.qes = c.qes := by
  unfold noteQes
  split <;> rfl

theorem driveQes_quiet (hsettled : ∀ reason, c.qes ≠ .aborted reason)
    (hstep : Qes.step p ⟨c.qesSeenNonces, c.config.deviceKeyRef, c.qesConsentHash⟩ c.qes input =
      (c.qes, [])) : c.driveQes p input = (c.noteQes, []) := by
  have hadvance : c.advanceQes p input = (c.noteQes, []) := by
    simp [advanceQes, hstep]
  simp only [driveQes, hadvance, collect_nil]
  exact finishQes_of_not_aborted (by rwa [noteQes_qes]) []

theorem driveQes_aborted (hreason : reason ≠ .userDeclined)
    (hstep : Qes.step p ⟨c.qesSeenNonces, c.config.deviceKeyRef, c.qesConsentHash⟩ c.qes input =
      (.aborted reason, [])) : c.driveQes p input = (c.resetFlow .qes, qesAborted) := by
  simp only [driveQes, advanceQes, hstep, noteQes, collect_nil, finishQes, if_neg hreason, List.nil_append]
  rfl

theorem qesRefusal_ne_userDeclined {env : Qes.Env} (h : Qes.requestRefusal env req = some reason) : reason ≠ .userDeclined := by
  unfold Qes.requestRefusal at h
  repeat' split at h
  all_goals first | (cases h; done) | (cases h; simp)

theorem qesRefusal_fresh {env : Qes.Env} (h : Qes.requestRefusal env req = none) : req.nonce ∉ env.seenNonces := by
  unfold Qes.requestRefusal at h
  repeat' split at h
  all_goals first | (cases h; done) | skip
  next hseen => simpa using hseen

theorem qesRequest_event (b : Bytes) : QesEvent p c (.qesSignRequestReceived b)
      ((c.beginFlow .qes).driveQes p (.signatureRequest b)) := by
  set c₁ := c.beginFlow .qes with hc₁
  have hidle : c₁.qes = .idle := rfl
  have hseen : c₁.qesSeenNonces = c.qesSeenNonces := by
    have hstore : c₁.storeData .qes = c.storeData .qes := storeData_beginFlow c
    simpa [storeData] using hstore
  cases hparsed : Qes.parseRequest p b with
  | none =>
    have hstep : Qes.step p ⟨c₁.qesSeenNonces, c₁.config.deviceKeyRef, c₁.qesConsentHash⟩ c₁.qes
        (.signatureRequest b) = (.aborted .malformedRequest, []) := by
      simp [Qes.step, hidle, hparsed]
    rw [driveQes_aborted (by simp) hstep]
    exact .refused
  | some req =>
    cases hrefusal : Qes.requestRefusal
        ⟨c₁.qesSeenNonces, c₁.config.deviceKeyRef, c₁.qesConsentHash⟩ req with
    | some reason =>
      rw [driveQes_aborted (qesRefusal_ne_userDeclined hrefusal) (by simp [Qes.step, hidle, hparsed, hrefusal])]
      exact .refused
    | none =>
      convert QesEvent.asked hparsed (hseen ▸ qesRefusal_fresh hrefusal) using 1
      simp only [driveQes, advanceQes, Qes.step, hidle, hparsed, hrefusal, noteQes, collect_cons, collect_nil,
        translateQes, List.append_nil, finishQes]
      rfl

section
variable (hsettled : ∀ reason, c.qes ≠ .aborted reason)
include hsettled

theorem qesAuthorized_event : QesEvent p c .qesAuthorized (c.driveQes p .userAuthorized) := by
  cases hreq : c.qes with
  | awaitingAuthorization req =>
    convert QesEvent.approved hreq using 1
    simp only [driveQes, advanceQes, Qes.step, hreq, noteQes, collect_cons, collect_nil, translateQes, finishQes,
      List.append_nil]
    rfl
  | _ =>
    rw [driveQes_quiet hsettled (by rw [hreq]; rfl)]
    exact .unchanged

theorem qesDeclined_event : QesEvent p c .qesDeclined (c.driveQes p .userDeclined) := by
  cases hreq : c.qes with
  | awaitingAuthorization req =>
    convert QesEvent.declined hreq using 1
    simp only [driveQes, advanceQes, Qes.step, hreq, noteQes, collect_nil, finishQes]
    rfl
  | _ =>
    rw [driveQes_quiet hsettled (by rw [hreq]; rfl)]
    exact .unchanged

theorem qesSignature_event (hactive : c.active = .qes)
    (signature : Bytes) : QesEvent p c (.deviceSignatureProduced signature)
      (c.driveQes p (.authorizationSignatureProduced signature)) := by
  cases hpending : c.qes with
  | awaitingSca pending =>
    convert QesEvent.signed hactive hpending using 1
    simp only [driveQes, advanceQes, Qes.step, hpending, noteQes, collect_cons, collect_nil, translateQes, finishQes,
      List.append_nil]
    rfl
  | _ =>
    rw [driveQes_quiet hsettled (by rw [hpending]; rfl)]
    exact .unchanged

end

theorem qesDelivered_event : QesEvent p c .qesAuthorizationDelivered c.qesAuthorizationDelivered := by
  unfold qesAuthorizationDelivered
  split
  · next hactive hsigned => exact .delivered hactive hsigned
  · exact .ignored

theorem QesEvent.conduct {e : Event} (h : QesEvent p c e out) : Conduct .qes c out.1 := by
  cases h with
  | unchanged =>
    unfold noteQes
    split
    · exact .ofQes
    · exact .refl c
  | ignored => exact .refl c
  | refused => exact Conduct.beginFlow.trans (.resetFlow _)
  | asked => exact Conduct.beginFlow.trans .ofQes
  | approved | signed => exact .ofQes
  | declined => exact .resetFlow _
  | delivered => exact .finishFlow

end

/-! ### Transfer between wallets -/

def withW2w (c : Core) (w2w : W2w.State) : Core := { c with w2w }

/-- A transfer that comes while nothing is active begins its own flow, with no offer in it. -/
def receiving (c : Core) : Core := if c.active = .none then c.beginFlow .walletTransfer else c

inductive TransferEvent (p : Platform) (c : Core) : Event → Core × List Effect → Prop
  | busy {e} (inactive : c.active ≠ .none) (other : c.active ≠ .walletTransfer) :
      TransferEvent p c e (c, walletTransferInProgressEffects)
  /-- The audit entry of a transfer does not fit. -/
  | rejected : TransferEvent p c .walletTransferOfferCreated
      (c.auditLogCandidateRejectionEffects .walletTransfer)
  | offered (audit : c.log.checkAppend (c.transferEntry zeroHash) = .ok ()) :
      TransferEvent p c .walletTransferOfferCreated
        ((c.beginFlow .walletTransfer).withW2w .awaitingTransfer,
          [.publishTransferOffer c.devicePublicKey])
  | refused {credential chain key signature hash nonce reason}
      (mine : c.active = .none ∨ c.active = .walletTransfer) :
      TransferEvent p c (.walletTransferReceived credential chain key signature hash nonce)
        ((c.receiving.withW2w (.rejected reason)).finishFlow .walletTransfer,
          errorThenClose "wallet_transfer_rejected"
            "The credential transfer could not be authenticated.")
  | accepted {credential chain key signature hash nonce c'} (active : c.active = .walletTransfer)
      (w2w : c.w2w = .awaitingTransfer)
      (issuerValid : c.receivedCredentialIssuerValid p credential chain = true)
      (peerBound : c.transferIsPeerBound p credential key signature hash nonce = true)
      (recorded : (c.withW2w (.accepted credential)).appendAuditEntry p
        (c.transferEntry (p.sha256 credential)) = (c', .ok ())) :
      TransferEvent p c (.walletTransferReceived credential chain key signature hash nonce)
        ({ c' with w2wCredential := some credential }.finishFlow .walletTransfer, [.close])
  | unrecorded {credential chain key signature hash nonce c' e} (active : c.active = .walletTransfer)
      (w2w : c.w2w = .awaitingTransfer)
      (failed : (c.withW2w (.accepted credential)).appendAuditEntry p
        (c.transferEntry (p.sha256 credential)) = (c', .error e)) :
      TransferEvent p c (.walletTransferReceived credential chain key signature hash nonce)
        ((c'.auditLogFaultEffects .walletTransfer).1,
          (c'.auditLogFaultEffects .walletTransfer).2 ++ [.close])

variable {p : Platform} {c : Core} {input : W2w.Input}

theorem walletTransferOfferCreated_event :
    TransferEvent p c .walletTransferOfferCreated (c.walletTransferOfferCreated p) := by
  unfold walletTransferOfferCreated
  split
  · next h => exact .busy h.1 h.2
  · split
    · exact .rejected
    · next haudit =>
      convert TransferEvent.offered haudit using 1
      have henv : (c.beginFlow .walletTransfer).environment = c.environment := environment_beginFlow c
      have hkey : (c.beginFlow .walletTransfer).devicePublicKey = c.devicePublicKey :=
        congrArg Environment.devicePublicKey henv
      rw [← hkey]
      rfl

theorem driveW2w_rejected {reason : W2w.RejectReason} (hstep : W2w.step c.w2w input = (.rejected reason, [])) :
    c.driveW2w p input = ((c.withW2w (.rejected reason)).finishFlow .walletTransfer,
      errorThenClose "wallet_transfer_rejected" "The credential transfer could not be authenticated.") := by
  simp only [driveW2w, advanceW2w, hstep, collect_nil, finishW2w]
  rfl

theorem appendAuditEntry_w2w {e : TxnLog.NewEntry} : (c.appendAuditEntry p e).1.w2w = c.w2w := by
  unfold appendAuditEntry
  split <;> rfl

theorem driveW2w_accepted {credential : Bytes}
    (hstep : W2w.step c.w2w input = (.accepted credential, [.storeCredential credential, .close])) :
    c.driveW2w p input = match (c.withW2w (.accepted credential)).appendAuditEntry p
        (c.transferEntry (p.sha256 credential)) with
      | (c', .error _) => ((c'.auditLogFaultEffects .walletTransfer).1,
          (c'.auditLogFaultEffects .walletTransfer).2 ++ [.close])
      | (c', .ok _) =>
        ({ c' with w2wCredential := some credential }.finishFlow .walletTransfer, [.close]) := by
  have hentry : (c.withW2w (.accepted credential)).transferEntry (p.sha256 credential) =
      c.transferEntry (p.sha256 credential) := rfl
  have hadvance : c.advanceW2w input = (c.withW2w (.accepted credential), [.storeCredential credential, .close]) := by
    simp only [advanceW2w, hstep]
    rfl
  have hw2w := appendAuditEntry_w2w (p := p) (c := c.withW2w (.accepted credential))
    (e := c.transferEntry (p.sha256 credential))
  simp only [driveW2w, hadvance, collect_cons, collect_nil, translateW2w, hentry, List.append_nil]
  rcases happend : (c.withW2w (.accepted credential)).appendAuditEntry p
    (c.transferEntry (p.sha256 credential)) with ⟨c', _ | _⟩
  · rfl
  · have hstate : c'.w2w = .accepted credential := by rw [happend] at hw2w; exact hw2w
    simp [finishW2w, hstate]

theorem walletTransferReceived_event (hwaiting : c.active = .walletTransfer → c.w2w = .awaitingTransfer)
    (credential : Bytes) (chain : List Bytes) (key signature hash : Bytes) (nonce : ℕ) :
    TransferEvent p c (.walletTransferReceived credential chain key signature hash nonce)
      (c.walletTransferReceived p credential chain key signature hash nonce) := by
  unfold walletTransferReceived
  split
  · next h => exact .busy h.1 h.2
  · next hmine =>
    rw [not_and_or, not_not, not_not] at hmine
    have hrefused {reason} : TransferEvent p c (.walletTransferReceived credential chain key signature hash nonce)
        ((c.receiving.withW2w (.rejected reason)).finishFlow .walletTransfer,
          errorThenClose "wallet_transfer_rejected"
            "The credential transfer could not be authenticated.") := .refused hmine
    dsimp only
    by_cases hnone : c.active = .none
    · rw [if_pos hnone]
      have hreceiving : c.receiving = c.beginFlow .walletTransfer := if_pos hnone
      rw [hreceiving] at hrefused
      convert hrefused using 1
      exact driveW2w_rejected (show W2w.step _ _ = (.rejected .outOfOrder, []) from rfl)
    · have hactive : c.active = .walletTransfer := hmine.resolve_left hnone
      have hreceiving : c.receiving = c := if_neg hnone
      have hself : ({ c with active := .walletTransfer } : Core) = c := by rw [← hactive]
      rw [if_neg hnone, hself]
      rw [hreceiving] at hrefused
      have hstep (issuerValid peerBound : Bool) :
          W2w.step c.w2w (.transferReceived issuerValid peerBound credential) =
            if !issuerValid then (.rejected .issuerInvalid, [])
            else if !peerBound then (.rejected .peerMismatch, [])
            else (.accepted credential, [.storeCredential credential, .close]) := by
        simp [W2w.step, hwaiting hactive]
      cases hissuer : c.receivedCredentialIssuerValid p credential chain with
      | false =>
        rw [driveW2w_rejected (hstep false _)]
        exact hrefused
      | true =>
        cases hpeer : c.transferIsPeerBound p credential key signature hash nonce with
        | false =>
          rw [driveW2w_rejected (hstep true false)]
          exact hrefused
        | true =>
          rw [driveW2w_accepted (hstep true true)]
          split
          · next hfailed => exact .unrecorded hactive (hwaiting hactive) hfailed
          · next hrecorded =>
            exact .accepted hactive (hwaiting hactive) hissuer hpeer hrecorded

theorem TransferEvent.conduct {e : Event} {out : Core × List Effect} (h : TransferEvent p c e out) :
    Conduct .walletTransfer c out.1 := by
  cases h with
  | busy => exact .refl c
  | rejected => exact .auditLogCandidateRejectionEffects
  | offered => exact Conduct.beginFlow.trans .ofWalletTransfer
  | refused =>
    have hreceiving : Conduct .walletTransfer c c.receiving := by
      unfold receiving
      split
      · exact .beginFlow
      · exact .refl c
    exact (hreceiving.trans .ofWalletTransfer).trans .finishFlow
  | accepted _ _ _ _ hrecorded =>
    obtain ⟨log, latch, rfl⟩ := appendAuditEntry_eq hrecorded
    exact Conduct.ofWalletTransfer.trans .finishFlow
  | unrecorded _ _ hfailed =>
    obtain ⟨log, latch, rfl⟩ := appendAuditEntry_eq hfailed
    exact Conduct.ofWalletTransfer.trans .auditLogFaultEffects

end Core

end EuWallet.Wallet
