import EuWallet.Wallet.Drive

/-! # Issuance, payment, signature and transfer

The drivers of the flows that do not present a credential to a relying party. -/

namespace EuWallet.Wallet

open Codec Crypto Formats Lib Presenter Protocol
open Trust

namespace Core

/-! ### Issuance -/

def offerScreen (c : Core) (format : Oid4vci.CredentialFormat) : ScreenDescription :=
  .issuanceOffer {
    issuerName := c.issuerDisplayName
    documentName := (documentLabel format).1
    format := (documentLabel format).2
    attributes := if c.portraitRequired then ["family_name", "given_name", "portrait"] else []
    portraitRequired := c.portraitRequired }

def translateIssuance (p : Platform) (c : Core) : Oid4vci.Output → Core × List Effect
  | .reviewOffer format =>
    let screen := c.offerScreen format
    ({ c with issuanceConsentHash := consentHash p screen }, [.render screen])
  | .pushPar => (c, [.pushPar])
  | .openAuthBrowser => (c, [.openAuthBrowser])
  | .promptTxCode => (c, [.promptTxCode])
  | .requestToken => (c, [.requestToken])
  | .signProof keyRef signingInput => (c, [.sign keyRef signingInput])
  | .requestCredential proofJwt => (c, [.requestCredential proofJwt])
  | .close => (c, [.close])

/-- Is the issuer of the offer still the one that was resolved, and the one that was asserted? -/
def issuerIsCurrent (p : Platform) (c : Core) : Bool :=
  let issuers := c.resolveCredentialIssuers p c.issuerCertChainCurrent
  issuerCandidatesAreConsistent issuers && issuers == c.issuerCandidatesCurrent &&
    issuers.head?.any (·.identity == c.issuerIdCurrent) &&
    c.issuerIdAssertionCurrent == c.issuerIdCurrent

/-- The environment of the issuance machine. -/
def issuanceEnv (c : Core) : Oid4vci.Env where
  issuerTrusted := c.issuerTrustedCurrent
  proofKeyAttested := c.wua.any (·.isValidForAt c.devicePublicKey .high c.nowEpoch)
  seenCNonces := c.issSeenCNonces
  deviceKeyRef := c.config.deviceKeyRef
  devicePublicKey := c.devicePublicKey
  issuerId := c.issuerIdCurrent
  nowEpoch := c.nowEpoch

def isIssued : Oid4vci.State → Bool
  | .credentialIssued _ _ => true
  | _ => false

/-- An accepted offer shows its document first. -/
def showPreparing (p : Platform) (c : Core) (input : Oid4vci.Input) (effects : List Effect) : List Effect :=
  match input, c.issuance with
  | .acceptOffer, .aborted _ => effects
  | .acceptOffer, _ => match c.issuanceDocumentSummary p .preparing with
    | some document => .render (.issuancePreparing document) :: effects
    | none => effects
  | _, _ => effects

/-- Take the credential that was authenticated on the way in. -/
def takeVerified (c : Core) : Core := { c with pendingVerifiedCredential := none }

/-- The machine says issued, but no authenticated credential of the format is there to store. -/
def rejectIssued (c : Core) : Core := { c with
  issuance := .aborted .credentialInvalid
  lastCredentialIngestionError := some .malformedCredential }

/-- Store the credential of an issuance. The error is the early return of a failed audit entry. -/
def storeIssued (p : Platform) (c : Core) (format : Oid4vci.CredentialFormat) : Except (Core × List Effect) Core :=
  match c.pendingVerifiedCredential with
  | some verified =>
    if verified.credential.format = format then
      match c.takeVerified.recordIssuance p (formatName format) with
      | (c, .error _) => .error (c.auditLogFaultEffects .issuance)
      | (c, .ok _) => .ok (c.storeVerifiedCredential verified)
    else .ok c.takeVerified.rejectIssued
  | none => .ok c.takeVerified.rejectIssued

/-- The first arrival in `CredentialIssued`. -/
def storeIfIssued (p : Platform) (wasIssued : Bool) (c : Core) : Except (Core × List Effect) Core :=
  match c.issuance with
  | .credentialIssued format _ => if wasIssued then .ok c else c.storeIssued p format
  | _ => .ok c

def insertBeforeClose (e : Effect) : List Effect → List Effect
  | [] => [e]
  | .close :: rest => e :: .close :: rest
  | x :: rest => x :: insertBeforeClose e rest

/-- The end of `drive_issuance`. -/
def finishIssuance (p : Platform) (before : Oid4vci.State) (c : Core) (effects : List Effect) : Core × List Effect :=
  match c.issuance with
  | .credentialIssued _ _ =>
    (c.finishFlow .issuance,
      if isIssued before then effects
      else match c.issuanceDocumentSummary p .ready with
        | some document => insertBeforeClose (.render (.issuanceReady document)) effects
        | none => effects)
  | .aborted reason => (c.finishFlow .issuance, match before with
      | .aborted _ => effects
      | _ => if reason = .userDeclined then [.close] else credentialIssuanceRejectionEffects)
  | _ => (c, effects)

/-- Can the audit entry of the issuance still be written? -/
def issuanceEntryAccepted (c : Core) : Bool :=
  match issuanceFormat c.issuance with
  | some format => (c.checkAuditEntry (c.issuanceEntry (formatName format))).toOption.isSome
  | none => true

/-- The transition of `drive_issuance`, made under the issuer's current trust. -/
def advanceIssuance (p : Platform) (c : Core) (input : Oid4vci.Input) : Core × List Oid4vci.Output :=
  let c := { c with issuerTrustedCurrent := c.issuerIsCurrent p }
  let (next, outputs) := Oid4vci.step p c.issuanceEnv c.issuance input
  ({ c with issuance := next }, outputs)

/-- `drive_issuance` once the audit entry is known to fit. -/
def completeIssuance (p : Platform) (before : Oid4vci.State) (input : Oid4vci.Input) (c : Core)
    (outputs : List Oid4vci.Output) : Core × List Effect :=
  let (c, effects) := collect (translateIssuance p) c outputs
  let effects := c.showPreparing p input effects
  match c.storeIfIssued p (isIssued before) with
  | .error early => early
  | .ok c => c.finishIssuance p before effects

def driveIssuance (p : Platform) (c : Core) (input : Oid4vci.Input) : Core × List Effect :=
  let (c', outputs) := c.advanceIssuance p input
  if !c'.issuanceEntryAccepted then c'.auditLogCandidateRejectionEffects .issuance
  else completeIssuance p c.issuance input c' outputs

/-- The event `CredentialOfferReceived` of `handle_event`. -/
def credentialOfferReceived (p : Platform) (c : Core) (offer : Bytes) (issuerCertChain : List Bytes)
    (issuerId : String) : Core × List Effect :=
  let c := { c.beginFlow .issuance with issuance := .idle, issuerCertChainCurrent := issuerCertChain }
  let issuers := c.resolveCredentialIssuers p issuerCertChain
  let identity := (issuers.head?.map (·.identity)).getD ""
  let consistent := issuerCandidatesAreConsistent issuers
  { c with
    issuerTrustedCurrent := !issuers.isEmpty && consistent && issuerId == identity
    issuerIdCurrent := identity
    issuerIdAssertionCurrent := issuerId
    issuerCandidatesCurrent := if consistent then issuers else []
    pendingVerifiedCredential := none
    lastCredentialIngestionError := none }.driveIssuance p (.credentialOffer offer)

/-- The event `TokenReceived` of `handle_event`. -/
def tokenReceived (p : Platform) (c : Core) (bound : Bool) (cNonce : ℕ) : Core × List Effect :=
  let (c, effects) := c.driveIssuance p (.tokenResponse bound cNonce)
  match c.issuance with
  | .provingPossession _ _ => ({ c with issSeenCNonces := pushNew c.issSeenCNonces cNonce }, effects)
  | _ => (c, effects)

/-- The event `CredentialReceived` of `handle_event`. -/
def credentialReceived (p : Platform) (c : Core) (format : String) (credential : Bytes) : Core × List Effect :=
  match c.issuance with
  | .requestingCredential _ => match parseFormat format with
    | none => { c with
        pendingVerifiedCredential := none
        lastCredentialIngestionError := some .unsupportedFormat }.driveIssuance p
          .credentialResponseRejected
    | some f => match c.authenticateReceivedCredential p f credential c.issuerCertChainCurrent
          c.issuerIdAssertionCurrent with
      | .ok verified => { c with
          pendingVerifiedCredential := some verified
          lastCredentialIngestionError := none }.driveIssuance p (.credentialResponse f credential true)
      | .error e => { c with
          pendingVerifiedCredential := none
          lastCredentialIngestionError := some e }.driveIssuance p
            (.credentialResponse f credential false)
  | _ => c.rejectUnexpectedCredentialResponse

/-! ### Payment -/

def paymentEntry (c : Core) (summary : TxnLog.PaymentSummary) (hash : Hash32) : TxnLog.NewEntry where
  epoch := c.nowEpoch
  kind := .payment
  counterparty := summary.payee
  consentHash := hash
  claimPaths := []
  outcome := .completed
  payment := some summary

def translatePayment (p : Platform) (c : Core) : Payment.Output → Core × List Effect
  | .renderPaymentConfirmation creditorName creditorAccount amountMinor currency =>
    let screen := ScreenDescription.paymentConfirmation
      ⟨creditorName, creditorAccount, amountMinor, currency⟩
    let hash := consentHash p screen
    let summary : TxnLog.PaymentSummary := ⟨creditorName, amountMinor, currency⟩
    match c.checkAuditEntry (c.paymentEntry summary hash) with
    | .error _ => c.auditLogCandidateRejectionEffects .payment
    | .ok _ => ({ c with payConsentHash := hash, paySummary := some summary }, [.render screen])
  | .signAuthCode keyRef signingInput => (c, [.sign keyRef signingInput])
  | .sendAuthorization code =>
    (c, [.http .paymentAuthorization ((c.payPending.map (·.1)).getD "") code])
  | .close => match c.payment with
    | .authorized _ => (c, [])
    | _ => (c, [.close])

/-- What `drive_payment` notes after the transition: the endpoint of a request under confirmation, the
nonce of an authorised one. -/
def notePayment (c : Core) : Core :=
  match c.payment with
  | .awaitingConfirmation req => { c with payPending := some (req.responseUri, req.nonce) }
  | .authorized _ => match c.payPending with
    | some (_, nonce) => { c with paySeenNonces := pushNew c.paySeenNonces nonce }
    | none => c
  | _ => c

/-- The transition of `drive_payment`. -/
def advancePayment (p : Platform) (c : Core) (input : Payment.Input) : Core × List Payment.Output :=
  let (next, outputs) := Payment.step p ⟨c.paySeenNonces, c.config.deviceKeyRef⟩ c.payment input
  ({ c with payment := next }.notePayment, outputs)

/-- The end of `drive_payment`: an abort resets the flow. -/
def finishPayment (c : Core) (effects : List Effect) : Core × List Effect :=
  match c.payment with
  | .aborted reason =>
    (c.resetFlow .payment,
      if effects.contains .close then effects
      else if reason = .userDeclined then effects ++ [.close]
      else effects ++ errorThenClose "payment_aborted"
        "The payment authorization could not be completed.")
  | _ => (c, effects)

def drivePayment (p : Platform) (c : Core) (input : Payment.Input) : Core × List Effect :=
  let (c, outputs) := c.advancePayment p input
  let (c, effects) := collect (translatePayment p) c outputs
  c.finishPayment effects

/-- The event `PaymentAuthorizationDelivered` of `handle_event`. -/
def paymentAuthorizationDelivered (p : Platform) (c : Core) : Core × List Effect :=
  match c.active, c.payment with
  | .payment, .authorized _ => match c.recordPayment p with
    | (c, .error _) => c.auditLogFaultEffects .payment
    | (c, .ok _) => (c.finishFlow .payment, [.close])
  | _, _ => (c, [])

/-! ### Qualified signature -/

def translateQes (p : Platform) (c : Core) : Qes.Output → Core × List Effect
  | .renderSignConfirmation documentName qtspId documentHash =>
    let screen := ScreenDescription.signConfirmation ⟨documentName, qtspId, hexBytes documentHash⟩
    ({ c with qesConsentHash := consentHash p screen }, [.render screen])
  | .signAuthorization keyRef signingInput => (c, [.sign keyRef signingInput])
  | .sendToQtsp body => (c, [.http .qesAuthorization "" body])
  | .close => match c.qes with
    | .signed _ => (c, [])
    | _ => (c, [.close])

/-- What `drive_qes` notes after the transition: the nonce of a request under confirmation. -/
def noteQes (c : Core) : Core :=
  match c.qes with
  | .awaitingAuthorization req => { c with qesSeenNonces := pushNew c.qesSeenNonces req.nonce }
  | _ => c

/-- The transition of `drive_qes`. -/
def advanceQes (p : Platform) (c : Core) (input : Qes.Input) : Core × List Qes.Output :=
  let (next, outputs) :=
    Qes.step p ⟨c.qesSeenNonces, c.config.deviceKeyRef, c.qesConsentHash⟩ c.qes input
  ({ c with qes := next }.noteQes, outputs)

/-- The end of `drive_qes`: an abort resets the flow. -/
def finishQes (c : Core) (effects : List Effect) : Core × List Effect :=
  match c.qes with
  | .aborted reason =>
    let effects := if reason = .userDeclined then effects
      else effects ++ [.render (.error "qes_aborted"
        "The qualified-signature authorization could not be completed.")]
    (c.resetFlow .qes, ensureClose effects)
  | _ => (c, effects)

def driveQes (p : Platform) (c : Core) (input : Qes.Input) : Core × List Effect :=
  let (c, outputs) := c.advanceQes p input
  let (c, effects) := collect (translateQes p) c outputs
  c.finishQes effects

/-- The event `QesAuthorizationDelivered` of `handle_event`. -/
def qesAuthorizationDelivered (c : Core) : Core × List Effect :=
  match c.active, c.qes with
  | .qes, .signed _ => (c.finishFlow .qes, [.close])
  | _, _ => (c, [])

/-! ### Transfer between wallets -/

def transferEntry (c : Core) (hash : Hash32) : TxnLog.NewEntry where
  epoch := c.nowEpoch
  kind := .transfer
  counterparty := "peer-wallet"
  consentHash := hash
  claimPaths := []
  outcome := .completed
  payment := none

def translateW2w (p : Platform) (c : Core) : W2w.Output → Core × List Effect
  | .publishOffer => (c, [.publishTransferOffer c.devicePublicKey])
  | .storeCredential credential =>
    match c.appendAuditEntry p (c.transferEntry (p.sha256 credential)) with
    | (c, .error _) => c.auditLogFaultEffects .walletTransfer
    | (c, .ok _) => ({ c with w2wCredential := some credential }, [])
  | .close => (c, [.close])

def advanceW2w (c : Core) (input : W2w.Input) : Core × List W2w.Output :=
  let (next, outputs) := W2w.step c.w2w input
  ({ c with w2w := next }, outputs)

def finishW2w (c : Core) (effects : List Effect) : Core × List Effect :=
  match c.w2w with
  | .accepted _ => (c.finishFlow .walletTransfer, effects)
  | .rejected _ => (c.finishFlow .walletTransfer, errorThenClose "wallet_transfer_rejected"
      "The credential transfer could not be authenticated.")
  | .idle | .awaitingTransfer => (c, effects)

def driveW2w (p : Platform) (c : Core) (input : W2w.Input) : Core × List Effect :=
  let (c, outputs) := c.advanceW2w input
  let (c, effects) := collect (translateW2w p) c outputs
  c.finishW2w effects

def receivedCredentialIssuerValid (p : Platform) (c : Core) (credential : Bytes) (issuerChain : List Bytes) : Bool :=
  let issuers := c.resolveCredentialIssuers p issuerChain
  issuerCandidatesAreConsistent issuers && (do
    let signingIssuer ← issuers.head?
    let vc ← (SdJwtVc.parse (← fromUtf8 credential)).toOption
    let alg ← (vc.issuerAlgorithm p).toOption
    if alg ≠ .es256 then none
    let processed ← (vc.verifyAndProcess p signingIssuer.publicKeyRaw alg).toOption
    let issuerPayload ← (vc.issuerPayload p).toOption
    let _ ← (validateSdjwtIssuerProfile vc issuerPayload processed).toOption
    let issuerId ← (processed.claims.lookup "iss").bind Json.asStr
    let credentialType ← (processed.claims.lookup "vct").bind Json.asStr
    let issuer ← (c.issuerForType issuers credentialType).toOption
    return issuerId == issuer.identity && c.catalogue.issuerAllowed credentialType issuer.identity)
      == some true

def transferIsPeerBound (p : Platform) (c : Core)
    (credential senderPublicKey senderSignature senderConsentHash : Bytes) (nonce : ℕ) : Bool :=
  match toHash32 senderConsentHash with
  | none => false
  | some hash => p.verify .es256 senderPublicKey (W2w.transferAuthorizationBinding
      c.config.walletClientId c.devicePublicKey credential hash nonce) senderSignature

/-- The event `WalletTransferOfferCreated` of `handle_event`. -/
def walletTransferOfferCreated (p : Platform) (c : Core) : Core × List Effect :=
  if c.active ≠ .none ∧ c.active ≠ .walletTransfer then (c, walletTransferInProgressEffects)
  else match c.checkAuditEntry (c.transferEntry zeroHash) with
    | .error _ => c.auditLogCandidateRejectionEffects .walletTransfer
    | .ok _ => (c.beginFlow .walletTransfer).driveW2w p .createOffer

/-- The event `WalletTransferReceived` of `handle_event`. -/
def walletTransferReceived (p : Platform) (c : Core) (credential : Bytes) (issuerCertChain : List Bytes)
    (senderPublicKey senderSignature senderConsentHash : Bytes) (nonce : ℕ) : Core × List Effect :=
  if c.active ≠ .none ∧ c.active ≠ .walletTransfer then (c, walletTransferInProgressEffects)
  else
    let c := if c.active = .none then c.beginFlow .walletTransfer else c
    let issuerValid := c.receivedCredentialIssuerValid p credential issuerCertChain
    let peerBound :=
      c.transferIsPeerBound p credential senderPublicKey senderSignature senderConsentHash nonce
    { c with active := .walletTransfer }.driveW2w p (.transferReceived issuerValid peerBound credential)

end Core

end EuWallet.Wallet
