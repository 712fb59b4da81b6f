import EuWallet.Wallet.Select

/-! # The life of a flow

At most one flow is active. Beginning, resetting and finishing one, the screens that end it, the gate
over credential status, and the entries it leaves in the audit log. -/

namespace EuWallet.Wallet

open Codec Crypto Formats Presenter Protocol Trust

/-- An error screen that ends the flow. -/
def errorThenClose (code message : String) : List Effect := [.render (.error code message), .close]

namespace Core

/-! ### Begin, reset, finish -/

def clearPendingOperations (c : Core) (flow : ActiveFlow) : Core :=
  { c with pendingOperations := c.pendingOperations.filter fun op => op.2.flow != flow }

/-- The last step of `reset_flow` and `finish_flow`. -/
def clearActive (c : Core) (flow : ActiveFlow) : Core :=
  { c with active := if c.active = flow then .none else c.active }

def resetState (c : Core) : ActiveFlow → Core
  | .presentation => { c with
      vp := .idle, session := none, pendingRpProvenance := none, pendingStatusReferences := [] }
  | .payment => { c with
      payment := .idle, payPending := none, paySummary := none, payConsentHash := zeroHash }
  | .issuance => { c with
      issuance := .idle, issuerTrustedCurrent := false, issuerIdCurrent := ""
      issuerCertChainCurrent := [], issuerCandidatesCurrent := []
      pendingVerifiedCredential := none, issuanceConsentHash := zeroHash }
  | .qes => { c with qes := .idle, qesConsentHash := zeroHash }
  | .walletTransfer => { c with w2w := .idle }
  | .proximity => { c with proximity := {} }
  | .dcApi => { c with dcapi := {} }
  | .none => c

def resetFlow (c : Core) (flow : ActiveFlow) : Core :=
  ((c.clearPendingOperations flow).resetState flow).clearActive flow

/-- The last step of `begin_flow`. -/
def markActive (c : Core) (flow : ActiveFlow) : Core := { c with active := flow }

def beginFlow (c : Core) (flow : ActiveFlow) : Core :=
  let c := if c.active ≠ .none then c.resetFlow c.active else c
  (c.resetFlow flow).markActive flow

/-- The ephemeral state `finish_flow` drops; the machines keep their terminal states. -/
def finishState (c : Core) : ActiveFlow → Core
  | .presentation => { c with
      session := none, pendingRpProvenance := none, pendingStatusReferences := [] }
  | .payment => { c with payPending := none, paySummary := none, payConsentHash := zeroHash }
  | .issuance => { c with
      issuerTrustedCurrent := false, issuerIdCurrent := "", issuerCertChainCurrent := []
      issuerCandidatesCurrent := [], pendingVerifiedCredential := none
      issuanceConsentHash := zeroHash }
  | .qes => { c with qesConsentHash := zeroHash }
  | .proximity => { c with proximity := { c.proximity with
      deviceKey := none, cipher := none, pendingRequest := none, presentation := none
      lastSignature := none } }
  | .dcApi => { c with dcapi := { presentation := none, consentHash := zeroHash } }
  | .walletTransfer | .none => c

def finishFlow (c : Core) (flow : ActiveFlow) : Core :=
  ((c.clearPendingOperations flow).finishState flow).clearActive flow

/-! ### The audit log -/

def appendAuditEntry (p : Platform) (c : Core) (e : TxnLog.NewEntry) : Core × Except TxnLog.LogError Unit :=
  match c.log.append p e with
  | .ok log => ({ c with log }, .ok ())
  | .error error => ({ c with auditLogAvailable := false }, .error error)

def checkAuditEntry (c : Core) (e : TxnLog.NewEntry) : Except TxnLog.LogError Unit := c.log.checkAppend e

def recordPresentation (p : Platform) (c : Core) : Core × Except TxnLog.LogError Unit :=
  match c.session with
  | none => (c, .ok ())
  | some session => c.appendAuditEntry p {
      epoch := c.nowEpoch, kind := .presentation, counterparty := session.rpClientId
      consentHash := session.consentHash, claimPaths := session.sharedClaims
      outcome := .completed, payment := none }

def recordPayment (p : Platform) (c : Core) : Core × Except TxnLog.LogError Unit :=
  match c.paySummary with
  | none => (c, .ok ())
  | some summary => c.appendAuditEntry p {
      epoch := c.nowEpoch, kind := .payment, counterparty := summary.payee
      consentHash := c.payConsentHash, claimPaths := [], outcome := .completed
      payment := some summary }

def issuanceEntry (c : Core) (format : String) : TxnLog.NewEntry where
  epoch := c.nowEpoch
  kind := .issuance
  counterparty := c.issuerIdCurrent
  consentHash := zeroHash
  claimPaths := [format]
  outcome := .completed
  payment := none

def recordIssuance (p : Platform) (c : Core) (format : String) : Core × Except TxnLog.LogError Unit :=
  c.appendAuditEntry p (c.issuanceEntry format)

def terminateAuditedFlow (c : Core) (flow : ActiveFlow) (code message : String) : Core × List Effect :=
  let c := if c.active ≠ .none ∧ c.active ≠ flow then c.resetFlow c.active else c
  (c.resetFlow flow, errorThenClose code message)

def auditLogFaultEffects (c : Core) (flow : ActiveFlow) : Core × List Effect :=
  { c with auditLogAvailable := false }.terminateAuditedFlow flow "audit_log_unavailable"
    "The wallet cannot securely record this operation. No further auditable operation is allowed until the wallet history is repaired or reset."

def auditLogCapacityEffects (c : Core) (flow : ActiveFlow) : Core × List Effect :=
  c.terminateAuditedFlow flow "audit_log_capacity_exhausted"
    "The wallet history does not have enough capacity for this operation. Review or erase history before trying again."

def auditLogCandidateRejectionEffects (c : Core) (flow : ActiveFlow) : Core × List Effect :=
  c.terminateAuditedFlow flow "audit_log_entry_invalid"
    "This operation contains activity details that cannot be recorded safely."

/-! ### The status gate -/

def sourceStatus : PresentationCredentialReference → Option (Option StatusReference)
  | .sdJwt holding _ => some holding.status
  | .mdoc holding => match holding.issuerSigned.decodeMso with
    | .error _ => none
    | .ok mso => match mso.status with
      | none => some none
      | some status => if validStatusUri status.uri then some (some ⟨status.uri, status.index⟩) else none

/-- The second loop of `presentation_status_gate`: `uris` collects the lists to fetch. -/
def checkReferences (p : Platform) (c : Core) (all : List StatusReference) :
    List StatusReference → List String → StatusGate
  | [], uris => if uris.isEmpty then .ready else .fetch all uris
  | reference :: rest, uris => match c.statusLists.lookup reference.uri with
    | none => checkReferences p c all rest (pushNew uris reference.uri)
    | some cached =>
      if !cached.list.isFreshAt c.nowEpoch ||
          (c.resolveStatusProviderKey p cached.providerCertChain).isNone then
        checkReferences p c all rest (pushNew uris reference.uri)
      else match cached.list.statusAt reference.index with
        | .valid => checkReferences p c all rest uris
        | .invalid | .suspended => .revoked
        | .unknown => .indeterminate

def presentationStatusGate (p : Platform) (c : Core) : StatusGate :=
  match c.session with
  | none => .indeterminate
  | some session => match session.selectedSources.mapM sourceStatus with
    | none => .indeterminate
    | some found =>
      let references := (found.filterMap id).foldl pushNew []
      if maxStatusListsPerPresentation < references.length then .indeterminate
      else c.checkReferences p references references []

/-! ### Ending a presentation -/

def presentationErrorEffects : Oid4vp.AbortReason → Option (List Effect)
  | .malformedRequest => some (errorThenClose "presentation_request_malformed"
      "The relying party sent a malformed presentation request.")
  | .responseModeUnsupported => some (errorThenClose "presentation_response_mode_unsupported"
      "The relying party requested an unsupported response mode.")
  | .responseUriInvalid => some (errorThenClose "presentation_response_uri_invalid"
      "The relying party did not provide a valid HTTPS response endpoint.")
  | .responseUriNotRegistered => some (errorThenClose "presentation_response_uri_not_registered"
      "The response endpoint is not registered for this relying party.")
  | .responseEncryptionMetadataInvalid => some (errorThenClose
      "presentation_response_encryption_metadata_invalid"
      "The relying party did not provide valid response-encryption metadata.")
  | .responseEncryptionFailed => some (errorThenClose "presentation_response_encryption_failed"
      "The presentation response could not be encrypted safely.")
  | .clockRollback => some (errorThenClose "clock_rollback_rejected"
      "The trusted wallet clock cannot move backwards.")
  | .credentialExpired => some (errorThenClose "credential_expired"
      "A selected credential expired before it could be shared.")
  | .credentialNotYetValid => some (errorThenClose "credential_not_yet_valid"
      "A selected credential is not currently valid.")
  | .credentialProvenanceInvalid => some (errorThenClose "credential_provenance_invalid"
      "A selected credential no longer has valid authenticated provenance.")
  | .presentationTrustInvalid => some (errorThenClose "presentation_trust_invalid"
      "Current trusted relying-party evidence is required before sharing.")
  | .noCredential => some (errorThenClose "no_eligible_credential"
      "No current credential satisfies the complete presentation request.")
  | .credentialStatusInvalid => some (errorThenClose "credential_revoked"
      "This credential is revoked or suspended and cannot be shared.")
  | .credentialStatusUnavailable => some (errorThenClose "credential_status_unavailable"
      "A fresh, trusted status assertion is required before this credential can be shared.")
  | _ => none

/-- `Core::abort_presentation`. It clears the marker of whichever flow is active. -/
def abortPresentation (c : Core) (reason : Oid4vp.AbortReason) : Core × List Effect :=
  ({ c.clearPendingOperations .presentation with
      vp := .aborted reason, session := none, pendingRpProvenance := none
      pendingStatusReferences := [], active := .none },
    (presentationErrorEffects reason).getD [])

def eligibilityAbortReason : PresentationEligibilityError → Oid4vp.AbortReason
  | .credentialExpired => .credentialExpired
  | .credentialNotYetValid => .credentialNotYetValid
  | .credentialProvenanceInvalid => .credentialProvenanceInvalid
  | .trustEvidenceInvalid => .presentationTrustInvalid
  | .noEligibleCredential => .noCredential

def abortPresentationEligibility (c : Core) (e : PresentationEligibilityError) : Core × List Effect :=
  c.abortPresentation (eligibilityAbortReason e)

def statusBlockEffects (c : Core) (revoked : Bool) : Core × List Effect :=
  c.abortPresentation (if revoked then .credentialStatusInvalid else .credentialStatusUnavailable)

def presentationSensitiveAbortReason (p : Platform) (c : Core) : Option Oid4vp.AbortReason :=
  match c.presentationEvidenceIsCurrent p with
  | .error e => some (eligibilityAbortReason e)
  | .ok _ => match c.presentationStatusGate p with
    | .ready => none
    | .revoked => some .credentialStatusInvalid
    | .fetch _ _ | .indeterminate => some .credentialStatusUnavailable

/-! ### Ending an operation -/

def formatName : Oid4vci.CredentialFormat → String
  | .msoMdoc => "mso_mdoc"
  | .dcSdJwt => "dc+sd-jwt"

def issuanceFormat : Oid4vci.State → Option Oid4vci.CredentialFormat
  | .idle | .aborted _ => none
  | .reviewingOffer _ f | .offerParsed _ f | .authorizing f | .awaitingTxCode f | .requestingToken f
  | .provingPossession f _ | .requestingCredential f | .credentialIssued f _ => some f

def documentLabel : Oid4vci.CredentialFormat → String × CredentialFormat
  | .dcSdJwt => ("Digital identity document", .dcSdJwt)
  | .msoMdoc => ("Mobile document", .msoMdoc)

/-- The display name of the current issuer. -/
def issuerDisplayName (c : Core) : String :=
  ((c.trustStore.credentialIssuerAt c.issuerIdCurrent c.nowEpoch).map (·.displayName)).getD
    "Verified credential issuer"

/-- Does the current issuer provide identity credentials? -/
def portraitRequired (c : Core) : Bool :=
  c.issuerCandidatesCurrent.head?.any (·.service == .pid)

def issuanceDocumentSummary (p : Platform) (c : Core) (status : DocumentStatus) : Option DocumentSummary :=
  (issuanceFormat c.issuance).map fun format => {
    documentId := hexBytes (p.sha256 (utf8 c.issuerIdCurrent ++ utf8 (formatName format))).1
    documentName := (documentLabel format).1
    issuerName := c.issuerDisplayName
    format := (documentLabel format).2
    status
    portraitRequired := c.portraitRequired }

def recoveryReason : Option OperationFailure → IssuanceRecovery
  | some .issuer | some .trust => .issuerRejected
  | some .missingDependency | some .unsupported => .nfcUnavailable
  | some .transport | some .httpStatus => .networkInterrupted
  | none => .sessionInterrupted
  | some .storage | some .signing | some .status | some .rendering => .sessionInterrupted

def failureMessage : Option OperationFailure → String × String
  | none => ("operation_cancelled", "The wallet operation was cancelled before it completed.")
  | some .trust => ("operation_trust_failed",
      "Current authenticated trust information could not be resolved.")
  | some .storage => ("operation_storage_failed", "Required wallet state could not be stored securely.")
  | some .signing => ("operation_signing_failed",
      "The protected device key could not complete the operation.")
  | some .transport | some .httpStatus => ("operation_delivery_failed",
      "The remote service did not acknowledge the wallet operation.")
  | some .issuer => ("operation_issuer_failed", "The credential issuer operation failed.")
  | some .status => ("operation_status_failed",
      "Current authenticated credential status could not be obtained.")
  | some .rendering => ("operation_rendering_failed",
      "The wallet could not show the confirmation securely.")
  | some .missingDependency => ("operation_dependency_missing",
      "A required wallet service is not available.")
  | some .unsupported => ("operation_unsupported",
      "This wallet operation is not supported by the native client.")

def operationTerminalEffects (p : Platform) (c : Core) (pending : PendingOperation)
    (failure : Option OperationFailure) : Core × List Effect :=
  let document := if pending.flow = .issuance then c.issuanceDocumentSummary p .needsAttention else none
  (c.resetFlow pending.flow, match document with
    | some document => [.render (.issuanceRecovery ⟨recoveryReason failure, document.documentName,
        none, false⟩), .close]
    | none => errorThenClose (failureMessage failure).1 (failureMessage failure).2)

def walletTransferInProgressEffects : List Effect :=
  [.render (.error "wallet_transfer_in_progress"
    "A credential transfer cannot replace another wallet operation.")]

def credentialIssuanceRejectionEffects : List Effect :=
  errorThenClose "credential_issuance_rejected"
    "The credential response could not be authenticated and stored."

def rejectUnexpectedCredentialResponse (c : Core) : Core × List Effect :=
  let closesCurrentFlow := c.active = .none ∨ c.active = .issuance
  let requesting := match c.issuance with
    | .requestingCredential _ => true
    | _ => false
  let c' : Core := { c with
    pendingVerifiedCredential := none, lastCredentialIngestionError := some .malformedCredential }
  (if c.active == .issuance || requesting then
      { c' with issuance := .aborted .credentialInvalid }.finishFlow .issuance
    else c',
    if closesCurrentFlow then credentialIssuanceRejectionEffects
    else credentialIssuanceRejectionEffects.filter (· != .close))

def auditedFlowStartedBy : Event → Option ActiveFlow
  | .authorizationRequestReceived _ => some .presentation
  | .paymentAuthorizationRequestReceived _ => some .payment
  | .credentialOfferReceived _ _ _ => some .issuance
  | .walletTransferOfferCreated | .walletTransferReceived _ _ _ _ _ _ => some .walletTransfer
  | _ => none

end Core

end EuWallet.Wallet
