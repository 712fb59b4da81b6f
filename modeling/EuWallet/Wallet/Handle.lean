import EuWallet.Wallet.Services

/-! # Handling an event

`Core::handle_event`, the single entry point. The bytes the call may draw from the random generator
are an argument. -/

namespace EuWallet.Wallet

open Codec Crypto Formats Lib Presenter Protocol
open Trust

namespace Core

/-- The event `SetClock`: the clock never goes back. -/
def setClock (c : Core) (epoch : ℤ) : Core × List Effect :=
  if epoch < c.nowEpoch then
    if c.active = .presentation then c.abortPresentation .clockRollback
    else (c, (presentationErrorEffects .clockRollback).getD [])
  else ({ c with nowEpoch := epoch }, [])

/-- The redirect URIs a request is checked against: the registered ones take precedence. -/
def authenticatedRedirectUris (c : Core) (supplied : List String) : List String :=
  match c.vp with
  | .resolvingTrust req =>
    ((c.trustStore.relyingPartyAt req.clientId c.nowEpoch).map (·.redirectUris)).getD supplied
  | _ => supplied

/-- The event `RpCertChainResolved`. -/
def rpCertChainResolved (p : Platform) (r : Entropy) (c : Core) (chain : List Bytes)
    (redirectUris : List String) : Core × List Effect :=
  let (registered, rpPublicKey, leafDnsSans) := c.resolveRp p chain
  { c with
    pendingRpProvenance := if registered then some ⟨chain, rpPublicKey⟩ else none }.drive p r
      (.rpTrustResolved ⟨registered, rpPublicKey, c.authenticatedRedirectUris redirectUris,
        leafDnsSans⟩)

/-- A consent to the active OpenID4VP presentation, after its evidence was found current. -/
def consentAfterStatus (p : Platform) (r : Entropy) (c : Core) : Core × List Effect :=
  match c.presentationStatusGate p with
  | .ready => { c with pendingStatusReferences := [] }.drive p r .consentGranted
  | .fetch allReferences uris =>
    ({ c with pendingStatusReferences := allReferences }, uris.map .fetchStatusList)
  | .revoked => c.statusBlockEffects true
  | .indeterminate => c.statusBlockEffects false

/-- The event `UserConsented`. -/
def userConsented (p : Platform) (r : Entropy) (c : Core) : Core × List Effect :=
  match c.active with
  | .proximity => c.driveProximity p .consentGranted
  | .dcApi => c.dcapiConsentGranted
  | .presentation => match c.presentationEvidenceIsCurrent p with
    | .error e => c.abortPresentationEligibility e
    | .ok _ => c.consentAfterStatus p r
  | _ => c.drive p r .consentGranted

/-- The event `UserDeclined`. -/
def userDeclined (p : Platform) (r : Entropy) (c : Core) : Core × List Effect :=
  match c.active with
  | .proximity => c.driveProximity p .consentDeclined
  | .dcApi => (c.resetFlow .dcApi, [.close])
  | _ =>
    let (c, effects) := { c with pendingStatusReferences := [] }.drive p r .consentDeclined
    (if c.vp = .aborted .userDeclined then c.resetFlow .presentation else c, effects)

/-- The event `DeviceSignatureProduced`: it goes to the active flow. -/
def deviceSignatureProduced (p : Platform) (r : Entropy) (c : Core) (signature : Bytes) : Core × List Effect :=
  match c.active with
  | .payment => c.drivePayment p (.authCodeSignatureProduced signature)
  | .issuance => c.driveIssuance p (.proofSignatureProduced signature)
  | .qes => c.driveQes p (.authorizationSignatureProduced signature)
  | .presentation => match c.presentationSensitiveAbortReason p with
    | some reason => c.abortPresentation reason
    | none => c.drive p r (.deviceSignatureProduced signature)
  | .proximity => c.driveProximity p (.deviceSignatureProduced signature)
  | .dcApi => c.dcapiSignatureProduced p signature
  | .walletTransfer | .none => c.drive p r (.deviceSignatureProduced signature)

/-- The event `PresentationDelivered`. -/
def presentationDelivered (p : Platform) (r : Entropy) (c : Core) : Core × List Effect :=
  let (c, effects) := c.drive p r .presentationDelivered
  (if c.vp = .done then c.finishFlow .presentation else c, effects)

/-- `OperationSucceeded`, and the removal the two failing results begin with. -/
def removeOperation (c : Core) (id : ℕ) : Core :=
  { c with pendingOperations := OrdMap.erase id c.pendingOperations }

/-- The events `OperationFailed` and `OperationCancelled`. -/
def operationEnded (p : Platform) (c : Core) (id : ℕ) (failure : Option OperationFailure) : Core × List Effect :=
  match c.pendingOperations.lookup id with
  | some pending => (c.removeOperation id).operationTerminalEffects p pending failure
  | none => (c.removeOperation id, [])

/-- The event `ProximityEngagementRequested`. -/
def proximityEngagementRequested (p : Platform) (r : Entropy) (c : Core) (bleUuid : Bytes) : Core × List Effect :=
  if bleUuid.length ≠ 16 then (c, [.close])
  else match p.generateP256 r with
    | none => (c, [.close])
    | some deviceKey => match Iso18013.sec1ToCoseEc2 deviceKey.publicRaw with
      | .error _ => (c, [.close])
      | .ok deviceKeyCose =>
        let c := c.beginFlow .proximity
        { c with proximity := { c.proximity with deviceKey := some deviceKey } }.driveProximity p
          (.startEngagement deviceKeyCose bleUuid)

/-- The event `ProximityReaderEstablishment`. -/
def proximityReaderEstablishment (p : Platform) (c : Core) (sessionEstablishment : Bytes) : Core × List Effect :=
  match Iso18013.parseSessionEstablishment sessionEstablishment with
  | .ok (eReaderKeyCose, data) =>
    { c with proximity := { c.proximity with pendingRequest := some data } }.driveProximity p
      (.readerEstablishment eReaderKeyCose)
  | .error _ => c.driveProximity p (.readerEstablishment [])

/-- What a received status list leads to once it is in the cache. -/
def resumeAfterStatus (p : Platform) (r : Entropy) (c : Core) : Core × List Effect :=
  match c.presentationStatusGate p with
  | .ready => { c with pendingStatusReferences := [] }.drive p r .consentGranted
  | .fetch allReferences _ => ({ c with pendingStatusReferences := allReferences }, [])
  | .revoked => { c with pendingStatusReferences := [] }.statusBlockEffects true
  | .indeterminate => { c with pendingStatusReferences := [] }.statusBlockEffects false

/-- The event `StatusListReceived`. It does not ask which flow is active. -/
def statusListReceived (p : Platform) (r : Entropy) (c : Core) (uri : String) (httpStatus : ℕ)
    (token : Bytes) (providerCertChain : List Bytes) : Core × List Effect :=
  match c.presentationEvidenceIsCurrent p with
  | .error e => c.abortPresentationEligibility e
  | .ok _ =>
    if !c.pendingStatusReferences.any (·.uri == uri) || !(200 ≤ httpStatus && httpStatus ≤ 299) then
      { c with pendingStatusReferences := [] }.statusBlockEffects false
    else match c.loadStatusList p uri token providerCertChain with
      | (c, .error _) => { c with pendingStatusReferences := [] }.statusBlockEffects false
      | (c, .ok _) => c.resumeAfterStatus p r

def redactTransaction (c : Core) (seq : ℕ) : Core × Bool :=
  ({ c with log := (c.log.redact seq).1 }, (c.log.redact seq).2)

def wipeTransactionLog (c : Core) : Core := { c with log := c.log.wipe, auditLogAvailable := true }

def dispatch (p : Platform) (r : Entropy) (c : Core) : Event → Core × List Effect
  | .setClock epoch => c.setClock epoch
  | .redactTransaction seq => ((c.redactTransaction seq).1, [])
  | .wipeTransactionLog => (c.wipeTransactionLog, [])
  | .authorizationRequestReceived request =>
    (c.beginFlow .presentation).drive p r (.authorizationRequest request)
  | .rpCertChainResolved chain redirectUris => c.rpCertChainResolved p r chain redirectUris
  | .userConsented => c.userConsented p r
  | .userDeclined => c.userDeclined p r
  | .deviceSignatureProduced signature => c.deviceSignatureProduced p r signature
  | .hybridSignatureProduced _ _ _ _ => (c, [])
  | .presentationDelivered => c.presentationDelivered p r
  | .paymentAuthorizationDelivered => c.paymentAuthorizationDelivered p
  | .qesAuthorizationDelivered => c.qesAuthorizationDelivered
  | .operationSucceeded id => (c.removeOperation id, [])
  | .operationFailed id failure => c.operationEnded p id (some failure)
  | .operationCancelled id => c.operationEnded p id none
  | .paymentAuthorizationRequestReceived request =>
    (c.beginFlow .payment).drivePayment p (.paymentAuthorizationRequest request)
  | .paymentApproved => c.drivePayment p .userApproved
  | .paymentDeclined => c.drivePayment p .userDeclined
  | .qesSignRequestReceived request => (c.beginFlow .qes).driveQes p (.signatureRequest request)
  | .qesAuthorized => c.driveQes p .userAuthorized
  | .qesDeclined => c.driveQes p .userDeclined
  | .credentialOfferReceived offer chain issuerId => c.credentialOfferReceived p offer chain issuerId
  | .credentialOfferAccepted => c.driveIssuance p .acceptOffer
  | .credentialOfferDeclined => c.driveIssuance p .decline
  | .parPushed pkceS256 => c.driveIssuance p (.parPushed pkceS256)
  | .authorizationCodeReturned code => c.driveIssuance p (.authCodeReturned code)
  | .transactionCodeEntered code => c.driveIssuance p (.txCodeEntered code)
  | .tokenReceived bound cNonce => c.tokenReceived p bound cNonce
  | .credentialReceived format credential => c.credentialReceived p format credential
  | .statusListReceived uri httpStatus token chain => c.statusListReceived p r uri httpStatus token chain
  | .walletTransferOfferCreated => c.walletTransferOfferCreated p
  | .walletTransferReceived credential chain key signature hash nonce =>
    c.walletTransferReceived p credential chain key signature hash nonce
  | .proximityEngagementRequested bleUuid => c.proximityEngagementRequested p r bleUuid
  | .proximityReaderEstablishment establishment => c.proximityReaderEstablishment p establishment
  | .proximityReaderTermination => c.driveProximity p .readerTermination
  | .dcApiRequestReceived request origin => c.dcapiRequestReceived p request origin

def handleEvent (p : Platform) (r : Entropy) (c : Core) (event : Event) : Core × List Effect :=
  match auditedFlowStartedBy event with
  | some flow =>
    if !c.auditLogAvailable then c.auditLogFaultEffects flow
    else if !c.log.canGuaranteeMaxEntry then c.auditLogCapacityEffects flow
    else c.dispatch p r event
  | none => c.dispatch p r event

end Core

end EuWallet.Wallet
