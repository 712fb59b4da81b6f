import EuWallet.Presenter.Screen
import EuWallet.Protocol.Iso18013
import EuWallet.Protocol.Oid4vci
import EuWallet.Protocol.Oid4vp
import EuWallet.Protocol.Payment
import EuWallet.Protocol.Qes
import EuWallet.Protocol.W2w
import EuWallet.Trust.Catalogue
import EuWallet.Trust.StatusList
import EuWallet.Trust.WalletUnit
import EuWallet.TxnLog.Log

/-! # The wallet core: its data

What the core holds, what can happen to it and what it asks of its shell. The record `Core` has the
fields of the source's; the ones only a report or a durable checkpoint reads are left out. -/

namespace EuWallet.Wallet

open Codec Crypto Formats Presenter Protocol Trust

/-! ### Flows and operations -/

inductive ActiveFlow where
  | none
  | presentation
  | payment
  | issuance
  | qes
  | walletTransfer
  | proximity
  | dcApi
deriving DecidableEq

structure ProximityPresentation where
  doctype : String
  issuerSigned : IssuerSigned
  deviceNamespacesBytes : Bytes
  protectedHeader : Bytes
  signingInput : Bytes
  disclosed : List String
deriving DecidableEq

/-- `ProximityFlow`; its defaults are `ProximityFlow::idle`. -/
structure ProximityFlow where
  state : Iso18013.State := .idle
  deviceKey : Option AgreementKey := none
  cipher : Option Iso18013.SessionCipher := none
  pendingRequest : Option Bytes := none
  presentation : Option ProximityPresentation := none
  lastSignature : Option Bytes := none
  consentHash : Hash32 := zeroHash
deriving DecidableEq

structure DcApiPresentation where
  dcqlId : String
  doctype : String
  issuerSigned : IssuerSigned
  deviceNamespacesBytes : Bytes
  protectedHeader : Bytes
  signingInput : Bytes
  disclosed : List String
deriving DecidableEq

structure DcApiFlow where
  presentation : Option DcApiPresentation := none
  consentHash : Hash32 := zeroHash
deriving DecidableEq

inductive OperationFailure where
  | trust
  | storage
  | signing
  | transport
  | httpStatus
  | issuer
  | status
  | rendering
  | missingDependency
  | unsupported
deriving DecidableEq

inductive ExperimentalHybridSignatureProfile where
  | es256MlDsa65V1
deriving DecidableEq

inductive ExperimentalHybridSignPurpose where
  | credentialBinding
  | presentation
  | walletAuthentication
  | walletExport
deriving DecidableEq

inductive OperationResultKind where
  | rpCertChain
  | persisted
  | signature
  | hybridSignature (profile : ExperimentalHybridSignatureProfile)
  | presentationDelivery
  | paymentDelivery
  | qesDelivery
  | par
  | authorizationCode
  | transactionCode
  | token
  | credential
  | statusList (uri : String)
  | transferOfferPublished
  | presentationDecision
  | paymentDecision
  | qesDecision
  | issuanceDecision
  | proximityDecision
  | dcApiDecision
deriving DecidableEq

namespace OperationResultKind

def resultType : OperationResultKind → String
  | rpCertChain => "rpCertChainResolved"
  | persisted | transferOfferPublished => "operationSucceeded"
  | signature => "deviceSignatureProduced"
  | hybridSignature _ => "hybridSignatureProduced"
  | presentationDelivery => "presentationDelivered"
  | paymentDelivery => "paymentAuthorizationDelivered"
  | qesDelivery => "qesAuthorizationDelivered"
  | par => "parPushed"
  | authorizationCode => "authorizationCodeReturned"
  | transactionCode => "transactionCodeEntered"
  | token => "tokenReceived"
  | credential => "credentialReceived"
  | statusList _ => "statusListReceived"
  | presentationDecision => "presentationDecision"
  | paymentDecision => "paymentDecision"
  | qesDecision => "qesDecision"
  | issuanceDecision => "issuanceDecision"
  | proximityDecision => "proximityDecision"
  | dcApiDecision => "dcApiDecision"

def acceptsEvent (k : OperationResultKind) (eventType : String) : Bool :=
  match k with
  | presentationDecision | proximityDecision | dcApiDecision =>
    eventType == "userConsented" || eventType == "userDeclined"
  | paymentDecision => eventType == "paymentApproved" || eventType == "paymentDeclined"
  | qesDecision => eventType == "qesAuthorized" || eventType == "qesDeclined"
  | issuanceDecision =>
    eventType == "credentialOfferAccepted" || eventType == "credentialOfferDeclined"
  | k => k.resultType == eventType

end OperationResultKind

structure PendingOperation where
  flow : ActiveFlow
  result : OperationResultKind
  authorizationHash : Option Hash32
deriving DecidableEq

/-! ### Holdings -/

structure StatusReference where
  uri : String
  index : ℕ
deriving DecidableEq

structure HeldCredential where
  issuerJwt : String
  disclosuresByClaim : List (String × String)
  status : Option StatusReference
deriving DecidableEq

structure MdocHolding where
  doctype : String
  issuerSigned : IssuerSigned
deriving DecidableEq

structure CredentialValidity where
  issuedAt : Option ℤ := none
  notBefore : Option ℤ := none
  expiresAt : Option ℤ := none
deriving DecidableEq

structure CredentialIssuerEvidence where
  identity : String
  service : IssuerTrustDomain
  publicKeyRaw : Bytes
  certificatePath : List Bytes
  notBefore : ℤ
  notAfter : ℤ
deriving DecidableEq

def CredentialIssuerEvidence.isInternallyConsistent (e : CredentialIssuerEvidence) : Bool :=
  !e.identity.isEmpty && !e.publicKeyRaw.isEmpty && !e.certificatePath.isEmpty &&
    e.notBefore ≤ e.notAfter && (e.service == .pid || e.service == .attestation)

structure CredentialProvenance where
  format : Oid4vci.CredentialFormat
  rawCredential : Bytes
  issuer : CredentialIssuerEvidence
deriving DecidableEq

inductive StoredProvenance where
  | authenticated (provenance : CredentialProvenance)
  | testFixture
deriving DecidableEq

structure AuthenticatedSdJwtHolding where
  processed : ProcessedSdJwt
deriving DecidableEq

structure StoredSdJwtCredential where
  holding : HeldCredential
  authenticated : Option AuthenticatedSdJwtHolding
  validity : CredentialValidity
  provenance : StoredProvenance
deriving DecidableEq

structure StoredMdocCredential where
  holding : MdocHolding
  validity : CredentialValidity
  provenance : StoredProvenance
deriving DecidableEq

inductive CredentialIngestionError where
  | clockNotSet
  | unsupportedFormat
  | untrustedIssuer
  | malformedCredential
  | unsupportedAlgorithm
  | signatureInvalid
  | issuerMismatch
  | issuerServiceMismatch
  | unknownCredentialType
  | credentialTypeFormatMismatch
  | issuerNotAllowedForType
  | mandatoryClaimsMissing
  | tlsEvidenceInvalid
  | pidPortraitInvalid
  | credentialNotYetValid
  | credentialExpired
  | deviceBindingMissing
  | deviceBindingMismatch
  | duplicateClaim
  | unsupportedStatusReference
deriving DecidableEq

inductive StatusLoadError where
  | clockNotSet
  | invalidUri
  | untrustedProvider
  | invalidToken (e : StatusError)
  | cacheFull
deriving DecidableEq

inductive VerifiedCredential where
  | sdJwt (holding : HeldCredential) (authenticated : AuthenticatedSdJwtHolding)
      (validity : CredentialValidity)
  | mdoc (holding : MdocHolding) (validity : CredentialValidity)
deriving DecidableEq

def VerifiedCredential.format : VerifiedCredential → Oid4vci.CredentialFormat
  | sdJwt _ _ _ => .dcSdJwt
  | mdoc _ _ => .msoMdoc

structure AuthenticatedCredential where
  credential : VerifiedCredential
  provenance : CredentialProvenance
deriving DecidableEq

inductive PresentationCredentialReference where
  | sdJwt (holding : HeldCredential) (authenticated : Option AuthenticatedSdJwtHolding)
  | mdoc (holding : MdocHolding)
deriving DecidableEq

inductive PresentationEligibilityError where
  | credentialExpired
  | credentialNotYetValid
  | credentialProvenanceInvalid
  | trustEvidenceInvalid
  | noEligibleCredential
deriving DecidableEq

structure PreparedPresentationCredential where
  selected : Oid4vp.SelectedCredential
  source : PresentationCredentialReference
  revealedClaims : List String
deriving DecidableEq

/-! ### The presentation session -/

structure RelyingPartyProvenance where
  certificateChain : List Bytes
  publicKey : Bytes
deriving DecidableEq

structure WalletConfig where
  walletClientId : String
  deviceKeyRef : String
deriving DecidableEq

structure SessionInfo where
  rpClientId : String
  rpRegistration : Option RelyingPartyRegistration
  purpose : String
  requestedClaims : List String
  nonce : String
  responseUri : String
  responseMode : String
  responseEncryptionKey : Option Bytes
  dcql : Option DcqlQuery
  selectedCredentials : List Oid4vp.SelectedCredential
  selectedSources : List PresentationCredentialReference
  selectedRevealedClaims : List String
  rpProvenance : Option RelyingPartyProvenance
  consentHash : Hash32
  sharedClaims : List String
deriving DecidableEq

/-! ### Events and effects -/

inductive Event where
  | setClock (epoch : ℤ)
  | redactTransaction (seq : ℕ)
  | wipeTransactionLog
  | authorizationRequestReceived (request : Bytes)
  | rpCertChainResolved (rpCertChain : List Bytes) (registeredRedirectUris : List String)
  | userConsented
  | userDeclined
  | deviceSignatureProduced (signature : Bytes)
  | hybridSignatureProduced (operationId : ℕ) (profile : ExperimentalHybridSignatureProfile)
      (classicalSignature postQuantumSignature : Bytes)
  | presentationDelivered
  | paymentAuthorizationDelivered
  | qesAuthorizationDelivered
  | operationSucceeded (operationId : ℕ)
  | operationFailed (operationId : ℕ) (failure : OperationFailure)
  | operationCancelled (operationId : ℕ)
  | paymentAuthorizationRequestReceived (request : Bytes)
  | paymentApproved
  | paymentDeclined
  | qesSignRequestReceived (request : Bytes)
  | qesAuthorized
  | qesDeclined
  | credentialOfferReceived (offer : Bytes) (issuerCertChain : List Bytes) (issuerId : String)
  | credentialOfferAccepted
  | credentialOfferDeclined
  | parPushed (pkceS256 : Bool)
  | authorizationCodeReturned (code : Bytes)
  | transactionCodeEntered (code : Bytes)
  | tokenReceived (bound : Bool) (cNonce : ℕ)
  | credentialReceived (format : String) (credential : Bytes)
  | statusListReceived (uri : String) (httpStatus : ℕ) (token : Bytes)
      (providerCertChain : List Bytes)
  | walletTransferOfferCreated
  | walletTransferReceived (credential : Bytes) (issuerCertChain : List Bytes)
      (senderPublicKey senderSignature senderConsentHash : Bytes) (nonce : ℕ)
  | proximityEngagementRequested (bleUuid : Bytes)
  | proximityReaderEstablishment (sessionEstablishment : Bytes)
  | proximityReaderTermination
  | dcApiRequestReceived (request : Bytes) (origin : String)
deriving DecidableEq

inductive HttpDeliveryProfile where
  | openid4vpDirectPost
  | paymentAuthorization
  | qesAuthorization
deriving DecidableEq

inductive Effect where
  | resolveRpTrust (clientId : String)
  | persistNonce (nonce : String)
  | render (screen : ScreenDescription)
  | sign (keyRef : String) (payload : Bytes)
  | hybridSign (profile : ExperimentalHybridSignatureProfile) (keyRef : String)
      (purpose : ExperimentalHybridSignPurpose) (payload : Bytes)
  | http (profile : HttpDeliveryProfile) (url : String) (body : Bytes)
  | pushPar
  | openAuthBrowser
  | promptTxCode
  | requestToken
  | requestCredential (proofJwt : Bytes)
  | fetchStatusList (uri : String)
  | publishTransferOffer (offeredKey : Bytes)
  | emitDeviceEngagement (engagement : Bytes)
  | emitDeviceResponse (response : Bytes)
  | emitDcApiResponse (response : Bytes)
  | close
deriving DecidableEq

def maxCachedStatusLists : ℕ := 8
def maxStatusListsPerPresentation : ℕ := 8
def maxPendingOperations : ℕ := 32
def maxPresentationsPerDcqlQuery : ℕ := 16

inductive StatusGate where
  | ready
  | fetch (allReferences : List StatusReference) (uris : List String)
  | revoked
  | indeterminate
deriving DecidableEq

structure CachedStatusList where
  list : StatusList
  providerCertChain : List Bytes
deriving DecidableEq

/-! ### The core -/

structure Core where
  config : WalletConfig
  vp : Oid4vp.State := .idle
  seenNonces : List String := []
  credentials : List StoredSdJwtCredential := []
  mdocHoldings : List StoredMdocCredential := []
  session : Option SessionInfo := none
  pendingRpProvenance : Option RelyingPartyProvenance := none
  nowEpoch : ℤ := 0
  payment : Payment.State := .idle
  paySeenNonces : List ℕ := []
  payPending : Option (String × ℕ) := none
  active : ActiveFlow := .none
  nextOperationId : ℕ
  pendingOperations : List (ℕ × PendingOperation) := []
  trustStore : TrustStore := {}
  issuance : Oid4vci.State := .idle
  issSeenCNonces : List ℕ := []
  devicePublicKey : Bytes := []
  wua : Option WalletUnitAttestation := none
  issuerTrustedCurrent : Bool := false
  issuerIdCurrent : String := ""
  issuerCertChainCurrent : List Bytes := []
  issuerIdAssertionCurrent : String := ""
  issuerCandidatesCurrent : List CredentialIssuerEvidence := []
  pendingVerifiedCredential : Option AuthenticatedCredential := none
  lastCredentialIngestionError : Option CredentialIngestionError := none
  issuanceConsentHash : Hash32 := zeroHash
  statusLists : List (String × CachedStatusList) := []
  pendingStatusReferences : List StatusReference := []
  log : TxnLog.TransactionLog := {}
  auditLogAvailable : Bool := true
  paySummary : Option TxnLog.PaymentSummary := none
  payConsentHash : Hash32 := zeroHash
  catalogue : Catalogue := defaultCatalogue
  qes : Qes.State := .idle
  qesSeenNonces : List ℕ := []
  qesConsentHash : Hash32 := zeroHash
  w2w : W2w.State := .idle
  w2wCredential : Option Bytes := none
  proximity : ProximityFlow := {}
  dcapi : DcApiFlow := {}
deriving DecidableEq

def operationIdSeed (random : ℕ) : ℕ := random % 2 ^ 62 + 1

def Core.new (walletClientId deviceKeyRef : String) (random : ℕ) : Core where
  config := ⟨walletClientId, deviceKeyRef⟩
  nextOperationId := operationIdSeed random

end EuWallet.Wallet
