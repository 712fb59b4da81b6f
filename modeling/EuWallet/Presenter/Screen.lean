import EuWallet.Codec.Cbor
import EuWallet.Crypto.Platform

/-! # Screens

The closed vocabulary of screens and the hash of a screen's canonical bytes. The hash of a consent
screen is what the wallet records and what an authorisation of the user has to repeat. -/

namespace EuWallet.Presenter

open Codec Codec.Cbor Crypto

structure PaymentScreen where
  creditorName : String
  creditorAccount : String
  amountMinor : ℕ
  currency : String
deriving DecidableEq

structure SignScreen where
  documentName : String
  qtspId : String
  documentHashHex : String
deriving DecidableEq

inductive CredentialFormat where
  | dcSdJwt
  | msoMdoc
deriving DecidableEq

inductive DocumentStatus where
  | preparing
  | ready
  | needsAttention
deriving DecidableEq

structure DocumentSummary where
  documentId : String
  documentName : String
  issuerName : String
  format : CredentialFormat
  status : DocumentStatus
  portraitRequired : Bool
deriving DecidableEq

structure DisplayAttribute where
  label : String
  value : String
deriving DecidableEq

structure IssuanceOfferScreen where
  issuerName : String
  documentName : String
  format : CredentialFormat
  attributes : List String
  portraitRequired : Bool
deriving DecidableEq

inductive NfcReadState where
  | waitingForCard
  | reading
  | connectionLost
deriving DecidableEq

inductive IssuanceRecovery where
  | wrongPin
  | pinBlocked
  | nfcInterrupted
  | nfcUnavailable
  | issuerRejected
  | networkInterrupted
  | delayed
  | sessionInterrupted
deriving DecidableEq

structure IssuanceRecoveryScreen where
  reason : IssuanceRecovery
  documentName : String
  attemptsRemaining : Option ℕ
  canResume : Bool
deriving DecidableEq

inductive VerifierRegistration where
  | registered
  | certificateValidated
deriving DecidableEq

inductive VerifierTrustMark where
  | eudiWallet
deriving DecidableEq

inductive RetentionDisclosure where
  | notStored
  | days (n : ℕ)
  | unspecified
deriving DecidableEq

inductive OverAskResult where
  | withinRegisteredScope
  | exceedsRegisteredScope (claims : List String)
  | registrationScopeUnavailable
deriving DecidableEq

structure ActiveChainConsentContext where
  principalId : String
  chainId : String
  resourceCommitment : String
  actionId : String
  purposeCommitment : String
  audienceId : String
  issuerBindingCommitment : String
  credentialProfileCommitment : String
  assurance : String
  policyRevision : ℕ
  nonceCommitment : String
  expiresAt : ℕ
  linkability : String
  valueMinor : ℕ
  feeMinor : ℕ
  capabilityActionCommitment : String
deriving DecidableEq

structure ConsentScreen where
  rpDisplayName : String
  purpose : String
  requestedClaims : List String
  notSharedClaims : List String
  verifierRegistration : VerifierRegistration
  trustMark : Option VerifierTrustMark
  retention : RetentionDisclosure
  overAsk : OverAskResult
  activechain : Option ActiveChainConsentContext
deriving DecidableEq

inductive ScreenDescription where
  | loading
  | error (code message : String)
  | consent (c : ConsentScreen)
  | paymentConfirmation (s : PaymentScreen)
  | signConfirmation (s : SignScreen)
  | credentialList (documents : List DocumentSummary)
  | credentialDetail (document : DocumentSummary) (attributes : List DisplayAttribute)
  | issuanceOffer (s : IssuanceOfferScreen)
  | pinPreparation (documentName : String)
  | pinHelp
  | nfcReady (documentName : String)
  | nfcReading (state : NfcReadState)
  | issuancePreparing (document : DocumentSummary)
  | issuanceReady (document : DocumentSummary)
  | issuanceNeedsAttention (document : DocumentSummary) (recovery : IssuanceRecovery)
  | issuanceRecovery (s : IssuanceRecoveryScreen)
  | presentQr
  | scanQr
  | authPrompt
  | transactionHistory
  | proximityConsent (requestedClaims : List String)
  | dcApiConsent (origin : String) (requestedClaims : List String)
deriving DecidableEq

/-! ### Canonical bytes -/

def CredentialFormat.toValue : CredentialFormat → Value
  | dcSdJwt => .text "dcSdJwt"
  | msoMdoc => .text "msoMdoc"

def DocumentStatus.toValue : DocumentStatus → Value
  | preparing => .text "preparing"
  | ready => .text "ready"
  | needsAttention => .text "needsAttention"

def DocumentSummary.toValue (d : DocumentSummary) : Value :=
  .array [.text d.documentId, .text d.documentName, .text d.issuerName, d.format.toValue,
    d.status.toValue, .bool d.portraitRequired]

def IssuanceRecovery.toValue : IssuanceRecovery → Value
  | wrongPin => .text "wrongPin"
  | pinBlocked => .text "pinBlocked"
  | nfcInterrupted => .text "nfcInterrupted"
  | nfcUnavailable => .text "nfcUnavailable"
  | issuerRejected => .text "issuerRejected"
  | networkInterrupted => .text "networkInterrupted"
  | delayed => .text "delayed"
  | sessionInterrupted => .text "sessionInterrupted"

def NfcReadState.toValue : NfcReadState → Value
  | waitingForCard => .text "waitingForCard"
  | reading => .text "reading"
  | connectionLost => .text "connectionLost"

def VerifierRegistration.toValue : VerifierRegistration → Value
  | registered => .text "registered"
  | certificateValidated => .text "certificateValidated"

def RetentionDisclosure.toValue : RetentionDisclosure → Value
  | notStored => .array [.text "notStored"]
  | days n => .array [.text "days", .uint n]
  | unspecified => .array [.text "unspecified"]

def OverAskResult.toValue : OverAskResult → Value
  | withinRegisteredScope => .array [.text "withinRegisteredScope"]
  | exceedsRegisteredScope claims =>
    .array [.text "exceedsRegisteredScope", .array (claims.map .text)]
  | registrationScopeUnavailable => .array [.text "registrationScopeUnavailable"]

def ActiveChainConsentContext.toValue (c : ActiveChainConsentContext) : Value :=
  .array [.text "activechain-v1", .text c.principalId, .text c.chainId, .text c.resourceCommitment,
    .text c.actionId, .text c.purposeCommitment, .text c.audienceId, .text c.issuerBindingCommitment,
    .text c.credentialProfileCommitment, .text c.assurance, .uint c.policyRevision,
    .text c.nonceCommitment, .uint c.expiresAt, .text c.linkability, .uint c.valueMinor,
    .uint c.feeMinor, .text c.capabilityActionCommitment]

def ScreenDescription.toValue : ScreenDescription → Value
  | loading => .array [.text "loading"]
  | error code message => .array [.text "error", .text code, .text message]
  | consent c =>
    .array [.text "consent", .text c.rpDisplayName, .text c.purpose,
      .array (c.requestedClaims.map .text), .array (c.notSharedClaims.map .text),
      c.verifierRegistration.toValue,
      match c.trustMark with
        | some .eudiWallet => .text "eudiWallet"
        | none => .null,
      c.retention.toValue, c.overAsk.toValue,
      match c.activechain with
        | some a => a.toValue
        | none => .null]
  | paymentConfirmation s =>
    .array [.text "paymentConfirmation", .text s.creditorName, .text s.creditorAccount,
      .uint s.amountMinor, .text s.currency]
  | signConfirmation s =>
    .array [.text "signConfirmation", .text s.documentName, .text s.qtspId, .text s.documentHashHex]
  | credentialList ds => .array [.text "credentialList", .array (ds.map (·.toValue))]
  | credentialDetail d as =>
    .array [.text "credentialDetail", d.toValue,
      .array (as.map fun a => .array [.text a.label, .text a.value])]
  | issuanceOffer s =>
    .array [.text "issuanceOffer", .text s.issuerName, .text s.documentName, s.format.toValue,
      .array (s.attributes.map .text), .bool s.portraitRequired]
  | pinPreparation n => .array [.text "pinPreparation", .text n]
  | pinHelp => .array [.text "pinHelp"]
  | nfcReady n => .array [.text "nfcReady", .text n]
  | nfcReading s => .array [.text "nfcReading", s.toValue]
  | issuancePreparing d => .array [.text "issuancePreparing", d.toValue]
  | issuanceReady d => .array [.text "issuanceReady", d.toValue]
  | issuanceNeedsAttention d r => .array [.text "issuanceNeedsAttention", d.toValue, r.toValue]
  | issuanceRecovery s =>
    .array [.text "issuanceRecovery", s.reason.toValue, .text s.documentName,
      match s.attemptsRemaining with
        | some n => .uint n
        | none => .null,
      .bool s.canResume]
  | presentQr => .array [.text "presentQr"]
  | scanQr => .array [.text "scanQr"]
  | authPrompt => .array [.text "authPrompt"]
  | transactionHistory => .array [.text "transactionHistory"]
  | proximityConsent cs => .array [.text "proximityConsent", .array (cs.map .text)]
  | dcApiConsent origin cs => .array [.text "dcApiConsent", .text origin, .array (cs.map .text)]

def canonicalBytes (screen : ScreenDescription) : Bytes := screen.toValue.toCanonical

def consentHash (p : Platform) (screen : ScreenDescription) : Hash32 := p.sha256 (canonicalBytes screen)

end EuWallet.Presenter
