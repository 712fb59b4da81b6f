import EuWallet.Codec.Canonical
import EuWallet.Presenter.Screen

/-! # What the hash of a screen commits to

A screen can be read back from the value it is encoded as: `ofValue` undoes `toValue`. The values of
screens are arrays of texts, numbers and flags without any map, so they are normal, and canonical
CBOR tells normal values apart. -/

namespace EuWallet.Presenter

open Lib Codec Codec.Cbor Crypto ScreenDescription

/-! ### Reading a screen back -/

def readCode {α : Type} (all : List α) (toValue : α → Value) (v : Value) : Option α :=
  all.find? fun a => toValue a = v

def readFormat : Value → Option CredentialFormat :=
  readCode [.dcSdJwt, .msoMdoc] CredentialFormat.toValue

def readStatus : Value → Option DocumentStatus :=
  readCode [.preparing, .ready, .needsAttention] DocumentStatus.toValue

def readRecovery : Value → Option IssuanceRecovery :=
  readCode [.wrongPin, .pinBlocked, .nfcInterrupted, .nfcUnavailable, .issuerRejected,
    .networkInterrupted, .delayed, .sessionInterrupted] IssuanceRecovery.toValue

def readNfcState : Value → Option NfcReadState :=
  readCode [.waitingForCard, .reading, .connectionLost] NfcReadState.toValue

def readRegistration : Value → Option VerifierRegistration :=
  readCode [.registered, .certificateValidated] VerifierRegistration.toValue

@[simp]
theorem readFormat_toValue (f : CredentialFormat) : readFormat f.toValue = some f := by
  cases f <;> decide

@[simp]
theorem readStatus_toValue (s : DocumentStatus) : readStatus s.toValue = some s := by
  cases s <;> decide

@[simp]
theorem readRecovery_toValue (r : IssuanceRecovery) : readRecovery r.toValue = some r := by
  cases r <;> decide

@[simp]
theorem readNfcState_toValue (s : NfcReadState) : readNfcState s.toValue = some s := by
  cases s <;> decide

@[simp]
theorem readRegistration_toValue (r : VerifierRegistration) : readRegistration r.toValue = some r := by
  cases r <;> decide

def readList {α : Type} (read : Value → Option α) : Value → Option (List α)
  | .array items => items.mapM read
  | _ => none

theorem readList_map {α : Type} {read : Value → Option α} {write : α → Value}
    (h : ∀ a, read (write a) = some a) (l : List α) : readList read (.array (l.map write)) = some l := by
  rw [readList, mapM_eq_some, List.forall₂_map_left_iff, List.forall₂_same]
  exact fun a _ => h a

/-- Absent members are `null`. -/
def readOption {α : Type} (read : Value → Option α) : Value → Option (Option α)
  | .null => some none
  | v => (read v).map some

section
variable {α : Type} (read : Value → Option α)

@[simp]
theorem readOption_null : readOption read .null = some none :=
  rfl

@[simp]
theorem readOption_text (s : String) : readOption read (.text s) = (read (.text s)).map some :=
  rfl

@[simp]
theorem readOption_uint (n : ℕ) : readOption read (.uint n) = (read (.uint n)).map some :=
  rfl

end

def readText : Value → Option String
  | .text s => some s
  | _ => none

def readUInt : Value → Option ℕ
  | .uint n => some n
  | _ => none

def readTrustMark : Value → Option VerifierTrustMark
  | .text "eudiWallet" => some .eudiWallet
  | _ => none

@[simp]
theorem readTexts_map (l : List String) : readList readText (.array (l.map .text)) = some l := by
  have hread : ∀ s, readText (.text s) = some s := fun _ => rfl
  exact readList_map hread l

def readDocument : Value → Option DocumentSummary
  | .array [.text id, .text name, .text issuer, format, status, .bool portrait] => do
    return ⟨id, name, issuer, ← readFormat format, ← readStatus status, portrait⟩
  | _ => none

@[simp]
theorem readDocument_toValue (d : DocumentSummary) : readDocument d.toValue = some d := by
  simp [readDocument, DocumentSummary.toValue]

@[simp]
theorem readDocuments_map (ds : List DocumentSummary) :
    readList readDocument (.array (ds.map (·.toValue))) = some ds :=
  readList_map readDocument_toValue ds

def readAttribute : Value → Option DisplayAttribute
  | .array [.text label, .text value] => some ⟨label, value⟩
  | _ => none

@[simp]
theorem readAttributes_map (as : List DisplayAttribute) :
    readList readAttribute (.array (as.map fun a => .array [.text a.label, .text a.value])) = some as := by
  have hread : ∀ a : DisplayAttribute, readAttribute (.array [.text a.label, .text a.value]) = some a := fun _ => rfl
  exact readList_map hread as

def readRetention : Value → Option RetentionDisclosure
  | .array [.text tag] =>
    if tag = "notStored" then some .notStored
    else if tag = "unspecified" then some .unspecified
    else none
  | .array [.text _, .uint n] => some (.days n)
  | _ => none

@[simp]
theorem readRetention_toValue (r : RetentionDisclosure) : readRetention r.toValue = some r := by
  cases r <;> simp [readRetention, RetentionDisclosure.toValue]

def readOverAsk : Value → Option OverAskResult
  | .array [.text tag] =>
    if tag = "withinRegisteredScope" then some .withinRegisteredScope
    else if tag = "registrationScopeUnavailable" then some .registrationScopeUnavailable
    else none
  | .array [.text _, claims] => (readList readText claims).map .exceedsRegisteredScope
  | _ => none

@[simp]
theorem readOverAsk_toValue (r : OverAskResult) : readOverAsk r.toValue = some r := by
  cases r <;> simp [readOverAsk, OverAskResult.toValue]

def readActiveChain : Value → Option ActiveChainConsentContext
  | .array [.text _, .text principalId, .text chainId, .text resourceCommitment, .text actionId,
      .text purposeCommitment, .text audienceId, .text issuerBindingCommitment,
      .text credentialProfileCommitment, .text assurance, .uint policyRevision, .text nonceCommitment,
      .uint expiresAt, .text linkability, .uint valueMinor, .uint feeMinor,
      .text capabilityActionCommitment] =>
    some ⟨principalId, chainId, resourceCommitment, actionId, purposeCommitment, audienceId,
      issuerBindingCommitment, credentialProfileCommitment, assurance, policyRevision,
      nonceCommitment, expiresAt, linkability, valueMinor, feeMinor, capabilityActionCommitment⟩
  | _ => none

@[simp]
theorem readActiveChain_toValue (c : ActiveChainConsentContext) :
    readOption readActiveChain c.toValue = some (some c) :=
  rfl

def readConsent : List Value → Option ConsentScreen
  | [.text name, .text purpose, requested, notShared, registration, trustMark, retention, overAsk,
      activechain] => do
    return ⟨name, purpose, ← readList readText requested, ← readList readText notShared,
      ← readRegistration registration, ← readOption readTrustMark trustMark,
      ← readRetention retention, ← readOverAsk overAsk, ← readOption readActiveChain activechain⟩
  | _ => none

def readPayment : List Value → Option PaymentScreen
  | [.text name, .text account, .uint amount, .text currency] => some ⟨name, account, amount, currency⟩
  | _ => none

def readSign : List Value → Option SignScreen
  | [.text document, .text qtsp, .text hash] => some ⟨document, qtsp, hash⟩
  | _ => none

def readOffer : List Value → Option IssuanceOfferScreen
  | [.text issuer, .text document, format, attributes, .bool portrait] => do
    return ⟨issuer, document, ← readFormat format, ← readList readText attributes, portrait⟩
  | _ => none

def readRecoveryScreen : List Value → Option IssuanceRecoveryScreen
  | [reason, .text document, attempts, .bool canResume] => do
    return ⟨← readRecovery reason, document, ← readOption readUInt attempts, canResume⟩
  | _ => none

def readScreen : String → List Value → Option ScreenDescription
  | "loading", _ => some .loading
  | "error", [.text code, .text message] => some (.error code message)
  | "consent", members => (readConsent members).map .consent
  | "paymentConfirmation", members => (readPayment members).map .paymentConfirmation
  | "signConfirmation", members => (readSign members).map .signConfirmation
  | "credentialList", [documents] => (readList readDocument documents).map .credentialList
  | "credentialDetail", [document, attributes] => do
    return .credentialDetail (← readDocument document) (← readList readAttribute attributes)
  | "issuanceOffer", members => (readOffer members).map .issuanceOffer
  | "pinPreparation", [.text name] => some (.pinPreparation name)
  | "pinHelp", _ => some .pinHelp
  | "nfcReady", [.text name] => some (.nfcReady name)
  | "nfcReading", [state] => (readNfcState state).map .nfcReading
  | "issuancePreparing", [document] => (readDocument document).map .issuancePreparing
  | "issuanceReady", [document] => (readDocument document).map .issuanceReady
  | "issuanceNeedsAttention", [document, recovery] => do
    return .issuanceNeedsAttention (← readDocument document) (← readRecovery recovery)
  | "issuanceRecovery", members => (readRecoveryScreen members).map .issuanceRecovery
  | "presentQr", _ => some .presentQr
  | "scanQr", _ => some .scanQr
  | "authPrompt", _ => some .authPrompt
  | "transactionHistory", _ => some .transactionHistory
  | "proximityConsent", [claims] => (readList readText claims).map .proximityConsent
  | "dcApiConsent", [.text origin, claims] => (readList readText claims).map (.dcApiConsent origin)
  | _, _ => none

def ofValue : Value → Option ScreenDescription
  | .array (.text tag :: members) => readScreen tag members
  | _ => none

theorem ofValue_toValue (s : ScreenDescription) : ofValue s.toValue = some s := by
  cases s with
  | consent c =>
    obtain ⟨name, purpose, requested, notShared, registration, trustMark, retention, overAsk, activechain⟩ := c
    rcases trustMark with - | ⟨⟨⟩⟩ <;> cases activechain <;>
      simp [ofValue, readScreen, readConsent, readTrustMark, toValue]
  | issuanceRecovery s =>
    obtain ⟨reason, document, attempts, canResume⟩ := s
    cases attempts <;>
      simp [ofValue, readScreen, readRecoveryScreen, readUInt, toValue]
  | _ => simp [ofValue, readScreen, readPayment, readSign, readOffer, toValue]

theorem toValue_injective : Function.Injective toValue := by
  intro s t h
  have hread := congrArg ofValue h
  rw [ofValue_toValue, ofValue_toValue] at hread
  exact Option.some.inj hread

/-! ### Screens are normal values -/

@[simp]
theorem DocumentSummary.normalise_toValue (d : DocumentSummary) : d.toValue.normalise = d.toValue := by
  obtain ⟨_, _, _, format, status, _⟩ := d
  cases format <;> cases status <;> rfl

@[simp]
theorem OverAskResult.normalise_toValue (r : OverAskResult) : r.toValue.normalise = r.toValue := by
  cases r <;> simp [OverAskResult.toValue, Value.normalise, normaliseItems_eq]

theorem normalise_toValue (s : ScreenDescription) : s.toValue.normalise = s.toValue := by
  have hrecovery (r : IssuanceRecovery) : r.toValue.normalise = r.toValue := by cases r <;> rfl
  cases s with
  | consent c =>
    have hregistration : c.verifierRegistration.toValue.normalise = c.verifierRegistration.toValue := by
      cases c.verifierRegistration <;> rfl
    have hretention : c.retention.toValue.normalise = c.retention.toValue := by
      cases c.retention <;> rfl
    have hcontext (a : ActiveChainConsentContext) : a.toValue.normalise = a.toValue := rfl
    rcases htrust : c.trustMark with - | ⟨⟨⟩⟩ <;> cases hactive : c.activechain <;>
      simp [toValue, Value.normalise, normaliseItems_eq, htrust, hactive,
        hregistration, hretention, hcontext]
  | issuanceOffer s =>
    have hformat : s.format.toValue.normalise = s.format.toValue := by cases s.format <;> rfl
    simp [toValue, Value.normalise, normaliseItems_eq, hformat]
  | nfcReading state => cases state <;> rfl
  | issuanceRecovery s =>
    cases hattempts : s.attemptsRemaining <;>
      simp [toValue, Value.normalise, normaliseItems_eq, hrecovery, hattempts]
  | _ => simp [toValue, Value.normalise, normaliseItems_eq, hrecovery]

/-! ### The commitment -/

/-- A screen as the source's types have it: its numbers are at most `u64`, and no text or list has
`2 ^ 64` elements. -/
def ScreenDescription.Typed (s : ScreenDescription) : Prop := s.toValue.Fits

theorem canonicalBytes_injective {s t : ScreenDescription} (hs : s.Typed) (ht : t.Typed)
    (h : canonicalBytes s = canonicalBytes t) : s = t := by
  have hnormal := normalise_eq_of_toCanonical_eq hs ht h
  rw [normalise_toValue, normalise_toValue] at hnormal
  exact toValue_injective hnormal

/-- **The consent hash commits to the whole screen.** Screens of one encoding are equal, and so are
screens of one hash unless their two encodings collide. -/
theorem consentHash_commits (p : Platform) (s t : ScreenDescription) (hs : s.Typed) (ht : t.Typed) :
    (canonicalBytes s = canonicalBytes t → s = t) ∧ (Set.InjOn p.sha256 {canonicalBytes s, canonicalBytes t} →
      consentHash p s = consentHash p t → s = t) := by
  refine ⟨canonicalBytes_injective hs ht, fun hcollision h => canonicalBytes_injective hs ht ?_⟩
  exact hcollision (Set.mem_insert _ _) (Set.mem_insert_of_mem _ rfl) h

/-- Two payments that read the same when their texts are run together. -/
theorem consentHash_commits_payments : canonicalBytes (.paymentConfirmation ⟨"Shop", "12", 3, "EUR"⟩) ≠
      canonicalBytes (.paymentConfirmation ⟨"Shop1", "2", 3, "EUR"⟩) := by
  intro h
  have hsame := (consentHash_commits default (.paymentConfirmation ⟨"Shop", "12", 3, "EUR"⟩)
    (.paymentConfirmation ⟨"Shop1", "2", 3, "EUR"⟩) ?_ ?_).1 h
  · simp at hsame
  · simp only [ScreenDescription.Typed, ScreenDescription.toValue, Value.Fits, Value.FitsItems]
    decide
  · simp only [ScreenDescription.Typed, ScreenDescription.toValue, Value.Fits, Value.FitsItems]
    decide

end EuWallet.Presenter
