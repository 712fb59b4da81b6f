import EuWallet.Lib.Run
import EuWallet.Protocol.DcApi
import EuWallet.Protocol.Jwe
import EuWallet.Wallet.Flow

/-! # Driving the machines

For each flow: feed an input to its machine, turn the machine's outputs into effects, and do what the
facade does around a transition. -/

namespace EuWallet.Wallet

open Codec Crypto Formats Lib Presenter Protocol
open Trust

/-! ### Encrypted responses -/

/-- The value of a hexadecimal digit (`to_digit(16)`). -/
def hexValue (b : UInt8) : Option ℕ :=
  if isAsciiDigit b then some (b.toNat - 48)
  else if 97 ≤ b && b ≤ 102 then some (b.toNat - 87)
  else if 65 ≤ b && b ≤ 70 then some (b.toNat - 55)
  else none

/-- The loop of `percent_decode`; an escape needs both of its digits. -/
def percentDecodeBytes : Bytes → Bytes
  | 37 :: hi :: lo :: rest => match hexValue hi, hexValue lo with
    | some hi, some lo => UInt8.ofNat (hi * 16 + lo) :: percentDecodeBytes rest
    | _, _ => 37 :: percentDecodeBytes (hi :: lo :: rest)
  | b :: rest => b :: percentDecodeBytes rest
  | [] => []

def percentDecode (p : Platform) (s : String) : String := p.fromUtf8Lossy (percentDecodeBytes (utf8 s))

def formField (p : Platform) (body key : String) : Option String :=
  (splitStr '&' body).findSome? fun kv => (stripStart (key ++ "=") kv).map (percentDecode p)

/-- The session with what the user is about to see. -/
def SessionInfo.shown (session : SessionInfo) (p : Platform) (c : ConsentScreen) : SessionInfo :=
  { session with
    consentHash := Presenter.consentHash p (.consent c), sharedClaims := c.requestedClaims }

namespace Core

def encryptDirectPostJwt (p : Platform) (r : Entropy) (c : Core) (formBody recipientKey : Bytes) :
    Option Bytes := do
  let body ← fromUtf8 formBody
  let vpToken ← p.parseJson (utf8 (← formField p body "vp_token"))
  let state := formField p body "state"
  -- The members of the object in key order.
  let plaintext := p.renderJson (.obj ((state.map fun s => ("state", Json.str s)).toList ++
    [("vp_token", vpToken)]))
  let apu := (formField p body "mdoc_generated_nonce").getD ""
  let apv := (c.session.map (·.nonce)).getD ""
  let jwe ← (Jwe.encryptEcdhEsA256gcm p r (utf8 plaintext) recipientKey (utf8 apu) (utf8 apv)).toOption
  return utf8 ("response=" ++ jwe)

/-! ### Presentation -/

/-- The effects of `SendVpToken`, in the response mode of the session. -/
def sendVpToken (p : Platform) (r : Entropy) (c : Core) (body : Bytes) : Core × List Effect :=
  match c.session with
  | none => c.abortPresentation .responseUriInvalid
  | some session =>
    if session.responseMode = "direct_post" then
      (c, [.http .openid4vpDirectPost session.responseUri body])
    else if session.responseMode = "direct_post.jwt" then
      match session.responseEncryptionKey with
      | none => c.abortPresentation .responseEncryptionMetadataInvalid
      | some key => match c.encryptDirectPostJwt p r body key with
        | some encrypted => (c, [.http .openid4vpDirectPost session.responseUri encrypted])
        | none => c.abortPresentation .responseEncryptionFailed
    else c.abortPresentation .responseModeUnsupported

def withVp (c : Core) (vp : Oid4vp.State) : Core := { c with vp }

def withNonce (c : Core) (nonce : String) : Core := { c with seenNonces := c.seenNonces ++ [nonce] }

def dropSession (c : Core) : Core := { c with session := none }

def translate (p : Platform) (r : Entropy) (c : Core) : Oid4vp.Output → Core × List Effect
  | .resolveRpTrust clientId => (c, [.resolveRpTrust clientId])
  | .persistNonce nonce => (c.withNonce nonce, [.persistNonce nonce])
  | .renderConsent _ _ => match c.presentationEvidenceIsCurrent p with
    | .error e => c.abortPresentationEligibility e
    | .ok _ => match c.session with
      | none => (c, [.render (c.consentScreen p)])
      | some session =>
        let screen := sessionConsentScreen p session
        (c.withSession (session.shown p screen), [.render (.consent screen)])
  | .signKeyBinding keyRef signingInput => match c.presentationSensitiveAbortReason p with
    | some reason => c.abortPresentation reason
    | none => (c, [.sign keyRef signingInput])
  | .sendVpToken body => match c.presentationSensitiveAbortReason p with
    | some reason => c.abortPresentation reason
    | none => c.sendVpToken p r body
  | .close => (c, [.close])

def capturedSession (c : Core) (req : Oid4vp.AuthRequest) : SessionInfo where
  rpClientId := req.clientId
  rpRegistration := c.trustStore.relyingPartyAt req.clientId c.nowEpoch
  purpose := req.purpose.getD ""
  requestedClaims := req.requestedClaims
  nonce := req.nonce
  responseUri := req.responseUri
  responseMode := req.responseMode
  responseEncryptionKey := req.responseEncryptionKey
  dcql := req.dcql
  selectedCredentials := []
  selectedSources := []
  selectedRevealedClaims := []
  rpProvenance := c.pendingRpProvenance
  consentHash := zeroHash
  sharedClaims := []

/-- The entry a presentation will leave, checked before its consent hash is known. -/
def presentationCandidate (c : Core) (session : SessionInfo) : TxnLog.NewEntry where
  epoch := c.nowEpoch
  kind := .presentation
  counterparty := session.rpClientId
  consentHash := zeroHash
  claimPaths := session.selectedRevealedClaims
  outcome := .completed
  payment := none

/-- What `drive` does whenever it finds the machine in `RequestValidated`: capture the session anew,
freeze a selection, check its audit entry. The error is what it returns early. -/
def admitRequest (p : Platform) (c : Core) (req : Oid4vp.AuthRequest) : Except (Core × List Effect) Core :=
  let c := c.withSession (c.capturedSession req)
  match c.preparePresentationSelection p with
  | .error e => .error (c.abortPresentationEligibility e)
  | .ok c => match c.session with
    | none => .ok c
    | some session => match c.checkAuditEntry (c.presentationCandidate session) with
      | .error _ => .error (c.auditLogCandidateRejectionEffects .presentation)
      | .ok _ => .ok c

/-- The environment of the presentation machine. -/
def vpEnv (c : Core) (input : Oid4vp.Input) : Oid4vp.Env where
  walletClientId := c.config.walletClientId
  seenNonces := c.seenNonces
  nowEpoch := c.nowEpoch
  selectedCredentials := c.selectCredentialsFor input
  deviceKeyRef := c.config.deviceKeyRef

/-- `drive` after the transition: a validated request is admitted. -/
def captureValidated (p : Platform) (c : Core) : Except (Core × List Effect) Core :=
  match c.vp with
  | .requestValidated req => c.admitRequest p req
  | _ => .ok c

/-- The screens of an abort the machine itself decided. -/
def surfaceAbort (before after : Oid4vp.State) (c : Core) (effects : List Effect) : Core × List Effect :=
  match before, after with
  | .aborted _, _ => (c, effects)
  | _, .aborted reason => match presentationErrorEffects reason with
    | some errors => (c.dropSession, effects ++ errors)
    | none => (c, effects)
  | _, _ => (c, effects)

/-- `drive` at its end: the first arrival in `Done` is recorded. -/
def recordIfDone (p : Platform) (before : Oid4vp.State) (c : Core) (effects : List Effect) : Core × List Effect :=
  if before ≠ .done ∧ c.vp = .done then
    match c.recordPresentation p with
    | (c, .ok _) => (c, effects)
    | (c, .error _) => c.auditLogFaultEffects .presentation
  else (c, effects)

/-- The transition of `drive`. -/
def advanceVp (p : Platform) (c : Core) (input : Oid4vp.Input) : Core × List Oid4vp.Output :=
  let (next, outputs) := Oid4vp.step p (c.vpEnv input) c.vp input
  (c.withVp next, outputs)

/-- `drive` once a validated request is admitted; `after` is the state the machine stepped to. -/
def completeVp (p : Platform) (r : Entropy) (before after : Oid4vp.State) (c : Core)
    (outputs : List Oid4vp.Output) : Core × List Effect :=
  let (c, effects) := collect (translate p r) c outputs
  let (c, effects) := surfaceAbort before after c effects
  c.recordIfDone p before effects

def drive (p : Platform) (r : Entropy) (c : Core) (input : Oid4vp.Input) : Core × List Effect :=
  let (stepped, outputs) := c.advanceVp p input
  match stepped.captureValidated p with
  | .error early => early
  | .ok admitted => completeVp p r c.vp stepped.vp admitted outputs

/-! ### In person -/

/-- The first current holding of a document type. -/
def currentMdoc (p : Platform) (c : Core) (doctype : String) : Option IssuerSigned :=
  (c.mdocHoldings.find? fun stored => stored.holding.doctype == doctype &&
    (c.mdocCredentialIsCurrent p stored).toOption.isSome).map (·.holding.issuerSigned)

def buildProximityPresentation (p : Platform) (c : Core) (summary : Iso18013.DeviceRequestSummary)
    (transcript : Bytes) : Option ProximityPresentation := do
  let issuerSigned ← c.currentMdoc p summary.doctype
  let deviceAuth ← (deviceAuthenticationBytes transcript summary.doctype
    emptyDeviceNamespacesBytes).toOption
  let protectedHeader := encodeProtectedHeader .es256
  return {
    doctype := summary.doctype
    issuerSigned := minimiseMdoc issuerSigned summary.claims
    deviceNamespacesBytes := emptyDeviceNamespacesBytes
    protectedHeader
    signingInput := sigStructure protectedHeader [] deviceAuth
    disclosed := summary.claims.map fun (ns, element) => ns ++ "/" ++ element }

def proximitySession (p : Platform) (c : Core) (eReaderKeyCose : Bytes) : Option (Iso18013.SessionCipher × Bytes) :=
  match c.proximity.state, c.proximity.deviceKey with
  | .engaged engagement, some deviceKey => do
    let sec1 ← (Iso18013.coseEc2ToSec1 eReaderKeyCose).toOption
    let z ← p.agree deviceKey sec1
    let transcript := Iso18013.sessionTranscript engagement eReaderKeyCose
    return (.derive p z transcript, transcript)
  | _, _ => none

def openReaderRequest (p : Platform) (c : Core) (cipher : Iso18013.SessionCipher) (transcript : Bytes) : Core :=
  let (cipher, presentation) := match c.proximity.pendingRequest with
    | none => (cipher, none)
    | some ciphertext =>
      let (cipher, request) := cipher.openFromReader p ciphertext
      (cipher, do
        let summary ← (Iso18013.parseDeviceRequest (← request.toOption)).toOption
        c.buildProximityPresentation p summary transcript)
  { c with proximity := { c.proximity with pendingRequest := none, cipher := some cipher, presentation } }

/-- What `drive_proximity` does before the transition; the flag says that the keys agreed. -/
def prepareProximity (p : Platform) (c : Core) : Iso18013.Input → Core × Bool
  | .readerEstablishment eReaderKeyCose => match c.proximitySession p eReaderKeyCose with
    | some (cipher, transcript) => (c.openReaderRequest p cipher transcript, true)
    | none => (c, false)
  | .deviceSignatureProduced signature =>
    ({ c with proximity := { c.proximity with lastSignature := some signature } }, false)
  | _ => (c, false)

def sealedDeviceResponse (p : Platform) (c : Core) :
    Option (Iso18013.SessionCipher × Except Iso18013.SessionError Bytes) := do
  let presentation ← c.proximity.presentation
  let signature ← c.proximity.lastSignature
  let cipher ← c.proximity.cipher
  let deviceAuth : CoseSign1 := ⟨presentation.protectedHeader, {}, none, signature⟩
  return cipher.sealFromDevice p (deviceResponse presentation.doctype presentation.issuerSigned
    presentation.deviceNamespacesBytes deviceAuth)

def translateProximity (p : Platform) (c : Core) : Iso18013.Output → Core × List Effect
  | .emitDeviceEngagement engagement => (c, [.emitDeviceEngagement engagement])
  | .renderConsent =>
    let screen := ScreenDescription.proximityConsent
      ((c.proximity.presentation.map (·.disclosed)).getD [])
    ({ c with proximity := { c.proximity with consentHash := consentHash p screen } },
      [.render screen])
  | .signDeviceAuth keyRef _ => match c.proximity.presentation with
    | some presentation => (c, [.sign keyRef presentation.signingInput])
    | none => (c, [.close])
  | .emitDeviceResponse _ =>
    let spent : Core := { c with proximity := { c.proximity with lastSignature := none } }
    match c.sealedDeviceResponse p with
    | none => (spent, [.close])
    | some (cipher, response) =>
      ({ spent with proximity := { spent.proximity with cipher := some cipher } }, match response with
        | .ok ciphertext => [.emitDeviceResponse (Iso18013.sessionData ciphertext)]
        | .error _ => [.close])
  | .emitTermination => (c, [.close])

/-- Append a `Close` unless there is one. -/
def ensureClose (effects : List Effect) : List Effect :=
  if effects.contains .close then effects else effects ++ [.close]

/-- The transition of `drive_proximity`. Reader authentication is treated as absent. -/
def advanceProximity (p : Platform) (c : Core) (input : Iso18013.Input) : Core × List Iso18013.Output :=
  let (c, agreed) := c.prepareProximity p input
  let (next, outputs) := Iso18013.step ⟨agreed, agreed, false, false, c.config.deviceKeyRef⟩
    c.proximity.state input
  ({ c with proximity := { c.proximity with state := next } }, outputs)

/-- The end of `drive_proximity`: an abort resets the flow. -/
def finishProximity (c : Core) (effects : List Effect) : Core × List Effect :=
  match c.proximity.state with
  | .aborted _ => (c.resetFlow .proximity, ensureClose effects)
  | _ => (c, effects)

def driveProximity (p : Platform) (c : Core) (input : Iso18013.Input) : Core × List Effect :=
  let (c, outputs) := c.advanceProximity p input
  let (c, effects) := collect (translateProximity p) c outputs
  c.finishProximity effects

/-! ### Digital Credentials API -/

def buildDcapiPresentation (p : Platform) (c : Core) (req : DcApi.DcApiRequest) (origin : String) :
    Option DcApiPresentation := do
  let issuerSigned ← c.currentMdoc p req.doctype
  let transcript := oid4vpDcapiSessionTranscript p origin req.nonce none
  let deviceAuth ← (deviceAuthenticationBytes transcript req.doctype
    emptyDeviceNamespacesBytes).toOption
  let protectedHeader := encodeProtectedHeader .es256
  return {
    dcqlId := req.dcqlId
    doctype := req.doctype
    issuerSigned := minimiseMdoc issuerSigned req.claims
    deviceNamespacesBytes := emptyDeviceNamespacesBytes
    protectedHeader
    signingInput := sigStructure protectedHeader [] deviceAuth
    disclosed := req.claims.map fun (ns, element) => ns ++ "/" ++ element }

/-- The event `DcApiRequestReceived` of `handle_event`. -/
def dcapiRequestReceived (p : Platform) (c : Core) (request : Bytes) (origin : String) : Core × List Effect :=
  let c := c.beginFlow .dcApi
  match (DcApi.parseDcapiRequest p request).toOption.bind (c.buildDcapiPresentation p · origin) with
  | none => (c.resetFlow .dcApi, [.close])
  | some presentation =>
    let screen := ScreenDescription.dcApiConsent origin presentation.disclosed
    ({ c with dcapi := { presentation := some presentation, consentHash := consentHash p screen } },
      [.render screen])

def dcapiConsentGranted (c : Core) : Core × List Effect :=
  match c.dcapi.presentation with
  | some presentation => (c, [.sign c.config.deviceKeyRef presentation.signingInput])
  | none => (c.resetFlow .dcApi, [.close])

def dcapiSignatureProduced (p : Platform) (c : Core) (signature : Bytes) : Core × List Effect :=
  (c.finishFlow .dcApi, match c.dcapi.presentation with
    | some presentation =>
      let deviceAuth : CoseSign1 := ⟨presentation.protectedHeader, {}, none, signature⟩
      [.emitDcApiResponse (DcApi.vpTokenResponse p presentation.dcqlId
        (deviceResponse presentation.doctype presentation.issuerSigned
          presentation.deviceNamespacesBytes deviceAuth))]
    | none => [.close])

end Core

end EuWallet.Wallet
