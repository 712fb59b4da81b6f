import EuWallet.Wallet.Types

/-! # Credentials entering the wallet

Who signs what: relying parties, credential issuers and status providers are resolved against the
trusted list, and a received credential is authenticated, checked against the catalogue and the device
key, and only then stored. -/

namespace EuWallet.Wallet

open Codec Codec.Cbor Crypto Formats Lib Protocol
open Trust X509

def parseFormat (s : String) : Option Oid4vci.CredentialFormat :=
  if s = "mso_mdoc" then some .msoMdoc
  else if s = "dc+sd-jwt" ∨ s = "vc+sd-jwt" then some .dcSdJwt
  else none

/-! ### Validity -/

def iatClockSkewSeconds : ℤ := 300

def CredentialValidity.validateAt (v : CredentialValidity) (now : ℤ) : Except CredentialIngestionError Unit :=
  if v.issuedAt.any (fun iat => satAdd64 now iatClockSkewSeconds < iat) ||
      v.notBefore.any (fun nbf => now < nbf) then .error .credentialNotYetValid
  else if v.expiresAt.any (fun exp => exp ≤ now) then .error .credentialExpired
  else .ok ()

def jsonEpochClaim (claims : List (String × Json)) (name : String) : Except CredentialIngestionError (Option ℤ) :=
  match claims.lookup name with
  | none => .ok none
  | some value => (orErr .malformedCredential value.asI64).map some

def jsonValidity (claims : List (String × Json)) (now : ℤ) :
    Except CredentialIngestionError CredentialValidity := do
  let validity : CredentialValidity := {
    issuedAt := ← jsonEpochClaim claims "iat"
    notBefore := ← jsonEpochClaim claims "nbf"
    expiresAt := ← jsonEpochClaim claims "exp" }
  validity.validateAt now
  return validity

def mdocValidity (v : ValidityInfo) (now : ℤ) : Except CredentialIngestionError CredentialValidity := do
  let signed ← orErr .malformedCredential (TDate.parse v.signed)
  let validFrom ← orErr .malformedCredential (TDate.parse v.validFrom)
  let validUntil ← orErr .malformedCredential (TDate.parse v.validUntil)
  if validUntil.lt signed || validUntil.lt validFrom then throw .malformedCredential
  let validity : CredentialValidity := {
    issuedAt := some signed.unixSecondsCeil
    notBefore := some validFrom.unixSecondsCeil
    expiresAt := some validUntil.unixSecondsCeil }
  validity.validateAt now
  return validity

/-! ### The profile of an issued SD-JWT -/

def sdjwtControlClaims : List String :=
  ["iss", "vct", "cnf", "iat", "nbf", "exp", "status", "vct#integrity"]

mutual

def containsSdjwtPlaceholder : Json → Bool
  | .obj members => Json.hasKey members "_sd" || Json.hasKey members "..." || memberPlaceholder members
  | .arr values => elementPlaceholder values
  | _ => false

def memberPlaceholder : List (String × Json) → Bool
  | [] => false
  | (_, v) :: rest => containsSdjwtPlaceholder v || memberPlaceholder rest

def elementPlaceholder : List Json → Bool
  | [] => false
  | v :: rest => containsSdjwtPlaceholder v || elementPlaceholder rest

end

/-- One round of the loop over the control claims: the claim is permanent and free of placeholders. -/
def controlClaimAccepted (issuerPayload : List (String × Json)) (processed : ProcessedSdJwt)
    (control : String) : Bool :=
  match issuerPayload.lookup control, processed.claims.lookup control with
  | none, none => true
  | none, some _ => false
  | some issuerValue, processedValue =>
    processedValue == some issuerValue && !containsSdjwtPlaceholder issuerValue &&
      !processed.disclosures.any fun d => d.path.head? == some (.name control)

def validateSdjwtIssuerProfile (sd : SdJwtVc) (issuerPayload : List (String × Json))
    (processed : ProcessedSdJwt) : Except CredentialIngestionError Unit :=
  if sd.keyBindingJwt.isSome then .error .malformedCredential
  else if !(["iss", "vct", "cnf"].all fun required =>
      Json.hasKey issuerPayload required && Json.hasKey processed.claims required) then
    .error .malformedCredential
  else if !sdjwtControlClaims.all (controlClaimAccepted issuerPayload processed) then
    .error .malformedCredential
  else .ok ()

def heldCredentialFromVerifiedSd (sd : SdJwtVc) (processed : ProcessedSdJwt)
    (status : Option StatusReference) : Except CredentialIngestionError HeldCredential := do
  let disclosuresByClaim ← processed.disclosures.foldlM (fun m d => match d.path with
    | [.name name] =>
      if (m.lookup name).isSome then Except.error CredentialIngestionError.duplicateClaim
      else .ok (OrdMap.insert name d.raw m)
    | _ => .ok m) []
  return ⟨sd.issuerJwt, disclosuresByClaim, status⟩

/-! ### Binding to the device key -/

def isSec1Point (key : Bytes) : Bool := key.length == 65 && key.head? == some 4

/-- The first coordinate of an uncompressed point. -/
def sec1X (key : Bytes) : Bytes := (key.take 33).drop 1

/-- The second coordinate of an uncompressed point. -/
def sec1Y (key : Bytes) : Bytes := key.drop 33

def sdjwtDeviceBindingMatches (claims : List (String × Json)) (key : Bytes) : Bool :=
  isSec1Point key && (((claims.lookup "cnf").bind (·.get "jwk")).bind Json.asObject).any fun jwk =>
    let text (name : String) : Option String := (jwk.lookup name).bind Json.asStr
    text "kty" == some "EC" && text "crv" == some "P-256" &&
      !Json.hasKey jwk "d" && !Json.hasKey jwk "jku" && !Json.hasKey jwk "x5u" &&
      match (text "x").bind b64Decode, (text "y").bind b64Decode with
      | some x, some y => x.length == 32 && y.length == 32 && sec1X key == x && sec1Y key == y
      | _, _ => false

def mdocDeviceBindingMatches (deviceKey : Value) (key : Bytes) : Bool :=
  isSec1Point key && match deviceKey with
    | .map pairs =>
      !pairs.any (fun kv => kv.1 == .nint 3) && pairs.lookup (.uint 1) == some (.uint 2) &&
        pairs.lookup (.nint 0) == some (.uint 1) &&
        pairs.lookup (.nint 1) == some (.bytes (sec1X key)) &&
        pairs.lookup (.nint 2) == some (.bytes (sec1Y key))
    | _ => false

/-! ### Status references -/

def maxStatusUriBytes : ℕ := 2048

/-- A port: digits, at least one. -/
def isPort (port : List Char) : Bool := !port.isEmpty && port.all (·.isDigit)

/-- A bracketed address and an optional port; the argument is what follows the opening bracket. -/
def validBracketed (rest : List Char) : Bool :=
  rest.contains ']' && !(rest.takeWhile (· ≠ ']')).isEmpty &&
    match (rest.dropWhile (· ≠ ']')).drop 1 with
    | [] => true
    | ':' :: port => isPort port
    | _ => false

def validHostPort (authority : List Char) : Bool :=
  let host := authority.takeWhile (· ≠ ':')
  authority.count ':' ≤ 1 && !host.isEmpty && host.all (fun c => c.isAlphanum || c == '.' || c == '-') &&
    (!authority.contains ':' || isPort ((authority.dropWhile (· ≠ ':')).drop 1))

def validStatusUri (uri : String) : Bool :=
  if uri.isEmpty || maxStatusUriBytes < uri.utf8ByteSize || !isAscii uri ||
      (utf8 uri).any (fun b => isAsciiControl b || b == 32 || b == 92) || hasChar '#' uri then false
  else match stripStart "https://" uri with
    | none => false
    | some remainder =>
      let authority := remainder.toList.takeWhile fun c => c ≠ '/' ∧ c ≠ '?'
      if authority.isEmpty || authority.contains '@' then false
      else match authority with
        | '[' :: rest => validBracketed rest
        | authority => validHostPort authority

def statusReferenceFromClaims (claims : List (String × Json)) :
    Except CredentialIngestionError (Option StatusReference) :=
  match claims.lookup "status" with
  | none => .ok none
  | some status => do
    let reference ← orErr .unsupportedStatusReference ((status.get "status_list").bind Json.asObject)
    let uri ← orErr .unsupportedStatusReference ((reference.lookup "uri").bind Json.asStr)
    if !validStatusUri uri then throw .unsupportedStatusReference
    let index ← orErr .unsupportedStatusReference ((reference.lookup "idx").bind Json.asU64)
    return some ⟨uri, index⟩

/-! ### TLS evidence -/

def tlsnotaryEvidenceVct : String := "dev.advatar.tlsn.evidence.1"

/-- A non-zero SHA-384 digest in lower-case hexadecimal. -/
def isEvidenceDigest (s : String) : Bool :=
  let b := utf8 s
  b.length == 96 && b.all (fun x => isAsciiDigit x || (97 ≤ x && x ≤ 102)) && b.any (· != 48)

def evidenceCommitments : List String :=
  ["notary_identity_commitment", "server_identity_commitment", "transcript_commitment",
    "disclosed_fields_commitment", "holder_binding_commitment", "schema_commitment",
    "status_commitment"]

/-- The assurance level decides whether an issuer authorisation has to be present. -/
def evidenceAssuranceAccepted (evidence : List (String × Json)) (assurance : String) : Bool :=
  let authorization := evidence.lookup "issuer_authorization_commitment"
  if assurance = "tlsNotarizedEvidence" ∨ assurance = "holderSelfIssued" then
    authorization == some .null
  else if assurance = "issuerUpgraded" ∨ assurance = "regulatedAttestation" then
    (authorization.bind Json.asStr).any isEvidenceDigest
  else false

def validateTlsnotaryEvidenceClaim (claims : List (String × Json)) (now : ℤ) :
    Except CredentialIngestionError Unit := do
  let evidence ← orErr .tlsEvidenceInvalid ((claims.lookup "tlsn_evidence").bind Json.asObject)
  if evidence.length ≠ 12 ∨ (evidence.lookup "version").bind Json.asU64 ≠ some 1 ∨
      !evidenceCommitments.all fun field =>
        ((evidence.lookup field).bind Json.asStr).any isEvidenceDigest then
    throw .tlsEvidenceInvalid
  let observedAt ← orErr .tlsEvidenceInvalid ((evidence.lookup "observed_at").bind Json.asI64)
  let freshUntil ← orErr .tlsEvidenceInvalid ((evidence.lookup "fresh_until").bind Json.asI64)
  if observedAt ≤ 0 ∨ now < observedAt ∨ freshUntil ≤ now then throw .tlsEvidenceInvalid
  let assurance ← orErr .tlsEvidenceInvalid ((evidence.lookup "assurance").bind Json.asStr)
  if !evidenceAssuranceAccepted evidence assurance then throw .tlsEvidenceInvalid

/-! ### Resolution against the trusted list -/

namespace Core

/-- `Core::resolve_rp`: whether the chain is a relying party's, its key, its DNS names. -/
def resolveRp (p : Platform) (c : Core) (chain : List Bytes) : Bool × Bytes × List String :=
  let anchors := c.trustStore.parsedAnchorsAt p .relyingPartyAccessCa c.nowEpoch
  match checkRelyingParty p chain anchors c.nowEpoch with
  | .ok profile =>
    let key := ((chain.head?.bind fun der => (parseCert p der).toOption).map (·.publicKeyRaw)).getD []
    (true, key, profile.dnsSans)
  | .error _ => (false, [], [])

def trustService : IssuerTrustDomain → ServiceType
  | .pid => .pidProvider
  | .attestation => .attestationProvider

def resolveCredentialIssuer (p : Platform) (c : Core) (chain : List Bytes)
    (service : IssuerTrustDomain) : Option CredentialIssuerEvidence :=
  let anchors := c.trustStore.parsedAnchorsAt p (trustService service) c.nowEpoch
  if anchors.isEmpty then none
  else (checkCredentialIssuer p chain anchors c.nowEpoch).toOption.map fun validated => {
    identity := validated.identity
    service
    publicKeyRaw := validated.publicKeyRaw
    certificatePath := chain
    notBefore := validated.notBefore
    notAfter := validated.notAfter }

def resolveCredentialIssuers (p : Platform) (c : Core) (chain : List Bytes) : List CredentialIssuerEvidence :=
  [.pid, .attestation].filterMap (c.resolveCredentialIssuer p chain)

def issuerForType (c : Core) (issuers : List CredentialIssuerEvidence) (credentialType : String) :
    Except CredentialIngestionError CredentialIssuerEvidence := do
  let service ← orErr .unknownCredentialType (c.catalogue.issuerTrustDomain credentialType)
  orErr .issuerServiceMismatch (issuers.find? (·.service == service))

def issuerCandidatesAreConsistent : List CredentialIssuerEvidence → Bool
  | [] => false
  | first :: rest => first.isInternallyConsistent && (first :: rest).all fun issuer =>
    issuer.isInternallyConsistent && issuer.identity == first.identity &&
      issuer.publicKeyRaw == first.publicKeyRaw && issuer.certificatePath == first.certificatePath &&
      issuer.notBefore == first.notBefore && issuer.notAfter == first.notAfter

def resolveStatusProviderKey (p : Platform) (c : Core) (chain : List Bytes) : Option Bytes :=
  let anchors := c.trustStore.parsedAnchorsAt p .statusProvider c.nowEpoch
  if anchors.isEmpty then none
  else (validatePath p chain anchors c.nowEpoch).toOption.bind fun path =>
    (path.head?.filter (!·.isCa)).map (·.publicKeyRaw)

/-! ### Authentication of a received credential -/

/-- The profile the type of an SD-JWT asks for besides the catalogue. -/
def checkTypeProfile (claims : List (String × Json)) (vct : String) (now : ℤ) :
    Except CredentialIngestionError Unit :=
  if vct = Oid4vci.pidSdJwtVct then
    (Oid4vci.validateSdJwtPidPortrait claims).mapError fun _ => .pidPortraitInvalid
  else if vct = tlsnotaryEvidenceVct then validateTlsnotaryEvidenceClaim claims now
  else .ok ()

def verifySdjwtCredential (p : Platform) (c : Core) (credential : Bytes)
    (issuer0 : CredentialIssuerEvidence) (issuers : List CredentialIssuerEvidence) (issuerIdAssertion : String) :
    Except CredentialIngestionError (VerifiedCredential × CredentialIssuerEvidence) := do
  let compact ← orErr .malformedCredential (fromUtf8 credential)
  let sd ← (SdJwtVc.parse compact).mapError fun _ => .malformedCredential
  let alg ← (sd.issuerAlgorithm p).mapError fun _ => .malformedCredential
  if alg ≠ .es256 then throw .unsupportedAlgorithm
  let processed ← (sd.verifyAndProcess p issuer0.publicKeyRaw alg).mapError fun e =>
    if e = .crypto then .signatureInvalid else .malformedCredential
  let issuerPayload ← (sd.issuerPayload p).mapError fun _ => .malformedCredential
  validateSdjwtIssuerProfile sd issuerPayload processed
  let claims := processed.claims
  let issuer ← orErr .malformedCredential ((claims.lookup "iss").bind Json.asStr)
  let vct ← orErr .unknownCredentialType
    (((claims.lookup "vct").bind Json.asStr).filter (!·.isEmpty))
  let credentialType ← orErr .unknownCredentialType (c.catalogue.get vct)
  if credentialType.format ≠ "dc+sd-jwt" then throw .credentialTypeFormatMismatch
  checkTypeProfile claims vct c.nowEpoch
  let authenticatedIssuer ← c.issuerForType issuers vct
  if issuer.isEmpty ∨ issuer ≠ authenticatedIssuer.identity ∨
      issuerIdAssertion ≠ authenticatedIssuer.identity then throw .issuerMismatch
  if !c.catalogue.issuerAllowed vct authenticatedIssuer.identity then throw .issuerNotAllowedForType
  if !c.catalogue.satisfiesMandatory vct (claims.map (·.1)) then throw .mandatoryClaimsMissing
  let validity ← jsonValidity claims c.nowEpoch
  if !Json.hasKey claims "cnf" then throw .deviceBindingMissing
  if !sdjwtDeviceBindingMatches claims c.devicePublicKey then throw .deviceBindingMismatch
  let status ← statusReferenceFromClaims claims
  let holding ← heldCredentialFromVerifiedSd sd processed status
  return (.sdJwt holding ⟨processed⟩ validity, authenticatedIssuer)

def verifyMdocCredential (p : Platform) (c : Core) (issuerSigned : IssuerSigned)
    (issuer0 : CredentialIssuerEvidence) (issuers : List CredentialIssuerEvidence) (issuerIdAssertion : String) :
    Except CredentialIngestionError (VerifiedCredential × CredentialIssuerEvidence) := do
  let mso ← (verifyIssuerSigned p issuerSigned issuer0.publicKeyRaw .es256).mapError
    fun _ => .signatureInvalid
  if mso.version ≠ "1.0" ∨ mso.digestAlgorithm ≠ "SHA-256" ∨ mso.docType.isEmpty then
    throw .malformedCredential
  let credentialType ← orErr .unknownCredentialType (c.catalogue.get mso.docType)
  if credentialType.format ≠ "mso_mdoc" then throw .credentialTypeFormatMismatch
  if mso.docType = Oid4vci.pidMdocDoctype then
    (Oid4vci.validateMdocPidPortrait issuerSigned).mapError fun _ => .pidPortraitInvalid
  let authenticatedIssuer ← c.issuerForType issuers mso.docType
  if issuerIdAssertion ≠ authenticatedIssuer.identity then throw .issuerMismatch
  if !c.catalogue.issuerAllowed mso.docType authenticatedIssuer.identity then
    throw .issuerNotAllowedForType
  let heldClaims := issuerSigned.nameSpaces.flatMap fun nsItems =>
    nsItems.2.map fun item => (nsItems.1, item.elementId)
  if !c.catalogue.satisfiesMandatoryMdoc mso.docType heldClaims then throw .mandatoryClaimsMissing
  let validity ← mdocValidity mso.validityInfo c.nowEpoch
  if mso.deviceKey = .null then throw .deviceBindingMissing
  if !mdocDeviceBindingMatches mso.deviceKey c.devicePublicKey then throw .deviceBindingMismatch
  return (.mdoc ⟨mso.docType, issuerSigned⟩ validity, authenticatedIssuer)

def decodeMdocCredential (credential : Bytes) : Except CredentialIngestionError IssuerSigned := do
  let compact ← orErr .malformedCredential (fromUtf8 credential)
  let cbor ← orErr .malformedCredential (b64Decode (trim compact))
  (IssuerSigned.parse cbor).mapError fun _ => .malformedCredential

def embeddedMdocIssuerChain (i : IssuerSigned) : Except CredentialIngestionError (List Bytes) := do
  let chain ← i.issuerAuth.x5chain.mapError fun _ => .malformedCredential
  return (← orErr .untrustedIssuer chain).certificates

/-- The resolved issuers with the first of them, if they agree with one another. -/
def consistentIssuers (p : Platform) (c : Core) (chain : List Bytes) :
    Except CredentialIngestionError (CredentialIssuerEvidence × List CredentialIssuerEvidence) :=
  match c.resolveCredentialIssuers p chain with
  | [] => .error .untrustedIssuer
  | first :: rest =>
    if issuerCandidatesAreConsistent (first :: rest) then .ok (first, first :: rest)
    else .error .untrustedIssuer

def authenticateReceivedCredential (p : Platform) (c : Core) (format : Oid4vci.CredentialFormat)
    (credential : Bytes) (issuerCertChain : List Bytes) (issuerIdAssertion : String) :
    Except CredentialIngestionError AuthenticatedCredential := do
  if c.nowEpoch ≤ 0 then throw .clockNotSet
  if c.devicePublicKey.isEmpty then throw .deviceBindingMissing
  let (verified, issuer) ← match format with
    | .dcSdJwt => do
      let (issuer0, issuers) ← c.consistentIssuers p issuerCertChain
      c.verifySdjwtCredential p credential issuer0 issuers issuerIdAssertion
    | .msoMdoc => do
      let issuerSigned ← decodeMdocCredential credential
      let (issuer0, issuers) ← c.consistentIssuers p (← embeddedMdocIssuerChain issuerSigned)
      c.verifyMdocCredential p issuerSigned issuer0 issuers issuerIdAssertion
  return ⟨verified, ⟨format, credential, issuer⟩⟩

/-! ### Storage and provisioning -/

/-- Replace the first element that satisfies a test, or append. -/
def upsert {α : Type} (isOld : α → Bool) (new : α) (xs : List α) : List α :=
  match xs.findIdx? isOld with
  | some i => xs.set i new
  | none => xs ++ [new]

def storeVerifiedCredential (c : Core) (a : AuthenticatedCredential) : Core :=
  match a.credential with
  | .sdJwt holding authenticated validity => { c with
      credentials := upsert (·.holding == holding)
        ⟨holding, some authenticated, validity, .authenticated a.provenance⟩ c.credentials }
  | .mdoc holding validity => { c with
      mdocHoldings := upsert (·.holding == holding)
        ⟨holding, validity, .authenticated a.provenance⟩ c.mdocHoldings }

def ingestCredential (p : Platform) (c : Core) (format : String) (credential : Bytes)
    (issuerCertChain : List Bytes) (issuerId : String) : Except CredentialIngestionError Core := do
  let format ← orErr .unsupportedFormat (parseFormat format)
  let verified ← c.authenticateReceivedCredential p format credential issuerCertChain issuerId
  return { c.storeVerifiedCredential verified with lastCredentialIngestionError := none }

def loadDeviceKey (c : Core) (key : Bytes) : Core := { c with devicePublicKey := key }

def loadWua (p : Platform) (c : Core) (wuaJwt providerKey : Bytes) : Except WuaError Core := do
  let att ← WalletUnitAttestation.parseAndVerify p wuaJwt providerKey .es256 c.nowEpoch
  return { c with wua := some att }

def loadTrustList (p : Platform) (c : Core) (signedList operatorKey : Bytes) :
    Except TrustError Core := do
  let list ← Trust.parseAndVerify p signedList operatorKey .es256 c.nowEpoch
  return { c with trustStore := ← c.trustStore.update list }

def loadStatusList (p : Platform) (c : Core) (uri : String) (token : Bytes)
    (providerCertChain : List Bytes) : Core × Except StatusLoadError Unit :=
  if c.nowEpoch ≤ 0 then (c, .error .clockNotSet)
  else if !validStatusUri uri then (c, .error .invalidUri)
  else match c.resolveStatusProviderKey p providerCertChain with
    | none => (c, .error .untrustedProvider)
    | some key => match StatusList.parseAndVerify p token uri key .es256 c.nowEpoch with
      | .error e => (c, .error (.invalidToken e))
      | .ok list =>
        let fresh := c.statusLists.filter fun cached => cached.2.list.isFreshAt c.nowEpoch
        if (fresh.lookup uri).isNone ∧ maxCachedStatusLists ≤ fresh.length then
          ({ c with statusLists := fresh }, .error .cacheFull)
        else
          ({ c with statusLists := OrdMap.insert uri ⟨list, providerCertChain⟩ fresh }, .ok ())

def loadUnverifiedCredentialForTesting (c : Core) (holding : HeldCredential) : Core :=
  if c.credentials.any (·.holding == holding) then c
  else { c with credentials := c.credentials ++ [⟨holding, none, {}, .testFixture⟩] }

def loadUnverifiedMdocForTesting (c : Core) (holding : MdocHolding) : Core :=
  if c.mdocHoldings.any (·.holding == holding) then c
  else { c with mdocHoldings := c.mdocHoldings ++ [⟨holding, {}, .testFixture⟩] }

end Core

end EuWallet.Wallet
