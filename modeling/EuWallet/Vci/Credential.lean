import EuWallet.Formats.Mdoc
import EuWallet.Formats.SdJwt
import EuWallet.Lib.Run
import EuWallet.Vci.Text
import EuWallet.X509.Certificate

/-! # The credential transport

`CredentialFlow` of `credential.rs`: the nonce, the key attestation, the proof of possession, the DPoP proof and
the credential request, then an immediate credential or a deferred one that is polled for. As in
`Authorization`, a method is a computation over the `Context` that keeps what it has written when it fails,
and `environment.random` is what the random source returns during one call. -/

namespace EuWallet.Vci.Credential

open Codec Codec.BoundedJson Crypto Formats Lib Lib.Fallible

def maxCNonceBytes : ℕ := 2048
def maxDpopNonceBytes : ℕ := 2048
def maxNonceResponseBytes : ℕ := 16 * 1024
def maxCredentialResponseBytes : ℕ := 256 * 1024
def maxCredentialBytes : ℕ := 224 * 1024
def maxKeyAttestationBytes : ℕ := 64 * 1024
def maxKeyAttestationSegmentBytes : ℕ := 32 * 1024
def maxSigningInputBytes : ℕ := 128 * 1024
def maxCredentialRequestBytes : ℕ := 160 * 1024
def maxResourceDpopNonceRetries : ℕ := 1
def maxSdJwtComponentSeparators : ℕ := 257
def mdocPidDoctype : String := "eu.europa.ec.eudi.pid.1"

def nonceJsonLimits : JsonLimits := ⟨maxNonceResponseBytes, 4, 16, 8 * 1024⟩
def credentialJsonLimits : JsonLimits := ⟨maxCredentialResponseBytes, 6, 16, maxCredentialBytes⟩
def jwtJsonLimits : JsonLimits := ⟨maxKeyAttestationSegmentBytes, 8, 32, 8 * 1024⟩

/-! ### What goes in and out -/

inductive CredentialError where
  | invalidConfiguration
  | planGrantMismatch
  | invalidSelection
  | invalidClock
  | tokenExpired
  | randomnessFailure
  | unexpectedInput
  | alreadyTerminal
  | correlationMismatch
  | transportBindingMismatch
  | invalidStatus
  | invalidMediaType
  | cachePolicyMissing
  | invalidContentEncoding
  | invalidNonceResponse
  | cNonceReplayed
  | dpopNonceInvalid
  | dpopNonceStale
  | dpopNonceRetryLimit
  | deferredPollTooEarly
  | keyAttestationBindingMismatch
  | keyAttestationInvalid
  | credentialProofSigningMismatch
  | credentialProofSignatureInvalid
  | dpopSigningMismatch
  | dpopSignatureInvalid
  | credentialRejected
  | deferredIssuanceUnsupported
  | batchIssuanceUnsupported
  | notificationUnsupported
  | reissuanceUnsupported
  | responseEncryptionUnsupported
  | invalidCredentialResponse
  | credentialFormatMismatch
deriving DecidableEq

inductive GermanPidFormat where
  | msoMdoc
  | dcSdJwt
deriving DecidableEq

inductive SelectedRequestTarget where
  | configurationId (identifier : String)
  | credentialIdentifier (identifier : String)
deriving DecidableEq

structure CredentialFlowConfig where
  accessToken : String
  tokenIssuedAtEpochSeconds : ℤ
  tokenExpiresInSeconds : Option ℕ
  credentialIssuer : HttpsIdentifier
  format : GermanPidFormat
  expectedVct : String
  credentialEndpoint : HttpsEndpoint
  nonceEndpoint : HttpsEndpoint
  deferredCredentialEndpoint : Option HttpsEndpoint
  requestTarget : SelectedRequestTarget
  dpopKeyRef : String
  dpopPublicJwk : Es256PublicJwk
  credentialKeyRef : String
  credentialPublicJwk : Es256PublicJwk
deriving DecidableEq

structure NonceRequest where
  requestId : CorrelationId
  endpoint : String
deriving DecidableEq

structure KeyAttestationRequest where
  requestId : CorrelationId
  credentialIssuer : String
  credentialEndpoint : String
  keyRef : String
  publicJwk : Es256PublicJwk
  cNonce : String
deriving DecidableEq

structure KeyAttestation where
  requestId : CorrelationId
  credentialIssuer : String
  credentialEndpoint : String
  keyRef : String
  publicJwk : Es256PublicJwk
  cNonce : String
  jwt : String
deriving DecidableEq

structure SigningRequest where
  requestId : CorrelationId
  keyRef : String
  signingInput : Bytes
deriving DecidableEq

structure SignatureResult where
  requestId : CorrelationId
  signingInput : Bytes
  signature : Bytes
deriving DecidableEq

structure CredentialRequest where
  requestId : CorrelationId
  endpoint : String
  authorization : String
  dpopProof : String
  body : Bytes
deriving DecidableEq

inductive CredentialEffect where
  | sendNonce (request : NonceRequest)
  | acquireKeyAttestation (request : KeyAttestationRequest)
  | signCredentialProof (request : SigningRequest)
  | signDpop (request : SigningRequest)
  | sendCredential (request : CredentialRequest)
  | sendDeferred (request : CredentialRequest)
deriving DecidableEq

structure EndpointResponse where
  requestId : CorrelationId
  endpoint : String
  method : String
  status : ℕ
  contentTypeHeaders : List String
  cacheControlHeaders : List String
  pragmaHeaders : List String
  contentEncodingHeaders : List String
  dpopNonceHeaders : List String
  wwwAuthenticateHeaders : List String
  body : Bytes
deriving DecidableEq

inductive CredentialInput where
  | nonceResponse (response : EndpointResponse)
  | keyAttestation (attestation : KeyAttestation)
  | credentialProofSignature (signature : SignatureResult)
  | dpopSignature (signature : SignatureResult)
  | credentialResponse (response : EndpointResponse)
  | pollDeferred
deriving DecidableEq

structure IssuedCredential where
  format : GermanPidFormat
  raw : Bytes
  cNonceHash : Hash32
deriving DecidableEq

/-- `CredentialEnvironment`: the clock, the nonces consumed before, and what the random source returns. -/
structure CredentialEnvironment where
  random : ℕ → Hash32
  nowEpochSeconds : ℤ
  seenCNonceHashes : List Hash32

/-- `Context`: the configuration and what changes. -/
structure Context where
  config : CredentialFlowConfig
  credentialEndpointNonce : Option String
  retiredCredentialEndpointNonces : List String
  usedRandomValues : List Hash32
  lastNowEpochSeconds : ℤ
deriving DecidableEq

inductive Stage where
  | awaitingNonceResponse (requestId : CorrelationId)
  | awaitingKeyAttestation (requestId : CorrelationId) (cNonce : String) (cNonceHash : Hash32)
  | signingCredentialProof (requestId : CorrelationId) (cNonceHash : Hash32) (signingInput : Bytes)
  | signingDpop (requestId : CorrelationId) (cNonceHash : Hash32) (credentialProof : String)
      (signingInput : Bytes) (nonceRetryCount : ℕ)
  | awaitingCredentialResponse (requestId : CorrelationId) (cNonceHash : Hash32) (credentialProof : String)
      (nonceRetryCount : ℕ)
  | deferred (transactionId : String) (nextPollEpochSeconds : ℤ) (cNonceHash : Hash32)
  | signingDeferredDpop (requestId : CorrelationId) (transactionId : String) (cNonceHash : Hash32)
      (signingInput : Bytes) (nonceRetryCount : ℕ)
  | awaitingDeferredResponse (requestId : CorrelationId) (transactionId : String) (cNonceHash : Hash32)
      (nonceRetryCount : ℕ)
  | complete (credential : IssuedCredential)
  | failed (error : CredentialError)
deriving DecidableEq

/-- `Stage::Complete` or `Stage::Failed`. -/
def Stage.terminal : Stage → Bool
  | complete _ => true
  | failed _ => true
  | _ => false

structure CredentialFlow where
  context : Context
  stage : Stage
deriving DecidableEq

/-- A method of the flow. -/
abbrev Action := Fallible Context CredentialError

/-! ### Clock, binding and headers -/

def validateClock (now : ℤ) : Except CredentialError Unit :=
  if 0 < now then .ok () else .error .invalidClock

def validateTokenLifetime (issuedAt : ℤ) (expiresIn : Option ℕ) (now : ℤ) : Except CredentialError Unit :=
  if issuedAt ≤ 0 ∨ now < issuedAt then .error .invalidClock
  else match expiresIn with
    | none => .ok ()
    | some expiresIn =>
      if 2 ^ 63 ≤ issuedAt + expiresIn ∨ issuedAt + expiresIn ≤ now then .error .tokenExpired else .ok ()

def validateTransportBinding (expected : CorrelationId) (endpoint method : String) (response : EndpointResponse) :
    Except CredentialError Unit :=
  if expected = response.requestId ∧ response.endpoint = endpoint ∧ response.method = method then .ok ()
  else .error .transportBindingMismatch

def validHeaderValue (value : String) : Bool := headerText 4096 value

def parseSingleHeader : List String → Option String
  | [value] => if validHeaderValue value then some value else none
  | _ => none

def validateHeaderValues (values : List String) : Except CredentialError Unit :=
  if values.isEmpty || 8 < values.length || values.any (!validHeaderValue ·) then .error .cachePolicyMissing
  else .ok ()

def validJsonContentType (value : String) : Bool :=
  validHeaderValue value && !hasChar ',' value && isJsonMediaType value

def storesAnswer (directive : String) : Bool :=
  let name := trim (((splitOnce '=' directive).map (·.1)).getD directive)
  eqIgnoreAsciiCase name "public" || eqIgnoreAsciiCase name "max-age" ||
    eqIgnoreAsciiCase name "s-maxage" || eqIgnoreAsciiCase name "immutable"

def validateCommonResponseHeaders (response : EndpointResponse) (requireNoStore : Bool) :
    Except CredentialError Unit := do
  let contentType ← orErr .invalidMediaType (parseSingleHeader response.contentTypeHeaders)
  if !validJsonContentType contentType then throw .invalidMediaType
  validateHeaderValues response.cacheControlHeaders
  if requireNoStore && !(directives response.cacheControlHeaders).any (eqIgnoreAsciiCase · "no-store") then
    throw .cachePolicyMissing
  if (directives response.cacheControlHeaders).any storesAnswer then throw .cachePolicyMissing
  if !response.pragmaHeaders.isEmpty then
    validateHeaderValues response.pragmaHeaders
    if !(directives response.pragmaHeaders).all (eqIgnoreAsciiCase · "no-cache") then
      throw .cachePolicyMissing
  match response.contentEncodingHeaders with
  | [] => return ()
  | [value] =>
    if validHeaderValue value && eqIgnoreAsciiCase value "identity" then return ()
    else throw .invalidContentEncoding
  | _ => throw .invalidContentEncoding

def parseSingleDpopNonce : List String → Except CredentialError (Option String)
  | [] => .ok none
  | [value] =>
    if value.utf8ByteSize ≤ maxDpopNonceBytes && validHeaderValue value && (utf8 value).all isNqchar then
      .ok (some value)
    else .error .dpopNonceInvalid
  | _ => .error .dpopNonceInvalid

/-! ### The challenge of the resource server -/

/-- The loop of `parse_auth_parameters`: cut at the commas outside quotes. The challenge is ASCII, so its
characters are its bytes. -/
def splitParameters : Bool → Bool → List Char → List Char → Option (List (List Char))
  | quoted, escaped, part, [] => if quoted || escaped then none else some [part]
  | quoted, true, part, c :: rest => splitParameters quoted false (part ++ [c]) rest
  | quoted, false, part, c :: rest =>
    if c = '\\' ∧ quoted then splitParameters quoted true (part ++ [c]) rest
    else if c = '"' then splitParameters (!quoted) false (part ++ [c]) rest
    else if c = ',' ∧ !quoted then (splitParameters quoted false [] rest).map (part :: ·)
    else splitParameters quoted false (part ++ [c]) rest

/-- The inside of a quoted value without its escapes. -/
def unescape : Bool → List Char → Option (List Char)
  | escaped, [] => if escaped then none else some []
  | true, c :: rest => if c ≠ '"' ∧ c ≠ '\\' then none else (unescape false rest).map (c :: ·)
  | false, c :: rest =>
    if c = '\\' then unescape true rest
    else if c = '"' ∨ isControl c then none
    else (unescape false rest).map (c :: ·)

/-- A byte of an unquoted value. -/
def isTokenByte (b : UInt8) : Bool :=
  isAsciiAlphanumeric b || b == 33 || (35 ≤ b && b ≤ 39) || b == 42 || b == 43 || b == 45 || b == 46 ||
    b == 94 || b == 95 || b == 96 || b == 124 || b == 126

def parseAuthParameterValue (value : String) : Except CredentialError String :=
  match (stripStart "\"" value).bind (stripEnd "\"") with
  | some inner =>
    match (unescape false inner.toList).map String.ofList with
    | some output => if 2048 < output.utf8ByteSize then .error .dpopNonceInvalid else .ok output
    | none => .error .dpopNonceInvalid
  | none =>
    if !value.isEmpty && value.utf8ByteSize ≤ 2048 && (utf8 value).all isTokenByte then .ok value
    else .error .dpopNonceInvalid

def parseParameter (result : List (String × String)) (part : String) :
    Except CredentialError (List (String × String)) := do
  let (name, value) ← orErr .dpopNonceInvalid (splitOnce '=' (trim part))
  let name := toAsciiLower (trim name)
  if name.isEmpty || !(utf8 name).all (fun b => isAsciiAlphanumeric b || b == 45 || b == 95) ||
      (result.lookup name).isSome then
    throw .dpopNonceInvalid
  let value ← parseAuthParameterValue (trim value)
  return result ++ [(name, value)]

def parseAuthParameters (input : String) : Except CredentialError (List (String × String)) := do
  let parts ← orErr .dpopNonceInvalid (splitParameters false false [] input.toList)
  if 16 < parts.length then throw .dpopNonceInvalid
  parts.foldlM (fun result part => parseParameter result (String.ofList part)) []

def isUseDpopNonceChallenge : List String → Except CredentialError Bool
  | [] => .ok false
  | [challenge] => do
    if !validHeaderValue challenge then throw .dpopNonceInvalid
    if !challenge.toList.any isWhite then throw .dpopNonceInvalid
    let scheme := String.ofList (challenge.toList.takeWhile (!isWhite ·))
    if !eqIgnoreAsciiCase scheme "DPoP" then return false
    let parameters ← parseAuthParameters
      (String.ofList ((challenge.toList.dropWhile (!isWhite ·)).drop 1))
    return parameters.lookup "error" == some "use_dpop_nonce"
  | _ => .error .dpopNonceInvalid

/-! ### Answers -/

def parseNonceResponse (p : Platform) (input : Bytes) : Except CredentialError String := do
  let object ← (parseObject p input nonceJsonLimits).mapError fun _ => .invalidNonceResponse
  if Json.hasKey object "error" then throw .invalidNonceResponse
  match object.lookup "c_nonce" with
  | some (.str value) =>
    if validBoundedText value maxCNonceBytes false && (utf8 value).all isNqchar then return value
    else throw .invalidNonceResponse
  | _ => throw .invalidNonceResponse

structure DecodedCompactJwt where
  header : Bytes
  payload : Bytes
  signature : Bytes
deriving DecidableEq

/-- One part of a compact token. -/
def decodeSegment (maxSegmentBytes : ℕ) (segment : String) : Option Bytes :=
  if segment.isEmpty || !isBase64urlUnpadded (utf8 segment) then none
  else (b64Decode segment).filter fun value =>
    !value.isEmpty && value.length ≤ maxSegmentBytes && b64Encode value == segment

def splitCompactJwt (compact : String) (maxCompact maxSegmentBytes : ℕ) : Option DecodedCompactJwt :=
  if compact.isEmpty || maxCompact < compact.utf8ByteSize then none
  else match compactParts compact with
    | none => none
    | some (header, payload, signature) => do
      let header ← decodeSegment maxSegmentBytes header
      let payload ← decodeSegment maxSegmentBytes payload
      let signature ← decodeSegment maxSegmentBytes signature
      return ⟨header, payload, signature⟩

def stringArrayContains (object : List (String × Json)) (field expected : String) : Bool :=
  ((object.lookup field).bind Json.asArray).any fun values =>
    !values.isEmpty && values.length ≤ 16 &&
      values.all (fun value => value.asStr.any (validBoundedText · 256 false)) &&
      values.any fun value => value.asStr == some expected

def parseAttestationCertificate (p : Platform) (certificate : Json) : Except CredentialError X509.ParsedCert := do
  let certificate ← orErr .keyAttestationInvalid (certificate.asStr.filter (·.utf8ByteSize ≤ 16 * 1024))
  let decoded ← orErr .keyAttestationInvalid (b64StdDecode certificate)
  if decoded.isEmpty || b64StdEncode decoded != certificate then throw .keyAttestationInvalid
  (X509.parseCert p decoded).mapError fun _ => .keyAttestationInvalid

def validateAttestationHeader (p : Platform) (header : List (String × Json)) : Except CredentialError Unit := do
  if (header.lookup "alg").bind Json.asStr ≠ some "ES256" ∨
      (header.lookup "typ").bind Json.asStr ≠ some "key-attestation+jwt" then
    throw .keyAttestationInvalid
  let certificates ← orErr .keyAttestationInvalid (((header.lookup "x5c").bind Json.asArray).filter
    fun certificates => !certificates.isEmpty && certificates.length ≤ 8)
  let parsed ← certificates.mapM (parseAttestationCertificate p)
  if parsed.any fun certificate => certificate.subject == certificate.issuer then
    throw .keyAttestationInvalid

def validateAttestationPayload (payload : List (String × Json)) (expectedNonce : String)
    (expectedJwk : Es256PublicJwk) (now : ℤ) : Except CredentialError Unit := do
  if (payload.lookup "iss").any fun value => !(value.asStr.any (validBoundedText · 2048 false)) then
    throw .keyAttestationInvalid
  let issuedAt ← orErr .keyAttestationInvalid ((payload.lookup "iat").bind Json.asI64)
  let expiresAt ← orErr .keyAttestationInvalid ((payload.lookup "exp").bind Json.asI64)
  if issuedAt ≤ 0 ∨ now < issuedAt ∨ expiresAt ≤ now ∨ expiresAt ≤ issuedAt then throw .keyAttestationInvalid
  if (payload.lookup "nonce").bind Json.asStr ≠ some expectedNonce ∨
      stringArrayContains payload "key_storage" "iso_18045_high" = false ∨
      stringArrayContains payload "user_authentication" "iso_18045_high" = false then
    throw .keyAttestationInvalid
  let keys ← orErr .keyAttestationInvalid ((payload.lookup "attested_keys").bind Json.asArray)
  let key ← match keys with
    | [key] => orErr .keyAttestationInvalid key.asObject
    | _ => throw .keyAttestationInvalid
  if (key.lookup "kty").bind Json.asStr ≠ some "EC" ∨ (key.lookup "crv").bind Json.asStr ≠ some "P-256" ∨
      (key.lookup "x").bind Json.asStr ≠ some expectedJwk.x ∨
      (key.lookup "y").bind Json.asStr ≠ some expectedJwk.y then
    throw .keyAttestationInvalid

def validateKeyAttestation (p : Platform) (compact expectedNonce : String) (expectedJwk : Es256PublicJwk)
    (now : ℤ) : Except CredentialError Unit := do
  let jwt ← orErr .keyAttestationInvalid
    (splitCompactJwt compact maxKeyAttestationBytes maxKeyAttestationSegmentBytes)
  if jwt.signature.length ≠ 64 then throw .keyAttestationInvalid
  let header ← (parseObject p jwt.header jwtJsonLimits).mapError fun _ => .keyAttestationInvalid
  validateAttestationHeader p header
  let payload ← (parseObject p jwt.payload jwtJsonLimits).mapError fun _ => .keyAttestationInvalid
  validateAttestationPayload payload expectedNonce expectedJwk now

def parseUseDpopNonceBody (p : Platform) (input : Bytes) : Except CredentialError Unit := do
  let object ← (parseObject p input nonceJsonLimits).mapError fun _ => .dpopNonceInvalid
  if (object.lookup "error").bind Json.asStr = some "use_dpop_nonce" then return ()
  else throw .dpopNonceInvalid

def validateSdJwt (p : Platform) (compact expectedIssuer expectedVct : String) : Except CredentialError Bytes := do
  let separators := compact.toList.count '~'
  if separators < 1 ∨ maxSdJwtComponentSeparators < separators then throw .credentialFormatMismatch
  let parsed ← (SdJwtVc.parse compact).mapError fun _ => .credentialFormatMismatch
  if parsed.keyBindingJwt.isSome then throw .credentialFormatMismatch
  let jwt ← orErr .credentialFormatMismatch (splitCompactJwt parsed.issuerJwt maxCredentialBytes maxCredentialBytes)
  if jwt.signature.length ≠ 64 then throw .credentialFormatMismatch
  let header ← (parseObject p jwt.header credentialJsonLimits).mapError fun _ => .credentialFormatMismatch
  let payload ← (parseObject p jwt.payload credentialJsonLimits).mapError fun _ => .credentialFormatMismatch
  if (header.lookup "alg").bind Json.asStr ≠ some "ES256" ∨
      (header.lookup "typ").bind Json.asStr ≠ some "dc+sd-jwt" ∨
      (payload.lookup "vct").bind Json.asStr ≠ some expectedVct ∨
      (payload.lookup "iss").bind Json.asStr ≠ some expectedIssuer then
    throw .credentialFormatMismatch
  return utf8 compact

def coseAlgIsEs256 (protectedHeader : Bytes) : Bool :=
  match Cbor.fromCanonicalSlice protectedHeader with
  | .ok (.map entries) => entries.any fun entry => entry.1 == .uint 1 && entry.2 == .nint 6
  | _ => false

def validateMdocPid (encoded : String) : Except CredentialError Bytes := do
  if !isBase64urlUnpadded (utf8 encoded) then throw .credentialFormatMismatch
  let decoded ← orErr .credentialFormatMismatch (b64Decode encoded)
  if decoded.isEmpty || maxCredentialBytes < decoded.length || b64Encode decoded != encoded then
    throw .credentialFormatMismatch
  let issued ← (IssuerSigned.parse decoded).mapError fun _ => .credentialFormatMismatch
  let docType ← issued.docType.mapError fun _ => .credentialFormatMismatch
  if docType ≠ mdocPidDoctype ∨ issued.issuerAuth.signature.length ≠ 64 ∨
      coseAlgIsEs256 issued.issuerAuth.protected = false then
    throw .credentialFormatMismatch
  return decoded

def parseImmediateCredential (p : Platform) (input : Bytes) (format : GermanPidFormat)
    (expectedIssuer expectedVct : String) : Except CredentialError Bytes := do
  let object ← (parseObject p input credentialJsonLimits).mapError fun _ => .invalidCredentialResponse
  if Json.hasKey object "transaction_id" || Json.hasKey object "interval" ||
      Json.hasKey object "acceptance_token" then
    throw .deferredIssuanceUnsupported
  if Json.hasKey object "notification_id" then throw .notificationUnsupported
  if Json.hasKey object "refresh_token" || Json.hasKey object "reissuance" then throw .reissuanceUnsupported
  if Json.hasKey object "credential_response_encryption" then throw .responseEncryptionUnsupported
  let credentials ← orErr .invalidCredentialResponse ((object.lookup "credentials").bind Json.asArray)
  match credentials with
  | [] => throw .invalidCredentialResponse
  | [credential] =>
    let credential ← orErr .invalidCredentialResponse (((credential.get "credential").bind Json.asStr).filter
      fun value => !value.isEmpty && value.utf8ByteSize ≤ maxCredentialBytes)
    match format with
    | .dcSdJwt => validateSdJwt p credential expectedIssuer expectedVct
    | .msoMdoc => validateMdocPid credential
  | _ => throw .batchIssuanceUnsupported

def parseDeferredCredential (p : Platform) (input : Bytes) : Except CredentialError (String × ℕ) := do
  let object ← (parseObject p input credentialJsonLimits).mapError fun _ => .invalidCredentialResponse
  if Json.hasKey object "credentials" || Json.hasKey object "acceptance_token" then
    throw .invalidCredentialResponse
  let transactionId ← orErr .invalidCredentialResponse (((object.lookup "transaction_id").bind
    Json.asStr).filter (validBoundedText · 2048 false))
  let interval ← orErr .invalidCredentialResponse (((object.lookup "interval").bind Json.asU64).filter
    fun value => 0 < value && value < 2 ^ 32)
  return (transactionId, interval)

/-! ### What is signed and sent -/

def signingText (p : Platform) (header payload : Json) : String :=
  b64Encode (utf8 (p.renderJson header)) ++ "." ++ b64Encode (utf8 (p.renderJson payload))

def boundedSigningInput (p : Platform) (header payload : Json) : Except CredentialError Bytes :=
  if maxSigningInputBytes < (signingText p header payload).utf8ByteSize then .error .invalidConfiguration
  else .ok (utf8 (signingText p header payload))

def proofHeader (jwk : Es256PublicJwk) (keyAttestation : String) : Json :=
  .obj [("alg", .str "ES256"), ("jwk", jwk.json), ("key_attestation", .str keyAttestation),
    ("typ", .str "openid4vci-proof+jwt")]

def proofClaims (credentialIssuer cNonce : String) (iat : ℤ) : Json :=
  .obj [("aud", .str credentialIssuer), ("iat", jsonInt iat), ("nonce", .str cNonce)]

def buildCredentialProofSigningInput (p : Platform) (credentialIssuer cNonce : String) (jwk : Es256PublicJwk)
    (keyAttestation : String) (iat : ℤ) : Except CredentialError Bytes :=
  boundedSigningInput p (proofHeader jwk keyAttestation) (proofClaims credentialIssuer cNonce iat)

def dpopHeader (jwk : Es256PublicJwk) : Json :=
  .obj [("alg", .str "ES256"), ("jwk", jwk.json), ("typ", .str "dpop+jwt")]

def dpopClaims (p : Platform) (endpoint accessToken jti : String) (iat : ℤ) (nonce : Option String) : Json :=
  .obj ([("ath", .str (b64Encode (p.sha256 (utf8 accessToken)).1)), ("htm", .str "POST"),
    ("htu", .str (dpopHtu endpoint)), ("iat", jsonInt iat), ("jti", .str jti)] ++
    nonce.toList.map fun nonce => ("nonce", .str nonce))

def buildDpopSigningInput (p : Platform) (endpoint : String) (jwk : Es256PublicJwk) (accessToken jti : String)
    (iat : ℤ) (nonce : Option String) : Except CredentialError Bytes :=
  boundedSigningInput p (dpopHeader jwk) (dpopClaims p endpoint accessToken jti iat nonce)

def requestObject (target : SelectedRequestTarget) (proof : String) : Json :=
  .obj [match target with
    | .configurationId identifier => ("credential_configuration_id", .str identifier)
    | .credentialIdentifier identifier => ("credential_identifier", .str identifier),
    ("proofs", .obj [("jwt", .arr [.str proof])])]

def buildCredentialRequestBody (p : Platform) (target : SelectedRequestTarget) (proof : String) :
    Except CredentialError Bytes :=
  let body := utf8 (p.renderJson (requestObject target proof))
  if maxCredentialRequestBytes < body.length then .error .invalidConfiguration else .ok body

def assembleCompactJwt (signingInput signature : Bytes) : Except CredentialError String :=
  orErr .invalidConfiguration (fromUtf8 (signingInput ++ 46 :: utf8 (b64Encode signature)))

def drawRandom (value : Hash32) : Action Hash32 := do
  match freshRandom (← get).usedRandomValues value with
  | none => throw .randomnessFailure
  | some used => do
    modify fun c => { c with usedRandomValues := used }
    return value

def rotateCredentialEndpointNonce (nonce : String) : Action Unit := do
  let c ← get
  failIf (c.credentialEndpointNonce = some nonce ∨ nonce ∈ c.retiredCredentialEndpointNonces) .dpopNonceStale
  modify fun c => { c with
    credentialEndpointNonce := some nonce
    retiredCredentialEndpointNonces := c.retiredCredentialEndpointNonces ++ c.credentialEndpointNonce.toList }

def rotateIfPresent : Option String → Action Unit
  | some nonce => rotateCredentialEndpointNonce nonce
  | none => pure ()

/-! ### The transitions -/

def acceptNonceResponse (p : Platform) (requestId : CorrelationId) (response : EndpointResponse)
    (env : CredentialEnvironment) : Action (Stage × List CredentialEffect) := do
  let c ← get
  lift (validateTransportBinding requestId c.config.nonceEndpoint "POST" response)
  failIf (maxNonceResponseBytes < response.body.length) .invalidNonceResponse
  lift (validateCommonResponseHeaders response true)
  failIf (response.status < 200 ∨ 299 < response.status) .invalidStatus
  failIf (response.wwwAuthenticateHeaders ≠ []) .invalidNonceResponse
  let nonce ← lift (parseSingleDpopNonce response.dpopNonceHeaders)
  rotateIfPresent nonce
  let cNonce ← lift (parseNonceResponse p response.body)
  let cNonceHash := p.sha256 (utf8 cNonce)
  failIf (cNonceHash ∈ env.seenCNonceHashes) .cNonceReplayed
  let requestId ← drawRandom (env.random 0)
  return (.awaitingKeyAttestation requestId cNonce cNonceHash, [.acquireKeyAttestation
    { requestId, credentialIssuer := c.config.credentialIssuer,
      credentialEndpoint := c.config.credentialEndpoint, keyRef := c.config.credentialKeyRef,
      publicJwk := c.config.credentialPublicJwk, cNonce }])

def acceptKeyAttestation (p : Platform) (requestId : CorrelationId) (cNonce : String) (cNonceHash : Hash32)
    (attestation : KeyAttestation) (env : CredentialEnvironment) : Action (Stage × List CredentialEffect) := do
  let c ← get
  failIf (requestId ≠ attestation.requestId ∨ attestation.credentialIssuer ≠ c.config.credentialIssuer ∨
    attestation.credentialEndpoint ≠ c.config.credentialEndpoint ∨
    attestation.keyRef ≠ c.config.credentialKeyRef ∨
    attestation.publicJwk ≠ c.config.credentialPublicJwk ∨ attestation.cNonce ≠ cNonce)
    .keyAttestationBindingMismatch
  lift (validateKeyAttestation p attestation.jwt cNonce c.config.credentialPublicJwk env.nowEpochSeconds)
  let signingInput ← lift (buildCredentialProofSigningInput p c.config.credentialIssuer cNonce
    c.config.credentialPublicJwk attestation.jwt env.nowEpochSeconds)
  let requestId ← drawRandom (env.random 0)
  return (.signingCredentialProof requestId cNonceHash signingInput,
    [.signCredentialProof { requestId, keyRef := c.config.credentialKeyRef, signingInput }])

def dpopSigningStage (p : Platform) (cNonceHash : Hash32) (credentialProof : String) (nonceRetryCount : ℕ)
    (env : CredentialEnvironment) : Action (Stage × List CredentialEffect) := do
  let jti ← drawRandom (env.random 0)
  let c ← get
  let signingInput ← lift (buildDpopSigningInput p c.config.credentialEndpoint c.config.dpopPublicJwk
    c.config.accessToken (b64Encode jti.1) env.nowEpochSeconds c.credentialEndpointNonce)
  let requestId ← drawRandom (env.random 1)
  return (.signingDpop requestId cNonceHash credentialProof signingInput nonceRetryCount,
    [.signDpop { requestId, keyRef := c.config.dpopKeyRef, signingInput }])

def acceptCredentialProofSignature (p : Platform) (requestId : CorrelationId) (cNonceHash : Hash32)
    (signingInput : Bytes) (signature : SignatureResult) (env : CredentialEnvironment) :
    Action (Stage × List CredentialEffect) := do
  failIf (requestId ≠ signature.requestId ∨ signingInput ≠ signature.signingInput)
    .credentialProofSigningMismatch
  failIf (signature.signature.length ≠ 64) .credentialProofSignatureInvalid
  let credentialProof ← lift (assembleCompactJwt signingInput signature.signature)
  dpopSigningStage p cNonceHash credentialProof 0 env

def acceptDpopSignature (p : Platform) (requestId : CorrelationId) (cNonceHash : Hash32) (credentialProof : String)
    (signingInput : Bytes) (nonceRetryCount : ℕ) (signature : SignatureResult) (random : Hash32) :
    Action (Stage × List CredentialEffect) := do
  failIf (requestId ≠ signature.requestId ∨ signingInput ≠ signature.signingInput) .dpopSigningMismatch
  failIf (signature.signature.length ≠ 64) .dpopSignatureInvalid
  let dpopProof ← lift ((assembleCompactJwt signingInput signature.signature).mapError
    fun _ => .dpopSignatureInvalid)
  let c ← get
  let body ← lift (buildCredentialRequestBody p c.config.requestTarget credentialProof)
  let requestId ← drawRandom random
  return (.awaitingCredentialResponse requestId cNonceHash credentialProof nonceRetryCount,
    [.sendCredential
      { requestId, endpoint := c.config.credentialEndpoint,
        authorization := "DPoP " ++ c.config.accessToken, dpopProof, body }])

/-- The checks `accept_credential_response` and `accept_deferred_response` begin with; the nonce header. -/
def checkResponse (requestId : CorrelationId) (endpoint : HttpsEndpoint) (response : EndpointResponse) :
    Except CredentialError (Option String × Bool) := do
  validateTransportBinding requestId endpoint "POST" response
  if maxCredentialResponseBytes < response.body.length then throw .invalidCredentialResponse
  validateCommonResponseHeaders response true
  let nonce ← parseSingleDpopNonce response.dpopNonceHeaders
  let challenged ← if response.status = 401 then isUseDpopNonceChallenge response.wwwAuthenticateHeaders
    else pure false
  return (nonce, challenged)

/-- The nonce of a challenge that may be answered once more. -/
def challengeNonce (p : Platform) (nonce : Option String) (nonceRetryCount : ℕ) (body : Bytes) :
    Except CredentialError String := do
  let nonce ← orErr .dpopNonceInvalid nonce
  parseUseDpopNonceBody p body
  if maxResourceDpopNonceRetries ≤ nonceRetryCount then throw .dpopNonceRetryLimit
  return nonce

def completed (p : Platform) (c : Context) (cNonceHash : Hash32) (body : Bytes) :
    Except CredentialError (Stage × List CredentialEffect) := do
  let raw ← parseImmediateCredential p body c.config.format c.config.credentialIssuer c.config.expectedVct
  return (.complete { format := c.config.format, raw, cNonceHash }, [])

/-- `Stage::Deferred` with the time of the next poll. -/
def postponed (transactionId : String) (interval : ℕ) (cNonceHash : Hash32) (now : ℤ) :
    Except CredentialError (Stage × List CredentialEffect) :=
  if 2 ^ 63 ≤ now + interval then .error .invalidClock
  else .ok (.deferred transactionId (now + interval) cNonceHash, [])

def acceptCredentialResponse (p : Platform) (requestId : CorrelationId) (cNonceHash : Hash32)
    (credentialProof : String) (nonceRetryCount : ℕ) (response : EndpointResponse) (env : CredentialEnvironment) :
    Action (Stage × List CredentialEffect) := do
  let c ← get
  let (nonce, challenged) ← lift (checkResponse requestId c.config.credentialEndpoint response)
  if challenged then do
    let nonce ← lift (challengeNonce p nonce nonceRetryCount response.body)
    rotateCredentialEndpointNonce nonce
    dpopSigningStage p cNonceHash credentialProof (nonceRetryCount + 1) env
  else do
    failIf (response.wwwAuthenticateHeaders ≠ []) .credentialRejected
    rotateIfPresent nonce
    if response.status = 202 then do
      failIf (c.config.deferredCredentialEndpoint = none) .deferredIssuanceUnsupported
      let (transactionId, interval) ← lift (parseDeferredCredential p response.body)
      lift (postponed transactionId interval cNonceHash env.nowEpochSeconds)
    else do
      failIf (response.status ≠ 200) .credentialRejected
      lift (completed p c cNonceHash response.body)

def deferredDpopSigningStage (p : Platform) (transactionId : String) (cNonceHash : Hash32) (nonceRetryCount : ℕ)
    (env : CredentialEnvironment) : Action (Stage × List CredentialEffect) := do
  let c ← get
  let endpoint ← lift (orErr .deferredIssuanceUnsupported c.config.deferredCredentialEndpoint)
  let jti ← drawRandom (env.random 0)
  let signingInput ← lift (buildDpopSigningInput p endpoint c.config.dpopPublicJwk c.config.accessToken
    (b64Encode jti.1) env.nowEpochSeconds c.credentialEndpointNonce)
  let requestId ← drawRandom (env.random 1)
  return (.signingDeferredDpop requestId transactionId cNonceHash signingInput nonceRetryCount,
    [.signDpop { requestId, keyRef := c.config.dpopKeyRef, signingInput }])

def acceptDeferredDpopSignature (p : Platform) (requestId : CorrelationId) (transactionId : String)
    (cNonceHash : Hash32) (signingInput : Bytes) (nonceRetryCount : ℕ) (signature : SignatureResult)
    (random : Hash32) : Action (Stage × List CredentialEffect) := do
  failIf (requestId ≠ signature.requestId ∨ signingInput ≠ signature.signingInput) .dpopSigningMismatch
  failIf (signature.signature.length ≠ 64) .dpopSignatureInvalid
  let c ← get
  let endpoint ← lift (orErr .deferredIssuanceUnsupported c.config.deferredCredentialEndpoint)
  let dpopProof ← lift (assembleCompactJwt signingInput signature.signature)
  let requestId ← drawRandom random
  return (.awaitingDeferredResponse requestId transactionId cNonceHash nonceRetryCount,
    [.sendDeferred
      { requestId, endpoint, authorization := "DPoP " ++ c.config.accessToken, dpopProof,
        body := utf8 (p.renderJson (.obj [("transaction_id", .str transactionId)])) }])

def acceptDeferredResponse (p : Platform) (requestId : CorrelationId) (transactionId : String)
    (cNonceHash : Hash32) (nonceRetryCount : ℕ) (response : EndpointResponse) (env : CredentialEnvironment) :
    Action (Stage × List CredentialEffect) := do
  let c ← get
  let endpoint ← lift (orErr .deferredIssuanceUnsupported c.config.deferredCredentialEndpoint)
  let (nonce, challenged) ← lift (checkResponse requestId endpoint response)
  if challenged then do
    let nonce ← lift (challengeNonce p nonce nonceRetryCount response.body)
    rotateCredentialEndpointNonce nonce
    deferredDpopSigningStage p transactionId cNonceHash (nonceRetryCount + 1) env
  else do
    failIf (response.wwwAuthenticateHeaders ≠ []) .credentialRejected
    rotateIfPresent nonce
    if response.status = 200 then lift (completed p c cNonceHash response.body)
    else do
      failIf (response.status ≠ 202) .credentialRejected
      let (returnedId, interval) ← lift (parseDeferredCredential p response.body)
      failIf (returnedId ≠ transactionId) .invalidCredentialResponse
      lift (postponed transactionId interval cNonceHash env.nowEpochSeconds)

def transition (p : Platform) (stage : Stage) (input : CredentialInput) (env : CredentialEnvironment) :
    Action (Stage × List CredentialEffect) :=
  match stage, input with
  | .awaitingNonceResponse requestId, .nonceResponse response => acceptNonceResponse p requestId response env
  | .awaitingKeyAttestation requestId cNonce cNonceHash, .keyAttestation attestation =>
    acceptKeyAttestation p requestId cNonce cNonceHash attestation env
  | .signingCredentialProof requestId cNonceHash signingInput, .credentialProofSignature signature =>
    acceptCredentialProofSignature p requestId cNonceHash signingInput signature env
  | .signingDpop requestId cNonceHash credentialProof signingInput retries, .dpopSignature signature =>
    acceptDpopSignature p requestId cNonceHash credentialProof signingInput retries signature (env.random 0)
  | .awaitingCredentialResponse requestId cNonceHash credentialProof retries, .credentialResponse response =>
    acceptCredentialResponse p requestId cNonceHash credentialProof retries response env
  | .deferred transactionId _ cNonceHash, .pollDeferred =>
    deferredDpopSigningStage p transactionId cNonceHash 0 env
  | .signingDeferredDpop requestId transactionId cNonceHash signingInput retries, .dpopSignature signature =>
    acceptDeferredDpopSignature p requestId transactionId cNonceHash signingInput retries signature
      (env.random 0)
  | .awaitingDeferredResponse requestId transactionId cNonceHash retries, .credentialResponse response =>
    acceptDeferredResponse p requestId transactionId cNonceHash retries response env
  | _, _ => throw .unexpectedInput

/-! ### The flow -/

/-- The result of a call of the flow. -/
abbrev Reply := Except CredentialError (List CredentialEffect)

def pollsEarly : Stage → CredentialInput → ℤ → Bool
  | .deferred _ nextPoll _, .pollDeferred, now => now < nextPoll
  | _, _, _ => false

/-- What `step` latches before it looks at the stage: a clock that is not positive or runs backwards, a token
that is not yet or no longer valid. -/
def clockFailure (c : Context) (now : ℤ) : Option CredentialError :=
  if now ≤ 0 ∨ now < c.lastNowEpochSeconds then some .invalidClock
  else match validateTokenLifetime c.config.tokenIssuedAtEpochSeconds c.config.tokenExpiresInSeconds now with
    | .error e => some e
    | .ok () => none

def step (p : Platform) (flow : CredentialFlow) (input : CredentialInput) (env : CredentialEnvironment) :
    CredentialFlow × Reply :=
  match clockFailure flow.context env.nowEpochSeconds with
  | some e => ({ flow with stage := .failed e }, .error e)
  | none =>
    let context := { flow.context with lastNowEpochSeconds := env.nowEpochSeconds }
    if flow.stage.terminal then (⟨context, flow.stage⟩, .error .alreadyTerminal)
    else if pollsEarly flow.stage input env.nowEpochSeconds then
      (⟨context, flow.stage⟩, .error .deferredPollTooEarly)
    else match outcome (transition p flow.stage input env) context with
      | (.ok (stage, effects), context) => (⟨context, stage⟩, .ok effects)
      | (.error e, context) => (⟨context, .failed e⟩, .error e)

/-- One call of a run: its input and its environment, and the flow around it. -/
abbrev Exchange := Call CredentialFlow (CredentialInput × CredentialEnvironment) Reply

/-- A call as a step of a run, whose only output is what it returns. -/
def respond (p : Platform) (flow : CredentialFlow) (call : CredentialInput × CredentialEnvironment) :
    CredentialFlow × List Reply :=
  ((step p flow call.1 call.2).1, [(step p flow call.1 call.2).2])

/-- The calls of a run from a flow. -/
def exchanges (p : Platform) (flow : CredentialFlow) (inputs : List (CredentialInput × CredentialEnvironment)) :
    List Exchange :=
  calls (respond p) flow inputs

/-- The flow at the end of a run. -/
def flowAfter (p : Platform) (flow : CredentialFlow) (inputs : List (CredentialInput × CredentialEnvironment)) :
    CredentialFlow :=
  (collect (respond p) flow inputs).1

theorem flowAfter_append (p : Platform) (flow : CredentialFlow)
    (first second : List (CredentialInput × CredentialEnvironment)) :
    flowAfter p flow (first ++ second) = flowAfter p (flowAfter p flow first) second :=
  collect_append first second flow

def begin (config : CredentialFlowConfig) (env : CredentialEnvironment) :
    Except CredentialError (CredentialFlow × CredentialEffect) := do
  validateClock env.nowEpochSeconds
  validateTokenLifetime config.tokenIssuedAtEpochSeconds config.tokenExpiresInSeconds env.nowEpochSeconds
  let used ← orErr .randomnessFailure (freshRandom [] (env.random 0))
  return (⟨{ config, credentialEndpointNonce := none, retiredCredentialEndpointNonces := [],
             usedRandomValues := used, lastNowEpochSeconds := env.nowEpochSeconds },
           .awaitingNonceResponse (env.random 0)⟩,
    .sendNonce { requestId := env.random 0, endpoint := config.nonceEndpoint })

end EuWallet.Vci.Credential
