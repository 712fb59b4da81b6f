import EuWallet.Lib.Run
import EuWallet.Vci.Form

/-! # The authorization-code transport

`AuthorizationFlow` of `authorization.rs`: client authentication, the pushed request, the browser, client
authentication again, the DPoP proof and the token request, with a new round of the last three when the
server asks for a nonce. A method of the flow is a computation over its `Context` that keeps what it has
written when it fails. `environment.random` is the sequence of values the random source returns during one
call, `platform.sha256` the digest. -/

namespace EuWallet.Vci.Authorization

open Codec Codec.BoundedJson Crypto Lib Lib.Fallible

def pkceVerifierChars : ℕ := 43
def stateChars : ℕ := 43
def maxClientIdBytes : ℕ := 2048
def maxIssuerStateBytes : ℕ := 2048
def maxRequestUriBytes : ℕ := 2048
def maxAuthorizationCodeBytes : ℕ := 4096
def maxWalletAttestationBytes : ℕ := 32 * 1024
def maxWalletAttestationPopBytes : ℕ := 16 * 1024
def maxDpopNonceBytes : ℕ := 2048
def maxDpopSigningInputBytes : ℕ := 16 * 1024
def maxAccessTokenBytes : ℕ := 8 * 1024
def maxCredentialIdentifiers : ℕ := 32
def maxCredentialIdentifierBytes : ℕ := 2048
def maxTokenResponseBytes : ℕ := 64 * 1024
def maxParResponseBytes : ℕ := 16 * 1024
def maxCallbackQueryBytes : ℕ := 16 * 1024
def maxParExpiresInSeconds : ℕ := 599
def maxDpopNonceRetries : ℕ := 2

def parJsonLimits : JsonLimits := ⟨maxParResponseBytes, 4, 32, 8 * 1024⟩
def tokenJsonLimits : JsonLimits := ⟨maxTokenResponseBytes, 12, 128, 8 * 1024⟩

/-! ### What goes in and out -/

inductive EndpointPurpose where
  | par
  | token
deriving DecidableEq

def validScope (value : String) : Bool :=
  validBoundedText value 512 false &&
    (utf8 value).all fun b => b == 0x21 || (0x23 ≤ b && b ≤ 0x5b) || (0x5d ≤ b && b ≤ 0x7e)

/-- `AuthorizationFlowConfig`, with what its constructor has checked. -/
structure AuthorizationFlowConfig where
  authorizationServer : HttpsIdentifier
  credentialIssuer : HttpsIdentifier
  configurationId : String
  credentialEndpoint : HttpsEndpoint
  nonceEndpoint : HttpsEndpoint
  authorizationEndpoint : HttpsEndpoint
  tokenEndpoint : HttpsEndpoint
  parEndpoint : HttpsEndpoint
  scope : String
  clientId : String
  redirectUri : HttpsIdentifier
  issuerState : Option String
  dpopKey : KeyBinding
  clientIdValid : validBoundedText clientId maxClientIdBytes false = true
  scopeValid : validScope scope = true
  issuerStateValid : issuerState.all (validBoundedText · maxIssuerStateBytes true) = true
  authorizationEndpointPlain : hasChar '?' authorizationEndpoint = false

structure WalletClientAuthenticationRequest where
  requestId : CorrelationId
  purpose : EndpointPurpose
  clientId : String
  audience : String
  endpoint : String
deriving DecidableEq

structure WalletClientAuthentication where
  requestId : CorrelationId
  purpose : EndpointPurpose
  clientId : String
  audience : String
  endpoint : String
  attestation : String
  proofOfPossession : String
deriving DecidableEq

structure DpopSigningRequest where
  requestId : CorrelationId
  keyRef : String
  signingInput : Bytes
deriving DecidableEq

structure DpopSignature where
  requestId : CorrelationId
  signingInput : Bytes
  signature : Bytes
deriving DecidableEq

structure ParRequest where
  requestId : CorrelationId
  endpoint : String
  body : Bytes
  clientAttestation : String
  clientAttestationPop : String
deriving DecidableEq

structure AuthorizationRequest where
  url : String
  requestUriExpiresAt : ℤ
deriving DecidableEq

structure TokenRequest where
  requestId : CorrelationId
  endpoint : String
  body : Bytes
  clientAttestation : String
  clientAttestationPop : String
  dpopProof : String
deriving DecidableEq

inductive AuthorizationEffect where
  | acquireWalletClientAuthentication (request : WalletClientAuthenticationRequest)
  | signDpop (request : DpopSigningRequest)
  | sendPar (request : ParRequest)
  | openAuthorization (request : AuthorizationRequest)
  | sendToken (request : TokenRequest)
deriving DecidableEq

structure EndpointResponse where
  requestId : CorrelationId
  endpoint : String
  method : String
  status : ℕ
  contentType : String
  cacheControlHeaders : List String
  pragmaHeaders : List String
  dpopNonceHeaders : List String
  body : Bytes
deriving DecidableEq

structure AuthorizationRedirect where
  redirectUri : String
  query : Bytes
deriving DecidableEq

inductive AuthorizationInput where
  | walletClientAuthentication (authentication : WalletClientAuthentication)
  | dpopSignature (signature : DpopSignature)
  | parResponse (response : EndpointResponse)
  | authorizationRedirect (redirect : AuthorizationRedirect)
  | tokenResponse (response : EndpointResponse)
deriving DecidableEq

structure AccessTokenGrant where
  accessToken : String
  issuedAtEpochSeconds : ℤ
  expiresInSeconds : Option ℕ
  credentialIdentifiers : List String
  tokenEndpointDpopNonce : Option String
  authorizationServer : HttpsIdentifier
  tokenEndpoint : HttpsEndpoint
  credentialIssuer : HttpsIdentifier
  configurationId : String
  credentialEndpoint : HttpsEndpoint
  nonceEndpoint : HttpsEndpoint
  dpopKey : KeyBinding
deriving DecidableEq

/-- `Context`: the configuration, the secrets drawn at the beginning, and what changes. -/
structure Context where
  config : AuthorizationFlowConfig
  pkceVerifier : String
  pkceChallenge : String
  state : String
  dpopJkt : String
  tokenEndpointNonce : Option String
  retiredTokenEndpointNonces : List String
  usedClientAuthPopHashes : List Hash32
  usedRandomValues : List Hash32
  lastNowEpochSeconds : ℤ

inductive Stage where
  | awaitingClientAuthentication (purpose : EndpointPurpose) (requestId : CorrelationId)
      (authorizationCode : Option String) (nonceRetryCount : ℕ)
  | signingDpop (requestId : CorrelationId) (signingInput : Bytes) (clientAuth : WalletClientAuthentication)
      (authorizationCode : String) (nonceRetryCount : ℕ)
  | awaitingParResponse (requestId : CorrelationId)
  | awaitingAuthorization
  | awaitingTokenResponse (requestId : CorrelationId) (authorizationCode : String) (nonceRetryCount : ℕ)
  | complete (grant : AccessTokenGrant)
  | failed (error : AuthorizationError)
deriving DecidableEq

/-- `Stage::Complete` or `Stage::Failed`. -/
def Stage.terminal : Stage → Bool
  | complete _ => true
  | failed _ => true
  | _ => false

structure AuthorizationFlow where
  context : Context
  stage : Stage

/-- `AuthorizationEnvironment`: the clock, and the values the random source returns during the call. -/
structure AuthorizationEnvironment where
  random : ℕ → Hash32
  nowEpochSeconds : ℤ

/-- A method of the flow. -/
abbrev Action := Fallible Context AuthorizationError

/-! ### Checks on texts and headers -/

def thumbprint (p : Platform) (jwk : Es256PublicJwk) : String :=
  b64Encode (p.sha256 (utf8 ("\x7b\"crv\":\"P-256\",\"kty\":\"EC\",\"x\":\"" ++ jwk.x ++ "\",\"y\":\"" ++
    jwk.y ++ "\"\x7d"))).1

def validTokenValue (value : String) : Bool := !value.isEmpty && (utf8 value).all isNqchar

def validOauthErrorCode (value : String) : Bool :=
  !value.isEmpty && value.utf8ByteSize ≤ 128 &&
    (utf8 value).all fun b => b == 0x20 || b == 0x21 || (0x23 ≤ b && b ≤ 0x5b) || (0x5d ≤ b && b ≤ 0x7e)

def isUriCharacter (b : UInt8) : Bool := isUnreserved b || (utf8 ":/?@!$&'()*+,;=").contains b

def uriCharacters : Bytes → Bool
  | [] => true
  | 37 :: high :: low :: rest => (fromHex high).isSome && (fromHex low).isSome && uriCharacters rest
  | b :: rest => b != 37 && isUriCharacter b && uriCharacters rest

def validUriReference (value : String) : Bool :=
  validBoundedText value maxRequestUriBytes false && isAscii value && !hasChar '#' value &&
    !hasChar ' ' value && !hasChar '\\' value &&
    match splitOnce ':' value with
    | none => false
    | some (scheme, remainder) =>
      !remainder.isEmpty && (utf8 scheme).head?.any isAsciiAlphabetic &&
        (utf8 scheme).all (fun b => isAsciiAlphanumeric b || b == 43 || b == 45 || b == 46) &&
        uriCharacters (utf8 remainder)

/-- One part of a compact token, as `validate_compact_jwt` reads it. -/
def validSegment (max : ℕ) (segment : String) : Bool :=
  !segment.isEmpty && isBase64urlUnpadded (utf8 segment) && segment.utf8ByteSize ≤ max &&
    (b64Decode segment).any fun decoded => !decoded.isEmpty && b64Encode decoded == segment

def validateCompactJwt (value : String) (max : ℕ) : Except AuthorizationError Unit :=
  if value.isEmpty || max < value.utf8ByteSize then .error .clientAuthenticationInvalid
  else if (splitStr '.' value).length = 3 ∧ (splitStr '.' value).all (validSegment max) then .ok ()
  else .error .clientAuthenticationInvalid

def validJsonContentType (value : String) : Bool :=
  !value.isEmpty && value.utf8ByteSize ≤ 128 && isAscii value && !value.toList.any isControl &&
    isJsonMediaType value

def validateJsonTransport (response : EndpointResponse) : Except AuthorizationError Unit :=
  if validJsonContentType response.contentType then .ok () else .error .invalidMediaType

def validateTransportBinding (expected : CorrelationId) (endpoint method : String) (response : EndpointResponse) :
    Except AuthorizationError Unit :=
  if expected = response.requestId ∧ response.endpoint = endpoint ∧ response.method = method then .ok ()
  else .error .transportBindingMismatch

def validateRawHeaderValues (values : List String) : Except AuthorizationError Unit :=
  if values.isEmpty || 8 < values.length || values.any (!headerText 1024 ·) then .error .cachePolicyMissing
  else .ok ()

/-- `cache_control_has`, and `pragma_has_no_cache` for the directive `no-cache`. -/
def headerHas (values : List String) (required : String) : Except AuthorizationError Bool := do
  validateRawHeaderValues values
  return (directives values).any (eqIgnoreAsciiCase · required)

def parseSingleDpopNonce : List String → Except AuthorizationError (Option String)
  | [] => .ok none
  | [value] =>
    if !value.isEmpty && value.utf8ByteSize ≤ maxDpopNonceBytes && (utf8 value).all isNqchar then
      .ok (some value)
    else .error .dpopNonceInvalid
  | _ => .error .dpopNonceInvalid

def validateClock (now : ℤ) : Except AuthorizationError Unit :=
  if now ≤ 0 then .error .invalidClock else .ok ()

/-! ### Answers -/

def takeRequiredString (object : List (String × Json)) (field : String) (max : ℕ) :
    Except AuthorizationError String :=
  match object.lookup field with
  | some (.str value) => if validBoundedText value max false then .ok value else .error .invalidTokenResponse
  | _ => .error .invalidTokenResponse

structure ParResponse where
  requestUri : String
  expiresIn : ℕ
deriving DecidableEq

def parseParResponse (p : Platform) (input : Bytes) : Except AuthorizationError ParResponse := do
  let object ← (parseObject p input parJsonLimits).mapError fun _ => .invalidParResponse
  if Json.hasKey object "error" then throw .invalidParResponse
  let requestUri ← (takeRequiredString object "request_uri" maxRequestUriBytes).mapError
    fun _ => .invalidParResponse
  if !validUriReference requestUri then throw .invalidParResponse
  let expiresIn ← orErr .invalidParResponse (((object.lookup "expires_in").bind Json.asU64).filter
    fun value => 1 ≤ value && value ≤ maxParExpiresInSeconds)
  return ⟨requestUri, expiresIn⟩

/-- `AuthorizationCallback`; without a code the server has answered with an error. -/
structure AuthorizationCallback where
  state : String
  issuer : String
  code : Option String
deriving DecidableEq

def parseAuthorizationCallback (input : Bytes) : Except AuthorizationError AuthorizationCallback := do
  let fields ← parseForm input maxCallbackQueryBytes 16 (8 * 1024)
  let state ← orErr .invalidAuthorizationCallback ((fields.lookup "state").filter fun value =>
    value.utf8ByteSize == stateChars && isBase64urlUnpadded (utf8 value))
  let issuer ← orErr .invalidAuthorizationCallback ((fields.lookup "iss").filter (validBoundedText · 2048 false))
  match fields.lookup "code", fields.lookup "error" with
  | some code, none =>
    if !(validBoundedText code maxAuthorizationCodeBytes false && (utf8 code).all isNqchar) then
      throw .invalidAuthorizationCallback
    if (fields.lookup "error_description").isSome || (fields.lookup "error_uri").isSome then
      throw .invalidAuthorizationCallback
    return ⟨state, issuer, some code⟩
  | none, some error =>
    if !validOauthErrorCode error then throw .invalidAuthorizationCallback
    return ⟨state, issuer, none⟩
  | _, _ => throw .invalidAuthorizationCallback

inductive OAuthError where
  | useDpopNonce
  | other
deriving DecidableEq

def parseOauthError (p : Platform) (input : Bytes) (limits : JsonLimits) : Except JsonBoundaryError OAuthError := do
  let object ← parseObject p input limits
  let error ← orErr .invalidJson (((object.lookup "error").bind Json.asStr).filter validOauthErrorCode)
  if Json.hasKey object "access_token" || Json.hasKey object "request_uri" then throw .invalidJson
  return if error = "use_dpop_nonce" then .useDpopNonce else .other

def parseIdentifiers : List String → List Json → Except AuthorizationError (List String)
  | parsed, [] => .ok parsed
  | parsed, identifier :: rest =>
    match identifier.asStr.filter (validBoundedText · maxCredentialIdentifierBytes false) with
    | none => .error .invalidTokenResponse
    | some identifier =>
      if identifier ∈ parsed then .error .invalidTokenResponse
      else parseIdentifiers (parsed ++ [identifier]) rest

def parseDetail (configurationId credentialIssuer : String) (result : Option (List String)) (detail : Json) :
    Except AuthorizationError (Option (List String)) := do
  let detail ← orErr .invalidTokenResponse detail.asObject
  let detailType ← orErr .invalidTokenResponse (((detail.lookup "type").bind Json.asStr).filter
    (validBoundedText · 128 false))
  if detailType ≠ "openid_credential" then return result
  if result.isSome ∨ (detail.lookup "credential_configuration_id").bind Json.asStr ≠ some configurationId then
    throw .invalidTokenResponse
  if (detail.lookup "locations").any fun locations =>
      !(locations.asArray.any fun values =>
        values.length == 1 && values.head?.bind Json.asStr == some credentialIssuer) then
    throw .invalidTokenResponse
  let identifiers ← orErr .invalidTokenResponse (((detail.lookup "credential_identifiers").bind
    Json.asArray).filter fun values => !values.isEmpty && values.length ≤ maxCredentialIdentifiers)
  return some (← parseIdentifiers [] identifiers)

def parseCredentialIdentifiers (details : Option Json) (configurationId credentialIssuer : String) :
    Except AuthorizationError (List String) :=
  match details with
  | none => .ok []
  | some (.arr details) => do
    if details.isEmpty || maxCredentialIdentifiers < details.length then throw .invalidTokenResponse
    orErr .invalidTokenResponse (← details.foldlM (parseDetail configurationId credentialIssuer) none)
  | some _ => .error .invalidTokenResponse

structure ParsedAccessTokenGrant where
  accessToken : String
  expiresInSeconds : Option ℕ
  credentialIdentifiers : List String
deriving DecidableEq

def parseExpiresIn : Option Json → Except AuthorizationError (Option ℕ)
  | none => .ok none
  | some value =>
    match value.asU64.filter fun seconds => 0 < seconds && seconds < 2 ^ 32 with
    | some seconds => .ok (some seconds)
    | none => .error .invalidTokenResponse

def parseAccessTokenResponse (p : Platform) (input : Bytes) (scope configurationId credentialIssuer : String) :
    Except AuthorizationError ParsedAccessTokenGrant := do
  let object ← (parseObject p input tokenJsonLimits).mapError fun _ => .invalidTokenResponse
  if Json.hasKey object "error" then throw .invalidTokenResponse
  let accessToken ← takeRequiredString object "access_token" maxAccessTokenBytes
  if !validTokenValue accessToken then throw .invalidTokenResponse
  let tokenType ← takeRequiredString object "token_type" 16
  if tokenType ≠ "DPoP" then throw .tokenTypeDowngrade
  let expiresInSeconds ← parseExpiresIn (object.lookup "expires_in")
  if Json.hasKey object "refresh_token" then throw .invalidTokenResponse
  if (object.lookup "scope").any (· ≠ .str scope) then throw .invalidTokenResponse
  let credentialIdentifiers ← parseCredentialIdentifiers (object.lookup "authorization_details")
    configurationId credentialIssuer
  return ⟨accessToken, expiresInSeconds, credentialIdentifiers⟩

/-! ### The requests of the flow -/

def drawRandom (value : Hash32) : Action Hash32 := do
  match freshRandom (← get).usedRandomValues value with
  | none => throw .randomnessFailure
  | some used => do
    modify fun c => { c with usedRandomValues := used }
    return value

def Context.endpoint (c : Context) : EndpointPurpose → HttpsEndpoint
  | .par => c.config.parEndpoint
  | .token => c.config.tokenEndpoint

def clientAuthStage (purpose : EndpointPurpose) (authorizationCode : Option String) (nonceRetryCount : ℕ)
    (random : Hash32) : Action (Stage × AuthorizationEffect) := do
  let requestId ← drawRandom random
  let c ← get
  return (.awaitingClientAuthentication purpose requestId authorizationCode nonceRetryCount,
    .acquireWalletClientAuthentication
      { requestId, purpose, clientId := c.config.clientId, audience := c.config.authorizationServer,
        endpoint := c.endpoint purpose })

def Context.parFields (c : Context) : List (String × String) :=
  [("response_type", "code"), ("client_id", c.config.clientId), ("redirect_uri", c.config.redirectUri),
    ("scope", c.config.scope), ("resource", c.config.credentialIssuer), ("state", c.state),
    ("code_challenge", c.pkceChallenge), ("code_challenge_method", "S256"), ("dpop_jkt", c.dpopJkt)] ++
    c.config.issuerState.toList.map fun issuerState => ("issuer_state", issuerState)

def buildParRequest (c : Context) (requestId : CorrelationId) (clientAuth : WalletClientAuthentication) :
    Except AuthorizationError ParRequest := do
  let body ← encodeForm c.parFields
  return { requestId, endpoint := c.config.parEndpoint, body, clientAttestation := clientAuth.attestation,
           clientAttestationPop := clientAuth.proofOfPossession }

def Context.dpopClaims (c : Context) (jti : String) (iat : ℤ) (nonce : Option String) : Json :=
  .obj ([("htm", .str "POST"), ("htu", .str (dpopHtu c.config.tokenEndpoint)),
    ("iat", jsonInt iat), ("jti", .str jti)] ++
    nonce.toList.map fun nonce => ("nonce", .str nonce))

def dpopHeader (jwk : Es256PublicJwk) : String :=
  "\x7b\"alg\":\"ES256\",\"jwk\":\x7b\"crv\":\"P-256\",\"kty\":\"EC\",\"x\":\"" ++ jwk.x ++ "\",\"y\":\"" ++
    jwk.y ++ "\"\x7d,\"typ\":\"dpop+jwt\"\x7d"

def buildDpopSigningInput (p : Platform) (c : Context) (jti : String) (iat : ℤ) (nonce : Option String) :
    Except AuthorizationError Bytes :=
  let signingInput := b64Encode (utf8 (dpopHeader c.config.dpopKey.publicJwk)) ++ "." ++
    b64Encode (utf8 (p.renderJson (c.dpopClaims jti iat nonce)))
  if maxDpopSigningInputBytes < signingInput.utf8ByteSize then .error .invalidConfiguration
  else .ok (utf8 signingInput)

def Context.tokenFields (c : Context) (authorizationCode : String) : List (String × String) :=
  [("grant_type", "authorization_code"), ("code", authorizationCode), ("redirect_uri", c.config.redirectUri),
    ("code_verifier", c.pkceVerifier)]

def buildTokenRequest (c : Context) (requestId : CorrelationId) (authorizationCode : String)
    (clientAuth : WalletClientAuthentication) (dpopProof : String) : Except AuthorizationError TokenRequest := do
  let body ← encodeForm (c.tokenFields authorizationCode)
  return { requestId, endpoint := c.config.tokenEndpoint, body, clientAttestation := clientAuth.attestation,
           clientAttestationPop := clientAuth.proofOfPossession, dpopProof }

def buildAuthorizationUrl (endpoint clientId requestUri : String) : String :=
  endpoint ++ (if hasChar '?' endpoint then "&" else "?") ++ "client_id=" ++ percentEncode clientId ++
    "&request_uri=" ++ percentEncode requestUri

def rotateTokenEndpointNonce (nonce : String) : Action Unit := do
  let c ← get
  failIf (nonce ∈ c.retiredTokenEndpointNonces) .dpopNonceStale
  failIf (c.tokenEndpointNonce = some nonce) .dpopNonceStale
  modify fun c => { c with
    tokenEndpointNonce := some nonce
    retiredTokenEndpointNonces := c.retiredTokenEndpointNonces ++ c.tokenEndpointNonce.toList }

def rotateIfPresent : Option String → Action Unit
  | some nonce => rotateTokenEndpointNonce nonce
  | none => pure ()

/-! ### The transitions -/

/-- The second half of `accept_client_authentication`, by purpose. -/
def authenticated (p : Platform) (purpose : EndpointPurpose) (authorizationCode : Option String)
    (nonceRetryCount : ℕ) (clientAuth : WalletClientAuthentication) (env : AuthorizationEnvironment) :
    Action (Stage × List AuthorizationEffect) :=
  match purpose with
  | .par => do
    failIf (authorizationCode.isSome ∨ nonceRetryCount ≠ 0) .unexpectedInput
    let requestId ← drawRandom (env.random 0)
    let c ← get
    let request ← lift (buildParRequest c requestId clientAuth)
    return (.awaitingParResponse requestId, [.sendPar request])
  | .token => do
    let authorizationCode ← lift (orErr .unexpectedInput authorizationCode)
    let requestId ← drawRandom (env.random 0)
    let jti ← drawRandom (env.random 1)
    let c ← get
    let signingInput ← lift
      (buildDpopSigningInput p c (b64Encode jti.1) env.nowEpochSeconds c.tokenEndpointNonce)
    return (.signingDpop requestId signingInput clientAuth authorizationCode nonceRetryCount,
      [.signDpop { requestId, keyRef := c.config.dpopKey.keyRef, signingInput }])

def acceptClientAuthentication (p : Platform) (purpose : EndpointPurpose) (requestId : CorrelationId)
    (authorizationCode : Option String) (nonceRetryCount : ℕ) (clientAuth : WalletClientAuthentication)
    (env : AuthorizationEnvironment) : Action (Stage × List AuthorizationEffect) := do
  failIf (requestId ≠ clientAuth.requestId) .correlationMismatch
  let c ← get
  failIf (clientAuth.purpose ≠ purpose ∨ clientAuth.clientId ≠ c.config.clientId ∨
    clientAuth.audience ≠ c.config.authorizationServer ∨ clientAuth.endpoint ≠ c.endpoint purpose)
    .clientAuthenticationBindingMismatch
  lift (validateCompactJwt clientAuth.attestation maxWalletAttestationBytes)
  lift (validateCompactJwt clientAuth.proofOfPossession maxWalletAttestationPopBytes)
  let popHash := p.sha256 (utf8 clientAuth.proofOfPossession)
  failIf (popHash ∈ c.usedClientAuthPopHashes) .clientAuthenticationReused
  modify fun c => { c with usedClientAuthPopHashes := c.usedClientAuthPopHashes ++ [popHash] }
  authenticated p purpose authorizationCode nonceRetryCount clientAuth env

def acceptDpopSignature (requestId : CorrelationId) (signingInput : Bytes) (clientAuth : WalletClientAuthentication)
    (authorizationCode : String) (nonceRetryCount : ℕ) (signature : DpopSignature) (random : Hash32) :
    Action (Stage × List AuthorizationEffect) := do
  failIf (requestId ≠ signature.requestId ∨ signingInput ≠ signature.signingInput) .dpopSigningResultMismatch
  failIf (signature.signature.length ≠ 64) .dpopSignatureInvalid
  let proof ← lift (orErr .dpopSignatureInvalid
    (fromUtf8 (signingInput ++ 46 :: utf8 (b64Encode signature.signature))))
  let requestId ← drawRandom random
  let c ← get
  let request ← lift (buildTokenRequest c requestId authorizationCode clientAuth proof)
  return (.awaitingTokenResponse requestId authorizationCode nonceRetryCount, [.sendToken request])

def acceptParResponse (p : Platform) (requestId : CorrelationId) (response : EndpointResponse) (now : ℤ) :
    Action (Stage × List AuthorizationEffect) := do
  let c ← get
  lift (validateTransportBinding requestId c.config.parEndpoint "POST" response)
  lift (validateJsonTransport response)
  let nonce ← lift (parseSingleDpopNonce response.dpopNonceHeaders)
  if response.status ≠ 201 then do
    let _ ← lift ((parseOauthError p response.body parJsonLimits).mapError fun _ => .invalidParResponse)
    throw .parRejected
  else do
    let noStore ← lift (headerHas response.cacheControlHeaders "no-store")
    failIf (noStore = false) .cachePolicyMissing
    let noCache ← lift (headerHas response.cacheControlHeaders "no-cache")
    failIf (noCache = false) .cachePolicyMissing
    let par ← lift (parseParResponse p response.body)
    rotateIfPresent nonce
    failIf (2 ^ 63 ≤ now + par.expiresIn) .invalidParResponse
    return (.awaitingAuthorization, [.openAuthorization
      { url := buildAuthorizationUrl c.config.authorizationEndpoint c.config.clientId par.requestUri
        requestUriExpiresAt := now + par.expiresIn }])

def acceptAuthorizationRedirect (redirect : AuthorizationRedirect) (random : Hash32) :
    Action (Stage × List AuthorizationEffect) := do
  let c ← get
  failIf (redirect.redirectUri ≠ c.config.redirectUri) .redirectMismatch
  let callback ← lift (parseAuthorizationCallback redirect.query)
  failIf (callback.state ≠ c.state) .stateMismatch
  failIf (callback.issuer ≠ c.config.authorizationServer) .authorizationIssuerMismatch
  let authorizationCode ← lift (orErr .authorizationDenied callback.code)
  let (stage, effect) ← clientAuthStage .token (some authorizationCode) 0 random
  return (stage, [effect])

def acceptTokenResponse (p : Platform) (requestId : CorrelationId) (authorizationCode : String)
    (nonceRetryCount : ℕ) (response : EndpointResponse) (env : AuthorizationEnvironment) :
    Action (Stage × List AuthorizationEffect) := do
  let c ← get
  lift (validateTransportBinding requestId c.config.tokenEndpoint "POST" response)
  lift (validateJsonTransport response)
  let nonce ← lift (parseSingleDpopNonce response.dpopNonceHeaders)
  if response.status = 400 then do
    let error ← lift ((parseOauthError p response.body tokenJsonLimits).mapError fun _ => .invalidTokenResponse)
    failIf (error ≠ .useDpopNonce) .tokenRejected
    let nonce ← lift (orErr .dpopNonceInvalid nonce)
    failIf (maxDpopNonceRetries ≤ nonceRetryCount) .dpopNonceRetryLimit
    rotateTokenEndpointNonce nonce
    let (stage, effect) ← clientAuthStage .token (some authorizationCode) (nonceRetryCount + 1) (env.random 0)
    return (stage, [effect])
  else do
    failIf (response.status ≠ 200) .tokenRejected
    let noStore ← lift (headerHas response.cacheControlHeaders "no-store")
    failIf (noStore = false) .cachePolicyMissing
    let noCache ← lift (headerHas response.pragmaHeaders "no-cache")
    failIf (noCache = false) .cachePolicyMissing
    rotateIfPresent nonce
    let parsed ← lift (parseAccessTokenResponse p response.body c.config.scope c.config.configurationId
      c.config.credentialIssuer)
    let c ← get
    return (.complete
      { accessToken := parsed.accessToken
        issuedAtEpochSeconds := env.nowEpochSeconds
        expiresInSeconds := parsed.expiresInSeconds
        credentialIdentifiers := parsed.credentialIdentifiers
        tokenEndpointDpopNonce := c.tokenEndpointNonce
        authorizationServer := c.config.authorizationServer
        tokenEndpoint := c.config.tokenEndpoint
        credentialIssuer := c.config.credentialIssuer
        configurationId := c.config.configurationId
        credentialEndpoint := c.config.credentialEndpoint
        nonceEndpoint := c.config.nonceEndpoint
        dpopKey := c.config.dpopKey }, [])

def transition (p : Platform) (stage : Stage) (input : AuthorizationInput) (env : AuthorizationEnvironment) :
    Action (Stage × List AuthorizationEffect) :=
  match stage, input with
  | .awaitingClientAuthentication purpose requestId code retries, .walletClientAuthentication clientAuth =>
    acceptClientAuthentication p purpose requestId code retries clientAuth env
  | .signingDpop requestId signingInput clientAuth code retries, .dpopSignature signature =>
    acceptDpopSignature requestId signingInput clientAuth code retries signature (env.random 0)
  | .awaitingParResponse requestId, .parResponse response =>
    acceptParResponse p requestId response env.nowEpochSeconds
  | .awaitingAuthorization, .authorizationRedirect redirect =>
    acceptAuthorizationRedirect redirect (env.random 0)
  | .awaitingTokenResponse requestId code retries, .tokenResponse response =>
    acceptTokenResponse p requestId code retries response env
  | _, _ => throw .unexpectedInput

/-! ### The flow -/

/-- The result of a call of the flow. -/
abbrev Reply := Except AuthorizationError (List AuthorizationEffect)

/-- `AuthorizationFlow::step`: the clock is looked at before the stage. -/
def step (p : Platform) (flow : AuthorizationFlow) (input : AuthorizationInput) (env : AuthorizationEnvironment) :
    AuthorizationFlow × Reply :=
  if env.nowEpochSeconds ≤ 0 ∨ env.nowEpochSeconds < flow.context.lastNowEpochSeconds then
    ({ flow with stage := .failed .invalidClock }, .error .invalidClock)
  else
    let context := { flow.context with lastNowEpochSeconds := env.nowEpochSeconds }
    if flow.stage.terminal then (⟨context, flow.stage⟩, .error .alreadyTerminal)
    else match outcome (transition p flow.stage input env) context with
      | (.ok (stage, effects), context) => (⟨context, stage⟩, .ok effects)
      | (.error e, context) => (⟨context, .failed e⟩, .error e)

/-- One call of a run: its input and its environment, and the flow around it. -/
abbrev Exchange := Call AuthorizationFlow (AuthorizationInput × AuthorizationEnvironment) Reply

/-- A call as a step of a run, whose only output is what it returns. -/
def respond (p : Platform) (flow : AuthorizationFlow) (call : AuthorizationInput × AuthorizationEnvironment) :
    AuthorizationFlow × List Reply :=
  ((step p flow call.1 call.2).1, [(step p flow call.1 call.2).2])

/-- The calls of a run from a flow. -/
def exchanges (p : Platform) (flow : AuthorizationFlow)
    (inputs : List (AuthorizationInput × AuthorizationEnvironment)) : List Exchange :=
  calls (respond p) flow inputs

/-- The flow at the end of a run. -/
def flowAfter (p : Platform) (flow : AuthorizationFlow)
    (inputs : List (AuthorizationInput × AuthorizationEnvironment)) : AuthorizationFlow :=
  (collect (respond p) flow inputs).1

/-- The context `begin` builds from the two random values it draws first. -/
def Context.initial (p : Platform) (config : AuthorizationFlowConfig) (verifier state : Hash32)
    (used : List Hash32) (now : ℤ) : Context :=
  { config
    pkceVerifier := b64Encode verifier.1
    pkceChallenge := b64Encode (p.sha256 (utf8 (b64Encode verifier.1))).1
    state := b64Encode state.1
    dpopJkt := thumbprint p config.dpopKey.publicJwk
    tokenEndpointNonce := none
    retiredTokenEndpointNonces := []
    usedClientAuthPopHashes := []
    usedRandomValues := used
    lastNowEpochSeconds := now }

/-- `AuthorizationFlow::begin`. The texts of 32 bytes have the lengths it checks. -/
def begin (p : Platform) (config : AuthorizationFlowConfig) (env : AuthorizationEnvironment) :
    Except AuthorizationError (AuthorizationFlow × AuthorizationEffect) := do
  validateClock env.nowEpochSeconds
  let used ← orErr .randomnessFailure (freshRandom [] (env.random 0))
  let used ← orErr .randomnessFailure (freshRandom used (env.random 1))
  if (b64Encode (env.random 0).1).utf8ByteSize ≠ pkceVerifierChars ∨
      (b64Encode (env.random 1).1).utf8ByteSize ≠ stateChars then
    throw .randomnessFailure
  match outcome (clientAuthStage .par none 0 (env.random 2))
    (.initial p config (env.random 0) (env.random 1) used env.nowEpochSeconds) with
  | (.ok (stage, effect), context) => return (⟨context, stage⟩, effect)
  | (.error e, _) => throw e

end EuWallet.Vci.Authorization
