import EuWallet.Formats.Mdoc
import EuWallet.Protocol.Dcql

/-! # Remote presentation

The OpenID4VP machine: a pure step function over the states of one exchange. A request is parsed,
every guard is run once the relying party is resolved, and after consent the device signs one
sub-presentation after another until the response body is assembled. -/

namespace EuWallet.Protocol.Oid4vp

open Codec Crypto Formats Lib

def maxNonceBytes : ℕ := 256
def maxRequestObjectBytes : ℕ := 256 * 1024
def maxLegacyClaims : ℕ := 64
def maxLegacyClaimBytes : ℕ := 256

inductive SelectedCredential where
  | sdJwt (issuerJwt : String) (disclosures : List String) (dcqlId : Option String)
  | mdoc (doctype : String) (issuerSigned : IssuerSigned) (sessionTranscript deviceNamespaces : Bytes)
      (mdocGeneratedNonce : String) (dcqlId : Option String)
deriving DecidableEq

inductive SubPresentation where
  | sdJwt (presentation kbSigningInput : String) (dcqlId : Option String)
  | mdoc (doctype : String) (issuerSigned : IssuerSigned) (deviceNamespaces protectedHeader : Bytes)
      (signingInput : Bytes) (mdocGeneratedNonce : String) (dcqlId : Option String)
deriving DecidableEq

def SubPresentation.signingInput : SubPresentation → Bytes
  | sdJwt _ kb _ => utf8 kb
  | mdoc _ _ _ _ input _ _ => input

structure CompletedPresentation where
  dcqlId : Option String
  vpToken : String
  mdocGeneratedNonce : Option String
deriving DecidableEq

structure PendingPresentation where
  queue : List SubPresentation
  done : List CompletedPresentation
  state : Option String
deriving DecidableEq

inductive AbortReason where
  | requestNotSignedOrBound
  | relyingPartyNotRegistered
  | clientIdBindingInvalid
  | nonceReplayed
  | purposeUndeclared
  | audienceMismatch
  | redirectUriNotRegistered
  | responseModeUnsupported
  | responseUriInvalid
  | responseUriNotRegistered
  | responseEncryptionMetadataInvalid
  | responseEncryptionFailed
  | clockRollback
  | credentialExpired
  | credentialNotYetValid
  | credentialProvenanceInvalid
  | presentationTrustInvalid
  | credentialStatusInvalid
  | credentialStatusUnavailable
  | malformedRequest
  | userDeclined
  | noCredential
deriving DecidableEq

structure AuthRequest where
  clientId : String
  nonce : String
  audience : String
  responseUri : String
  redirectUri : Option String
  purpose : Option String
  requestedClaims : List String
  state : Option String
  responseMode : String
  dcql : Option DcqlQuery
  responseEncryptionKey : Option Bytes
  signedPayload : Bytes
  signature : Bytes
  requestAlg : Alg
deriving DecidableEq

inductive State where
  | idle
  | resolvingTrust (req : AuthRequest)
  | requestValidated (req : AuthRequest)
  | awaitingDeviceSignature (pending : PendingPresentation)
  | presenting
  | done
  | aborted (reason : AbortReason)
deriving DecidableEq

structure ResolvedTrust where
  registered : Bool
  rpPublicKey : Bytes
  registeredRedirectUris : List String
  leafDnsSans : List String
deriving DecidableEq

inductive Input where
  | authorizationRequest (request : Bytes)
  | rpTrustResolved (trust : ResolvedTrust)
  | consentGranted
  | consentDeclined
  | deviceSignatureProduced (signature : Bytes)
  | presentationDelivered
deriving DecidableEq

inductive Output where
  | resolveRpTrust (clientId : String)
  | persistNonce (nonce : String)
  | renderConsent (rpClientId purpose : String)
  | signKeyBinding (keyRef : String) (signingInput : Bytes)
  | sendVpToken (body : Bytes)
  | close
deriving DecidableEq

/-- `Env`: the resolved facts the machine reads. -/
structure Env where
  walletClientId : String
  seenNonces : List String
  nowEpoch : ℤ
  selectedCredentials : List SelectedCredential
  deviceKeyRef : String
deriving DecidableEq

/-! ### Guards -/

namespace Guards

def requestObjectIsSignedAndBound (p : Platform) (req : AuthRequest) (trust : ResolvedTrust) : Bool :=
  !req.signature.isEmpty && p.verify req.requestAlg trust.rpPublicKey req.signedPayload req.signature

def clientIdBindsToLeaf (req : AuthRequest) (trust : ResolvedTrust) : Bool :=
  match splitOnce ':' req.clientId with
  | some (scheme, host) =>
    if scheme = "x509_san_dns" then
      !host.isEmpty && trust.leafDnsSans.any fun san => toAsciiLower san == toAsciiLower host
    else true
  | none => true

def redirectUriIsRegistered (req : AuthRequest) (trust : ResolvedTrust) : Bool :=
  req.redirectUri.all trust.registeredRedirectUris.contains

def responseModeIsSupported (req : AuthRequest) : Bool :=
  req.responseMode == "direct_post" || req.responseMode == "direct_post.jwt"

def responseUriIsRegistered (req : AuthRequest) (trust : ResolvedTrust) : Bool :=
  trust.registeredRedirectUris.contains req.responseUri

def responseEncryptionMetadataIsValid (req : AuthRequest) : Bool :=
  if req.responseMode = "direct_post" then true
  else if req.responseMode = "direct_post.jwt" then
    req.responseEncryptionKey.any fun key => key.length == 65 && key.head? == some 4
  else false

def validHost (host : String) : Bool :=
  !host.isEmpty && host.utf8ByteSize ≤ 253 && (splitStr '.' host).all fun label =>
    !label.isEmpty && label.utf8ByteSize ≤ 63 && !startsWith "-" label && !endsWith "-" label &&
      (utf8 label).all fun b => isAsciiAlphanumeric b || b == 45

def validPort (port : String) : Bool :=
  !port.isEmpty && (utf8 port).all isAsciiDigit && (parseU16 port).any (· ≠ 0)

def validOptionalPort (suffix : String) : Bool :=
  suffix.isEmpty || (stripStart ":" suffix).any validPort

def splitScheme (s : String) : Option (String × String) :=
  let rec go (before : List Char) : List Char → Option (String × String)
    | ':' :: '/' :: '/' :: rest => some (String.ofList before.reverse, String.ofList rest)
    | c :: rest => go (c :: before) rest
    | [] => none
  go [] s.toList

/-- The authority part of an HTTPS URI: a bracketed IPv6 address or a host, and an optional port. -/
def validAuthority (p : Platform) (authority : String) : Bool :=
  match stripStart "[" authority with
  | some ipv6 =>
    if hasChar ']' ipv6 then
      let host := String.ofList (ipv6.toList.takeWhile (· ≠ ']'))
      let suffix := String.ofList ((ipv6.toList.dropWhile (· ≠ ']')).drop 1)
      !host.isEmpty && p.isIpv6 host && validOptionalPort suffix
    else false
  | none =>
    if authority.toList.count ':' > 1 then false
    else match rsplitOnce ':' authority with
      | some (host, port) => validHost host && validPort port
      | none => validHost authority

def isValidHttpsUri (p : Platform) (uri : String) : Bool :=
  if uri.isEmpty || (utf8 uri).any (fun b => isAsciiControl b || isAsciiWhitespace b) ||
      hasChar '\\' uri || hasChar '#' uri then false
  else match splitScheme uri with
    | none => false
    | some (scheme, remainder) =>
      let authority := String.ofList (remainder.toList.takeWhile fun c => c ≠ '/' ∧ c ≠ '?')
      toAsciiLower scheme == "https" && !remainder.isEmpty && !authority.isEmpty &&
        !hasChar '@' authority && validAuthority p authority

def responseUriIsHttps (p : Platform) (req : AuthRequest) : Bool := isValidHttpsUri p req.responseUri

end Guards

def firstFailedGuard (p : Platform) (env : Env) (req : AuthRequest) (trust : ResolvedTrust) : Option AbortReason :=
  if !trust.registered then some .relyingPartyNotRegistered
  else if !Guards.responseModeIsSupported req then some .responseModeUnsupported
  else if !Guards.responseUriIsHttps p req then some .responseUriInvalid
  else if !Guards.responseUriIsRegistered req trust then some .responseUriNotRegistered
  else if !Guards.responseEncryptionMetadataIsValid req then some .responseEncryptionMetadataInvalid
  else if !Guards.redirectUriIsRegistered req trust then some .redirectUriNotRegistered
  else if req.audience ≠ env.walletClientId then some .audienceMismatch
  else if env.seenNonces.contains req.nonce then some .nonceReplayed
  else if !Guards.requestObjectIsSignedAndBound p req trust then some .requestNotSignedOrBound
  else if !Guards.clientIdBindsToLeaf req trust then some .clientIdBindingInvalid
  else none

/-! ### Building presentations -/

def buildPresentation (issuerJwt : String) (disclosures : List String) : String :=
  disclosures.foldl (fun s d => s ++ "~" ++ d) issuerJwt ++ "~"

def kbJwtSigningInput (p : Platform) (nonce aud : String) (iat : ℤ) (sdHash : String) : String :=
  let iatJson : Number := if iat < 0 then .negInt iat else .posInt iat.toNat
  b64Encode (utf8 "\x7b\"alg\":\"ES256\",\"typ\":\"kb+jwt\"\x7d") ++ "." ++
    b64Encode (utf8 (p.renderJson (.obj [("aud", .str aud), ("iat", .num iatJson),
      ("nonce", .str nonce), ("sd_hash", .str sdHash)])))

def subPresentation (p : Platform) (env : Env) (req : AuthRequest) : SelectedCredential → Option SubPresentation
  | .sdJwt issuerJwt disclosures dcqlId =>
    let presentation := buildPresentation issuerJwt disclosures
    let sdHash := b64Encode (p.sha256 (utf8 presentation)).1
    some (.sdJwt presentation (kbJwtSigningInput p req.nonce req.clientId env.nowEpoch sdHash) dcqlId)
  | .mdoc doctype issuerSigned transcript deviceNamespaces mdocGeneratedNonce dcqlId =>
    match deviceAuthenticationBytes transcript doctype deviceNamespaces with
    | .error _ => none
    | .ok deviceAuth =>
      let header := encodeProtectedHeader .es256
      some (.mdoc doctype issuerSigned deviceNamespaces header (sigStructure header [] deviceAuth)
        mdocGeneratedNonce dcqlId)

def complete (signature : Bytes) : SubPresentation → CompletedPresentation
  | .sdJwt presentation kb dcqlId =>
    ⟨dcqlId, presentation ++ (kb ++ "." ++ b64Encode signature), none⟩
  | .mdoc doctype issuerSigned deviceNamespaces header _ mdocGeneratedNonce dcqlId =>
    let deviceAuth : CoseSign1 := ⟨header, {}, none, signature⟩
    ⟨dcqlId, b64Encode (deviceResponse doctype issuerSigned deviceNamespaces deviceAuth),
      some mdocGeneratedNonce⟩

def upperHexDigit (n : ℕ) : Char := if n < 10 then Char.ofNat (48 + n) else Char.ofNat (55 + n)

def formUrlencode (s : String) : String :=
  String.ofList ((utf8 s).flatMap fun b =>
    if isAsciiAlphanumeric b || b == 45 || b == 95 || b == 46 || b == 126 then [Char.ofNat b.toNat]
    else ['%', upperHexDigit (b.toNat / 16), upperHexDigit (b.toNat % 16)])

def addToken (m : List (String × List Json)) (c : CompletedPresentation) : List (String × List Json) :=
  let key := c.dcqlId.getD ""
  OrdMap.insert key (((m.lookup key).getD []) ++ [.str c.vpToken]) m

def vpTokenValue (p : Platform) (done : List CompletedPresentation) : String :=
  match done with
  | [⟨none, vpToken, _⟩] => vpToken
  | _ => p.renderJson (.obj ((done.foldl addToken []).map fun kv => (kv.1, .arr kv.2)))

def assembleDirectPostBody (p : Platform) (done : List CompletedPresentation) (state : Option String) : String :=
  "vp_token=" ++ formUrlencode (vpTokenValue p done)
    ++ (match state with
      | some s => "&state=" ++ formUrlencode s
      | none => "")
    ++ (match done.findSome? (·.mdocGeneratedNonce) with
      | some n => "&mdoc_generated_nonce=" ++ formUrlencode n
      | none => "")

/-! ### Parsing a request -/

def parseLegacyClaims : Option Json → Option (List String)
  | none => some []
  | some v => do
    let values ← v.asArray
    if maxLegacyClaims < values.length then none
    values.foldlM (fun claims v => do
      let claim ← v.asStr
      if claim.isEmpty || maxLegacyClaimBytes < claim.utf8ByteSize || claims.contains claim then none
      else some (claims ++ [claim])) []

/-- The point of a JSON web key if it is one the response may be encrypted to; `none` outside when a
key that qualifies has no readable coordinates. -/
def encKeyPoint (k : Json) : Option (Option Bytes) :=
  let alg := (k.get "alg").bind Json.asStr
  let use := (k.get "use").bind Json.asStr
  let isEnc := use == some "enc" || alg == some "ECDH-ES"
  let compatible := (use.isNone || use == some "enc") && (alg.isNone || alg == some "ECDH-ES")
  if !isEnc || !compatible || (k.get "kty").bind Json.asStr != some "EC" ||
      (k.get "crv").bind Json.asStr != some "P-256" then some none
  else do
    let x ← ((k.get "x").bind Json.asStr).bind b64Decode
    let y ← ((k.get "y").bind Json.asStr).bind b64Decode
    return if x.length = 32 ∧ y.length = 32 then some (4 :: (x ++ y)) else none

def firstEncKey : List Json → Option Bytes
  | [] => none
  | k :: rest => match encKeyPoint k with
    | none => none
    | some (some point) => some point
    | some none => firstEncKey rest

def parseEncJwk (md : Json) : Option Bytes :=
  if (md.get "authorization_encrypted_response_alg").bind Json.asStr ≠ some "ECDH-ES" ∨
      (md.get "authorization_encrypted_response_enc").bind Json.asStr ≠ some "A256GCM" then none
  else (((md.get "jwks").bind (·.get "keys")).bind Json.asArray).bind firstEncKey

/-- A nonce: not empty, bounded, of URL-safe characters. -/
def validNonce (nonce : String) : Bool :=
  !nonce.isEmpty && nonce.utf8ByteSize ≤ maxNonceBytes &&
    (utf8 nonce).all fun b => isAsciiAlphanumeric b || b == 45 || b == 46 || b == 95 || b == 126

def requestAlgorithm (header : Json) : Option Alg :=
  match (header.get "alg").bind Json.asStr with
  | some alg =>
    if alg = "ES256" then some .es256 else if alg = "ES384" then some .es384
    else if alg = "EdDSA" then some .edDsa else none
  | none => none

/-- The query of a request payload: absent, or well formed. -/
def readDcql (payload : Json) : Option (Option DcqlQuery) :=
  match payload.get "dcql_query" with
  | none => some none
  | some v => (DcqlQuery.fromValue v).map some

def parseRequest (p : Platform) (b : Bytes) : Option AuthRequest := do
  if maxRequestObjectBytes < b.length then none
  let (h, body, sig) ← compactParts (← fromUtf8 b)
  let requestAlg ← requestAlgorithm (← p.partJson h)
  let payload ← p.partJson body
  if (payload.get "transaction_data").isSome then none
  let clientId ← (payload.get "client_id").bind Json.asStr
  let nonce ← ((payload.get "nonce").bind Json.asStr).filter validNonce
  let audience ← (payload.get "aud").bind Json.asStr
  let text (name : String) : Option String := (payload.get name).bind Json.asStr
  let dcql ← readDcql payload
  let requestedClaims ← match dcql with
    | some q => some q.requestedClaimPaths
    | none => parseLegacyClaims (payload.get "claims")
  let signature ← b64Decode sig
  return {
    clientId, nonce, audience
    responseUri := (text "response_uri").getD ""
    redirectUri := text "redirect_uri"
    purpose := text "purpose"
    requestedClaims
    state := text "state"
    responseMode := (text "response_mode").getD ""
    dcql
    responseEncryptionKey := (payload.get "client_metadata").bind parseEncJwk
    signedPayload := utf8 (h ++ "." ++ body)
    signature, requestAlg }

/-! ### The machine -/

def stepConsent (p : Platform) (env : Env) (req : AuthRequest) : State × List Output :=
  match env.selectedCredentials.mapM (subPresentation p env req) with
  | some (first :: rest) =>
    (.awaitingDeviceSignature ⟨first :: rest, [], req.state⟩,
      [.signKeyBinding env.deviceKeyRef first.signingInput])
  | _ => (.aborted .noCredential, [])

def stepSignature (p : Platform) (env : Env) (pending : PendingPresentation) (signature : Bytes) :
    State × List Output :=
  match pending.queue with
  | [] => (.aborted .noCredential, [])
  | sub :: rest =>
    let done := pending.done ++ [complete signature sub]
    match rest with
    | next :: _ =>
      (.awaitingDeviceSignature ⟨rest, done, pending.state⟩,
        [.signKeyBinding env.deviceKeyRef next.signingInput])
    | [] => (.presenting, [.sendVpToken (utf8 (assembleDirectPostBody p done pending.state))])

def step (p : Platform) (env : Env) (state : State) (input : Input) : State × List Output :=
  match state, input with
  | .idle, .authorizationRequest b => match parseRequest p b with
    | some req => (.resolvingTrust req, [.resolveRpTrust req.clientId])
    | none => (.aborted .malformedRequest, [])
  | .resolvingTrust req, .rpTrustResolved trust => match firstFailedGuard p env req trust with
    | some reason => (.aborted reason, [])
    | none => (.requestValidated req,
        [.persistNonce req.nonce, .renderConsent req.clientId (req.purpose.getD "")])
  | .requestValidated req, .consentGranted => stepConsent p env req
  | .requestValidated _, .consentDeclined => (.aborted .userDeclined, [.close])
  | .awaitingDeviceSignature pending, .deviceSignatureProduced sig => stepSignature p env pending sig
  | .presenting, .presentationDelivered => (.done, [.close])
  | s, _ => (s, [])

end EuWallet.Protocol.Oid4vp
