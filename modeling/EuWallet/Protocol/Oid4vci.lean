import EuWallet.Formats.Mdoc
import EuWallet.Formats.SdJwt

/-! # Credential issuance

The OpenID4VCI machine with its two grants and two formats: offer, token, proof of possession over the
issuer's nonce, credential. Also the portrait profile of identity credentials. -/

namespace EuWallet.Protocol.Oid4vci

open Codec Codec.Cbor Crypto Formats

inductive HaipGrant where
  | preAuthorized (txCodeRequired : Bool)
  | authorizationCode
deriving DecidableEq

inductive CredentialFormat where
  | msoMdoc
  | dcSdJwt
deriving DecidableEq

inductive AbortReason where
  | unsupportedGrant
  | unsupportedFormat
  | issuerNotTrusted
  | pkceMissing
  | txCodeInvalid
  | tokenNotBound
  | cNonceStale
  | proofKeyNotAttested
  | credentialInvalid
  | userDeclined
deriving DecidableEq

inductive State where
  | idle
  | reviewingOffer (grant : HaipGrant) (format : CredentialFormat)
  | offerParsed (grant : HaipGrant) (format : CredentialFormat)
  | authorizing (format : CredentialFormat)
  | awaitingTxCode (format : CredentialFormat)
  | requestingToken (format : CredentialFormat)
  | provingPossession (format : CredentialFormat) (proofSigningInput : String)
  | requestingCredential (format : CredentialFormat)
  | credentialIssued (format : CredentialFormat) (credential : Bytes)
  | aborted (reason : AbortReason)
deriving DecidableEq

inductive Input where
  | credentialOffer (offer : Bytes)
  | acceptOffer
  | parPushed (pkceS256 : Bool)
  | authCodeReturned (code : Bytes)
  | txCodeEntered (code : Bytes)
  | tokenResponse (bound : Bool) (cNonce : ℕ)
  | proofSignatureProduced (signature : Bytes)
  | credentialResponse (format : CredentialFormat) (credential : Bytes) (issuerAuthenticated : Bool)
  | credentialResponseRejected
  | decline
deriving DecidableEq

inductive Output where
  | reviewOffer (format : CredentialFormat)
  | pushPar
  | openAuthBrowser
  | promptTxCode
  | requestToken
  | signProof (keyRef : String) (signingInput : Bytes)
  | requestCredential (proofJwt : Bytes)
  | close
deriving DecidableEq

structure Env where
  issuerTrusted : Bool
  proofKeyAttested : Bool
  seenCNonces : List ℕ
  deviceKeyRef : String
  devicePublicKey : Bytes
  issuerId : String
  nowEpoch : ℤ
deriving DecidableEq

namespace Guards

/-- There is no grant outside the two of the profile. -/
def grantTypeIsHaipAllowed (_ : HaipGrant) : Bool := true

def credentialFormatIsSupported : CredentialFormat → Bool
  | .msoMdoc | .dcSdJwt => true

def issuerIsTrusted (env : Env) : Bool := env.issuerTrusted

def pkceS256Present (pkceS256 : Bool) : Bool := pkceS256

def txCodeValid (code : Bytes) : Bool := !code.isEmpty

def accessTokenIsBound (bound : Bool) : Bool := bound

def cNonceIsFresh (cNonce : ℕ) (seen : List ℕ) : Bool := !seen.contains cNonce

def proofKeyIsAttested (env : Env) : Bool := env.proofKeyAttested

end Guards

def proofSigningInput (p : Platform) (issuerId : String) (cNonce : ℕ) (iat : ℤ) (key : Bytes) : String :=
  let (x, y) : Bytes × Bytes :=
    if key.length = 65 ∧ key.head? = some 4 then ((key.take 33).drop 1, key.drop 33) else ([], [])
  let header := Json.obj [("alg", .str "ES256"),
    ("jwk", .obj [("crv", .str "P-256"), ("kty", .str "EC"), ("x", .str (b64Encode x)),
      ("y", .str (b64Encode y))]),
    ("typ", .str "openid4vci-proof+jwt")]
  let iatJson : Number := if iat < 0 then .negInt iat else .posInt iat.toNat
  let payload := Json.obj [("aud", .str issuerId), ("iat", .num iatJson), ("nonce", .num (.posInt cNonce))]
  b64Encode (utf8 (p.renderJson header)) ++ "." ++ b64Encode (utf8 (p.renderJson payload))

def parseLiveOffer (v : Json) : Option (HaipGrant × CredentialFormat) := do
  let ids ← (v.get "credential_configuration_ids").bind Json.asArray
  if ids.map Json.asStr ≠ [some "dev.advatar.tlsn.evidence.sd-jwt"] ∨
      ((v.get "grants").bind (·.get "authorization_code")).isNone then none
  else some (.authorizationCode, .dcSdJwt)

def parseOffer (p : Platform) (b : Bytes) : Option (HaipGrant × CredentialFormat) := do
  let v ← p.parseJson b
  if (v.get "credential_issuer").isSome then parseLiveOffer v
  else
    let format ← (v.get "format").bind Json.asStr
    let format ← if format = "mso_mdoc" then some .msoMdoc
      else if format = "dc+sd-jwt" ∨ format = "vc+sd-jwt" then some .dcSdJwt else none
    let grant ← (v.get "grant").bind Json.asStr
    let grant ← if grant = "pre-authorized" ∨
        grant = "urn:ietf:params:oauth:grant-type:pre-authorized_code" then
        some (.preAuthorized (((v.get "tx_code_required").bind Json.asBool).getD false))
      else if grant = "authorization_code" then some .authorizationCode else none
    return (grant, format)

def validateIssuedCredential : CredentialFormat → Bytes → Bool
  | .dcSdJwt, b => (fromUtf8 b).any fun s => (SdJwtVc.parse s).toOption.isSome
  | .msoMdoc, b => !b.isEmpty

def stepAccept (grant : HaipGrant) (format : CredentialFormat) : State × List Output :=
  match grant with
  | .authorizationCode => (.offerParsed grant format, [.pushPar])
  | .preAuthorized true => (.awaitingTxCode format, [.promptTxCode])
  | .preAuthorized false => (.requestingToken format, [.requestToken])

def stepToken (p : Platform) (env : Env) (format : CredentialFormat) (bound : Bool) (cNonce : ℕ) :
    State × List Output :=
  if !Guards.accessTokenIsBound bound then (.aborted .tokenNotBound, [])
  else if !Guards.cNonceIsFresh cNonce env.seenCNonces then (.aborted .cNonceStale, [])
  else if !Guards.proofKeyIsAttested env then (.aborted .proofKeyNotAttested, [])
  else
    let input := proofSigningInput p env.issuerId cNonce env.nowEpoch env.devicePublicKey
    (.provingPossession format input, [.signProof env.deviceKeyRef (utf8 input)])

def stepCredential (format got : CredentialFormat) (credential : Bytes) (issuerAuthenticated : Bool) :
    State × List Output :=
  if got ≠ format ∨ !Guards.credentialFormatIsSupported got then (.aborted .unsupportedFormat, [.close])
  else if !issuerAuthenticated || !validateIssuedCredential got credential then
    (.aborted .credentialInvalid, [.close])
  else (.credentialIssued got credential, [.close])

def step (p : Platform) (env : Env) (state : State) (input : Input) : State × List Output :=
  match state, input with
  | .idle, .credentialOffer b => match parseOffer p b with
    | none => (.aborted .unsupportedGrant, [])
    | some (grant, format) =>
      if !Guards.issuerIsTrusted env then (.aborted .issuerNotTrusted, [])
      else if !Guards.grantTypeIsHaipAllowed grant then (.aborted .unsupportedGrant, [])
      else if !Guards.credentialFormatIsSupported format then (.aborted .unsupportedFormat, [])
      else (.reviewingOffer grant format, [.reviewOffer format])
  | .reviewingOffer grant format, .acceptOffer => stepAccept grant format
  | .offerParsed .authorizationCode format, .parPushed pkceS256 =>
    if !Guards.pkceS256Present pkceS256 then (.aborted .pkceMissing, []) else (.authorizing format, [.openAuthBrowser])
  | .authorizing format, .authCodeReturned _ => (.requestingToken format, [.requestToken])
  | .awaitingTxCode format, .txCodeEntered code =>
    if !Guards.txCodeValid code then (.aborted .txCodeInvalid, []) else (.requestingToken format, [.requestToken])
  | .requestingToken format, .tokenResponse bound cNonce => stepToken p env format bound cNonce
  | .provingPossession format input, .proofSignatureProduced sig =>
    (.requestingCredential format, [.requestCredential (utf8 (input ++ "." ++ b64Encode sig))])
  | .requestingCredential format, .credentialResponse got credential issuerAuthenticated =>
    stepCredential format got credential issuerAuthenticated
  | .requestingCredential _, .credentialResponseRejected => (.aborted .credentialInvalid, [.close])
  | _, .decline => (.aborted .userDeclined, [.close])
  | s, _ => (s, [])

/-! ### The portrait profile -/

def pidMdocDoctype : String := "eu.europa.ec.eudi.pid.1"
def pidMdocNamespace : String := "eu.europa.ec.eudi.pid.1"
def pidSdJwtVct : String := "urn:eudi:pid:1"
def maxPidPortraitBytes : ℕ := 2 * 1024 * 1024

inductive PidPortraitError where
  | missing
  | duplicate
  | wrongType
  | tooLarge
  | invalidDataUrl
  | invalidJpeg
deriving DecidableEq

def encodedLenLimit (bytes : ℕ) : ℕ := (bytes + 2) / 3 * 4

def validateJpeg (b : Bytes) : Except PidPortraitError Unit :=
  if maxPidPortraitBytes < b.length then .error .tooLarge
  else if b.length < 4 || !([0xff, 0xd8, 0xff].isPrefixOf b) || !([0xff, 0xd9].isSuffixOf b) then
    .error .invalidJpeg
  else .ok ()

def validateSdJwtPidPortrait (claims : List (String × Json)) : Except PidPortraitError Unit := do
  let picture ← orErr .missing (claims.lookup "picture")
  let picture ← orErr .wrongType picture.asStr
  if picture.isEmpty then return ()
  let encoded ← orErr .invalidDataUrl (stripStart "data:image/jpeg;base64," picture)
  if encoded.isEmpty || encodedLenLimit maxPidPortraitBytes < encoded.utf8ByteSize then throw .tooLarge
  validateJpeg (← orErr .invalidDataUrl (b64StdDecode encoded))

def validateMdocPidPortrait (c : IssuerSigned) : Except PidPortraitError Unit :=
  let items := (c.nameSpaces.filter (·.1 == pidMdocNamespace)).flatMap (·.2)
  match items.filter (·.elementId == "portrait") with
  | [] => .error .missing
  | [portrait] => match portrait.elementValue with
    | .bytes b => if b.isEmpty then .ok () else validateJpeg b
    | _ => .error .wrongType
  | _ => .error .duplicate

end EuWallet.Protocol.Oid4vci
