import EuWallet.X509.Path

/-! # Trusted lists

The signed trust list and its store. A list is a compact JWS of the list operator; the store accepts a
list only with a sequence number above the one it holds, and its anchors count only while the list is
within its validity window. -/

namespace EuWallet.Trust

open Codec Crypto X509

inductive ServiceType where
  | pidProvider
  | attestationProvider
  | relyingPartyAccessCa
  | statusProvider
deriving DecidableEq

def ServiceType.parse (s : String) : Option ServiceType :=
  if s = "pid" then some .pidProvider
  else if s = "attestation" then some .attestationProvider
  else if s = "rp-access-ca" then some .relyingPartyAccessCa
  else if s = "status" then some .statusProvider
  else none

inductive ServiceStatus where
  | granted
  | withdrawn
deriving DecidableEq

structure TrustAnchor where
  certificateDer : Bytes
  serviceType : ServiceType
  status : ServiceStatus
deriving DecidableEq

def maxRpRegistrations : ℕ := 1024
def maxRpTextBytes : ℕ := 256
def maxRpClaims : ℕ := 64
def maxRpRedirectUris : ℕ := 16
def maxIssuerRegistrations : ℕ := 1024

inductive TrustMark where
  | eudiWallet
deriving DecidableEq

inductive RetentionPolicy where
  | notStored
  | days (n : ℕ)
  | unspecified
deriving DecidableEq

structure RelyingPartyRegistration where
  clientId : String
  displayName : String
  trustMark : Option TrustMark
  retention : RetentionPolicy
  allowedClaims : List String
  redirectUris : List String
deriving DecidableEq

structure CredentialIssuerRegistration where
  issuerId : String
  displayName : String
deriving DecidableEq

structure TrustList where
  sequenceNumber : ℕ
  validFrom : ℤ
  validUntil : ℤ
  anchors : List TrustAnchor
  relyingParties : List RelyingPartyRegistration
  credentialIssuers : List CredentialIssuerRegistration
deriving DecidableEq

inductive TrustError where
  | badSignature
  | expired
  | rollback
  | malformed
  | unsupportedAlg
deriving DecidableEq

/-! ### Parsing -/

/-- The signature algorithms a list or an attestation header may name. -/
def knownJoseAlg (header : Json) : Bool :=
  match (header.get "alg").bind Json.asStr with
  | some alg => alg == "ES256" || alg == "ES384" || alg == "EdDSA"
  | none => false

/-- A text of a registration: not empty, at most `MAX_RP_TEXT_BYTES`, no control character. -/
def boundedText (s : String) : Bool :=
  !s.isEmpty && s.utf8ByteSize ≤ maxRpTextBytes && !s.toList.any isControl

/-- The closure `bounded_text` of the parser. -/
def textField (r : Json) (name : String) : Option String :=
  ((r.get name).bind Json.asStr).filter boundedText

/-- The closure `bounded_list` of the parser: bounded texts without repetition. -/
def listField (r : Json) (name : String) (maximum : ℕ) : Option (List String) := do
  let values ← (r.get name).bind Json.asArray
  if maximum < values.length then none
  values.foldlM (fun parsed v => do
    let v ← v.asStr
    if boundedText v && !parsed.contains v then some (parsed ++ [v]) else none) []

def parseAnchor (a : Json) : Option TrustAnchor := do
  let certificateDer ← ((a.get "cert").bind Json.asStr).bind b64Decode
  let serviceType ← ((a.get "service").bind Json.asStr).bind ServiceType.parse
  let status ← (a.get "status").bind Json.asStr
  let status ← if status = "granted" then some .granted
    else if status = "withdrawn" then some .withdrawn else none
  return { certificateDer, serviceType, status }

def parseTrustMark (r : Json) : Option (Option TrustMark) :=
  match r.get "trust_mark" with
  | none | some .null => some none
  | some (.str v) => if v = "eudi-wallet" then some (some .eudiWallet) else none
  | _ => none

def parseRetention (r : Json) : Option RetentionPolicy :=
  match r.get "retention" with
  | none | some .null => some .unspecified
  | some (.str v) => if v = "not-stored" then some .notStored else none
  | some (.obj m) =>
    if m.length = 1 then
      (((m.lookup "days").bind Json.asU64).filter fun d => 0 < d ∧ d < 2 ^ 16).map .days
    else none
  | _ => none

def parseRelyingParty (known : List RelyingPartyRegistration) (r : Json) :
    Option (List RelyingPartyRegistration) := do
  if maxRpRegistrations ≤ known.length then none
  let clientId ← textField r "client_id"
  if known.any (·.clientId == clientId) then none
  let displayName ← textField r "display_name"
  let trustMark ← parseTrustMark r
  let retention ← parseRetention r
  let allowedClaims ← listField r "allowed_claims" maxRpClaims
  let redirectUris ← listField r "redirect_uris" maxRpRedirectUris
  return known ++ [⟨clientId, displayName, trustMark, retention, allowedClaims, redirectUris⟩]

def parseCredentialIssuer (known : List CredentialIssuerRegistration) (r : Json) :
    Option (List CredentialIssuerRegistration) := do
  let issuerId ← textField r "issuer_id"
  if known.any (·.issuerId == issuerId) then none
  let displayName ← textField r "display_name"
  return known ++ [⟨issuerId, displayName⟩]

/-- An optional array member: absent is empty, anything but an array is refused. -/
def optionalArray (payload : Json) (name : String) : Option (List Json) :=
  match payload.get name with
  | none => some []
  | some v => v.asArray

def parseAndVerify (p : Platform) (signedList operatorKey : Bytes) (alg : Alg) (now : ℤ) :
    Except TrustError TrustList := do
  let s ← orErr .malformed (fromUtf8 signedList)
  let (header, payload, signature) ← orErr .malformed (compactParts s)
  let headerJson ← orErr .malformed (p.partJson header)
  if !knownJoseAlg headerJson then throw .unsupportedAlg
  let sig ← orErr .malformed (b64Decode signature)
  if !p.verify alg operatorKey (utf8 (header ++ "." ++ payload)) sig then throw .badSignature
  let body ← orErr .malformed (p.partJson payload)
  let sequenceNumber ← orErr .malformed ((body.get "seq").bind Json.asU64)
  let validFrom ← orErr .malformed ((body.get "valid_from").bind Json.asI64)
  let validUntil ← orErr .malformed ((body.get "valid_until").bind Json.asI64)
  if now < validFrom ∨ validUntil < now then throw .expired
  let anchors ← orErr .malformed ((body.get "anchors").bind Json.asArray)
  let anchors ← orErr .malformed (anchors.mapM parseAnchor)
  let registrations ← orErr .malformed (optionalArray body "relying_parties")
  let relyingParties ← orErr .malformed (registrations.foldlM parseRelyingParty [])
  let issuers ← orErr .malformed (optionalArray body "credential_issuers")
  if maxIssuerRegistrations < issuers.length then throw .malformed
  let credentialIssuers ← orErr .malformed (issuers.foldlM parseCredentialIssuer [])
  return { sequenceNumber, validFrom, validUntil, anchors, relyingParties, credentialIssuers }

/-! ### The store -/

structure TrustStore where
  current : Option TrustList := none
deriving DecidableEq

namespace TrustStore

/-- `TrustStore::update`: the sequence number must grow. -/
def update (t : TrustStore) (list : TrustList) : Except TrustError TrustStore :=
  if t.current.any fun cur => list.sequenceNumber ≤ cur.sequenceNumber then .error .rollback
  else .ok { current := some list }

def isValidAt (t : TrustStore) (now : ℤ) : Bool :=
  t.current.any fun list => list.validFrom ≤ now && now ≤ list.validUntil

def grantedAnchors (t : TrustStore) (service : ServiceType) : List Bytes :=
  match t.current with
  | none => []
  | some l => (l.anchors.filter fun a => a.serviceType == service && a.status == .granted).map
      (·.certificateDer)

def grantedAnchorsAt (t : TrustStore) (service : ServiceType) (now : ℤ) : List Bytes :=
  if t.isValidAt now then t.grantedAnchors service else []

def parsedAnchorsAt (p : Platform) (t : TrustStore) (service : ServiceType) (now : ℤ) : List ParsedCert :=
  (t.grantedAnchorsAt service now).filterMap fun der => (parseCert p der).toOption

def relyingPartyAt (t : TrustStore) (clientId : String) (now : ℤ) : Option RelyingPartyRegistration :=
  if t.isValidAt now then t.current.bind fun l => l.relyingParties.find? (·.clientId == clientId)
  else none

def credentialIssuerAt (t : TrustStore) (issuerId : String) (now : ℤ) : Option CredentialIssuerRegistration :=
  if t.isValidAt now then t.current.bind fun l => l.credentialIssuers.find? (·.issuerId == issuerId)
  else none

end TrustStore

end EuWallet.Trust
