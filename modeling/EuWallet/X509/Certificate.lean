import EuWallet.Crypto.Platform
import Mathlib.Data.List.Sort
import Mathlib.Data.Prod.Lex

/-! # Certificates

`parse_cert` of the `x509` crate: a decoded certificate is reduced to the fields that path validation
and the profiles read. Problems that only matter once the certificate is part of a path (a name
constraint of an unsupported form, a duplicate policy) are recorded in it and reported there. -/

namespace EuWallet.X509

open Codec Crypto

/-- ISO/IEC 18013-5 reader authentication, the marker of a relying-party certificate. -/
def ekuMdocReaderAuth : String := "1.0.18013.5.1.6"

def oidAnyPolicy : String := "2.5.29.32.0"
def oidEcdsaSha256 : String := "1.2.840.10045.4.3.2"
def oidEcdsaSha384 : String := "1.2.840.10045.4.3.3"
def oidEd25519 : String := "1.3.101.112"
def oidRsaEncryption : String := "1.2.840.113549.1.1.1"
def oidRsaSha256 : String := "1.2.840.113549.1.1.11"
def oidRsaSha384 : String := "1.2.840.113549.1.1.12"
def oidRsaSha512 : String := "1.2.840.113549.1.1.13"
def oidEcPublicKey : String := "1.2.840.10045.2.1"
def oidP256 : String := "1.2.840.10045.3.1.7"
def oidP384 : String := "1.3.132.0.34"

def maxSuppliedCertificates : ℕ := 8
def maxTrustAnchors : ℕ := 64
def maxCertificateDerBytes : ℕ := 64 * 1024
def maxExtensionsPerCertificate : ℕ := 32
def maxGeneralNamesPerCertificate : ℕ := 64
def maxNameConstraintsPerCertificate : ℕ := 64
def maxPoliciesPerCertificate : ℕ := 32
def maxPolicyMappingsPerCertificate : ℕ := 32
def maxIssuerCandidates : ℕ := 16
def maxPathBuildSteps : ℕ := 256
def maxCompletePaths : ℕ := maxPathBuildSteps

inductive X509Error where
  | der
  | pathInvalid (what : String)
  | profileViolation (what : String)
  | unsupportedSignatureAlg
  | unsupportedPublicKey
deriving DecidableEq

/-- The canonical form of a distinguished name: sorted attributes of each relative name. -/
abbrev CanonicalName := List (List (String × String))

/-- `CertificateNames`: the subject's names that name constraints apply to. -/
structure CertificateNames where
  dns : List String := []
  emails : List String := []
  uris : List String := []
  ips : List Bytes := []
  directories : List CanonicalName := []
deriving DecidableEq

inductive SupportedNameConstraint where
  | dns (s : String)
  | email (s : String)
  | uriHost (s : String)
  | ip (address mask : Bytes)
  | directory (n : CanonicalName)
deriving DecidableEq

structure ParsedNameConstraints where
  permitted : List SupportedNameConstraint
  excluded : List SupportedNameConstraint
deriving DecidableEq

structure CertificatePolicyState where
  policies : Option (List String) := none
  mappings : List (String × String) := []
  requireExplicitPolicy : Option ℕ := none
  inhibitPolicyMapping : Option ℕ := none
  inhibitAnyPolicy : Option ℕ := none
  error : Option String := none
deriving DecidableEq

structure CertificateConstraints where
  subjectDer : Bytes
  issuerDer : Bytes
  canonicalSubject : CanonicalName
  canonicalIssuer : CanonicalName
  basicConstraintsPresent : Bool := false
  basicConstraintsCritical : Bool := false
  pathLenConstraint : Option ℕ := none
  keyUsagePresent : Bool := false
  digitalSignature : Bool := false
  keyCertSign : Bool := false
  subjectKeyIdentifier : Option Bytes := none
  authorityKeyIdentifier : Option Bytes := none
  unsupportedCriticalExtension : Bool := false
  signatureAlgorithmsMatch : Bool
  publicKeyAlgorithm : Option CertificatePublicKeyAlg
  names : CertificateNames := {}
  nameConstraintsPresent : Bool := false
  nameConstraints : Option ParsedNameConstraints := none
  nameConstraintsError : Option String := none
  policy : CertificatePolicyState := {}
deriving DecidableEq

structure ParsedCert where
  tbsDer : Bytes
  signature : Bytes
  sigAlg : CertificateSignatureAlg
  spkiDer : Bytes
  publicKeyRaw : Bytes
  subject : String
  issuer : String
  uriSans : List String
  notBefore : ℤ
  notAfter : ℤ
  isCa : Bool
  eku : List String
  policies : List String
  constraints : CertificateConstraints
deriving DecidableEq

/-! ### Names -/

/-- The code units of a `BMPString`. -/
def utf16Units : Bytes → Option (List ℕ)
  | [] => some []
  | [_] => none
  | a :: b :: rest => do return (a.toNat * 256 + b.toNat) :: (← utf16Units rest)

/-- `canonical_directory_value`: white space is collapsed and the case folded. -/
def canonicalDirectoryValue (p : Platform) (v : DerAny) : Option String := do
  let decoded ← match v.tag with
    | .utf8String => fromUtf8 v.value
    | .printableString | .ia5String | .teletexString =>
      if v.value.all (· < 128) then
        some (String.ofList (v.value.map fun b => Char.ofNat b.toNat))
      else none
    | .bmpString => (utf16Units v.value).bind p.decodeUtf16
    | _ => none
  let folded := p.toLowercase (joinStr " " (splitWhitespace decoded))
  if folded.isEmpty then none else some folded

/-- The order of the attributes inside one relative name. -/
def attributeLe (a b : String × String) : Bool := a.1 < b.1 || (a.1 == b.1 && !(b.2 < a.2))

def canonicalName (p : Platform) (name : Name) : Option CanonicalName :=
  if name.isEmpty || name.length > maxGeneralNamesPerCertificate then none
  else name.mapM fun rdn =>
    if rdn.isEmpty || rdn.length > maxGeneralNamesPerCertificate then none
    else do
      let attributes ← rdn.mapM fun a => do return (a.1, ← canonicalDirectoryValue p a.2)
      return attributes.insertionSort (attributeLe · ·)

def dnsLabel (letter : UInt8 → Bool) (label : String) : Bool :=
  let b := utf8 label
  !b.isEmpty && b.length ≤ 63 && b.all (fun x => letter x || x == 45) &&
    b.head?.any isAsciiAlphanumeric && b.getLast?.any isAsciiAlphanumeric

def canonicalDnsName (value : String) : Option String :=
  if value.isEmpty || value.utf8ByteSize > 253 || startsWith "." value || endsWith "." value ||
      !isAscii value then none
  else
    let canonical := toAsciiLower value
    if (splitStr '.' canonical).all (dnsLabel isAsciiAlphanumeric) then some canonical else none

def canonicalUriConstraint (value : String) : Option String := do
  let (subdomainsOnly, host) := match stripStart "." value with
    | some host => (true, host)
    | none => (false, value)
  let host ← canonicalDnsName host
  if isIpv4 host then none
  else some (if subdomainsOnly then "." ++ host else host)

def canonicalEmail (value : String) (constraint : Bool) : Option String :=
  if value.isEmpty || !isAscii value || (utf8 value).any isAsciiWhitespace then none
  else match rsplitOnce '@' value with
    | some (l, domain) =>
      if (constraint && startsWith "." value) || l.isEmpty then none
      else do return l ++ "@" ++ (← canonicalDnsName domain)
    | none => if constraint then canonicalUriConstraint value else none

def validIpConstraint (address mask : Bytes) : Bool :=
  let bits := mask.flatMap fun b => (List.range 8).reverse.map fun i => b.toNat.testBit i
  (address.length == mask.length && (address.length == 4 || address.length == 16)) &&
    (bits.dropWhile id).all (!·) &&
    (address.zip mask).all fun am => am.1 &&& (~~~ am.2) == 0

def parseSubtree (p : Platform) (t : GeneralSubtree) : Except String SupportedNameConstraint :=
  if t.minimum ≠ 0 ∨ t.maximum.isSome then .error "unsupported name constraint distance"
  else match t.base with
    | .dnsName n => match canonicalDnsName n with
      | some n => .ok (.dns n)
      | none => .error "malformed DNS name constraint"
    | .uniformResourceIdentifier h => match canonicalUriConstraint h with
      | some h => .ok (.uriHost h)
      | none => .error "malformed URI name constraint"
    | .rfc822Name e => match canonicalEmail e true with
      | some e => .ok (.email e)
      | none => .error "malformed rfc822Name constraint"
    | .directoryName n => match canonicalName p n with
      | some n => .ok (.directory n)
      | none => .error "malformed directoryName constraint"
    | .ipAddress b =>
      let half := b.length / 2
      if (b.length == 8 || b.length == 32) && validIpConstraint (b.take half) (b.drop half) then
        .ok (.ip (b.take half) (b.drop half))
      else .error "malformed IP name constraint"
    | .unsupported => .error "unsupported name constraint form"

def parseNameConstraints (p : Platform) (permitted excluded : Option (List GeneralSubtree)) :
    Except String ParsedNameConstraints := do
  if permitted.any List.isEmpty || excluded.any List.isEmpty then
    throw "NameConstraints contains an empty GeneralSubtrees"
  let permitted := permitted.getD []
  let excluded := excluded.getD []
  let total := permitted.length + excluded.length
  if total == 0 then throw "NameConstraints is empty"
  if total > maxNameConstraintsPerCertificate then throw "name constraints resource budget exceeded"
  return { permitted := ← permitted.mapM (parseSubtree p), excluded := ← excluded.mapM (parseSubtree p) }

/-! ### Algorithms and keys -/

def parametersAbsent (a : AlgorithmIdentifier) : Bool := a.parameters.isNone

def parametersAreNull (a : AlgorithmIdentifier) : Bool :=
  a.parameters.any fun v => v.tag == .null && v.value.isEmpty

def parametersAbsentOrNull (a : AlgorithmIdentifier) : Bool := parametersAbsent a || parametersAreNull a

def mapSigAlg (a : AlgorithmIdentifier) : Except X509Error CertificateSignatureAlg :=
  if a.oid = oidEcdsaSha256 ∧ parametersAbsent a then .ok .ecdsaSha256
  else if a.oid = oidEcdsaSha384 ∧ parametersAbsent a then .ok .ecdsaSha384
  else if a.oid = oidEd25519 ∧ parametersAbsent a then .ok .ed25519
  else if a.oid = oidRsaSha256 ∧ parametersAbsentOrNull a then .ok .rsaPkcs1Sha256
  else if a.oid = oidRsaSha384 ∧ parametersAbsentOrNull a then .ok .rsaPkcs1Sha384
  else if a.oid = oidRsaSha512 ∧ parametersAbsentOrNull a then .ok .rsaPkcs1Sha512
  else .error .unsupportedSignatureAlg

/-- The number of bits of an RSA modulus given by its big-endian bytes. -/
def modulusBits : Bytes → ℕ
  | [] => 0
  | first :: rest => rest.length * 8 + if first = 0 then 0 else Nat.log2 first.toNat + 1

def parsePublicKey (p : Platform) (a : AlgorithmIdentifier) (raw : Bytes) :
    Except X509Error CertificatePublicKeyAlg :=
  if a.oid = oidEcPublicKey then
    match a.parameters.bind (·.asOid) with
    | none => .error .unsupportedPublicKey
    | some curve =>
      if curve = oidP256 ∧ raw.length = 65 ∧ raw.head? = some 4 then .ok .ecP256
      else if curve = oidP384 ∧ raw.length = 97 ∧ raw.head? = some 4 then .ok .ecP384
      else .error .unsupportedPublicKey
  else if a.oid = oidEd25519 ∧ parametersAbsent a ∧ raw.length = 32 then .ok .ed25519
  else if a.oid = oidRsaEncryption ∧ parametersAreNull a then
    match p.decodeRsaPublicKey raw with
    | none => .error .unsupportedPublicKey
    | some (modulus, exponent) =>
      if 2048 ≤ modulusBits modulus ∧ modulusBits modulus ≤ 8192 ∧ exponent = [1, 0, 1] then .ok .rsa
      else .error .unsupportedPublicKey
  else .error .unsupportedPublicKey

/-! ### Extensions -/

/-- The fields of a certificate that its extensions fill in. -/
structure ExtensionState where
  isCa : Bool := false
  eku : List String := []
  policies : List String := []
  uriSans : List String := []
  constraints : CertificateConstraints

def readPolicies (critical : Bool) : List String → List (String × Bool) → List String × Option String
  | seen, [] => (seen, none)
  | seen, (oid, qualified) :: rest =>
    if critical && qualified then (seen, some "certificate policy qualifiers are unsupported")
    else if seen.contains oid then (seen, some "duplicate certificate policy")
    else readPolicies critical (seen ++ [oid]) rest

/-- The policy mappings up to the first one that is refused, and why it is refused. -/
def readMappings : List (String × String) → List (String × String) → List (String × String) × Option String
  | seen, [] => (seen, none)
  | seen, (issuer, subject) :: rest =>
    if issuer = oidAnyPolicy ∨ subject = oidAnyPolicy then
      (seen, some "anyPolicy must not appear in PolicyMappings")
    else if seen.contains (issuer, subject) then (seen, some "duplicate certificate policy mapping")
    else readMappings (seen ++ [(issuer, subject)]) rest

def ExtensionState.setPolicy (s : ExtensionState) (f : CertificatePolicyState → CertificatePolicyState) :
    ExtensionState :=
  { s with constraints := { s.constraints with policy := f s.constraints.policy } }

def ExtensionState.policyError (s : ExtensionState) (what : String) : ExtensionState :=
  s.setPolicy fun q => { q with error := some what }

def addGeneralName (p : Platform) (s : ExtensionState) (n : GeneralName) : Except X509Error ExtensionState :=
  let names := s.constraints.names
  let put (names : CertificateNames) : ExtensionState :=
    { s with constraints := { s.constraints with names } }
  match n with
  | .dnsName d => .ok (put { names with dns := names.dns ++ [d] })
  | .uniformResourceIdentifier u =>
    .ok { put { names with uris := names.uris ++ [u] } with uriSans := s.uriSans ++ [u] }
  | .ipAddress a => .ok (put { names with ips := names.ips ++ [a] })
  | .rfc822Name e => .ok (put { names with emails := names.emails ++ [e] })
  | .directoryName d => match canonicalName p d with
    | some d => .ok (put { names with directories := names.directories ++ [d] })
    | none => .error .der
  | .unsupported => .ok s

/-- One extension: the `match` inside the loop of `parse_cert`. -/
def applyExtension (p : Platform) (s : ExtensionState) (e : Extension) : Except X509Error ExtensionState :=
  let c := s.constraints
  match e.content with
  | .basicConstraints ca pathLen =>
    if !ca && pathLen.isSome then .error .der
    else .ok { s with
      isCa := ca
      constraints := { c with
        basicConstraintsPresent := true
        basicConstraintsCritical := e.critical
        pathLenConstraint := pathLen } }
  | .keyUsage ds kcs =>
    .ok { s with constraints := { c with
      keyUsagePresent := true
      digitalSignature := ds
      keyCertSign := kcs } }
  | .extendedKeyUsage oids => .ok { s with eku := oids }
  | .certificatePolicies ps =>
    if ps.isEmpty || ps.length > maxPoliciesPerCertificate then
      .ok (s.policyError "certificate policy resource budget exceeded")
    else
      let (ids, error) := readPolicies e.critical [] ps
      .ok { s.setPolicy fun q => { q with policies := some ids, error := error.or q.error } with
        policies := ids }
  | .policyMappings ms =>
    if !e.critical then .ok (s.policyError "PolicyMappings must be critical")
    else if ms.isEmpty || ms.length > maxPolicyMappingsPerCertificate then
      .ok (s.policyError "certificate policy mapping resource budget exceeded")
    else
      let (mappings, error) := readMappings [] ms
      .ok (s.setPolicy fun q => { q with mappings, error := error.or q.error })
  | .policyConstraints explicit inhibit =>
    if !e.critical then .ok (s.policyError "PolicyConstraints must be critical")
    else if explicit.isNone && inhibit.isNone then .ok (s.policyError "PolicyConstraints is empty")
    else .ok (s.setPolicy fun q =>
      { q with requireExplicitPolicy := explicit, inhibitPolicyMapping := inhibit })
  | .inhibitAnyPolicy skip =>
    if !e.critical then .ok (s.policyError "InhibitAnyPolicy must be critical")
    else .ok (s.setPolicy fun q => { q with inhibitAnyPolicy := some skip })
  | .subjectAltName names =>
    if names.isEmpty || names.length > maxGeneralNamesPerCertificate then .error .der
    else names.foldlM (addGeneralName p) s
  | .nameConstraints permitted excluded =>
    let c := { c with nameConstraintsPresent := true }
    if !e.critical then
      .ok { s with constraints := { c with
        nameConstraintsError := some "NameConstraints must be critical" } }
    else match parseNameConstraints p permitted excluded with
      | .ok parsed => .ok { s with constraints := { c with nameConstraints := some parsed } }
      | .error what => .ok { s with constraints := { c with nameConstraintsError := some what } }
  | .subjectKeyIdentifier id =>
    .ok { s with constraints := { c with
      subjectKeyIdentifier := some id
      unsupportedCriticalExtension := c.unsupportedCriticalExtension || e.critical } }
  | .authorityKeyIdentifier id =>
    .ok { s with constraints := { c with
      authorityKeyIdentifier := id
      unsupportedCriticalExtension := c.unsupportedCriticalExtension || e.critical } }
  | .malformed => .error .der
  | .unknown =>
    .ok { s with constraints := { c with
      unsupportedCriticalExtension := c.unsupportedCriticalExtension || e.critical } }

/-- The loop over the extensions; a repeated identifier is refused. -/
def applyExtensions (p : Platform) : List String → ExtensionState → List Extension → Except X509Error ExtensionState
  | _, s, [] => .ok s
  | seen, s, e :: rest =>
    if seen.contains e.oid then .error .der
    else do applyExtensions p (e.oid :: seen) (← applyExtension p s e) rest

/-! ### The certificate -/

/-- What `parse_cert` adds once all extensions are read: the subject is a directory name too, and an
end entity must not constrain names. -/
def closeConstraints (s : ExtensionState) : CertificateConstraints :=
  let c := s.constraints
  { c with
    names := { c.names with directories := c.names.directories ++ [c.canonicalSubject] }
    nameConstraintsError :=
      if c.nameConstraintsPresent && !s.isCa && c.nameConstraintsError.isNone then
        some "NameConstraints only permitted in CA certificates"
      else c.nameConstraintsError }

def parseCert (p : Platform) (der : Bytes) : Except X509Error ParsedCert := do
  if der.isEmpty || der.length > maxCertificateDerBytes then throw .der
  let cert ← orErr .der (p.decodeCertificate der)
  let signature ← orErr .der cert.signature
  let sigAlg ← mapSigAlg cert.signatureAlgorithm
  let publicKeyRaw ← orErr .der cert.subjectPublicKey
  let publicKeyAlgorithm ← parsePublicKey p cert.spkiAlgorithm publicKeyRaw
  let canonicalSubject ← orErr .der (canonicalName p cert.subject)
  let canonicalIssuer ← orErr .der (canonicalName p cert.issuer)
  let start : ExtensionState := { constraints := {
    subjectDer := cert.subjectDer
    issuerDer := cert.issuerDer
    canonicalSubject, canonicalIssuer
    signatureAlgorithmsMatch := cert.tbsSignature == cert.signatureAlgorithm
    publicKeyAlgorithm := some publicKeyAlgorithm } }
  let exts := cert.extensions.getD []
  if exts.length > maxExtensionsPerCertificate then throw .der
  let s ← applyExtensions p [] start exts
  return {
    tbsDer := cert.tbsDer
    signature, sigAlg
    spkiDer := cert.spkiDer
    publicKeyRaw
    subject := cert.subjectText
    issuer := cert.issuerText
    uriSans := s.uriSans
    notBefore := cert.notBefore
    notAfter := cert.notAfter
    isCa := s.isCa
    eku := s.eku
    policies := s.policies
    constraints := closeConstraints s }

end EuWallet.X509
