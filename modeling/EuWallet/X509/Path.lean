import EuWallet.X509.Certificate
import Mathlib.Data.List.Dedup

/-! # Certification paths

`validate_path` builds a path from an unordered bundle. The leaf is the one supplied certificate whose
subject is the issuer of no other supplied certificate; from it a bounded search follows issuer names
to the trust anchors, and exactly one completed path must pass every check of `validate_built_path`. -/

namespace EuWallet.X509

open Codec Crypto

def certificateEq (l r : ParsedCert) : Bool := l.tbsDer == r.tbsDer && l.signature == r.signature

def issuerNameMatches (child parent : ParsedCert) : Bool :=
  child.constraints.canonicalIssuer == parent.constraints.canonicalSubject

def authorityKeyMatches (child parent : ParsedCert) : Bool :=
  match child.constraints.authorityKeyIdentifier, parent.constraints.subjectKeyIdentifier with
  | some authority, some subject => authority == subject
  | _, _ => true

/-- The subject of a self-issued certificate is its own issuer. -/
def selfIssued (c : ParsedCert) : Bool :=
  c.constraints.canonicalSubject == c.constraints.canonicalIssuer

/-! ### The search -/

structure BuiltPath where
  suppliedIndices : List ℕ
  anchorIndex : ℕ
deriving DecidableEq

structure PathSearch where
  complete : List BuiltPath := []
  steps : ℕ := 0
  sawLoop : Bool := false
  sawAuthorityKeyMismatch : Bool := false
  budgetExceeded : Bool := false
deriving DecidableEq

def PathSearch.countStep (s : PathSearch) : PathSearch :=
  { s with
    steps := s.steps + 1
    budgetExceeded := s.budgetExceeded || decide (maxPathBuildSteps < s.steps + 1) }

/-- Count one more issuer candidate, within both budgets. -/
def PathSearch.countCandidate (s : PathSearch) (candidates : ℕ) : PathSearch :=
  if maxIssuerCandidates < candidates then { s with budgetExceeded := true } else s.countStep

def exploreAnchors (child : ParsedCert) (path : List ℕ) : List (ParsedCert × ℕ) → PathSearch × ℕ → PathSearch × ℕ
  | [], acc => acc
  | (anchor, index) :: rest, (s, candidates) =>
    if s.budgetExceeded then (s, candidates)
    else if !issuerNameMatches child anchor then exploreAnchors child path rest (s, candidates)
    else if !authorityKeyMatches child anchor then
      exploreAnchors child path rest ({ s with sawAuthorityKeyMismatch := true }, candidates)
    else
      let s := s.countCandidate (candidates + 1)
      if s.budgetExceeded then (s, candidates + 1)
      else if maxCompletePaths ≤ s.complete.length then
        ({ s with budgetExceeded := true }, candidates + 1)
      else exploreAnchors child path rest
        ({ s with complete := s.complete ++ [⟨path, index⟩] }, candidates + 1)

/-- The loop of `explore_paths` over the other supplied certificates; `explore` is the recursion. -/
def exploreParents (explore : ℕ → List ℕ → PathSearch → PathSearch) (child : ParsedCert)
    (current : ℕ) (path : List ℕ) : List (ParsedCert × ℕ) → PathSearch × ℕ → PathSearch × ℕ
  | [], acc => acc
  | (parent, index) :: rest, (s, candidates) =>
    if s.budgetExceeded then (s, candidates)
    else if index = current || !issuerNameMatches child parent then
      exploreParents explore child current path rest (s, candidates)
    else if !authorityKeyMatches child parent then
      exploreParents explore child current path rest
        ({ s with sawAuthorityKeyMismatch := true }, candidates)
    else
      let s := s.countCandidate (candidates + 1)
      if s.budgetExceeded then (s, candidates + 1)
      else if path.contains index then
        exploreParents explore child current path rest ({ s with sawLoop := true }, candidates + 1)
      else exploreParents explore child current path rest
        (explore index (path ++ [index]) s, candidates + 1)

/-- `explore_paths`. A path never repeats a certificate, so that its depth, the first argument, is at
most the number of supplied certificates. -/
def explorePaths (supplied anchors : List ParsedCert) : ℕ → ℕ → List ℕ → PathSearch → PathSearch
  | 0, _, _, s => s
  | depth + 1, current, path, s =>
    if s.budgetExceeded then s
    else
      let s := s.countStep
      if s.budgetExceeded then s
      else match supplied[current]? with
        | none => s
        | some child =>
          let acc := exploreAnchors child path anchors.zipIdx (s, 0)
          (exploreParents (explorePaths supplied anchors depth) child current path
            supplied.zipIdx acc).1

/-! ### Name constraints -/

def dnsConstraintMatches (name constraint : String) : Bool :=
  name == constraint || (stripEnd constraint name).any (endsWith ".")

def uriConstraintMatches (host constraint : String) : Bool :=
  match stripStart "." constraint with
  | none => host == constraint
  | some domain => host != domain && endsWith constraint host

def validScheme (scheme : String) : Bool :=
  let b := utf8 scheme
  b.head?.any isAsciiAlphabetic &&
    b.all fun x => isAsciiAlphanumeric x || x == 43 || x == 45 || x == 46

def constrainedUriHost (uri : String) : Option String := do
  if !isAscii uri || uri.toList.any (fun c => isControl c || isWhite c) then none
  let (scheme, rest) ← splitOnce ':' uri
  if !validScheme scheme then none
  let rest ← stripStart "//" rest
  let authority := String.ofList (rest.toList.takeWhile fun c => c ≠ '/' ∧ c ≠ '?' ∧ c ≠ '#')
  if authority.isEmpty || authority.toList.count '@' > 1 then none
  let hostAndPort := ((rsplitOnce '@' authority).map (·.2)).getD authority
  if startsWith "[" hostAndPort || hostAndPort.toList.count ':' > 1 then none
  let (host, port) := match rsplitOnce ':' hostAndPort with
    | some (host, port) => (host, some port)
    | none => (hostAndPort, none)
  if port.any fun port => port.isEmpty || (parseU16 port).isNone then none
  let host ← canonicalDnsName host
  if isIpv4 host then none else some host

def ipConstraintMatches (name address mask : Bytes) : Bool :=
  name.length == address.length && address.length == mask.length &&
    ((name.zip address).zip mask).all fun x => x.1.1 &&& x.2 == x.1.2 &&& x.2

def emailConstraintMatches (email constraint : String) : Bool :=
  if hasChar '@' constraint then email == constraint
  else match rsplitOnce '@' email with
    | none => false
    | some (_, domain) =>
      uriConstraintMatches domain constraint ||
        (!startsWith "." constraint && dnsConstraintMatches domain constraint)

def directoryConstraintMatches (name constraint : CanonicalName) : Bool :=
  constraint.length ≤ name.length && name.take constraint.length == constraint

/-- The check every name form makes: no excluded constraint matches, and if there is a permitted one
of this form, one of them does. -/
def checkConstraint {α : Type} (hits : α → Bool) (permitted excluded : List α) : Except X509Error Unit :=
  if excluded.any hits then .error (.pathInvalid "name constraints exclude certificate name")
  else if !permitted.isEmpty && !permitted.any hits then
    .error (.pathInvalid "name constraints do not permit certificate name")
  else .ok ()

def SupportedNameConstraint.asDns : SupportedNameConstraint → Option String
  | .dns s => some s
  | _ => none

def SupportedNameConstraint.asEmail : SupportedNameConstraint → Option String
  | .email s => some s
  | _ => none

def SupportedNameConstraint.asUriHost : SupportedNameConstraint → Option String
  | .uriHost s => some s
  | _ => none

def SupportedNameConstraint.asIp : SupportedNameConstraint → Option (Bytes × Bytes)
  | .ip a m => some (a, m)
  | _ => none

def SupportedNameConstraint.asDirectory : SupportedNameConstraint → Option CanonicalName
  | .directory n => some n
  | _ => none

def enforceNameConstraints (names : CertificateNames) (c : ParsedNameConstraints) :
    Except X509Error Unit := do
  names.dns.forM fun name => do
    let name ← orErr (.pathInvalid "constrained DNS name is malformed") (canonicalDnsName name)
    checkConstraint (dnsConstraintMatches name) (c.permitted.filterMap (·.asDns))
      (c.excluded.filterMap (·.asDns))
  names.emails.forM fun email => do
    let email ← orErr (.pathInvalid "constrained rfc822Name is malformed") (canonicalEmail email false)
    checkConstraint (emailConstraintMatches email) (c.permitted.filterMap (·.asEmail))
      (c.excluded.filterMap (·.asEmail))
  let permittedUri := c.permitted.filterMap (·.asUriHost)
  let excludedUri := c.excluded.filterMap (·.asUriHost)
  if !permittedUri.isEmpty || !excludedUri.isEmpty then
    names.uris.forM fun uri => do
      let host ← orErr (.pathInvalid "constrained URI has no canonical DNS host") (constrainedUriHost uri)
      checkConstraint (uriConstraintMatches host) permittedUri excludedUri
  names.ips.forM fun ip => do
    if ip.length ≠ 4 ∧ ip.length ≠ 16 then
      throw (.pathInvalid "constrained IP address is malformed")
    checkConstraint (fun am => ipConstraintMatches ip am.1 am.2) (c.permitted.filterMap (·.asIp))
      (c.excluded.filterMap (·.asIp))
  names.directories.forM fun name =>
    checkConstraint (directoryConstraintMatches name) (c.permitted.filterMap (·.asDirectory))
      (c.excluded.filterMap (·.asDirectory))

/-- `validate_name_constraints`: every issuer constrains all certificates below it, except the
self-issued intermediates. -/
def validateNameConstraints (path : List ParsedCert) : Except X509Error Unit :=
  (path.zipIdx.drop 1).forM fun (issuer, issuerIndex) =>
    match issuer.constraints.nameConstraints with
    | none => .ok ()
    | some constraints => (path.take issuerIndex).zipIdx.forM fun (subject, subjectIndex) =>
      if subjectIndex ≠ 0 && selfIssued subject then .ok ()
      else enforceNameConstraints subject.constraints.names constraints

/-! ### Certificate policies -/

def toSet (l : List String) : List String := l.dedup.insertionSort (· ≤ ·)

structure PolicyWalk where
  explicitPolicy : ℕ
  policyMapping : ℕ
  inhibitAnyPolicy : ℕ
  valid : Option (List String)
deriving DecidableEq

/-- The valid policies after the policies of one certificate. -/
def intersectPolicies (w : PolicyWalk) (policies : List String) : Option (List String) :=
  let hasAny := policies.contains oidAnyPolicy
  let concrete := toSet (policies.filter (· ≠ oidAnyPolicy))
  match w.valid with
  | none => if hasAny && 0 < w.inhibitAnyPolicy then none else some concrete
  | some expected =>
    let next := expected.filter concrete.contains
    some (if hasAny && 0 < w.inhibitAnyPolicy then toSet (next ++ expected) else next)

/-- Apply the policy mappings of one certificate to the set before them. -/
def mapPolicies (before : List String) (mappings : List (String × String)) : List String :=
  mappings.foldl (fun expected m =>
    if before.contains m.1 then toSet (m.2 :: expected.filter (· ≠ m.1)) else expected) before

/-- One certificate of `validate_certificate_policies`. -/
def policyStep (w : PolicyWalk) (cert : ParsedCert) (index : ℕ) : Except X509Error PolicyWalk := do
  let q := cert.constraints.policy
  if let some error := q.error then throw (.pathInvalid error)
  if !q.mappings.isEmpty && !cert.isCa then
    throw (.pathInvalid "PolicyMappings only permitted in CA certificates")
  let valid := match q.policies with
    | some policies => intersectPolicies w policies
    | none => some []
  if !q.mappings.isEmpty && w.policyMapping == 0 then
    throw (.pathInvalid "certificate policy mapping is inhibited")
  let valid := valid.map (mapPolicies · q.mappings)
  if w.explicitPolicy == 0 && valid.any List.isEmpty then
    throw (.pathInvalid "explicit certificate policy is required")
  let dec (n : ℕ) : ℕ := if !selfIssued cert || index == 0 then n - 1 else n
  let cap (n : ℕ) (limit : Option ℕ) : ℕ := (limit.map (min n)).getD n
  return {
    explicitPolicy := cap (dec w.explicitPolicy) q.requireExplicitPolicy
    policyMapping := cap (dec w.policyMapping) q.inhibitPolicyMapping
    inhibitAnyPolicy := cap (dec w.inhibitAnyPolicy) q.inhibitAnyPolicy
    valid }

def validateCertificatePolicies (path : List ParsedCert) : Except X509Error (List String) := do
  let count := path.length - 1
  let start : PolicyWalk := ⟨count + 1, count + 1, count + 1, none⟩
  let w ← (path.take count).zipIdx.reverse.foldlM (fun w ci => policyStep w ci.1 ci.2) start
  let leafPolicies := match path with
    | [] => []
    | leaf :: _ => toSet ((leaf.constraints.policy.policies.getD []).filter (· ≠ oidAnyPolicy))
  return w.valid.getD leafPolicies

/-! ### Validation -/

def signatureCompatibleWithIssuer : CertificateSignatureAlg → CertificatePublicKeyAlg → Bool
  | .ecdsaSha256, .ecP256 | .ecdsaSha256, .ecP384 | .ecdsaSha384, .ecP256 | .ecdsaSha384, .ecP384 =>
    true
  | .ed25519, .ed25519 => true
  | .rsaPkcs1Sha256, .rsa | .rsaPkcs1Sha384, .rsa | .rsaPkcs1Sha512, .rsa => true
  | _, _ => false

def checkCertificate (p : Platform) (now : ℤ) (c : ParsedCert) : Except X509Error Unit := do
  if !c.constraints.signatureAlgorithmsMatch then
    throw (.pathInvalid "TBSCertificate and outer signature algorithms differ")
  if c.constraints.unsupportedCriticalExtension then
    throw (.pathInvalid "unsupported critical certificate extension")
  if let some error := c.constraints.nameConstraintsError then throw (.pathInvalid error)
  if let some error := c.constraints.policy.error then throw (.pathInvalid error)
  let alg ← orErr (.pathInvalid "certificate public key is unsupported") c.constraints.publicKeyAlgorithm
  if !p.validateCertificatePublicKey alg c.publicKeyRaw then
    throw (.pathInvalid "certificate subject public key validation failed")
  if now < c.notBefore ∨ c.notAfter < now then
    throw (.pathInvalid "certificate expired or not yet valid")

def checkLeaf (leaf : ParsedCert) : Except X509Error Unit := do
  if leaf.isCa then throw (.pathInvalid "leaf certificate is a CA")
  if !leaf.constraints.keyUsagePresent then throw (.pathInvalid "leaf KeyUsage is missing")
  if !leaf.constraints.digitalSignature then
    throw (.pathInvalid "leaf KeyUsage lacks digitalSignature")

def checkIssuer (below : List ParsedCert) (c : ParsedCert) : Except X509Error Unit := do
  if !c.constraints.basicConstraintsPresent || !c.isCa then
    throw (.pathInvalid "issuer BasicConstraints does not authorize a CA")
  if !c.constraints.basicConstraintsCritical then
    throw (.pathInvalid "issuer BasicConstraints is not critical")
  if !c.constraints.keyUsagePresent then throw (.pathInvalid "issuer KeyUsage is missing")
  if !c.constraints.keyCertSign then throw (.pathInvalid "issuer KeyUsage lacks keyCertSign")
  if c.constraints.pathLenConstraint.any (· < below.countP (!selfIssued ·)) then
    throw (.pathInvalid "BasicConstraints pathLenConstraint exceeded")

/-- The checks on a certificate and its issuer. -/
def checkLink (p : Platform) (child parent : ParsedCert) : Except X509Error Unit := do
  if !issuerNameMatches child parent then throw (.pathInvalid "issuer/subject mismatch")
  if !authorityKeyMatches child parent then
    throw (.pathInvalid "authority key identifier mismatch")
  let issuerKey ← orErr (.pathInvalid "issuer public key is unsupported") parent.constraints.publicKeyAlgorithm
  if !signatureCompatibleWithIssuer child.sigAlg issuerKey then
    throw (.pathInvalid "certificate signature algorithm is incompatible with issuer public key")
  if !p.verifyCertificate child.sigAlg parent.publicKeyRaw child.tbsDer child.signature then
    throw (.pathInvalid "signature verification failed")

def validateBuiltPath (p : Platform) (path : List ParsedCert) (now : ℤ) : Except X509Error (List String) := do
  let leaf ← orErr (.pathInvalid "empty constructed path") path.head?
  path.forM (checkCertificate p now)
  checkLeaf leaf
  (path.zipIdx.drop 1).forM fun (c, index) => checkIssuer ((path.take index).drop 1) c
  validateNameConstraints path
  let effectivePolicies ← validateCertificatePolicies path
  (path.zip (path.drop 1)).forM fun (child, parent) => checkLink p child parent
  return effectivePolicies

/-- The order in which `validate_path` sorts certificates. -/
def certificateLe (l r : ParsedCert) : Bool :=
  l.tbsDer < r.tbsDer || (l.tbsDer == r.tbsDer && !(r.signature < l.signature))

/-- Does some element of a list equal a later one? -/
def hasDuplicate {α : Type} (eq : α → α → Bool) : List α → Bool
  | [] => false
  | a :: rest => rest.any (eq a) || hasDuplicate eq rest

/-- The supplied certificates that are the issuer, by name, of no other supplied certificate. -/
def leafIndices (supplied : List ParsedCert) : List ℕ :=
  (supplied.zipIdx.filter fun (parent, i) =>
    !(supplied.zipIdx.any fun (child, j) => i != j && issuerNameMatches child parent)).map (·.2)

def candidatePath (supplied anchors : List ParsedCert) (b : BuiltPath) : List ParsedCert :=
  b.suppliedIndices.filterMap (supplied[·]?) ++ (anchors[b.anchorIndex]?).toList

def setLeafPolicies (policies : List String) : List ParsedCert → List ParsedCert
  | [] => []
  | leaf :: rest => { leaf with policies } :: rest

/-- The loop over the completed paths: one of them, and no second one, must be valid. -/
def selectPath (p : Platform) (now : ℤ) (supplied anchors : List ParsedCert) :
    List BuiltPath → Option (List ParsedCert) → Option X509Error →
    Except X509Error (Option (List ParsedCert) × Option X509Error)
  | [], valid, firstError => .ok (valid, firstError)
  | b :: rest, valid, firstError =>
    let candidate := candidatePath supplied anchors b
    match validateBuiltPath p candidate now, valid with
    | .ok policies, none =>
      selectPath p now supplied anchors rest (some (setLeafPolicies policies candidate)) firstError
    | .ok _, some _ => .error (.pathInvalid "certificate bundle has ambiguous trust paths")
    | .error e, valid => selectPath p now supplied anchors rest valid (firstError.or (some e))

def searchPath (p : Platform) (now : ℤ) (supplied anchors : List ParsedCert) (leaf : ℕ) :
    Except X509Error (List ParsedCert) := do
  let search := explorePaths supplied anchors supplied.length leaf [leaf] {}
  if search.budgetExceeded then
    throw (.pathInvalid "certificate path resource budget exceeded")
  match ← selectPath p now supplied anchors search.complete none none with
  | (some path, _) => return path
  | (none, some error) => throw error
  | (none, none) =>
    if search.sawLoop then throw (.pathInvalid "certificate path contains a loop")
    if search.sawAuthorityKeyMismatch then throw (.pathInvalid "authority key identifier mismatch")
    throw (.pathInvalid "no trust anchor for chain")

def validatePath (p : Platform) (chain : List Bytes) (trustAnchors : List ParsedCert) (now : ℤ) :
    Except X509Error (List ParsedCert) := do
  if chain.isEmpty then throw (.pathInvalid "empty chain")
  if maxSuppliedCertificates < chain.length ∨ maxTrustAnchors < trustAnchors.length then
    throw (.pathInvalid "certificate path resource budget exceeded")
  if trustAnchors.isEmpty then throw (.pathInvalid "no trust anchor for chain")
  if hasDuplicate (· == ·) chain then throw (.pathInvalid "duplicate certificate in supplied chain")
  if hasDuplicate certificateEq trustAnchors then throw (.pathInvalid "duplicate trust anchor")
  let supplied ← chain.mapM (parseCert p)
  let supplied := supplied.insertionSort (certificateLe · ·)
  let anchors := trustAnchors.insertionSort (certificateLe · ·)
  if supplied.any fun c => anchors.any (certificateEq c) then
    throw (.pathInvalid "trust anchor must not be supplied in the certificate chain")
  match leafIndices supplied with
  | [leaf] => searchPath p now supplied anchors leaf
  | [] => throw (.pathInvalid "certificate path contains a loop")
  | _ => throw (.pathInvalid "certificate bundle has ambiguous leaves")

/-! ### Profiles -/

structure RelyingPartyProfile where
  subject : String
  registered : Bool
  dnsSans : List String
deriving DecidableEq

def relyingPartyProfile (leaf : ParsedCert) : Except X509Error RelyingPartyProfile := do
  if leaf.isCa then throw (.profileViolation "leaf must be an end-entity")
  if !leaf.eku.contains ekuMdocReaderAuth then
    throw (.profileViolation "missing mdoc reader-auth EKU")
  if leaf.policies.isEmpty then throw (.profileViolation "missing RP certificate policy")
  return { subject := leaf.subject, registered := true, dnsSans := leaf.constraints.names.dns }

def checkRelyingParty (p : Platform) (chain : List Bytes) (trustAnchors : List ParsedCert) (now : ℤ) :
    Except X509Error RelyingPartyProfile := do
  match ← validatePath p chain trustAnchors now with
  | leaf :: _ => relyingPartyProfile leaf
  | [] => throw (.pathInvalid "empty constructed path")

def validCanonicalDnsName (host : String) : Bool :=
  host.utf8ByteSize ≤ 253 && hasChar '.' host && !isIpv4 host && !(utf8 host).any isAsciiUpper &&
    (splitStr '.' host).all (dnsLabel fun b => isAsciiLower b || isAsciiDigit b)

def validHttpsIssuerIdentity (identity : String) : Bool :=
  if !isAscii identity || identity.toList.any (fun c => isControl c || isWhite c) then false
  else match stripStart "https://" identity with
    | none => false
    | some authority =>
      if authority.isEmpty ||
          authority.toList.any (['/', '?', '#', '@', '\\', '[', ']'].contains ·) ||
          authority.toList.count ':' > 1 then false
      else
        let (host, port) := match rsplitOnce ':' authority with
          | some (host, port) => (host, some port)
          | none => (authority, none)
        validCanonicalDnsName host && match port with
          | none => true
          | some port => !(port.utf8ByteSize > 1 && startsWith "0" port) &&
            (parseU16 port).any fun n => n ≠ 0 ∧ n ≠ 443

structure ValidatedCredentialIssuer where
  identity : String
  publicKeyRaw : Bytes
  notBefore : ℤ
  notAfter : ℤ
deriving DecidableEq

def credentialIssuerProfile (leaf : ParsedCert) : Except X509Error ValidatedCredentialIssuer := do
  if leaf.isCa then throw (.profileViolation "credential issuer leaf must be an end-entity")
  let identity ← match leaf.uriSans with
    | [identity] =>
      if validHttpsIssuerIdentity identity then .ok identity
      else .error (.profileViolation "credential issuer identity must be an HTTPS URI")
    | [] => .error (.profileViolation "credential issuer identity URI is missing")
    | _ => .error (.profileViolation "credential issuer identity is ambiguous")
  return {
    identity
    publicKeyRaw := leaf.publicKeyRaw
    notBefore := leaf.notBefore
    notAfter := leaf.notAfter }

def checkCredentialIssuer (p : Platform) (chain : List Bytes) (trustAnchors : List ParsedCert)
    (now : ℤ) : Except X509Error ValidatedCredentialIssuer := do
  match ← validatePath p chain trustAnchors now with
  | leaf :: _ => credentialIssuerProfile leaf
  | [] => throw (.pathInvalid "empty constructed path")

end EuWallet.X509
