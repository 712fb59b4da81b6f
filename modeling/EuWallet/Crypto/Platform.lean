import EuWallet.Codec.Json

/-! # The platform

Everything the wallet core calls that is not its own code: the cryptographic backend behind
`crypto_traits`, the JSON reader and writer of `serde_json`, the DER decoder of `x509-cert`, the
inflater of `miniz_oxide`, Unicode case folding and the standard reader of IPv6 addresses.
A `Platform` is one choice of these functions; every result holds for all of them. The decoder of
certificates returns the fields of `x509_cert::Certificate` that the wallet reads. -/

namespace EuWallet.Crypto

open Codec

inductive Alg where
  | es256
  | es384
  | edDsa
deriving DecidableEq

inductive CertificateSignatureAlg where
  | ecdsaSha256
  | ecdsaSha384
  | ed25519
  | rsaPkcs1Sha256
  | rsaPkcs1Sha384
  | rsaPkcs1Sha512
deriving DecidableEq

/-- Public-key families of X.509 certificates. -/
inductive CertificatePublicKeyAlg where
  | ecP256
  | ecP384
  | ed25519
  | rsa
deriving DecidableEq

/-! ### What the DER decoder returns -/

/-- The tags of `der::asn1::Any` that the wallet distinguishes. -/
inductive DerTag where
  | utf8String
  | printableString
  | ia5String
  | teletexString
  | bmpString
  | null
  | other
deriving DecidableEq

/-- `der::asn1::Any`; `asOid` is its reading as an object identifier, if it is one. -/
structure DerAny where
  tag : DerTag
  value : Bytes
  asOid : Option String
deriving DecidableEq

/-- `AlgorithmIdentifierOwned`. -/
structure AlgorithmIdentifier where
  oid : String
  parameters : Option DerAny
deriving DecidableEq

/-- A distinguished name: the attributes of each relative name. -/
abbrev Name := List (List (String × DerAny))

/-- `GeneralName`, with the three forms the wallet has no use for in one constructor. -/
inductive GeneralName where
  | dnsName (s : String)
  | uniformResourceIdentifier (s : String)
  | ipAddress (b : Bytes)
  | rfc822Name (s : String)
  | directoryName (n : Name)
  | unsupported
deriving DecidableEq

structure GeneralSubtree where
  base : GeneralName
  minimum : ℕ
  maximum : Option ℕ
deriving DecidableEq

/-- The content of an extension as its own decoder returns it. `malformed` is a supported extension
whose content does not decode, `unknown` is every extension the wallet has no decoder for. -/
inductive ExtensionContent where
  | basicConstraints (ca : Bool) (pathLen : Option ℕ)
  | keyUsage (digitalSignature keyCertSign : Bool)
  | extendedKeyUsage (oids : List String)
  | certificatePolicies (policies : List (String × Bool))
  | policyMappings (mappings : List (String × String))
  | policyConstraints (requireExplicit inhibitMapping : Option ℕ)
  | inhibitAnyPolicy (skip : ℕ)
  | subjectAltName (names : List GeneralName)
  | nameConstraints (permitted excluded : Option (List GeneralSubtree))
  | subjectKeyIdentifier (id : Bytes)
  | authorityKeyIdentifier (id : Option Bytes)
  | malformed
  | unknown
deriving DecidableEq

/-- One extension of a certificate. -/
structure Extension where
  oid : String
  critical : Bool
  content : ExtensionContent
deriving DecidableEq

/-- `x509_cert::Certificate`. A bit string is `none` when its length is not a number of bytes. -/
structure Certificate where
  tbsDer : Bytes
  signature : Option Bytes
  signatureAlgorithm : AlgorithmIdentifier
  tbsSignature : AlgorithmIdentifier
  spkiDer : Bytes
  spkiAlgorithm : AlgorithmIdentifier
  subjectPublicKey : Option Bytes
  subject : Name
  subjectDer : Bytes
  subjectText : String
  issuer : Name
  issuerDer : Bytes
  issuerText : String
  notBefore : ℤ
  notAfter : ℤ
  extensions : Option (List Extension)
deriving DecidableEq

/-! ### The platform functions -/

/-- The random bytes one call of the core may draw. -/
abbrev Entropy := Bytes

/-- `P256AgreementKey`: the private half stays opaque. -/
structure AgreementKey where
  secret : Bytes
  publicRaw : Bytes
deriving DecidableEq

structure EcdhEs where
  ephemeralPublic : Bytes
  sharedSecret : Bytes
deriving DecidableEq

/-- Why an inflation stopped: its output reached the limit, or its input is not a zlib stream. -/
inductive InflateError where
  | limit
  | malformed
deriving DecidableEq

/-- The functions of the platform. Fallible ones return an option. -/
structure Platform where
  sha256 : Bytes → Hash32
  verify : Alg → Bytes → Bytes → Bytes → Bool
  verifyCertificate : CertificateSignatureAlg → Bytes → Bytes → Bytes → Bool
  validateCertificatePublicKey : CertificatePublicKeyAlg → Bytes → Bool
  aeadSeal : Bytes → Bytes → Bytes → Bytes → Option Bytes
  aeadOpen : Bytes → Bytes → Bytes → Bytes → Option Bytes
  hkdfSha256 : Bytes → Bytes → Bytes → ℕ → Bytes
  ecdhEsP256 : Entropy → Bytes → Option EcdhEs
  generateP256 : Entropy → Option AgreementKey
  agree : AgreementKey → Bytes → Option Bytes
  randomIv : Entropy → Bytes
  parseJson : Bytes → Option Json
  renderJson : Json → String
  decodeCertificate : Bytes → Option Certificate
  decodeRsaPublicKey : Bytes → Option (Bytes × Bytes)
  decodeUtf16 : List ℕ → Option String
  fromUtf8Lossy : Bytes → String
  toLowercase : String → String
  isIpv6 : String → Bool
  inflate : ℕ → Bytes → Except InflateError Bytes

/-- A platform on which every fallible call fails and every hash is the zero hash. -/
instance : Inhabited Platform where
  default :=
    { sha256 := fun _ => zeroHash
      verify := fun _ _ _ _ => false
      verifyCertificate := fun _ _ _ _ => false
      validateCertificatePublicKey := fun _ _ => false
      aeadSeal := fun _ _ _ _ => none
      aeadOpen := fun _ _ _ _ => none
      hkdfSha256 := fun _ _ _ _ => []
      ecdhEsP256 := fun _ _ => none
      generateP256 := fun _ => none
      agree := fun _ _ => none
      randomIv := fun _ => []
      parseJson := fun _ => none
      renderJson := fun _ => ""
      decodeCertificate := fun _ => none
      decodeRsaPublicKey := fun _ => none
      decodeUtf16 := fun _ => none
      fromUtf8Lossy := fun _ => ""
      toLowercase := id
      isIpv6 := fun _ => false
      inflate := fun _ _ => .error .malformed }

def orErr {ε α : Type*} (e : ε) : Option α → Except ε α
  | some a => .ok a
  | none => .error e

theorem orErr_eq_ok {ε α : Type*} {e : ε} {x : Option α} {a : α} : orErr e x = .ok a ↔ x = some a := by
  cases x <;> simp [orErr]

def compactParts (s : String) : Option (String × String × String) :=
  match splitStr '.' s with
  | [header, payload, signature] => some (header, payload, signature)
  | _ => none

/-- Decode a base64url part of a token as JSON. -/
def Platform.partJson (p : Platform) (part : String) : Option Json :=
  (b64Decode part).bind p.parseJson

end EuWallet.Crypto
