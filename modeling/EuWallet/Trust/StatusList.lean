import EuWallet.Crypto.Platform

/-! # Token status lists

A status provider signs a packed list of `bits` wide entries; a credential names its index. A parsed
list carries the moment until which the wallet may use it. -/

namespace EuWallet.Trust

open Codec Crypto

def maxTokenBytes : ℕ := 2 * 1024 * 1024
def maxDecompressedBytes : ℕ := 8 * 1024 * 1024
def maxStatusAgeSeconds : ℤ := 24 * 60 * 60
def defaultCacheTtlSeconds : ℤ := 60 * 60
def clockSkewSeconds : ℤ := 300

inductive CredentialStatus where
  | valid
  | invalid
  | suspended
  | unknown
deriving DecidableEq

inductive StatusError where
  | badSignature
  | expired
  | notYetValid
  | stale
  | subjectMismatch
  | malformed
  | unsupportedAlg
  | unsupportedHeader
  | unsupportedBits
  | resourceLimit
deriving DecidableEq

inductive StatusBits where
  | one
  | two
  | four
  | eight
deriving DecidableEq

def StatusBits.val : StatusBits → ℕ
  | one => 1
  | two => 2
  | four => 4
  | eight => 8

/-- The widths the parser accepts. -/
def StatusBits.read : ℕ → Option StatusBits
  | 1 => some .one
  | 2 => some .two
  | 4 => some .four
  | 8 => some .eight
  | _ => none

structure StatusList where
  subject : String
  bits : StatusBits
  list : Bytes
  issuedAt : ℤ
  freshUntil : ℤ
deriving DecidableEq

namespace StatusList

def isFreshAt (l : StatusList) (now : ℤ) : Bool :=
  l.issuedAt ≤ satAdd64 now clockSkewSeconds && now < l.freshUntil

def statusAt (l : StatusList) (index : ℕ) : CredentialStatus :=
  let perByte := 8 / l.bits.val
  match l.list[index / perByte]? with
  | none => .unknown
  | some byte =>
    match byte.toNat / 2 ^ (index % perByte * l.bits.val) % 2 ^ l.bits.val with
    | 0 => .valid
    | 1 => .invalid
    | 2 => .suspended
    | _ => .unknown

def joseName : Alg → String
  | .es256 => "ES256"
  | .es384 => "ES384"
  | .edDsa => "EdDSA"

def checkedAdd (a b : ℤ) : Option ℤ :=
  if -2 ^ 63 ≤ a + b ∧ a + b < 2 ^ 63 then some (a + b) else none

/-- The header checks of `parse_and_verify` besides the algorithm. -/
def headerAccepted (header : Json) : Bool :=
  (header.get "typ").bind Json.asStr == some "statuslist+jwt" &&
    ["crit", "jwk", "jku", "x5u"].all fun k => (header.get k).isNone

/-- The expiry of a token: absent, or after its issuance and in the future. -/
def readExpiry (payload : Json) (issuedAt now : ℤ) : Except StatusError (Option ℤ) :=
  match payload.get "exp" with
  | none => .ok none
  | some v => match v.asI64 with
    | none => .error .malformed
    | some exp => if exp ≤ issuedAt ∨ exp ≤ now then .error .expired else .ok (some exp)

/-- The caching interval of a token. -/
def readTtl (payload : Json) : Except StatusError ℤ :=
  match payload.get "ttl" with
  | none => .ok defaultCacheTtlSeconds
  | some v => match v.asI64 with
    | none => .error .malformed
    | some ttl => if 0 < ttl then .ok (min ttl maxStatusAgeSeconds) else .error .malformed

def parseAndVerify (p : Platform) (token : Bytes) (expectedUri : String) (providerKey : Bytes)
    (alg : Alg) (now : ℤ) : Except StatusError StatusList := do
  if token.isEmpty || maxTokenBytes < token.length then throw .resourceLimit
  let s ← orErr .malformed (fromUtf8 token)
  let (header, payload, signature) ← orErr .malformed (compactParts s)
  let headerJson ← orErr .malformed (p.partJson header)
  if (headerJson.get "alg").bind Json.asStr ≠ some (joseName alg) then throw .unsupportedAlg
  if !headerAccepted headerJson then throw .unsupportedHeader
  let sig ← orErr .malformed (b64Decode signature)
  if !p.verify alg providerKey (utf8 (header ++ "." ++ payload)) sig then throw .badSignature
  let body ← orErr .malformed (p.partJson payload)
  let subject ← orErr .malformed (((body.get "sub").bind Json.asStr).filter (!·.isEmpty))
  if subject ≠ expectedUri then throw .subjectMismatch
  let issuedAt ← orErr .malformed ((body.get "iat").bind Json.asI64)
  if satAdd64 now clockSkewSeconds < issuedAt then throw .notYetValid
  if issuedAt < satAdd64 now (-maxStatusAgeSeconds) then throw .stale
  let expiresAt ← readExpiry body issuedAt now
  let ttl ← readTtl body
  let untilTtl ← orErr .malformed (checkedAdd now ttl)
  let untilAge ← orErr .malformed (checkedAdd issuedAt maxStatusAgeSeconds)
  let freshUntil := min untilTtl untilAge
  let freshUntil := (expiresAt.map (min freshUntil)).getD freshUntil
  let sl ← orErr .malformed (body.get "status_list")
  let bits ← orErr .unsupportedBits (((sl.get "bits").bind Json.asU64).bind StatusBits.read)
  let lst ← orErr .malformed ((sl.get "lst").bind Json.asStr)
  if maxTokenBytes < lst.utf8ByteSize then throw .resourceLimit
  let compressed ← orErr .malformed (b64Decode lst)
  let list ← match p.inflate maxDecompressedBytes compressed with
    | .ok list => .ok list
    | .error .limit => .error .resourceLimit
    | .error .malformed => .error .malformed
  if list.isEmpty then throw .malformed
  return { subject, bits, list, issuedAt, freshUntil }

end StatusList

end EuWallet.Trust
