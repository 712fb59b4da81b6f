import EuWallet.Codec.Cbor
import EuWallet.Crypto.Platform

/-! # COSE signatures

`COSE_Sign1` of the `cose` crate: reading a message, the bytes a signature covers, and verification.
The protected header is kept as the bytes on the wire; the unprotected one keeps the key id, the
certificate chain and a bounded number of private labels. -/

namespace EuWallet.Formats

open Codec Codec.Cbor Crypto

def labelAlg : ℕ := 1
def labelCrit : ℕ := 2
def labelKid : ℕ := 4
def labelX5chain : ℕ := 33

def maxX5chainCertificates : ℕ := 8
def maxX5chainCertificateBytes : ℕ := 64 * 1024
def maxX5chainTotalBytes : ℕ := 256 * 1024
def maxPrivateLabels : ℕ := 8
def maxPrivateLabelBytes : ℕ := 64 * 1024

def coseAlgId : Alg → ℤ
  | .es256 => -7
  | .es384 => -35
  | .edDsa => -8

def algFromId (id : ℤ) : Option Alg :=
  if id = -7 then some .es256 else if id = -35 then some .es384 else if id = -8 then some .edDsa
  else none

inductive CoseError where
  | crypto
  | unknownCriticalParam (label : ℤ)
  | malformedHeader
  | malformedStructure
  | algMismatch
deriving DecidableEq

inductive X5Chain where
  | single (certificate : Bytes)
  | chain (certificates : List Bytes)
deriving DecidableEq

def X5Chain.certificates : X5Chain → List Bytes
  | single c => [c]
  | chain cs => cs

def checkCertificateSizes : ℕ → List Bytes → Bool
  | _, [] => true
  | total, c :: rest =>
    !c.isEmpty && c.length ≤ maxX5chainCertificateBytes && total + c.length ≤ maxX5chainTotalBytes
      && checkCertificateSizes (total + c.length) rest

def X5Chain.validate : X5Chain → Bool
  | single c => checkCertificateSizes 0 [c]
  | chain cs => 2 ≤ cs.length && cs.length ≤ maxX5chainCertificates && checkCertificateSizes 0 cs

def asByteString : Value → Option Bytes
  | .bytes b => some b
  | _ => none

def X5Chain.fromValue : Value → Except CoseError X5Chain
  | .bytes c => if checkCertificateSizes 0 [c] then .ok (.single c) else .error .malformedHeader
  | .array items => do
    let cs ← orErr .malformedHeader (items.mapM asByteString)
    if (X5Chain.chain cs).validate then .ok (.chain cs) else .error .malformedHeader
  | _ => .error .malformedHeader

def X5Chain.toValue : X5Chain → Value
  | single c => .bytes c
  | chain cs => .array (cs.map .bytes)

structure UnprotectedHeader where
  kid : Option Bytes := none
  x5chain : Option X5Chain := none
  privateLabels : List (ℤ × Bytes) := []
deriving DecidableEq

def UnprotectedHeader.privateLabel (u : UnprotectedHeader) (label : ℤ) : Option Bytes :=
  u.privateLabels.lookup label

/-- `CoseSign1`; an absent payload is detached. -/
structure CoseSign1 where
  «protected» : Bytes
  unprotected : UnprotectedHeader
  payload : Option Bytes
  signature : Bytes
deriving DecidableEq

def sigStructure (prot externalAad payload : Bytes) : Bytes :=
  (Value.array [.text "Signature1", .bytes prot, .bytes externalAad, .bytes payload]).toCanonical

/-- An integer as a CBOR value. -/
def intValue (n : ℤ) : Value := if n < 0 then .nint (-1 - n).toNat else .uint n.toNat

def encodeProtectedHeader (alg : Alg) : Bytes :=
  (Value.map [(.uint labelAlg, intValue (coseAlgId alg))]).toCanonical

def integerLabel : Value → Except CoseError ℤ
  | .uint n => if n < 2 ^ 63 then .ok n else .error .malformedHeader
  | .nint n => if n < 2 ^ 63 then .ok (-1 - n) else .error .malformedHeader
  | _ => .error .malformedHeader

def headerValue (pairs : List (Value × Value)) (label : ℕ) : Option Value :=
  pairs.lookup (.uint label)

def uniqueHeaderLabels (pairs : List (Value × Value)) : Bool := decide (pairs.map (·.1)).Nodup

structure ProtectedHeader where
  alg : Alg
  kid : Option Bytes
  x5chain : Option X5Chain
deriving DecidableEq

/-- The labels of a `crit` header: known ones, present, none twice and not `crit` itself. -/
def checkCrit (pairs : List (Value × Value)) : List Value → List Value → Except CoseError Unit
  | _, [] => .ok ()
  | seen, item :: rest => do
    let lbl ← integerLabel item
    if lbl = labelCrit then throw .malformedHeader
    if lbl ≠ labelAlg ∧ lbl ≠ labelKid ∧ lbl ≠ labelX5chain then throw (.unknownCriticalParam lbl)
    if seen.contains item || !(pairs.any (·.1 == item)) then throw .malformedHeader
    checkCrit pairs (item :: seen) rest

/-- The key id of a header. -/
def readKid (pairs : List (Value × Value)) : Except CoseError (Option Bytes) :=
  match headerValue pairs labelKid with
  | some (.bytes kid) => .ok (some kid)
  | some _ => .error .malformedHeader
  | none => .ok none

/-- The certificate chain of a header. -/
def readX5chain (pairs : List (Value × Value)) : Except CoseError (Option X5Chain) :=
  match headerValue pairs labelX5chain with
  | some v => (X5Chain.fromValue v).map some
  | none => .ok none

def parseAndCheckProtectedHeader (prot : Bytes) : Except CoseError ProtectedHeader := do
  let pairs ← match fromCanonicalSlice prot with
    | .ok (.map pairs) => .ok pairs
    | _ => .error .malformedHeader
  if !uniqueHeaderLabels pairs then throw .malformedHeader
  match headerValue pairs labelCrit with
  | some (.array (item :: items)) => checkCrit pairs [] (item :: items)
  | some _ => throw .malformedHeader
  | none => pure ()
  let algValue ← orErr .malformedHeader (headerValue pairs labelAlg)
  let alg ← orErr .malformedHeader (algFromId (← integerLabel algValue))
  return { alg, kid := ← readKid pairs, x5chain := ← readX5chain pairs }

def privateLabelsOf (pairs : List (Value × Value)) : List (ℤ × Bytes) :=
  (pairs.filterMap fun kv => match integerLabel kv.1, kv.2 with
    | .ok label, .bytes b => if label < 0 ∧ b.length ≤ maxPrivateLabelBytes then some (label, b) else none
    | _, _ => none).take maxPrivateLabels

def parseUnprotectedHeader : Value → Except CoseError UnprotectedHeader
  | .map pairs => do
    if !uniqueHeaderLabels pairs then throw .malformedHeader
    if (headerValue pairs labelAlg).isSome || (headerValue pairs labelCrit).isSome then
      throw .malformedHeader
    return {
      kid := ← readKid pairs
      x5chain := ← readX5chain pairs
      privateLabels := privateLabelsOf pairs }
  | _ => .error .malformedStructure

/-- `check_header_collisions`. -/
def headersCollide (prot : ProtectedHeader) (unprot : UnprotectedHeader) : Bool :=
  (prot.kid.isSome && unprot.kid.isSome) || (prot.x5chain.isSome && unprot.x5chain.isSome) ||
    unprot.x5chain.any (!·.validate)

namespace CoseSign1

def verify (p : Platform) (m : CoseSign1) (expectedAlg : Alg) (publicKey externalAad : Bytes)
    (detachedPayload : Option Bytes) : Except CoseError Unit := do
  let header ← parseAndCheckProtectedHeader m.protected
  if headersCollide header m.unprotected then throw .malformedHeader
  if header.alg ≠ expectedAlg then throw .algMismatch
  let payload ← match m.payload, detachedPayload with
    | some b, none => .ok b
    | none, some b => .ok b
    | _, _ => .error .malformedStructure
  if !p.verify expectedAlg publicKey (sigStructure m.protected externalAad payload) m.signature then
    throw .crypto

def x5chain (m : CoseSign1) : Except CoseError (Option X5Chain) := do
  let header ← parseAndCheckProtectedHeader m.protected
  if headersCollide header m.unprotected then throw .malformedHeader
  return header.x5chain.or m.unprotected.x5chain

def fromValue : Value → Except CoseError CoseSign1
  | .array [.bytes prot, unprot, payload, signature] => do
    let header ← parseAndCheckProtectedHeader prot
    let unprotected ← parseUnprotectedHeader unprot
    if headersCollide header unprotected then throw .malformedHeader
    let payload ← match payload with
      | .bytes b => .ok (some b)
      | .null => .ok none
      | _ => .error .malformedStructure
    let signature ← orErr .malformedStructure (asByteString signature)
    return ⟨prot, unprotected, payload, signature⟩
  | _ => .error .malformedStructure

def toValue (m : CoseSign1) : Value :=
  let kid := m.unprotected.kid.toList.map fun k => (Value.uint labelKid, Value.bytes k)
  let chain := m.unprotected.x5chain.toList.map fun c => (Value.uint labelX5chain, c.toValue)
  let labels := m.unprotected.privateLabels.map fun lb => (intValue lb.1, Value.bytes lb.2)
  .array [.bytes m.protected, .map (kid ++ chain ++ labels),
    match m.payload with
      | some b => .bytes b
      | none => .null,
    .bytes m.signature]

end CoseSign1

end EuWallet.Formats
