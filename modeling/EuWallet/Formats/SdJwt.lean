import EuWallet.Crypto.Platform
import EuWallet.Lib.OrdMap

/-! # Selective disclosure

The SD-JWT VC of the `sdjwt` crate: an issuer-signed token whose payload holds digests in place of
claims, and the disclosures that open some of them. Verification walks the payload, replaces every
digest that has a disclosure and removes the others; each disclosure must be used exactly once. The
nesting bound is the recursion measure of the walk. -/

namespace EuWallet.Formats

open Codec Crypto Lib

def maxCompactBytes : ℕ := 1024 * 1024
def maxJwsBytes : ℕ := 512 * 1024
def maxDisclosureBytes : ℕ := 64 * 1024
def maxDisclosures : ℕ := 256
def maxNestingDepth : ℕ := 32
def maxEmbeddedDigests : ℕ := 4096
def maxProcessedJsonBytes : ℕ := 2 * 1024 * 1024

inductive SdJwtError where
  | malformed
  | invalidBase64
  | tooLarge
  | invalidJson
  | algNone
  | unsupportedAlg
  | invalidType
  | unknownCriticalParam
  | unsupportedHashAlg
  | unknownDisclosure
  | duplicateClaim
  | keyBindingMismatch
  | crypto
deriving DecidableEq

structure Disclosure where
  raw : String
  salt : String
  name : Option String
  value : Json
deriving DecidableEq

inductive ClaimPathElement where
  | name (s : String)
  | index (i : ℕ)
deriving DecidableEq

structure VerifiedDisclosure where
  raw : String
  digest : String
  path : List ClaimPathElement
  parentDigest : Option String
  value : Json
deriving DecidableEq

structure ProcessedSdJwt where
  claims : List (String × Json)
  disclosures : List VerifiedDisclosure
deriving DecidableEq

def Disclosure.parse (p : Platform) (raw : String) : Except SdJwtError Disclosure := do
  if maxDisclosureBytes < raw.utf8ByteSize then throw .tooLarge
  let b ← orErr .invalidBase64 (b64Decode raw)
  match ← orErr .invalidJson (p.parseJson b) with
  | .arr [salt, name, value] =>
    let salt ← orErr .invalidJson salt.asStr
    let name ← orErr .invalidJson name.asStr
    return { raw, salt, name := some name, value }
  | .arr [salt, value] =>
    let salt ← orErr .invalidJson salt.asStr
    return { raw, salt, name := none, value }
  | _ => throw .invalidJson

def Disclosure.digestB64 (p : Platform) (d : Disclosure) : String := b64Encode (p.sha256 (utf8 d.raw)).1

structure SdJwtVc where
  issuerJwt : String
  disclosures : List String
  keyBindingJwt : Option String
deriving DecidableEq

def SdJwtVc.parse (compact : String) : Except SdJwtError SdJwtVc := do
  if maxCompactBytes < compact.utf8ByteSize then throw .tooLarge
  match splitStr '~' compact with
  | issuerJwt :: next :: rest =>
    if maxJwsBytes < issuerJwt.utf8ByteSize then throw .tooLarge
    if issuerJwt.isEmpty || issuerJwt.toList.count '.' != 2 then throw .malformed
    let kb := (next :: rest).getLast (by simp)
    let parts := (next :: rest).dropLast
    if !kb.isEmpty && maxJwsBytes < kb.utf8ByteSize then throw .tooLarge
    if !kb.isEmpty && kb.toList.count '.' != 2 then throw .malformed
    if maxDisclosures < parts.length || parts.any (maxDisclosureBytes < ·.utf8ByteSize) then
      throw .tooLarge
    if parts.any (·.isEmpty) then throw .malformed
    return ⟨issuerJwt, parts, if kb.isEmpty then none else some kb⟩
  | _ => throw .malformed

/-! ### Tokens -/

structure JwsParts where
  header : Json
  payload : Bytes
  signingInput : String
  signature : Bytes
deriving DecidableEq

def splitJws (p : Platform) (jwt : String) : Except SdJwtError JwsParts := do
  if maxJwsBytes < jwt.utf8ByteSize then throw .tooLarge
  let (h, b, s) ← orErr .malformed (compactParts jwt)
  let header ← orErr .invalidBase64 (b64Decode h)
  let header ← orErr .invalidJson (p.parseJson header)
  let payload ← orErr .invalidBase64 (b64Decode b)
  let signature ← orErr .invalidBase64 (b64Decode s)
  return ⟨header, payload, h ++ "." ++ b, signature⟩

def parseJoseAlg (header : Json) : Except SdJwtError Alg := do
  let obj ← orErr .invalidJson header.asObject
  match obj.lookup "crit" with
  | none => pure ()
  | some crit =>
    let names ← orErr .invalidJson crit.asArray
    names.forM fun c => do
      let name ← orErr .invalidJson c.asStr
      if !(["alg", "typ", "kid"].contains name) then throw .unknownCriticalParam
  match (obj.lookup "alg").bind Json.asStr with
  | some alg =>
    if alg = "none" then throw .algNone
    else if alg = "ES256" then return .es256
    else if alg = "ES384" then return .es384
    else if alg = "EdDSA" then return .edDsa
    else throw .unsupportedAlg
  | none => throw .unsupportedAlg

/-! ### Disclosure processing -/

structure DisclosureProcessor where
  disclosureByDigest : List (String × Disclosure)
  usedDisclosures : List String := []
  encounteredDigests : List String := []
  verified : List VerifiedDisclosure := []
  outputBudget : ℕ
deriving DecidableEq

namespace DisclosureProcessor

/-- `encounter_digest`: the digests met so far are also the ones counted. -/
def encounterDigest (s : DisclosureProcessor) (digest : String) :
    Except SdJwtError DisclosureProcessor := do
  let decoded ← orErr .invalidBase64 (b64Decode digest)
  if decoded.length ≠ 32 then throw .invalidJson
  if maxEmbeddedDigests < s.encounteredDigests.length + 1 then throw .tooLarge
  if s.encounteredDigests.contains digest then throw .duplicateClaim
  return { s with encounteredDigests := digest :: s.encounteredDigests }

def consumeBudget (p : Platform) (s : DisclosureProcessor) (value : Json) : Except SdJwtError DisclosureProcessor :=
  let budget := s.outputBudget + (p.renderJson value).utf8ByteSize
  if maxProcessedJsonBytes < budget then .error .tooLarge else .ok { s with outputBudget := budget }

def recordDisclosure (s : DisclosureProcessor) (digest : String) (d : Disclosure)
    (path : List ClaimPathElement) (parentDigest : Option String) : Except SdJwtError DisclosureProcessor :=
  if s.usedDisclosures.contains digest then .error .duplicateClaim
  else .ok { s with
    usedDisclosures := digest :: s.usedDisclosures
    verified := s.verified ++ [⟨d.raw, digest, path, parentDigest, d.value⟩] }

/-- How the walk processes a value below the root: its path and its closest enclosing disclosure. -/
abbrev Walk := Json → List ClaimPathElement → Option String → DisclosureProcessor →
  Except SdJwtError (Json × DisclosureProcessor)

def processMembers (walk : Walk) (path : List ClaimPathElement) (parent : Option String) :
    List (String × Json) → DisclosureProcessor → Except SdJwtError (List (String × Json) × DisclosureProcessor)
  | [], s => .ok ([], s)
  | (name, child) :: rest, s => do
    let (child, s) ← walk child (path ++ [.name name]) parent s
    let (rest, s) ← processMembers walk path parent rest s
    return ((name, child) :: rest, s)

def processDigests (p : Platform) (walk : Walk) (path : List ClaimPathElement) (parent : Option String) :
    List Json → List (String × Json) → DisclosureProcessor →
    Except SdJwtError (List (String × Json) × DisclosureProcessor)
  | [], object, s => .ok (object, s)
  | v :: rest, object, s => do
    let digest ← orErr .invalidJson v.asStr
    let s ← s.encounterDigest digest
    match s.disclosureByDigest.lookup digest with
    | none => processDigests p walk path parent rest object s
    | some d =>
      let name ← orErr .invalidJson d.name
      if name = "_sd" ∨ name = "_sd_alg" ∨ name = "..." then throw .invalidJson
      if Json.hasKey object name then throw .duplicateClaim
      let s ← s.consumeBudget p d.value
      let childPath := path ++ [.name name]
      let s ← s.recordDisclosure digest d childPath parent
      let (value, s) ← walk d.value childPath (some digest) s
      processDigests p walk path parent rest (OrdMap.insert name value object) s

def arrayPlaceholder : Json → Except SdJwtError (Option String)
  | .obj m =>
    if Json.hasKey m "..." then
      if m.length ≠ 1 then .error .invalidJson
      else match (m.lookup "...").bind Json.asStr with
        | some digest => .ok (some digest)
        | none => .error .invalidJson
    else .ok none
  | _ => .ok none

/-- The loop over the elements of an array; undisclosed ones disappear. -/
def processElements (p : Platform) (walk : Walk) (path : List ClaimPathElement) (parent : Option String) :
    List Json → List Json → DisclosureProcessor → Except SdJwtError (List Json × DisclosureProcessor)
  | [], done, s => .ok (done, s)
  | element :: rest, done, s => do
    let childPath := path ++ [.index done.length]
    match ← arrayPlaceholder element with
    | some digest =>
      let s ← s.encounterDigest digest
      match s.disclosureByDigest.lookup digest with
      | none => processElements p walk path parent rest done s
      | some d =>
        if d.name.isSome then throw .invalidJson
        let s ← s.consumeBudget p d.value
        let s ← s.recordDisclosure digest d childPath parent
        let (value, s) ← walk d.value childPath (some digest) s
        processElements p walk path parent rest (done ++ [value]) s
    | none =>
      let (value, s) ← walk element childPath parent s
      processElements p walk path parent rest (done ++ [value]) s

def digestValues (object : List (String × Json)) : Except SdJwtError (List Json) :=
  match object.lookup "_sd" with
  | none => .ok []
  | some (.arr values) => .ok values
  | some _ => .error .invalidJson

/-- `process_value`; the first argument is `MAX_NESTING_DEPTH + 1 - depth`. -/
def processValue (p : Platform) : ℕ → Bool → Walk
  | 0, _, _, _, _, _ => .error .tooLarge
  | levels + 1, isRoot, value, path, parent, s =>
    let walk : Walk := processValue p levels false
    match value with
    | .obj object => do
      if !isRoot && Json.hasKey object "_sd_alg" then throw .invalidJson
      let object := OrdMap.erase "_sd_alg" object
      if Json.hasKey object "..." then throw .invalidJson
      let digests ← digestValues object
      let (object, s) ← processMembers walk path parent (OrdMap.erase "_sd" object) s
      let (object, s) ← processDigests p walk path parent digests object s
      return (.obj object, s)
    | .arr elements => do
      let (elements, s) ← processElements p walk path parent elements [] s
      return (.arr elements, s)
    | value => .ok (value, s)

end DisclosureProcessor

namespace SdJwtVc

/-- Index every disclosure by its digest; none may occur twice. -/
def indexDisclosures (p : Platform) (raws : List String) : Except SdJwtError (List (String × Disclosure)) :=
  raws.foldlM (fun m raw => do
    let d ← Disclosure.parse p raw
    let digest := d.digestB64 p
    if (m.lookup digest).isSome then throw .duplicateClaim
    return OrdMap.insert digest d m) []

def checkHashAlg (payload : List (String × Json)) : Except SdJwtError Unit :=
  match payload.lookup "_sd_alg" with
  | none => .ok ()
  | some (.str v) => if v = "sha-256" then .ok () else .error .unsupportedHashAlg
  | some _ => .error .invalidJson

def verifyAndProcess (p : Platform) (c : SdJwtVc) (issuerKey : Bytes) (expectedAlg : Alg) :
    Except SdJwtError ProcessedSdJwt := do
  let jws ← splitJws p c.issuerJwt
  let alg ← parseJoseAlg jws.header
  if alg ≠ expectedAlg then throw .unsupportedAlg
  if (jws.header.get "typ").bind Json.asStr ≠ some "dc+sd-jwt" then throw .invalidType
  if !p.verify expectedAlg issuerKey (utf8 jws.signingInput) jws.signature then throw .crypto
  let payload ← orErr .invalidJson (p.parseJson jws.payload)
  checkHashAlg (← orErr .invalidJson payload.asObject)
  let disclosureByDigest ← indexDisclosures p c.disclosures
  let start : DisclosureProcessor :=
    { disclosureByDigest, outputBudget := (p.renderJson payload).utf8ByteSize }
  let (payload, s) ← DisclosureProcessor.processValue p (maxNestingDepth + 1) true payload [] none start
  if s.usedDisclosures.length ≠ disclosureByDigest.length then throw .unknownDisclosure
  if maxProcessedJsonBytes < (p.renderJson payload).utf8ByteSize then throw .tooLarge
  let claims ← orErr .invalidJson payload.asObject
  return { claims, disclosures := s.verified }

def issuerAlgorithm (p : Platform) (c : SdJwtVc) : Except SdJwtError Alg := do
  let jws ← splitJws p c.issuerJwt
  if (jws.header.get "typ").bind Json.asStr ≠ some "dc+sd-jwt" then throw .invalidType
  parseJoseAlg jws.header

def issuerPayload (p : Platform) (c : SdJwtVc) : Except SdJwtError (List (String × Json)) := do
  let jws ← splitJws p c.issuerJwt
  let payload ← orErr .invalidJson (p.parseJson jws.payload)
  orErr .invalidJson payload.asObject

end SdJwtVc

end EuWallet.Formats
