import EuWallet.Formats.Cose
import EuWallet.Formats.TDate
import EuWallet.Lib.OrdMap

/-! # Mobile documents

The ISO/IEC 18013-5 credential: issuer-signed items whose digests the mobile security object lists,
and the device response that discloses some of them. A namespace map is a list in key order. -/

namespace EuWallet.Formats

open Codec Codec.Cbor Crypto Lib

inductive MdocError where
  | cose (e : CoseError)
  | cbor (e : CborError)
  | malformed (what : String)
  | digestMismatch
deriving DecidableEq

def mapGet (pairs : List (Value × Value)) (key : String) : Option Value := pairs.lookup (.text key)

def asText (what : String) : Value → Except MdocError String
  | .text s => .ok s
  | _ => .error (.malformed what)

def asBytes (what : String) : Value → Except MdocError Bytes
  | .bytes b => .ok b
  | _ => .error (.malformed what)

def asUint (what : String) : Value → Except MdocError ℕ
  | .uint n => .ok n
  | _ => .error (.malformed what)

def member {α : Type} (pairs : List (Value × Value)) (key what : String)
    (read : Value → Except MdocError α) : Except MdocError α := do
  read (← orErr (.malformed what) (mapGet pairs key))

def asTdate (what : String) : Value → Except MdocError String
  | .tag 0 (.text s) => if (TDate.parse s).isSome then .ok s else .error (.malformed what)
  | _ => .error (.malformed what)

def decodeCbor (b : Bytes) : Except MdocError Value := (fromCanonicalSlice b).mapError .cbor

def tag24 (inner : Bytes) : Bytes := (Value.tag 24 (.bytes inner)).toCanonical

def untag24 (b : Bytes) : Except MdocError Bytes := do
  match ← decodeCbor b with
  | .tag 24 (.bytes inner) => .ok inner
  | .tag 24 _ => .error (.malformed "tag24 content not a byte string")
  | _ => .error (.malformed "expected tag 24")

/-! ### Issuer-signed items -/

structure IssuerSignedItem where
  digestId : ℕ
  random : Bytes
  elementId : String
  elementValue : Value
deriving DecidableEq

namespace IssuerSignedItem

def toValue (i : IssuerSignedItem) : Value :=
  .map [(.text "digestID", .uint i.digestId), (.text "random", .bytes i.random),
    (.text "elementIdentifier", .text i.elementId), (.text "elementValue", i.elementValue)]

def fromValue : Value → Except MdocError IssuerSignedItem
  | .map pairs => do
    let digestId ← member pairs "digestID" "digestID" (asUint "digestID")
    let random ← member pairs "random" "random" (asBytes "random")
    let elementId ← member pairs "elementIdentifier" "elementId" (asText "elementIdentifier")
    let elementValue ← member pairs "elementValue" "elementValue" .ok
    return { digestId, random, elementId, elementValue }
  | _ => .error (.malformed "IssuerSignedItem not a map")

def toItemBytes (i : IssuerSignedItem) : Bytes := tag24 i.toValue.toCanonical

def fromItemBytes (b : Bytes) : Except MdocError IssuerSignedItem := do
  fromValue (← decodeCbor (← untag24 b))

def digest (p : Platform) (i : IssuerSignedItem) : Hash32 := p.sha256 i.toItemBytes

end IssuerSignedItem

/-! ### The mobile security object -/

structure ValidityInfo where
  signed : String
  validFrom : String
  validUntil : String
deriving DecidableEq

structure MsoStatus where
  uri : String
  index : ℕ
deriving DecidableEq

structure MobileSecurityObject where
  version : String
  digestAlgorithm : String
  docType : String
  valueDigests : List (String × List (ℕ × Hash32))
  deviceKey : Value
  validityInfo : ValidityInfo
  status : Option MsoStatus
deriving DecidableEq

def readDigests (pairs : List (Value × Value)) : Except MdocError (List (ℕ × Hash32)) :=
  pairs.foldlM (fun m kv => do
    let id ← asUint "digestID" kv.1
    let d ← asBytes "digest" kv.2
    let d ← orErr (.malformed "digest length") (toHash32 d)
    return OrdMap.insert id d m) []

def readValueDigests : Value → Except MdocError (List (String × List (ℕ × Hash32)))
  | .map pairs => pairs.foldlM (fun m kv => do
      let ns ← asText "namespace" kv.1
      match kv.2 with
      | .map ds => return OrdMap.insert ns (← readDigests ds) m
      | _ => throw (.malformed "namespace not a map")) []
  | _ => .error (.malformed "valueDigests not a map")

/-- The status reference of a mobile security object. -/
def readMsoStatus (pairs : List (Value × Value)) : Except MdocError (Option MsoStatus) :=
  match mapGet pairs "status" with
  | none => .ok none
  | some (.map statusPairs) =>
    match mapGet statusPairs "status_list" with
    | some (.map listPairs) => do
      let uri ← member listPairs "uri" "status_list.uri" (asText "status_list.uri")
      let index ← member listPairs "idx" "status_list.idx" (asUint "status_list.idx")
      return some { uri, index }
    | _ => .error (.malformed "status.status_list")
  | some _ => .error (.malformed "status not a map")

def MobileSecurityObject.fromValue : Value → Except MdocError MobileSecurityObject
  | .map pairs => do
    let valueDigests ← member pairs "valueDigests" "valueDigests" readValueDigests
    let deviceKey := match mapGet pairs "deviceKeyInfo" with
      | some (.map dki) => (mapGet dki "deviceKey").getD .null
      | _ => .null
    let vi ← match mapGet pairs "validityInfo" with
      | some (.map vi) => .ok vi
      | _ => .error (.malformed "validityInfo")
    let signed ← member vi "signed" "signed tdate" (asTdate "signed tdate")
    let validFrom ← member vi "validFrom" "validFrom tdate" (asTdate "validFrom tdate")
    let validUntil ← member vi "validUntil" "validUntil tdate" (asTdate "validUntil tdate")
    let status ← readMsoStatus pairs
    let version ← member pairs "version" "version" (asText "version")
    let digestAlgorithm ← member pairs "digestAlgorithm" "digestAlgorithm" (asText "digestAlgorithm")
    let docType ← member pairs "docType" "docType" (asText "docType")
    return {
      version, digestAlgorithm, docType, valueDigests, deviceKey
      validityInfo := ⟨signed, validFrom, validUntil⟩
      status }
  | _ => .error (.malformed "MSO not a map")

/-! ### The issuer-signed part -/

structure IssuerSigned where
  nameSpaces : List (String × List IssuerSignedItem)
  issuerAuth : CoseSign1
deriving DecidableEq

namespace IssuerSigned

def toValue (i : IssuerSigned) : Value :=
  .map [
    (.text "nameSpaces", .map (i.nameSpaces.map fun nsItems =>
      (.text nsItems.1, .array (nsItems.2.map fun it => .tag 24 (.bytes it.toValue.toCanonical))))),
    (.text "issuerAuth", i.issuerAuth.toValue)]

/-- The namespaces of an encoded credential. -/
def readNameSpaces : Value → Except MdocError (List (String × List IssuerSignedItem))
  | .map pairs => pairs.foldlM (fun m kv => do
      let ns ← asText "namespace" kv.1
      match kv.2 with
      | .array items =>
        return OrdMap.insert ns (← items.mapM fun it => IssuerSignedItem.fromItemBytes it.toCanonical) m
      | _ => throw (.malformed "namespace items not an array")) []
  | _ => .error (.malformed "nameSpaces not a map")

def fromValue : Value → Except MdocError IssuerSigned
  | .map pairs => do
    let nameSpaces ← member pairs "nameSpaces" "nameSpaces" readNameSpaces
    let issuerAuth ← member pairs "issuerAuth" "issuerAuth" fun v =>
      (CoseSign1.fromValue v).mapError fun _ => .malformed "issuerAuth"
    return { nameSpaces, issuerAuth }
  | _ => .error (.malformed "IssuerSigned not a map")

def parse (b : Bytes) : Except MdocError IssuerSigned := do fromValue (← decodeCbor b)

def decodeMso (i : IssuerSigned) : Except MdocError MobileSecurityObject := do
  let payload ← orErr (.malformed "issuerAuth has no payload") i.issuerAuth.payload
  MobileSecurityObject.fromValue (← decodeCbor (← untag24 payload))

def docType (i : IssuerSigned) : Except MdocError String := do
  let payload ← orErr (.malformed "issuerAuth payload") i.issuerAuth.payload
  let mso ← MobileSecurityObject.fromValue (← decodeCbor (← untag24 payload))
  return mso.docType

end IssuerSigned

def digestsMatch (p : Platform) (nameSpaces : List (String × List IssuerSignedItem))
    (mso : MobileSecurityObject) : Bool :=
  nameSpaces.all fun nsItems => (mso.valueDigests.lookup nsItems.1).any fun signed =>
    nsItems.2.all fun item => signed.lookup item.digestId == some (item.digest p)

def verifyIssuerSigned (p : Platform) (i : IssuerSigned) (issuerKey : Bytes) (alg : Alg) :
    Except MdocError MobileSecurityObject := do
  let payload ← orErr (.malformed "issuerAuth has no payload") i.issuerAuth.payload
  (i.issuerAuth.verify p alg issuerKey [] none).mapError .cose
  let mso ← MobileSecurityObject.fromValue (← decodeCbor (← untag24 payload))
  if digestsMatch p i.nameSpaces mso then return mso else throw .digestMismatch

/-! ### Device responses -/

def deviceAuthenticationBytes (sessionTranscript : Bytes) (docType : String)
    (deviceNamespacesBytes : Bytes) : Except MdocError Bytes := do
  let transcript ← decodeCbor sessionTranscript
  return tag24 (Value.array [.text "DeviceAuthentication", transcript, .text docType,
    .tag 24 (.bytes deviceNamespacesBytes)]).toCanonical

def oid4vpSessionTranscript (p : Platform) (clientId responseUri nonce mdocGeneratedNonce : String) : Bytes :=
  let hashOf (v : String) : Bytes :=
    (p.sha256 (Value.array [.text v, .text mdocGeneratedNonce]).toCanonical).1
  (Value.array [.null, .null,
    .array [.bytes (hashOf clientId), .bytes (hashOf responseUri), .text nonce]]).toCanonical

def dcapiHandoverInfo (origin nonce : String) (jwkThumbprint : Option Bytes) : Bytes :=
  (Value.array [.text origin, .text nonce,
    match jwkThumbprint with
      | some b => .bytes b
      | none => .null]).toCanonical

def oid4vpDcapiSessionTranscript (p : Platform) (origin nonce : String) (jwkThumbprint : Option Bytes) : Bytes :=
  (Value.array [.null, .null, .array [.text "OpenID4VPDCAPIHandover",
    .bytes (p.sha256 (dcapiHandoverInfo origin nonce jwkThumbprint)).1]]).toCanonical

def emptyDeviceNamespacesBytes : Bytes := (Value.map []).toCanonical

def deviceResponse (docType : String) (issuerSigned : IssuerSigned) (deviceNamespacesBytes : Bytes)
    (deviceSignature : CoseSign1) : Bytes :=
  let deviceSigned : Value := .map [
    (.text "nameSpaces", .tag 24 (.bytes deviceNamespacesBytes)),
    (.text "deviceAuth", .map [(.text "deviceSignature", deviceSignature.toValue)])]
  let document : Value := .map [
    (.text "docType", .text docType),
    (.text "issuerSigned", issuerSigned.toValue),
    (.text "deviceSigned", deviceSigned)]
  (Value.map [
    (.text "version", .text "1.0"),
    (.text "documents", .array [document]),
    (.text "status", .uint 0)]).toCanonical

end EuWallet.Formats
