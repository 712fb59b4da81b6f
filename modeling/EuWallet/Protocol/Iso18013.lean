import EuWallet.Codec.Cbor
import EuWallet.Crypto.Platform

/-! # In-person presentation

The ISO/IEC 18013-5 machine: engagement, session establishment, device response. The facts of the
key agreement reach it as booleans; the session encryption lives above it. -/

namespace EuWallet.Protocol.Iso18013

open Codec Codec.Cbor Crypto

inductive AbortReason where
  | sessionTranscriptUnbound
  | readerKeyInvalid
  | requestOutOfOrder
  | noConsent
  | readerAuthInvalid
deriving DecidableEq

inductive State where
  | idle
  | engaged (deviceEngagement : Bytes)
  | sessionEstablished (sessionTranscript : Bytes)
  | signingResponse (sessionTranscript : Bytes)
  | responded
  | terminated
  | aborted (reason : AbortReason)
deriving DecidableEq

inductive Input where
  | startEngagement (deviceKeyCose bleUuid : Bytes)
  | readerEstablishment (eReaderKeyCose : Bytes)
  | consentGranted
  | consentDeclined
  | deviceSignatureProduced (signature : Bytes)
  | readerTermination
deriving DecidableEq

inductive Output where
  | emitDeviceEngagement (engagement : Bytes)
  | renderConsent
  | signDeviceAuth (keyRef : String) (signingInput : Bytes)
  | emitDeviceResponse (response : Bytes)
  | emitTermination
deriving DecidableEq

structure Env where
  readerKeyOnCurve : Bool
  transcriptBound : Bool
  readerAuthPresent : Bool
  readerAuthValid : Bool
  deviceKeyRef : String
deriving DecidableEq

namespace Guards

def sessionTranscriptIsBound (env : Env) : Bool := env.transcriptBound

def readerEphemeralKeyValid (env : Env) : Bool := env.readerKeyOnCurve

/-- Absent is allowed, present must verify. -/
def readerAuthValid (env : Env) : Bool := !env.readerAuthPresent || env.readerAuthValid

end Guards

def buildDeviceEngagement (deviceKeyCose bleUuid : Bytes) : Bytes :=
  (Value.map [
    (.uint 0, .text "1.0"),
    (.uint 1, .array [.uint 1, .tag 24 (.bytes deviceKeyCose)]),
    (.uint 2, .array [.array [.uint 2, .uint 1,
      .map [(.uint 0, .bool true), (.uint 11, .bytes bleUuid)]]])]).toCanonical

def sessionTranscript (deviceEngagement eReaderKeyCose : Bytes) : Bytes :=
  (Value.array [.tag 24 (.bytes deviceEngagement), .tag 24 (.bytes eReaderKeyCose), .null]).toCanonical

def sessionTranscriptBytes (transcript : Bytes) : Bytes := (Value.tag 24 (.bytes transcript)).toCanonical

def decodeFirst (b : Bytes) : Option Value :=
  match decodeValue (maxDepth + 1) b with
  | .ok (v, _) => some v
  | .error _ => none

def deviceAuthSigningInput (transcript : Bytes) : Bytes :=
  let deviceAuthentication := Value.array [.text "DeviceAuthentication",
    (decodeFirst transcript).getD .null, .text "org.iso.18013.5.1.mDL",
    .tag 24 (.bytes (Value.map []).toCanonical)]
  (Value.tag 24 (.bytes deviceAuthentication.toCanonical)).toCanonical

def assembleDeviceResponse (transcript signature : Bytes) : Bytes :=
  (Value.array [.text "DeviceResponse", .bytes transcript, .bytes signature]).toCanonical

def step (env : Env) (state : State) (input : Input) : State × List Output :=
  match state, input with
  | .idle, .startEngagement key uuid =>
    let engagement := buildDeviceEngagement key uuid
    (.engaged engagement, [.emitDeviceEngagement engagement])
  | .engaged engagement, .readerEstablishment key =>
    if !Guards.readerEphemeralKeyValid env then (.aborted .readerKeyInvalid, [])
    else if !Guards.sessionTranscriptIsBound env then (.aborted .sessionTranscriptUnbound, [])
    else if !Guards.readerAuthValid env then (.aborted .readerAuthInvalid, [])
    else (.sessionEstablished (sessionTranscript engagement key), [.renderConsent])
  | .sessionEstablished transcript, .consentGranted =>
    (.signingResponse transcript, [.signDeviceAuth env.deviceKeyRef (deviceAuthSigningInput transcript)])
  | .sessionEstablished _, .consentDeclined => (.aborted .noConsent, [.emitTermination])
  | .signingResponse transcript, .deviceSignatureProduced sig =>
    (.responded, [.emitDeviceResponse (assembleDeviceResponse transcript sig)])
  | .engaged _, .consentGranted => (.aborted .requestOutOfOrder, [])
  | _, .readerTermination => (.terminated, [.emitTermination])
  | s, _ => (s, [])

/-! ### Session encryption -/

inductive SessionError where
  | malformedKey
  | unsupportedKey
  | malformedMessage
  | crypto
  | counterExhausted
deriving DecidableEq

structure SessionCipher where
  skDevice : Bytes
  skReader : Bytes
  deviceCounter : ℕ
  readerCounter : ℕ
deriving DecidableEq

def SessionCipher.derive (p : Platform) (z transcript : Bytes) : SessionCipher :=
  let salt := (p.sha256 (sessionTranscriptBytes transcript)).1
  ⟨p.hkdfSha256 z salt (utf8 "SKDevice") 32, p.hkdfSha256 z salt (utf8 "SKReader") 32, 0, 0⟩

def sessionIv (last : UInt8) (counter : ℕ) : Bytes := List.replicate 7 0 ++ [last] ++ beBytes 4 counter

/-- `SessionCipher::seal_from_device`; the counter is spent also when sealing fails. -/
def SessionCipher.sealFromDevice (p : Platform) (c : SessionCipher) (plaintext : Bytes) :
    SessionCipher × Except SessionError Bytes :=
  if 2 ^ 32 ≤ c.deviceCounter + 1 then (c, .error .counterExhausted)
  else
    let c' := { c with deviceCounter := c.deviceCounter + 1 }
    (c', orErr .crypto (p.aeadSeal c.skDevice (sessionIv 1 c'.deviceCounter) [] plaintext))

def SessionCipher.openFromReader (p : Platform) (c : SessionCipher) (ciphertext : Bytes) :
    SessionCipher × Except SessionError Bytes :=
  if 2 ^ 32 ≤ c.readerCounter + 1 then (c, .error .counterExhausted)
  else
    let c' := { c with readerCounter := c.readerCounter + 1 }
    (c', orErr .crypto (p.aeadOpen c.skReader (sessionIv 0 c'.readerCounter) [] ciphertext))

def coordinate : Option Value → Option Bytes
  | some (.bytes b) => if b.length = 32 then some b else none
  | _ => none

def coseEc2ToSec1 (coseKey : Bytes) : Except SessionError Bytes := do
  match decodeFirst coseKey with
  | some (.map m) =>
    if m.lookup (.uint 1) ≠ some (.uint 2) then throw .unsupportedKey
    if m.lookup (.nint 0) ≠ some (.uint 1) then throw .unsupportedKey
    let x ← orErr .malformedKey (coordinate (m.lookup (.nint 1)))
    let y ← orErr .malformedKey (coordinate (m.lookup (.nint 2)))
    return 4 :: (x ++ y)
  | _ => throw .malformedKey

def sec1ToCoseEc2 (sec1 : Bytes) : Except SessionError Bytes :=
  if sec1.length ≠ 65 ∨ sec1.head? ≠ some 4 then .error .malformedKey
  else .ok (Value.map [(.uint 1, .uint 2), (.nint 0, .uint 1),
    (.nint 1, .bytes ((sec1.take 33).drop 1)), (.nint 2, .bytes (sec1.drop 33))]).toCanonical

def decodeMap (b : Bytes) : Except SessionError (List (Value × Value)) :=
  match decodeFirst b with
  | some (.map m) => .ok m
  | _ => .error .malformedMessage

def embedded : Option Value → Except SessionError Bytes
  | some (.tag 24 (.bytes b)) => .ok b
  | _ => .error .malformedMessage

/-- `parse_session_establishment`: the reader's key and its encrypted request. -/
def parseSessionEstablishment (b : Bytes) : Except SessionError (Bytes × Bytes) := do
  let m ← decodeMap b
  let key ← embedded (m.lookup (.text "eReaderKey"))
  match m.lookup (.text "data") with
  | some (.bytes data) => return (key, data)
  | _ => throw .malformedMessage

def sessionData (encrypted : Bytes) : Bytes := (Value.map [(.text "data", .bytes encrypted)]).toCanonical

structure DeviceRequestSummary where
  doctype : String
  claims : List (String × String)
deriving DecidableEq

def requestedElements : Value × Value → List (String × String)
  | (.text ns, .map items) => items.filterMap fun item => match item.1 with
    | .text element => some (ns, element)
    | _ => none
  | _ => []

def parseDeviceRequest (b : Bytes) : Except SessionError DeviceRequestSummary := do
  let m ← decodeMap b
  match m.lookup (.text "docRequests") with
  | some (.array (.map docRequest :: _)) =>
    let items ← decodeMap (← embedded (docRequest.lookup (.text "itemsRequest")))
    match items.lookup (.text "docType"), items.lookup (.text "nameSpaces") with
    | some (.text doctype), some (.map nameSpaces) =>
      return ⟨doctype, nameSpaces.flatMap requestedElements⟩
    | _, _ => throw .malformedMessage
  | _ => throw .malformedMessage

end EuWallet.Protocol.Iso18013
