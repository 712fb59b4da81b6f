import EuWallet.Codec.Cbor
import EuWallet.Crypto.Platform

/-! # Qualified signatures

The authorisation machine for a remote qualified signature. What the device signs commits to the
document and to the hash of the confirmation screen the user saw. -/

namespace EuWallet.Protocol.Qes

open Codec Codec.Cbor Crypto

structure SignRequest where
  documentName : String
  documentHash : Bytes
  qtspId : String
  nonce : ℕ
deriving DecidableEq

structure PendingAuthorization where
  request : SignRequest
  consentHash : Hash32
deriving DecidableEq

inductive AbortReason where
  | malformedRequest
  | documentHashMissing
  | nonceReplayed
  | userDeclined
deriving DecidableEq

/-- `QesState`. -/
inductive State where
  | idle
  | awaitingAuthorization (req : SignRequest)
  | awaitingSca (pending : PendingAuthorization)
  | signed (authorization : Bytes)
  | aborted (reason : AbortReason)
deriving DecidableEq

inductive Input where
  | signatureRequest (request : Bytes)
  | userAuthorized
  | userDeclined
  | authorizationSignatureProduced (signature : Bytes)
deriving DecidableEq

inductive Output where
  | renderSignConfirmation (documentName qtspId : String) (documentHash : Bytes)
  | signAuthorization (keyRef : String) (signingInput : Bytes)
  | sendToQtsp (authorization : Bytes)
  | close
deriving DecidableEq

structure Env where
  seenNonces : List ℕ
  deviceKeyRef : String
  consentHash : Hash32
deriving DecidableEq

def qesAuthorizationBinding (req : SignRequest) (consentHash : Hash32) : Bytes :=
  (Value.array [.text "eudi-qes-authorization-v1", .bytes req.documentHash, .bytes consentHash.1,
    .text req.qtspId, .uint req.nonce]).toCanonical

/-- The value of a hexadecimal digit of either case. -/
def nibble (c : UInt8) : Option UInt8 :=
  if 48 ≤ c && c ≤ 57 then some (c - 48)
  else if 97 ≤ c && c ≤ 102 then some (c - 97 + 10)
  else if 65 ≤ c && c ≤ 70 then some (c - 65 + 10)
  else none

def hexDecode : Bytes → Option Bytes
  | [] => some []
  | [_] => none
  | a :: b :: rest => do
    let high ← nibble a
    let low ← nibble b
    return (high <<< 4 ||| low) :: (← hexDecode rest)

def parseRequest (p : Platform) (b : Bytes) : Option SignRequest := do
  let v ← p.parseJson b
  let text (k : String) : Option String := (v.get k).bind Json.asStr
  let documentHash ← hexDecode (utf8 ((text "document_hash_hex").getD ""))
  return {
    documentName := (text "document_name").getD ""
    documentHash
    qtspId := ← text "qtsp_id"
    nonce := ← (v.get "nonce").bind Json.asU64 }

def requestRefusal (env : Env) (req : SignRequest) : Option AbortReason :=
  if req.documentHash.isEmpty then some .documentHashMissing
  else if env.seenNonces.contains req.nonce then some .nonceReplayed
  else none

def step (p : Platform) (env : Env) (state : State) (input : Input) : State × List Output :=
  match state, input with
  | .idle, .signatureRequest b => match parseRequest p b with
    | none => (.aborted .malformedRequest, [])
    | some req => match requestRefusal env req with
      | some reason => (.aborted reason, [])
      | none => (.awaitingAuthorization req,
          [.renderSignConfirmation req.documentName req.qtspId req.documentHash])
  | .awaitingAuthorization req, .userAuthorized =>
    (.awaitingSca ⟨req, env.consentHash⟩,
      [.signAuthorization env.deviceKeyRef (qesAuthorizationBinding req env.consentHash)])
  | .awaitingAuthorization _, .userDeclined => (.aborted .userDeclined, [])
  | .awaitingSca _, .authorizationSignatureProduced sig => (.signed sig, [.sendToQtsp sig, .close])
  | s, _ => (s, [])

end EuWallet.Protocol.Qes
