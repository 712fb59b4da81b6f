import EuWallet.Codec.Cbor
import EuWallet.Crypto.Platform

/-! # Payment authorisation

The strong-customer-authentication machine. The device signs a canonical binding over the payee, the
amount, the currency and the nonce of the confirmed request. -/

namespace EuWallet.Protocol.Payment

open Codec Codec.Cbor Crypto

structure PaymentRequest where
  creditorName : String
  creditorAccount : String
  amountMinor : ℕ
  currency : String
  transactionId : String
  nonce : ℕ
  responseUri : String
deriving DecidableEq

structure PendingAuthorization where
  request : PaymentRequest
  binding : Bytes
deriving DecidableEq

inductive AbortReason where
  | malformedRequest
  | invalidAmount
  | payeeMissing
  | nonceReplayed
  | userDeclined
deriving DecidableEq

inductive State where
  | idle
  | awaitingConfirmation (req : PaymentRequest)
  | awaitingSca (pending : PendingAuthorization)
  | authorized (authCode : Bytes)
  | aborted (reason : AbortReason)
deriving DecidableEq

inductive Input where
  | paymentAuthorizationRequest (request : Bytes)
  | userApproved
  | userDeclined
  | authCodeSignatureProduced (signature : Bytes)
deriving DecidableEq

inductive Output where
  | renderPaymentConfirmation (creditorName creditorAccount : String) (amountMinor : ℕ)
      (currency : String)
  | signAuthCode (keyRef : String) (signingInput : Bytes)
  | sendAuthorization (authCode : Bytes)
  | close
deriving DecidableEq

structure Env where
  seenNonces : List ℕ
  deviceKeyRef : String
deriving DecidableEq

def dynamicLinkingBinding (req : PaymentRequest) : Bytes :=
  (Value.array [.text "eudi-payment-sca-v1", .text req.creditorName, .text req.creditorAccount,
    .uint req.amountMinor, .text req.currency, .text req.transactionId, .uint req.nonce]).toCanonical

def parseRequest (p : Platform) (b : Bytes) : Option PaymentRequest := do
  let v ← p.parseJson b
  let text (k : String) : Option String := (v.get k).bind Json.asStr
  return {
    creditorName := ← text "creditor_name"
    creditorAccount := ← text "creditor_account"
    amountMinor := ← (v.get "amount_minor").bind Json.asU64
    currency := ← text "currency"
    transactionId := (text "transaction_id").getD ""
    nonce := ← (v.get "nonce").bind Json.asU64
    responseUri := (text "response_uri").getD "" }

def requestRefusal (env : Env) (req : PaymentRequest) : Option AbortReason :=
  if req.amountMinor = 0 then some .invalidAmount
  else if (trim req.creditorName).isEmpty || (trim req.creditorAccount).isEmpty then some .payeeMissing
  else if env.seenNonces.contains req.nonce then some .nonceReplayed
  else none

def step (p : Platform) (env : Env) (state : State) (input : Input) : State × List Output :=
  match state, input with
  | .idle, .paymentAuthorizationRequest b => match parseRequest p b with
    | none => (.aborted .malformedRequest, [])
    | some req => match requestRefusal env req with
      | some reason => (.aborted reason, [])
      | none => (.awaitingConfirmation req, [.renderPaymentConfirmation req.creditorName
          req.creditorAccount req.amountMinor req.currency])
  | .awaitingConfirmation req, .userApproved =>
    (.awaitingSca ⟨req, dynamicLinkingBinding req⟩,
      [.signAuthCode env.deviceKeyRef (dynamicLinkingBinding req)])
  | .awaitingConfirmation _, .userDeclined => (.aborted .userDeclined, [.close])
  | .awaitingSca _, .authCodeSignatureProduced sig =>
    (.authorized sig, [.sendAuthorization sig, .close])
  | s, _ => (s, [])

end EuWallet.Protocol.Payment
