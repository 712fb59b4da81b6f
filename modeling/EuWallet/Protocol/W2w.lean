import EuWallet.Codec.Cbor
import EuWallet.Crypto.Platform

/-! # Wallet-to-wallet transfer

The receiver's machine: a credential handed over by a peer is accepted only if its issuer signature
validates and the transfer is bound to this receiver. -/

namespace EuWallet.Protocol.W2w

open Codec Codec.Cbor Crypto

inductive RejectReason where
  | issuerInvalid
  | peerMismatch
  | outOfOrder
deriving DecidableEq

inductive State where
  | idle
  | awaitingTransfer
  | accepted (credential : Bytes)
  | rejected (reason : RejectReason)
deriving DecidableEq

inductive Input where
  | createOffer
  | transferReceived (issuerValid peerBound : Bool) (credential : Bytes)
deriving DecidableEq

inductive Output where
  | publishOffer
  | storeCredential (credential : Bytes)
  | close
deriving DecidableEq

def step (state : State) (input : Input) : State × List Output :=
  match state, input with
  | .idle, .createOffer => (.awaitingTransfer, [.publishOffer])
  | .awaitingTransfer, .transferReceived issuerValid peerBound credential =>
    if !issuerValid then (.rejected .issuerInvalid, [])
    else if !peerBound then (.rejected .peerMismatch, [])
    else (.accepted credential, [.storeCredential credential, .close])
  | .idle, .transferReceived _ _ _ => (.rejected .outOfOrder, [])
  | s, _ => (s, [])

def transferAuthorizationBinding (receiverId : String) (receiverKey credential : Bytes)
    (consentHash : Hash32) (nonce : ℕ) : Bytes :=
  (Value.array [.text "eudi-w2w-transfer-v1", .text receiverId, .bytes receiverKey, .bytes credential,
    .bytes consentHash.1, .uint nonce]).toCanonical

end EuWallet.Protocol.W2w
