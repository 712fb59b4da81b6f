import EuWallet.Codec.Canonical
import EuWallet.Protocol.Payment
import EuWallet.Protocol.Qes

/-! # What a binding commits to

The bytes the device signs for a payment or a qualified signature are the canonical encoding of an array
of the request's fields, so equal bytes come from equal fields. `Typed` says that a request is one the
source's types can hold: its numbers are `u64`, no text has `2 ^ 64` bytes and no vector `2 ^ 63`. -/

namespace EuWallet.Protocol

open Codec Codec.Cbor Crypto

namespace Payment

structure PaymentRequest.Typed (req : PaymentRequest) : Prop where
  creditorName : req.creditorName.utf8ByteSize < 2 ^ 64
  creditorAccount : req.creditorAccount.utf8ByteSize < 2 ^ 64
  amountMinor : req.amountMinor < 2 ^ 64
  currency : req.currency.utf8ByteSize < 2 ^ 64
  transactionId : req.transactionId.utf8ByteSize < 2 ^ 64
  nonce : req.nonce < 2 ^ 64

theorem dynamicLinkingBinding_injective {r s : PaymentRequest} (hr : r.Typed) (hs : s.Typed)
    (h : dynamicLinkingBinding r = dynamicLinkingBinding s) :
    r.creditorName = s.creditorName ∧ r.creditorAccount = s.creditorAccount ∧
      r.amountMinor = s.amountMinor ∧ r.currency = s.currency ∧ r.transactionId = s.transactionId ∧
      r.nonce = s.nonce := by
  have htag : "eudi-payment-sca-v1".utf8ByteSize < 2 ^ 64 := by decide
  have hfits {req : PaymentRequest} (hreq : req.Typed) : (Value.array
      [.text "eudi-payment-sca-v1", .text req.creditorName, .text req.creditorAccount,
        .uint req.amountMinor, .text req.currency, .text req.transactionId, .uint req.nonce]).Fits :=
    ⟨by simp, htag, hreq.creditorName, hreq.creditorAccount, hreq.amountMinor, hreq.currency,
      hreq.transactionId, hreq.nonce, trivial⟩
  have hnormal := normalise_eq_of_toCanonical_eq (hfits hr) (hfits hs) h
  simpa [Value.normalise, Value.normaliseItems] using hnormal

end Payment

namespace Qes

structure SignRequest.Typed (req : SignRequest) : Prop where
  documentName : req.documentName.utf8ByteSize < 2 ^ 64
  documentHash : req.documentHash.length < 2 ^ 63
  qtspId : req.qtspId.utf8ByteSize < 2 ^ 64
  nonce : req.nonce < 2 ^ 64

theorem qesAuthorizationBinding_injective {r s : SignRequest} {hash hash' : Hash32} (hr : r.Typed)
    (hs : s.Typed) (h : qesAuthorizationBinding r hash = qesAuthorizationBinding s hash') :
    r.documentHash = s.documentHash ∧ hash = hash' ∧ r.qtspId = s.qtspId ∧ r.nonce = s.nonce := by
  have htag : "eudi-qes-authorization-v1".utf8ByteSize < 2 ^ 64 := by decide
  have hfits {req : SignRequest} {hash : Hash32} (hreq : req.Typed) : (Value.array
      [.text "eudi-qes-authorization-v1", .bytes req.documentHash, .bytes hash.1, .text req.qtspId,
        .uint req.nonce]).Fits := by
    refine ⟨by simp, htag, ?_, ?_, hreq.qtspId, hreq.nonce, trivial⟩
    · have hlength := hreq.documentHash
      simp only [Value.Fits]
      omega
    · simp only [Value.Fits, hash.2]
      decide
  have hnormal := normalise_eq_of_toCanonical_eq (hfits hr) (hfits hs) h
  simpa [Value.normalise, Value.normaliseItems, Subtype.ext_iff] using hnormal

end Qes

end EuWallet.Protocol
