import EuWallet.Trust.TrustList

/-! # Wallet unit attestations

The wallet provider's signed statement that a device key is hardware-bound. A cached attestation is
checked again, at the current time, before it authorises a proof of possession. -/

namespace EuWallet.Trust

open Codec Crypto

inductive AssuranceLevel where
  | high
  | substantial
  | low
deriving DecidableEq

def AssuranceLevel.parse (s : String) : Option AssuranceLevel :=
  if s = "high" then some .high
  else if s = "substantial" then some .substantial
  else if s = "low" then some .low
  else none

def AssuranceLevel.rank : AssuranceLevel → ℕ
  | low => 0
  | substantial => 1
  | high => 2

structure WalletUnitAttestation where
  devicePublicKey : Bytes
  assuranceLevel : AssuranceLevel
  validUntil : ℤ
deriving DecidableEq

inductive WuaError where
  | badSignature
  | expired
  | malformed
  | unsupportedAlg
deriving DecidableEq

namespace WalletUnitAttestation

def parseAndVerify (p : Platform) (wuaJwt providerKey : Bytes) (alg : Alg) (now : ℤ) :
    Except WuaError WalletUnitAttestation := do
  let s ← orErr .malformed (fromUtf8 wuaJwt)
  let (header, payload, signature) ← orErr .malformed (compactParts s)
  let headerJson ← orErr .malformed (p.partJson header)
  if !knownJoseAlg headerJson then throw .unsupportedAlg
  let sig ← orErr .malformed (b64Decode signature)
  if !p.verify alg providerKey (utf8 (header ++ "." ++ payload)) sig then throw .badSignature
  let body ← orErr .malformed (p.partJson payload)
  let validUntil ← orErr .malformed ((body.get "exp").bind Json.asI64)
  if validUntil ≤ now then throw .expired
  let assuranceLevel ← orErr .malformed (((body.get "aal").bind Json.asStr).bind AssuranceLevel.parse)
  let devicePublicKey ← orErr .malformed
    ((((body.get "cnf").bind (·.get "jwk_raw")).bind Json.asStr).bind b64Decode)
  return { devicePublicKey, assuranceLevel, validUntil }

def isValidForAt (w : WalletUnitAttestation) (devicePublicKey : Bytes) (minLevel : AssuranceLevel) (now : ℤ) : Bool :=
  now < w.validUntil && (w.devicePublicKey == devicePublicKey && minLevel.rank ≤ w.assuranceLevel.rank)

end WalletUnitAttestation

end EuWallet.Trust
