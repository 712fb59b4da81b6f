import EuWallet.Crypto.Platform

/-! # Encrypted responses

The compact JWE of a `direct_post.jwt` response: `ECDH-ES` agreement on P-256, `A256GCM` content. -/

namespace EuWallet.Protocol.Jwe

open Codec Crypto

/-- `JweError`; the texts name what is malformed. -/
inductive JweError where
  | crypto
  | malformed (what : String)
deriving DecidableEq

/-- A value behind its 32-bit length. -/
def lengthPrefixed (b : Bytes) : Bytes := beBytes 4 b.length ++ b

def concatKdfA256gcm (p : Platform) (z apu apv : Bytes) : Hash32 :=
  p.sha256 (beBytes 4 1 ++ z ++ lengthPrefixed (utf8 "A256GCM") ++ lengthPrefixed apu ++
    lengthPrefixed apv ++ beBytes 4 256)

def protectedHeader (x y apu apv : Bytes) : String :=
  "\x7b\"alg\":\"ECDH-ES\",\"enc\":\"A256GCM\",\"epk\":\x7b\"kty\":\"EC\",\"crv\":\"P-256\",\"x\":\"" ++
    b64Encode x ++ "\",\"y\":\"" ++ b64Encode y ++ "\"\x7d,\"apu\":\"" ++ b64Encode apu ++
    "\",\"apv\":\"" ++ b64Encode apv ++ "\"\x7d"

def encryptEcdhEsA256gcm (p : Platform) (r : Entropy) (plaintext recipient apu apv : Bytes) :
    Except JweError String := do
  let ecdh ← orErr .crypto (p.ecdhEsP256 r recipient)
  let key := ecdh.ephemeralPublic
  if key.length ≠ 65 ∨ key.head? ≠ some 4 then
    throw (.malformed "ephemeral key is not an uncompressed P-256 point")
  let header := b64Encode (utf8 (protectedHeader ((key.take 33).drop 1) (key.drop 33) apu apv))
  let cek := concatKdfA256gcm p ecdh.sharedSecret apu apv
  let iv := p.randomIv r
  let sealed ← orErr .crypto (p.aeadSeal cek.1 iv (utf8 header) plaintext)
  if sealed.length < 16 then throw (.malformed "aead output shorter than the tag")
  let cut := sealed.length - 16
  return header ++ ".." ++ b64Encode iv ++ "." ++ b64Encode (sealed.take cut) ++ "." ++
    b64Encode (sealed.drop cut)

end EuWallet.Protocol.Jwe
