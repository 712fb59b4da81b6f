import EuWallet.Codec.BoundedJson
import EuWallet.Codec.Numbers
import EuWallet.Lib.Except
import Mathlib.Algebra.Field.ZMod
import Mathlib.Algebra.Module.Prod

/-! # The experimental equality proof

A commitment `m • G + r • H` to an attribute, and a Schnorr proof that it opens to a public value, made
non-interactive with a challenge that is a hash. The group is a parameter: scalars `F`, points `V`, their encodings. -/

namespace EuWallet.Zkp

open Codec Codec.BoundedJson Codec.Cbor Crypto Lib

/-- What `curve25519-dalek` provides. -/
structure Ristretto (F V : Type) where
  base : V
  fromUniformBytes : Bytes → V
  compress : V → Hash32
  decompress : Hash32 → Option V
  fromBytesModOrderWide : Bytes → F
  toBytes : F → Hash32
  fromCanonicalBytes : Hash32 → Option F
  decompress_compress : ∀ P, decompress (compress P) = some P
  fromCanonicalBytes_toBytes : ∀ x, fromCanonicalBytes (toBytes x) = some x

inductive Predicate
  | ageOver (years : UInt32)
  | attributeEquals (claim value : String)
  | attributeDisclosed (claim : String)

inductive ZkpError
  | unsupported | unsatisfiedPredicate | backend (text : String)
deriving DecidableEq

def profileExperimental : String := "eudi-zk-experimental-v0"

/-- Two SHA-256 halves of a domain-separated input. -/
def wide (p : Platform) (domain : String) (data : Bytes) : Bytes :=
  (p.sha256 (utf8 domain ++ 0 :: data)).1 ++ (p.sha256 (utf8 domain ++ 1 :: data)).1

/-- The bytes `attribute_scalar` hashes. -/
def attributeInput (claim value : Bytes) : Bytes := claim ++ 0x3d :: value

/-- The claim and the public value a predicate is about. -/
def target : Predicate → Except ZkpError (String × Bytes)
  | .attributeEquals claim value => return (claim, utf8 value)
  | .ageOver years => return ("age_over_" ++ toString years, utf8 "true")
  | .attributeDisclosed _ => throw .unsupported

/-- `u8::from_str_radix` of two characters, which may start with a sign. -/
def hexPair (a b : UInt8) : Option UInt8 := do
  let low ← hexValue b
  if a = 0x2b then return .ofNat low
  return .ofNat (16 * (← hexValue a) + low)

def hexPairs : Bytes → Option Bytes
  | [] => some []
  | [_] => none
  | a :: b :: rest => return (← hexPair a b) :: (← hexPairs rest)

def hex32 (s : String) : Option Hash32 := do toHash32 (← hexPairs (utf8 s))

section Provider
variable {F V : Type} [Field F] [AddCommGroup V] [Module F V] (p : Platform) (g : Ristretto F V)

def generatorH : V := g.fromUniformBytes (wide p "eudi-zk-experimental-v0/H" [])

def attributeScalar (claim value : Bytes) : F :=
  g.fromBytesModOrderWide (wide p "eudi-zk-experimental-v0/attr" (attributeInput claim value))

/-- `m • G + r • H`. -/
def commitment (claim value : Bytes) (r : F) : V :=
  attributeScalar p g claim value • g.base + r • generatorH p g

def challenge (nonce : Bytes) (c : Hash32) (value : Bytes) (a : Hash32) : F :=
  g.fromBytesModOrderWide (wide p "eudi-zk-experimental-v0/challenge"
    ([utf8 profileExperimental, nonce, c.1, value, a.1].flatMap fun part => (beBytes 8 part.length).reverse ++ part))

def witnessEntry (credential : Bytes) (claim : String) : Except ZkpError (Bytes × F) := do
  let v ← orErr .unsatisfiedPredicate (p.parseJson credential)
  let entry ← orErr .unsatisfiedPredicate (v.get claim)
  let value ← orErr .unsatisfiedPredicate ((entry.get "value").bind (·.asStr))
  let rHex ← orErr .unsatisfiedPredicate ((entry.get "r").bind (·.asStr))
  let rBytes ← orErr .unsatisfiedPredicate (hex32 rHex)
  let r ← orErr .unsatisfiedPredicate (g.fromCanonicalBytes rBytes)
  return (utf8 value, r)

/-- The commitment, the announcement and the response, as bytes. -/
def proofBytes (claim value nonce : Bytes) (r : F) : Bytes :=
  let c := g.compress (commitment p g claim value r)
  let k := g.fromBytesModOrderWide (wide p "eudi-zk-experimental-v0/k" ((g.toBytes r).1 ++ nonce ++ c.1 ++ value))
  let a := g.compress (k • generatorH p g)
  let z := k + challenge p g nonce c value a * r
  c.1 ++ a.1 ++ (g.toBytes z).1

def prove (predicate : Predicate) (credential nonce : Bytes) : Except ZkpError Bytes := do
  let (claim, expectedValue) ← target predicate
  let (value, r) ← witnessEntry p g credential claim
  if value ≠ expectedValue then throw .unsatisfiedPredicate
  return proofBytes p g (utf8 claim) value nonce r

/-- The Schnorr check of `verify`: `z • H = A + e • (C - m • G)`. -/
def accepts [DecidableEq V] (claim value : Bytes) (c a : V) (e z : F) : Bool :=
  z • generatorH p g = a + e • (c - attributeScalar p g claim value • g.base)

/-- What `verify` decodes: the bytes and the points of the commitment and the announcement, and the response. The
three slices have 32 bytes when the proof has 96. -/
def decodeProof (proof : Bytes) : Option (Hash32 × Hash32 × V × V × F) := do
  let cBytes ← toHash32 (proof.take 32)
  let aBytes ← toHash32 ((proof.drop 32).take 32)
  let zBytes ← toHash32 (proof.drop 64)
  return (cBytes, aBytes, ← g.decompress cBytes, ← g.decompress aBytes, ← g.fromCanonicalBytes zBytes)

def verify [DecidableEq V] (predicate : Predicate) (proof nonce : Bytes) : Except ZkpError Bool := do
  let (claim, value) ← target predicate
  match decodeProof g proof with
  | none => return false
  | some (cBytes, aBytes, c, a, z) =>
    return accepts p g (utf8 claim) value c a (challenge p g nonce cBytes value aBytes) z

/-! ### Completeness and special soundness -/

variable {p g} {predicate : Predicate} {claim : String} {value credential nonce proof : Bytes}

theorem of_prove (h : prove p g predicate credential nonce = .ok proof) : ∃ claim value r,
    target predicate = .ok (claim, value) ∧ proof = proofBytes p g (utf8 claim) value nonce r := by
  simp only [prove, bind_eq_ok, guard_eq_ok, pure_eq_ok, not_not, Prod.exists] at h
  obtain ⟨claim, _, htarget, value, r, -, rfl, rfl⟩ := h
  exact ⟨claim, value, r, htarget, rfl⟩

theorem toHash32_eq_some {b : Bytes} {h : Hash32} : toHash32 b = some h ↔ b = h.1 := by
  unfold toHash32
  split_ifs with hlength
  · rw [Option.some.injEq, Subtype.ext_iff]
  · exact iff_of_false nofun fun hb => hlength (hb ▸ h.2)

theorem slices_eq {b : Bytes} {x y z : Hash32} :
    (b.take 32 = x.1 ∧ (b.drop 32).take 32 = y.1 ∧ b.drop 64 = z.1) ↔ b = x.1 ++ (y.1 ++ z.1) := by
  constructor
  · rintro ⟨hx, hy, hz⟩
    have hrest : (b.drop 32).drop 32 = z.1 := by rw [List.drop_drop, hz]
    rw [← hx, ← hy, ← hrest, List.take_append_drop, List.take_append_drop]
  · rintro rfl
    rw [List.take_left' x.2, List.drop_left' x.2, List.take_left' y.2, ← List.append_assoc]
    exact ⟨rfl, rfl, List.drop_left' (by rw [List.length_append, x.2, y.2])⟩

omit [Field F] [AddCommGroup V] [Module F V] in
theorem decodeProof_eq_some {cBytes aBytes : Hash32} {c a : V} {z : F} :
    decodeProof g proof = some (cBytes, aBytes, c, a, z) ↔ ∃ zBytes : Hash32,
      proof = cBytes.1 ++ (aBytes.1 ++ zBytes.1) ∧ g.decompress cBytes = some c ∧ g.decompress aBytes = some a ∧
        g.fromCanonicalBytes zBytes = some z := by
  simp only [decodeProof, Option.bind_eq_bind, Option.bind_eq_some_iff, toHash32_eq_some, ← slices_eq, Option.pure_def,
    Option.some.injEq, Prod.mk.injEq]
  constructor
  · rintro ⟨_, hx, _, hy, zBytes, hz, _, hc, _, ha, _, hz', rfl, rfl, rfl, rfl, rfl⟩
    exact ⟨zBytes, ⟨hx, hy, hz⟩, hc, ha, hz'⟩
  · rintro ⟨zBytes, ⟨hx, hy, hz⟩, hc, ha, hz'⟩
    exact ⟨_, hx, _, hy, zBytes, hz, c, hc, a, ha, z, hz', rfl, rfl, rfl, rfl, rfl⟩

variable [DecidableEq V]

theorem verify_eq_true : verify p g predicate proof nonce = .ok true ↔ ∃ claim value cBytes aBytes c a z,
    target predicate = .ok (claim, value) ∧ decodeProof g proof = some (cBytes, aBytes, c, a, z) ∧
      accepts p g (utf8 claim) value c a (challenge p g nonce cBytes value aBytes) z = true := by
  simp only [verify, bind_eq_ok, Prod.exists]
  refine exists₂_congr fun claim value => ?_
  rcases decodeProof g proof with _ | ⟨cBytes, aBytes, c, a, z⟩ <;> simp [pure_eq_ok]

theorem verify_prove (h : prove p g predicate credential nonce = .ok proof) :
    verify p g predicate proof nonce = .ok true := by
  obtain ⟨claim, value, r, htarget, rfl⟩ := of_prove h
  refine verify_eq_true.mpr ⟨claim, value, _, _, _, _, _, htarget, decodeProof_eq_some.mpr
    ⟨_, List.append_assoc _ _ _, g.decompress_compress _, g.decompress_compress _, g.fromCanonicalBytes_toBytes _⟩, ?_⟩
  rw [accepts, decide_eq_true_eq, commitment, add_sub_cancel_left, add_smul, mul_smul]

/-- Two responses to one announcement open the commitment. -/
theorem opening_of_accepts {claim value : Bytes} {c a : V} {e e' z z' : F} (hne : e ≠ e')
    (h : accepts p g claim value c a e z = true) (h' : accepts p g claim value c a e' z' = true) :
    c = commitment p g claim value ((z - z') / (e - e')) := by
  simp only [accepts, decide_eq_true_eq] at h h'
  have hdiff : (z - z') • generatorH p g = (e - e') • (c - attributeScalar p g claim value • g.base) := by
    rw [sub_smul, sub_smul, h, h', add_sub_add_left_eq_sub]
  rw [commitment, div_eq_inv_mul, mul_smul, hdiff, inv_smul_smul₀ (sub_ne_zero.mpr hne), add_sub_cancel]

variable (p g) in
/-- **The equality proof** is complete and specially sound. -/
theorem equalityProof_sound (predicate : Predicate) :
    (∀ credential nonce proof, prove p g predicate credential nonce = .ok proof →
        verify p g predicate proof nonce = .ok true) ∧
      ∀ claim value, target predicate = .ok (claim, value) →
        (∀ proof nonce, verify p g predicate proof nonce = .ok true ↔ ∃ cBytes aBytes c a z,
          decodeProof g proof = some (cBytes, aBytes, c, a, z) ∧
            accepts p g (utf8 claim) value c a (challenge p g nonce cBytes value aBytes) z = true) ∧
        ∀ (c a : V) (e e' z z' : F), e ≠ e' → accepts p g (utf8 claim) value c a e z = true →
          accepts p g (utf8 claim) value c a e' z' = true →
            c = commitment p g (utf8 claim) value ((z - z') / (e - e')) := by
  refine ⟨fun _ _ _ => verify_prove, fun claim value htarget => ⟨fun proof nonce => ?_, fun _ _ _ _ _ _ => opening_of_accepts⟩⟩
  rw [verify_eq_true]
  constructor
  · rintro ⟨claim', value', cBytes, aBytes, c, a, z, htarget', h⟩
    obtain ⟨rfl, rfl⟩ := Prod.mk.inj (Except.ok.inj (htarget.symm.trans htarget'))
    exact ⟨cBytes, aBytes, c, a, z, h⟩
  · rintro ⟨cBytes, aBytes, c, a, z, h⟩
    exact ⟨claim, value, cBytes, aBytes, c, a, z, htarget, h⟩

end Provider

/-! ### What a commitment is bound to -/

section Binding
variable {F V : Type} [Field F] [AddCommGroup V] [Module F V] {p : Platform} {g : Ristretto F V}
  (hindependent : ∀ x y : F, x • g.base = y • generatorH p g → x = 0)
include hindependent

end Binding

namespace Sample

def group : Ristretto (ZMod 2) (ZMod 2 × ZMod 2) where
  base := (1, 0)
  fromUniformBytes _ := (0, 1)
  compress P := ⟨UInt8.ofNat (2 * P.1.val + P.2.val) :: List.replicate 31 0, rfl⟩
  decompress h := h.1.head?.map fun b => ((b.toNat / 2 : ℕ), (b.toNat : ℕ))
  fromBytesModOrderWide _ := 1
  toBytes x := ⟨UInt8.ofNat x.val :: List.replicate 31 0, rfl⟩
  fromCanonicalBytes h := h.1.head?.map fun b => (b.toNat : ℕ)
  decompress_compress := by decide
  fromCanonicalBytes_toBytes := by decide

/-- A platform that reads the blinding `1` for the claim `a=b` of value `c`. -/
def platform : Platform :=
  { (default : Platform) with
    parseJson := fun _ => some (.obj [("a=b", .obj [("value", .str "c"), ("r", .str (hexBytes (group.toBytes 1).1))])]) }

end Sample

open Sample

theorem equalityProof_sound_sample : ∃ proof,
    prove platform group (.attributeEquals "a=b" "c") [] [] = .ok proof ∧
      verify platform group (.attributeEquals "a=b" "c") proof [] = .ok true ∧
      (1, 1) = commitment platform group (utf8 "a=b") (utf8 "c") ((0 - 1) / (1 - 0)) :=
  have h := equalityProof_sound platform group (.attributeEquals "a=b" "c")
  ⟨_, rfl, h.1 [] [] _ rfl, (h.2 _ _ rfl).2 _ (0, 1) 1 0 0 1 (by decide) (by decide) (by decide)⟩

end EuWallet.Zkp
