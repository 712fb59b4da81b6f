import EuWallet.Codec.Numbers
import EuWallet.Crypto.Platform
import EuWallet.Lib.Except

/-! # Hybrid key agreement

One traffic key from an ephemeral P-256 agreement and an ML-KEM-768 encapsulation. Both sides hash a transcript of
the identities, the generation, the context, the public keys and the two wire values; the recipient compares it with
the hash it was told. Each field stands behind its length, so the hash fixes every field. -/

namespace EuWallet.Hybrid

open Codec Codec.Cbor Crypto Lib

inductive HybridComponent where
  | classical
  | postQuantum
deriving DecidableEq

inductive HybridMismatch where
  | identity
  | generation
deriving DecidableEq

inductive HybridCryptoError where
  | unsupportedProfile
  | malformedComponent (component : HybridComponent)
  | componentFailure (component : HybridComponent)
  | mismatch (field : HybridMismatch)
  | nonCanonicalInput
  | resourceLimitExceeded
  | downgradeDetected
deriving DecidableEq

inductive HybridKeyAgreementProfile where
  | p256MlKem768V1
deriving DecidableEq

def HybridKeyAgreementProfile.ID : String := "euwallet-hybrid-pq-v1"

def p256PublicShareBytes : ℕ := 65
def mlKem768EncapsulationKeyBytes : ℕ := 1184
def mlKem768CiphertextBytes : ℕ := 1088
def maxIdentityBytes : ℕ := 128
def maxHybridContextBytes : ℕ := 4096
def hybridKemLabel : Bytes := utf8 "EUWALLET-UG-P256-MLKEM768-HKDF-SHA256-V1"
def hybridTrafficInfo : Bytes := utf8 "EUWALLET-HYBRID-TRAFFIC-KEY-V1"

/-- What `HybridKeyRef::try_new` accepts. -/
@[ext]
structure HybridKeyRef where
  identity : String
  generation : UInt64
  nonempty : identity ≠ ""
  bounded : identity.utf8ByteSize ≤ maxIdentityBytes
  positive : generation ≠ 0

@[ext]
structure HybridKeyAgreementPublicKey where
  profile : HybridKeyAgreementProfile
  classical : Bytes
  postQuantum : Bytes
  classicalForm : classical.length = p256PublicShareBytes ∧ classical.head? = some 4
  postQuantumForm : postQuantum.length = mlKem768EncapsulationKeyBytes

def HybridKeyAgreementPublicKey.tryNew (profile : HybridKeyAgreementProfile) (classical postQuantum : Bytes) :
    Except HybridCryptoError HybridKeyAgreementPublicKey :=
  if hclassical : classical.length = p256PublicShareBytes ∧ classical.head? = some 4 then
    if hpostQuantum : postQuantum.length = mlKem768EncapsulationKeyBytes then
      .ok ⟨profile, classical, postQuantum, hclassical, hpostQuantum⟩
    else .error (.malformedComponent .postQuantum)
  else .error (.malformedComponent .classical)

/-! ### The components -/

/-- The `ml-kem` crate: encapsulation refuses bytes that are no key, decapsulation rejects implicitly. -/
structure MlKem768 where
  SecretKey : Type
  publicKey : SecretKey → Bytes
  encapsulate : Entropy → Bytes → Option (Bytes × Hash32)
  decapsulate : SecretKey → Bytes → Hash32

def MlKem768.encapsulateMlKem768 (m : MlKem768) (r : Entropy) (publicKey : Bytes) : Option (Bytes × Hash32) :=
  if publicKey.length ≠ mlKem768EncapsulationKeyBytes then none else m.encapsulate r publicKey

def MlKem768.decapsulateMlKem768 (m : MlKem768) (key : m.SecretKey) (ciphertext : Bytes) : Option Hash32 :=
  if ciphertext.length ≠ mlKem768CiphertextBytes then none else some (m.decapsulate key ciphertext)

@[ext]
structure HybridEncapsulation where
  profile : HybridKeyAgreementProfile
  senderIdentity : String
  recipientIdentity : String
  keyGeneration : UInt64
  classicalEphemeralPublic : Bytes
  postQuantumCiphertext : Bytes
  transcriptHash : Hash32
deriving DecidableEq

structure HybridRecipientKey (m : MlKem768) where
  reference : HybridKeyRef
  classical : AgreementKey
  postQuantum : m.SecretKey

def HybridRecipientKey.publicKey {m : MlKem768} (k : HybridRecipientKey m) :
    Except HybridCryptoError HybridKeyAgreementPublicKey :=
  HybridKeyAgreementPublicKey.tryNew .p256MlKem768V1 k.classical.publicRaw (m.publicKey k.postQuantum)

/-! ### The transcript -/

def transcriptField (output value : Bytes) : Except HybridCryptoError Bytes :=
  if value.length < 2 ^ 32 then .ok (output ++ (beBytes 4 value.length ++ value)) else .error .resourceLimitExceeded

section Transcript
variable (senderIdentity : String) (recipient : HybridKeyRef) (context : Bytes)
  (recipientPublic : HybridKeyAgreementPublicKey) (classicalEphemeral postQuantumCiphertext : Bytes)

def transcriptFields : List Bytes :=
  [utf8 HybridKeyAgreementProfile.ID, utf8 senderIdentity, utf8 recipient.identity,
    beBytes 8 recipient.generation.toNat, context, recipientPublic.classical, recipientPublic.postQuantum,
    classicalEphemeral, postQuantumCiphertext]

def hybridTranscriptHash (p : Platform) : Except HybridCryptoError Hash32 := do
  let transcript ← (transcriptFields senderIdentity recipient context recipientPublic classicalEphemeral
    postQuantumCiphertext).foldlM transcriptField (utf8 "EUWALLET-HYBRID-KEM-TRANSCRIPT-V1")
  return p.sha256 transcript

end Transcript

def hybridCombiner (p : Platform) (postQuantumSecret classicalSecret postQuantumCiphertext classicalEphemeral
    postQuantumPublic classicalPublic : Bytes) (transcriptHash : Hash32) : Bytes :=
  let universalInput := postQuantumSecret ++ classicalSecret ++ postQuantumCiphertext ++ classicalEphemeral ++
    postQuantumPublic ++ classicalPublic ++ hybridKemLabel ++ transcriptHash.1
  let combined := p.hkdfSha256 universalInput hybridKemLabel
    (utf8 "EUWALLET-HYBRID-UNIVERSAL-COMBINER-EXTRACT-V1") 32
  p.hkdfSha256 combined transcriptHash.1 (hybridTrafficInfo ++ transcriptHash.1) 32

/-! ### The two sides -/

def validateHybridIdentity (identity : String) : Except HybridCryptoError Unit :=
  if identity = "" ∨ maxIdentityBytes < identity.utf8ByteSize then .error (.mismatch .identity) else .ok ()

def validateHybridContext (context : Bytes) : Except HybridCryptoError Unit :=
  if context = [] ∨ maxHybridContextBytes < context.length then .error .nonCanonicalInput else .ok ()

section Sides
variable (p : Platform) {m : MlKem768}

def encapsulateHybridKey (m : MlKem768) (r : Entropy) (senderIdentity : String) (recipient : HybridKeyRef)
    (recipientPublic : HybridKeyAgreementPublicKey) (context : Bytes) :
    Except HybridCryptoError (HybridEncapsulation × Bytes) := do
  validateHybridIdentity senderIdentity
  validateHybridContext context
  if recipientPublic.profile ≠ .p256MlKem768V1 then throw .unsupportedProfile
  let classical ← orErr (.componentFailure .classical) (p.ecdhEsP256 r recipientPublic.classical)
  let (postQuantumCiphertext, postQuantumSecret) ←
    orErr (.componentFailure .postQuantum) (m.encapsulateMlKem768 r recipientPublic.postQuantum)
  let transcriptHash ← hybridTranscriptHash senderIdentity recipient context recipientPublic
    classical.ephemeralPublic postQuantumCiphertext p
  let key := hybridCombiner p postQuantumSecret.1 classical.sharedSecret postQuantumCiphertext
    classical.ephemeralPublic recipientPublic.postQuantum recipientPublic.classical transcriptHash
  return (⟨.p256MlKem768V1, senderIdentity, recipient.identity, recipient.generation, classical.ephemeralPublic,
    postQuantumCiphertext, transcriptHash⟩, key)

structure HybridPlatformDecapsulationInput (m : MlKem768) where
  recipientReference : HybridKeyRef
  recipientPublic : HybridKeyAgreementPublicKey
  postQuantum : m.SecretKey
  classicalSharedSecret : Bytes
  expectedSenderIdentity : String
  context : Bytes
  encapsulation : HybridEncapsulation
  authenticatedTranscriptHash : Hash32

def decapsulateHybridKeyWithComponents (i : HybridPlatformDecapsulationInput m) :
    Except HybridCryptoError Bytes := do
  validateHybridIdentity i.expectedSenderIdentity
  validateHybridContext i.context
  if i.classicalSharedSecret.length ≠ 32 then throw (.malformedComponent .classical)
  if i.encapsulation.profile ≠ .p256MlKem768V1 ∨ i.recipientPublic.profile ≠ .p256MlKem768V1 then
    throw .unsupportedProfile
  if i.encapsulation.senderIdentity ≠ i.expectedSenderIdentity ∨
      i.encapsulation.recipientIdentity ≠ i.recipientReference.identity then throw (.mismatch .identity)
  if i.encapsulation.keyGeneration ≠ i.recipientReference.generation then throw (.mismatch .generation)
  let expectedTranscript ← hybridTranscriptHash i.expectedSenderIdentity i.recipientReference i.context
    i.recipientPublic i.encapsulation.classicalEphemeralPublic i.encapsulation.postQuantumCiphertext p
  if expectedTranscript ≠ i.encapsulation.transcriptHash ∨ expectedTranscript ≠ i.authenticatedTranscriptHash then
    throw .downgradeDetected
  let postQuantumSecret ← orErr (.malformedComponent .postQuantum)
    (m.decapsulateMlKem768 i.postQuantum i.encapsulation.postQuantumCiphertext)
  return hybridCombiner p postQuantumSecret.1 i.classicalSharedSecret i.encapsulation.postQuantumCiphertext
    i.encapsulation.classicalEphemeralPublic i.recipientPublic.postQuantum i.recipientPublic.classical
    i.encapsulation.transcriptHash

def decapsulateHybridKey (recipient : HybridRecipientKey m) (expectedSenderIdentity : String) (context : Bytes)
    (encapsulation : HybridEncapsulation) (authenticatedTranscriptHash : Hash32) :
    Except HybridCryptoError Bytes := do
  validateHybridIdentity expectedSenderIdentity
  validateHybridContext context
  if encapsulation.profile ≠ .p256MlKem768V1 then throw .unsupportedProfile
  if encapsulation.senderIdentity ≠ expectedSenderIdentity ∨
      encapsulation.recipientIdentity ≠ recipient.reference.identity then throw (.mismatch .identity)
  if encapsulation.keyGeneration ≠ recipient.reference.generation then throw (.mismatch .generation)
  let recipientPublic ← recipient.publicKey
  let classicalSecret ← orErr (.componentFailure .classical)
    (p.agree recipient.classical encapsulation.classicalEphemeralPublic)
  decapsulateHybridKeyWithComponents p ⟨recipient.reference, recipientPublic, recipient.postQuantum, classicalSecret,
    expectedSenderIdentity, context, encapsulation, authenticatedTranscriptHash⟩

end Sides

/-! ### The transcript fixes its fields -/

section Fields
variable {fields : List Bytes} {start t : Bytes}

/-- The bytes that are hashed. -/
def framed (fields : List Bytes) : Bytes :=
  utf8 "EUWALLET-HYBRID-KEM-TRANSCRIPT-V1" ++ fields.flatMap fun f => beBytes 4 f.length ++ f

theorem foldlM_transcriptField : fields.foldlM transcriptField start = .ok t ↔
    (∀ f ∈ fields, f.length < 256 ^ 4) ∧ t = start ++ fields.flatMap fun f => beBytes 4 f.length ++ f := by
  induction fields generalizing start with
  | nil =>
    rw [List.foldlM_nil, pure_eq_ok, eq_comm]
    simp
  | cons f rest ih =>
    have hfield {next : Bytes} : transcriptField start f = .ok next ↔
        f.length < 256 ^ 4 ∧ next = start ++ (beBytes 4 f.length ++ f) := by
      unfold transcriptField
      split_ifs with h
      · simp only [Except.ok.injEq, eq_comm (a := next)]
        exact (and_iff_right (h.trans_eq (by norm_num))).symm
      · simp only [false_iff, not_and]
        exact fun hlt => absurd (hlt.trans_eq (by norm_num)) h
    rw [List.foldlM_cons, bind_eq_ok, List.forall_mem_cons, List.flatMap_cons]
    constructor
    · rintro ⟨next, hnext, hrest⟩
      obtain ⟨hf, rfl⟩ := hfield.mp hnext
      obtain ⟨hall, rfl⟩ := ih.mp hrest
      exact ⟨⟨hf, hall⟩, List.append_assoc _ _ _⟩
    · rintro ⟨⟨hf, hall⟩, rfl⟩
      exact ⟨_, hfield.mpr ⟨hf, rfl⟩, ih.mpr ⟨hall, (List.append_assoc _ _ _).symm⟩⟩

theorem framed_injective {fields' : List Bytes} (hfields : ∀ f ∈ fields, f.length < 256 ^ 4)
    (hfields' : ∀ f ∈ fields', f.length < 256 ^ 4) (hlength : fields.length = fields'.length)
    (h : framed fields = framed fields') : fields = fields' := by
  have hrest := List.append_cancel_left h
  rw [← List.append_nil (fields.flatMap _), ← List.append_nil (fields'.flatMap _)] at hrest
  exact ((beBytes_splits 4).of_length.flatMap hlength hfields hfields' hrest).1

variable {s s' : String} {k k' : HybridKeyRef} {c c' e e' b b' : Bytes} {a a' : HybridKeyAgreementPublicKey}

theorem transcriptFields_injective (h : transcriptFields s k c a e b = transcriptFields s' k' c' a' e' b') :
    s = s' ∧ k = k' ∧ c = c' ∧ a = a' ∧ e = e' ∧ b = b' := by
  simp only [transcriptFields, List.cons.injEq, true_and, and_true] at h
  obtain ⟨hsender, hidentity, hgeneration, rfl, hclassical, hpostQuantum, rfl, rfl⟩ := h
  have hnat := beBytes_injOn 8 k.generation.toNat_lt k'.generation.toNat_lt hgeneration
  exact ⟨utf8_injective hsender, HybridKeyRef.ext (utf8_injective hidentity) (UInt64.toNat_inj.mp hnat), rfl,
    HybridKeyAgreementPublicKey.ext (by cases a.profile; cases a'.profile; rfl) hclassical hpostQuantum, rfl, rfl⟩

variable {p : Platform} {h : Hash32}

theorem hybridTranscriptHash_eq_ok : hybridTranscriptHash s k c a e b p = .ok h ↔
    (∀ f ∈ transcriptFields s k c a e b, f.length < 256 ^ 4) ∧ p.sha256 (framed (transcriptFields s k c a e b)) = h := by
  unfold hybridTranscriptHash framed
  simp only [bind_eq_ok, pure_eq_ok, foldlM_transcriptField]
  constructor
  · rintro ⟨t, ⟨hfields, rfl⟩, hhash⟩
    exact ⟨hfields, hhash⟩
  · rintro ⟨hfields, hhash⟩
    exact ⟨_, ⟨hfields, rfl⟩, hhash⟩

end Fields

/-! ### Agreement -/

/-- What the two sides have to agree on. -/
@[ext]
structure Exchange where
  sender : String
  recipient : HybridKeyRef
  context : Bytes
  recipientPublic : HybridKeyAgreementPublicKey
  encapsulation : HybridEncapsulation

def Exchange.transcript (x : Exchange) : Bytes :=
  framed (transcriptFields x.sender x.recipient x.context x.recipientPublic x.encapsulation.classicalEphemeralPublic
    x.encapsulation.postQuantumCiphertext)

/-- The wire values name the sender, the recipient and the hash of their transcript. -/
structure Exchange.Bound (p : Platform) (x : Exchange) : Prop where
  hash : hybridTranscriptHash x.sender x.recipient x.context x.recipientPublic
    x.encapsulation.classicalEphemeralPublic x.encapsulation.postQuantumCiphertext p = .ok x.encapsulation.transcriptHash
  names : x.encapsulation.senderIdentity = x.sender ∧ x.encapsulation.recipientIdentity = x.recipient.identity ∧
    x.encapsulation.keyGeneration = x.recipient.generation

def HybridPlatformDecapsulationInput.exchange {m : MlKem768} (i : HybridPlatformDecapsulationInput m) : Exchange :=
  ⟨i.expectedSenderIdentity, i.recipientReference, i.context, i.recipientPublic, i.encapsulation⟩

section Agreement
variable {p : Platform} {m : MlKem768} {r : Entropy} {sender : String} {reference : HybridKeyRef}
  {context key : Bytes} {recipientPublic : HybridKeyAgreementPublicKey} {e : HybridEncapsulation}
  {k : HybridRecipientKey m}

/-- Equal hashes are of equal transcripts, unless SHA-256 collides on the two. -/
theorem Exchange.Bound.unique {x y : Exchange} (h : x.Bound p) (h' : y.Bound p)
    (hhash : y.encapsulation.transcriptHash = x.encapsulation.transcriptHash)
    (hcollision : Set.InjOn p.sha256 {y.transcript, x.transcript}) : y = x := by
  obtain ⟨hfields, hsum⟩ := hybridTranscriptHash_eq_ok.mp h.hash
  obtain ⟨hfields', hsum'⟩ := hybridTranscriptHash_eq_ok.mp h'.hash
  have hframed := hcollision (.inl rfl) (.inr rfl) (hsum'.trans (hhash.trans hsum.symm))
  obtain ⟨hsender, hrecipient, hcontext, hpublic, hephemeral, hciphertext⟩ :=
    transcriptFields_injective (framed_injective hfields' hfields rfl hframed)
  refine Exchange.ext hsender hrecipient hcontext hpublic (HybridEncapsulation.ext ?_ ?_ ?_ ?_ hephemeral hciphertext hhash)
  · cases y.encapsulation.profile
    rfl
  · rw [h'.names.1, h.names.1, hsender]
  · rw [h'.names.2.1, h.names.2.1, hrecipient]
  · rw [h'.names.2.2, h.names.2.2, hrecipient]

theorem encapsulate_bound (h : encapsulateHybridKey p m r sender reference recipientPublic context = .ok (e, key)) :
    Exchange.Bound p ⟨sender, reference, context, recipientPublic, e⟩ := by
  simp only [encapsulateHybridKey, bind_eq_ok, guard_eq_ok, pure_eq_ok, Prod.mk.injEq] at h
  obtain ⟨-, -, -, -, -, classical, -, encapsulated, -, hash, hhash, rfl, -⟩ := h
  exact ⟨hhash, rfl, rfl, rfl⟩

theorem decapsulate_bound {i : HybridPlatformDecapsulationInput m}
    (h : decapsulateHybridKeyWithComponents p i = .ok key) :
    i.exchange.Bound p ∧ i.encapsulation.transcriptHash = i.authenticatedTranscriptHash := by
  simp only [decapsulateHybridKeyWithComponents, bind_eq_ok, guard_eq_ok, not_or, not_not] at h
  obtain ⟨-, -, -, -, -, -, ⟨hsender, hrecipient⟩, hgeneration, hash, hhash, ⟨rfl, hauthenticated⟩, -⟩ := h
  exact ⟨⟨hhash, hsender, hrecipient, hgeneration⟩, hauthenticated⟩

/-- Both components are correct for a recipient: it derives the secrets of the sender. -/
structure Correct (p : Platform) {m : MlKem768} (k : HybridRecipientKey m) : Prop where
  classical : ∀ r e, p.ecdhEsP256 r k.classical.publicRaw = some e →
    p.agree k.classical e.ephemeralPublic = some e.sharedSecret ∧ e.sharedSecret.length = 32
  postQuantum : ∀ r ciphertext secret, m.encapsulate r (m.publicKey k.postQuantum) = some (ciphertext, secret) →
    ciphertext.length = mlKem768CiphertextBytes ∧ m.decapsulate k.postQuantum ciphertext = secret

theorem publicKey_eq_ok (h : k.publicKey = .ok recipientPublic) :
    recipientPublic.classical = k.classical.publicRaw ∧ recipientPublic.postQuantum = m.publicKey k.postQuantum := by
  unfold HybridRecipientKey.publicKey HybridKeyAgreementPublicKey.tryNew at h
  split_ifs at h
  cases h
  exact ⟨rfl, rfl⟩

theorem decapsulate_encapsulate (hcorrect : Correct p k) (hpublic : k.publicKey = .ok recipientPublic)
    (h : encapsulateHybridKey p m r sender k.reference recipientPublic context = .ok (e, key)) :
    decapsulateHybridKey p k sender context e e.transcriptHash = .ok key := by
  obtain ⟨hshare, hkey⟩ := publicKey_eq_ok hpublic
  have hencapsulate : m.encapsulateMlKem768 r recipientPublic.postQuantum = m.encapsulate r recipientPublic.postQuantum :=
    if_neg (not_not.mpr recipientPublic.postQuantumForm)
  simp only [encapsulateHybridKey, hencapsulate, bind_eq_ok, guard_eq_ok, orErr_eq_ok, pure_eq_ok, Prod.mk.injEq] at h
  obtain ⟨⟨⟩, hsender, ⟨⟩, hcontext, -, classical, hclassical, ⟨ciphertext, secret⟩, hencapsulated, hash, hhash,
    rfl, rfl⟩ := h
  rw [hshare] at hclassical
  rw [hkey] at hencapsulated
  obtain ⟨hagree, hlength⟩ := hcorrect.classical _ _ hclassical
  obtain ⟨hsize, rfl⟩ := hcorrect.postQuantum _ _ _ hencapsulated
  simp only [decapsulateHybridKey, decapsulateHybridKeyWithComponents, MlKem768.decapsulateMlKem768, bind_eq_ok,
    guard_eq_ok, orErr_eq_ok, pure_eq_ok]
  exact ⟨(), hsender, (), hcontext, by simp, by simp, by simp, _, hpublic, _, hagree, (), hsender, (), hcontext,
    by simp [hlength], by simp, by simp, by simp, _, hhash, by simp, _, by simp [hsize], rfl⟩

end Agreement

/-- **The two sides agree exactly on matching transcripts.** What was encapsulated is decapsulated to the same key; and
whatever is decapsulated under the hash of an honest encapsulation used its identities, generation, context, keys and
wire values, unless SHA-256 collides on the two transcripts. -/
theorem hybridKey_agreement (p : Platform) (m : MlKem768) (r : Entropy) (sender : String) (reference : HybridKeyRef)
    (recipientPublic : HybridKeyAgreementPublicKey) (context : Bytes) (e : HybridEncapsulation) (key : Bytes)
    (h : encapsulateHybridKey p m r sender reference recipientPublic context = .ok (e, key)) :
    let honest : Exchange := ⟨sender, reference, context, recipientPublic, e⟩
    (∀ k : HybridRecipientKey m, Correct p k → k.reference = reference → k.publicKey = .ok recipientPublic →
      decapsulateHybridKey p k sender context e e.transcriptHash = .ok key) ∧
    (∀ (i : HybridPlatformDecapsulationInput m) key', i.authenticatedTranscriptHash = e.transcriptHash →
      decapsulateHybridKeyWithComponents p i = .ok key' →
      Set.InjOn p.sha256 {i.exchange.transcript, honest.transcript} → i.exchange = honest) ∧
    ∀ (k : HybridRecipientKey m) public' sender' context' e' key', k.publicKey = .ok public' →
      decapsulateHybridKey p k sender' context' e' e.transcriptHash = .ok key' →
      Set.InjOn p.sha256
        {(Exchange.mk sender' k.reference context' public' e').transcript, honest.transcript} →
      ⟨sender', k.reference, context', public', e'⟩ = honest := by
  have hbound := encapsulate_bound h
  refine ⟨?_, fun i key' hhash hok hcollision => ?_, fun k public' sender' context' e' key' hpublic hok hcollision => ?_⟩
  · rintro k hcorrect rfl hpublic
    exact decapsulate_encapsulate hcorrect hpublic h
  · obtain ⟨hbound', hcarried⟩ := decapsulate_bound hok
    exact hbound.unique hbound' (hcarried.trans hhash) hcollision
  · simp only [decapsulateHybridKey, bind_eq_ok, guard_eq_ok, hpublic, Except.ok.injEq, exists_eq_left'] at hok
    obtain ⟨-, -, -, -, -, -, -, secret, -, hok⟩ := hok
    obtain ⟨hbound', hcarried⟩ := decapsulate_bound hok
    exact hbound.unique hbound' hcarried hcollision

/-! A platform with one key pair, one ephemeral key and one ciphertext. -/

namespace OnePair

def share : Bytes := 4 :: List.replicate 64 0

def encapsulationKey : Bytes := List.replicate 1184 0

theorem length_encapsulationKey : encapsulationKey.length = mlKem768EncapsulationKeyBytes := List.length_replicate

def kem : MlKem768 where
  SecretKey := Unit
  publicKey _ := encapsulationKey
  encapsulate _ _ := some (List.replicate 1088 0, zeroHash)
  decapsulate _ _ := zeroHash

def platform : Platform := { (default : Platform) with
  ecdhEsP256 := fun _ _ => some ⟨share, List.replicate 32 0⟩
  agree := fun _ _ => some (List.replicate 32 0) }

def recipient : HybridRecipientKey kem := ⟨⟨"recipient", 1, by decide, by decide, by decide⟩, ⟨[], share⟩, ()⟩

def recipientPublic : HybridKeyAgreementPublicKey :=
  ⟨.p256MlKem768V1, share, encapsulationKey, by decide, length_encapsulationKey⟩

def sent : HybridEncapsulation :=
  ⟨.p256MlKem768V1, "sender", "recipient", 1, share, List.replicate 1088 0, zeroHash⟩

theorem correct : Correct platform recipient where
  classical r e h := by
    cases h
    exact ⟨rfl, rfl⟩
  postQuantum r ciphertext secret h := by
    cases h
    exact ⟨List.length_replicate, rfl⟩

theorem publicKey : recipient.publicKey = .ok recipientPublic := by
  show HybridKeyAgreementPublicKey.tryNew .p256MlKem768V1 share encapsulationKey = _
  have hshare : share.length = p256PublicShareBytes ∧ share.head? = some 4 := by decide
  rw [HybridKeyAgreementPublicKey.tryNew, dif_pos hshare, dif_pos length_encapsulationKey]
  rfl

end OnePair

open OnePair in
theorem hybridKey_agreement_onePair : encapsulateHybridKey platform kem [] "sender" recipient.reference recipientPublic
      [1] = .ok (sent, []) ∧ decapsulateHybridKey platform recipient "sender" [1] sent zeroHash = .ok [] := by
  have hsent : encapsulateHybridKey platform kem [] "sender" recipient.reference recipientPublic [1] = .ok (sent, []) := by
    decide +kernel
  exact ⟨hsent, (hybridKey_agreement platform kem [] "sender" recipient.reference recipientPublic [1] sent [] hsent).1
    recipient correct rfl publicKey⟩

end EuWallet.Hybrid
