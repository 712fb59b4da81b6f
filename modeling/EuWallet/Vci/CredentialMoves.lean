import EuWallet.Vci.Terminal

/-! # Moves of the credential flow

What a call of `CredentialFlow::step` can do. `Accepts` lists the transitions that succeed, with the checks they
have passed, and `Move` the calls: the clock is refused, the flow is over, a poll comes too early, a transition
fails or one succeeds. Every later result reads these two lists. -/

namespace EuWallet.Vci.Credential

open Codec Crypto Lib Lib.Fallible

variable {p : Platform} {c c' c'' : Context} {env : CredentialEnvironment}

/-! ### How the context grows -/

def Context.Fresh (c : Context) (value : Hash32) : Prop :=
  c.usedRandomValues.length < 32 ∧ value ≠ zeroHash ∧ value ∉ c.usedRandomValues

def Context.draw (c : Context) (value : Hash32) : Context :=
  { c with usedRandomValues := c.usedRandomValues ++ [value] }

/-- The context after a nonce of the resource server was taken over. -/
def Context.rotate (c : Context) (nonce : Option String) : Context :=
  match nonce with
  | none => c
  | some nonce => { c with
      credentialEndpointNonce := some nonce
      retiredCredentialEndpointNonces := c.retiredCredentialEndpointNonces ++ c.credentialEndpointNonce.toList }

/-- A nonce that was not used before. -/
def Context.Rotates (c : Context) (nonce : Option String) : Prop :=
  ∀ value ∈ nonce, c.credentialEndpointNonce ≠ some value ∧ value ∉ c.retiredCredentialEndpointNonces

@[simp] theorem Context.draw_config (value : Hash32) : (c.draw value).config = c.config := rfl
@[simp] theorem Context.draw_nonce (value : Hash32) :
    (c.draw value).credentialEndpointNonce = c.credentialEndpointNonce := rfl
@[simp] theorem Context.draw_used (value : Hash32) :
    (c.draw value).usedRandomValues = c.usedRandomValues ++ [value] := rfl
@[simp] theorem Context.rotate_config (nonce : Option String) : (c.rotate nonce).config = c.config := by
  cases nonce <;> rfl
@[simp] theorem Context.rotate_clock (nonce : Option String) :
    (c.rotate nonce).lastNowEpochSeconds = c.lastNowEpochSeconds := by
  cases nonce <;> rfl
@[simp] theorem Context.rotate_used (nonce : Option String) :
    (c.rotate nonce).usedRandomValues = c.usedRandomValues := by
  cases nonce <;> rfl

section Run
variable {β : Type} {d : β} {f : Unit → Action β}

theorem outcome_drawRandom_bind_ok {value : Hash32} {f : Hash32 → Action β} :
    outcome (drawRandom value >>= f) c = (.ok d, c') ↔
      c.Fresh value ∧ outcome (f value) (c.draw value) = (.ok d, c') := by
  refine outcome_draw_bind_ok .randomnessFailure Context.usedRandomValues
    (fun c used => { c with usedRandomValues := used }) (fun c => ?_)
  unfold drawRandom
  rw [outcome_get_bind]
  cases freshRandom c.usedRandomValues value <;> rfl

/-- A nonce is taken over when it is new. -/
theorem outcome_rotateCredentialEndpointNonce_bind_ok {nonce : String} :
    outcome (rotateCredentialEndpointNonce nonce >>= f) c = (.ok d, c') ↔
      c.Rotates (some nonce) ∧ outcome (f ()) (c.rotate (some nonce)) = (.ok d, c') := by
  simp only [rotateCredentialEndpointNonce, bind_assoc, outcome_get_bind, outcome_failIf_bind_ok, outcome_modify_bind,
    Context.Rotates, Option.mem_def, Option.some.injEq, forall_eq', not_or]
  rfl

theorem outcome_rotateIfPresent_bind_ok {nonce : Option String} :
    outcome (rotateIfPresent nonce >>= f) c = (.ok d, c') ↔
      c.Rotates nonce ∧ outcome (f ()) (c.rotate nonce) = (.ok d, c') := by
  cases nonce with
  | none => simp [rotateIfPresent, Context.Rotates, Context.rotate]
  | some nonce => exact outcome_rotateCredentialEndpointNonce_bind_ok

end Run

/-- The values one call has drawn, in order, each of them new. -/
structure Context.Grows (c : Context) (drawn : List Hash32) (c' : Context) : Prop where
  config : c'.config = c.config
  clock : c'.lastNowEpochSeconds = c.lastNowEpochSeconds
  used : c'.usedRandomValues = c.usedRandomValues ++ drawn
  nodup : c.usedRandomValues.Nodup → c'.usedRandomValues.Nodup
  bounded : c.usedRandomValues.length ≤ 32 → c'.usedRandomValues.length ≤ 32

namespace Context.Grows

theorem refl : c.Grows [] c := ⟨rfl, rfl, by simp, id, id⟩

theorem rotate {nonce : Option String} : c.Grows [] (c.rotate nonce) := by
  constructor <;> simp

theorem draw {value : Hash32} (h : c.Fresh value) : c.Grows [value] (c.draw value) where
  config := rfl
  clock := rfl
  used := rfl
  nodup hnodup := by simpa using List.Nodup.concat h.2.2 hnodup
  bounded _ := by
    have := h.1
    simp only [Context.draw_used, List.length_append, List.length_singleton]
    omega

theorem trans {first second : List Hash32} (h : c.Grows first c') (h' : c'.Grows second c'') :
    c.Grows (first ++ second) c'' where
  config := h'.config.trans h.config
  clock := h'.clock.trans h.clock
  used := by rw [h'.used, h.used, List.append_assoc]
  nodup hnodup := h'.nodup (h.nodup hnodup)
  bounded hbound := h'.bounded (h.bounded hbound)

end Context.Grows

/-! ### What a transition does when it succeeds -/

structure SignatureResult.Answers (signature : SignatureResult) (requestId : CorrelationId) (signingInput : Bytes) :
    Prop where
  requestId : requestId = signature.requestId
  signingInput : signingInput = signature.signingInput
  length : signature.signature.length = 64

/-- A response that belongs to a request. -/
structure EndpointResponse.Answers (response : EndpointResponse) (requestId : CorrelationId) (endpoint : HttpsEndpoint) :
    Prop where
  requestId : requestId = response.requestId
  endpoint : response.endpoint = endpoint
  method : response.method = "POST"

/-- A key attestation that belongs to a request and passes its checks. -/
structure KeyAttestation.Answers (attestation : KeyAttestation) (p : Platform) (c : Context)
    (requestId : CorrelationId) (cNonce : String) (now : ℤ) : Prop where
  valid : validateKeyAttestation p attestation.jwt cNonce c.config.credentialPublicJwk now = .ok ()
  requestId : requestId = attestation.requestId
  credentialIssuer : attestation.credentialIssuer = c.config.credentialIssuer
  credentialEndpoint : attestation.credentialEndpoint = c.config.credentialEndpoint
  keyRef : attestation.keyRef = c.config.credentialKeyRef
  publicJwk : attestation.publicJwk = c.config.credentialPublicJwk
  cNonce : attestation.cNonce = cNonce

/-- The transitions that succeed: from which stage, on which input, to which stage, with which effects. -/
inductive Accepts (p : Platform) (c : Context) (env : CredentialEnvironment) :
    Stage → CredentialInput → Stage → List CredentialEffect → Context → Prop
  | nonce {requestId response cNonce c'} (answers : response.Answers requestId c.config.nonceEndpoint)
      (parsed : parseNonceResponse p response.body = .ok cNonce)
      (unseen : p.sha256 (utf8 cNonce) ∉ env.seenCNonceHashes) (grows : c.Grows [env.random 0] c') :
      Accepts p c env (.awaitingNonceResponse requestId) (.nonceResponse response)
        (.awaitingKeyAttestation (env.random 0) cNonce (p.sha256 (utf8 cNonce)))
        [.acquireKeyAttestation ⟨env.random 0, c.config.credentialIssuer, c.config.credentialEndpoint,
          c.config.credentialKeyRef, c.config.credentialPublicJwk, cNonce⟩] c'
  | attestation {requestId cNonce cNonceHash attestation signingInput c'}
      (answers : attestation.Answers p c requestId cNonce env.nowEpochSeconds)
      (built : buildCredentialProofSigningInput p c.config.credentialIssuer cNonce c.config.credentialPublicJwk
        attestation.jwt env.nowEpochSeconds = .ok signingInput) (grows : c.Grows [env.random 0] c') :
      Accepts p c env (.awaitingKeyAttestation requestId cNonce cNonceHash) (.keyAttestation attestation)
        (.signingCredentialProof (env.random 0) cNonceHash signingInput)
        [.signCredentialProof ⟨env.random 0, c.config.credentialKeyRef, signingInput⟩] c'
  | proof {requestId cNonceHash signingInput signature credentialProof dpopInput c'}
      (answers : signature.Answers requestId signingInput)
      (assembled : assembleCompactJwt signingInput signature.signature = .ok credentialProof)
      (built : buildDpopSigningInput p c.config.credentialEndpoint c.config.dpopPublicJwk c.config.accessToken
        (b64Encode (env.random 0).1) env.nowEpochSeconds c.credentialEndpointNonce = .ok dpopInput)
      (grows : c.Grows [env.random 0, env.random 1] c') :
      Accepts p c env (.signingCredentialProof requestId cNonceHash signingInput)
        (.credentialProofSignature signature)
        (.signingDpop (env.random 1) cNonceHash credentialProof dpopInput 0)
        [.signDpop ⟨env.random 1, c.config.dpopKeyRef, dpopInput⟩] c'
  | request {requestId cNonceHash credentialProof signingInput retries signature dpopProof body c'}
      (answers : signature.Answers requestId signingInput)
      (assembled : assembleCompactJwt signingInput signature.signature = .ok dpopProof)
      (built : buildCredentialRequestBody p c.config.requestTarget credentialProof = .ok body)
      (grows : c.Grows [env.random 0] c') :
      Accepts p c env (.signingDpop requestId cNonceHash credentialProof signingInput retries)
        (.dpopSignature signature)
        (.awaitingCredentialResponse (env.random 0) cNonceHash credentialProof retries)
        [.sendCredential ⟨env.random 0, c.config.credentialEndpoint, "DPoP " ++ c.config.accessToken, dpopProof,
          body⟩] c'
  | challenge {requestId cNonceHash credentialProof retries response nonce dpopInput c'}
      (answers : response.Answers requestId c.config.credentialEndpoint)
      (again : retries < maxResourceDpopNonceRetries)
      (built : buildDpopSigningInput p c.config.credentialEndpoint c.config.dpopPublicJwk c.config.accessToken
        (b64Encode (env.random 0).1) env.nowEpochSeconds (some nonce) = .ok dpopInput)
      (grows : c.Grows [env.random 0, env.random 1] c') :
      Accepts p c env (.awaitingCredentialResponse requestId cNonceHash credentialProof retries)
        (.credentialResponse response)
        (.signingDpop (env.random 1) cNonceHash credentialProof dpopInput (retries + 1))
        [.signDpop ⟨env.random 1, c.config.dpopKeyRef, dpopInput⟩] c'
  | postponement {requestId cNonceHash credentialProof retries response transactionId interval c'}
      (answers : response.Answers requestId c.config.credentialEndpoint)
      (supported : c.config.deferredCredentialEndpoint ≠ none)
      (parsed : parseDeferredCredential p response.body = .ok (transactionId, interval))
      (grows : c.Grows [] c') :
      Accepts p c env (.awaitingCredentialResponse requestId cNonceHash credentialProof retries)
        (.credentialResponse response)
        (.deferred transactionId (env.nowEpochSeconds + interval) cNonceHash) [] c'
  | credential {requestId cNonceHash credentialProof retries response raw c'}
      (answers : response.Answers requestId c.config.credentialEndpoint)
      (parsed : parseImmediateCredential p response.body c.config.format c.config.credentialIssuer
        c.config.expectedVct = .ok raw) (grows : c.Grows [] c') :
      Accepts p c env (.awaitingCredentialResponse requestId cNonceHash credentialProof retries)
        (.credentialResponse response) (.complete ⟨c.config.format, raw, cNonceHash⟩) [] c'
  | poll {transactionId nextPoll cNonceHash endpoint dpopInput c'}
      (supported : c.config.deferredCredentialEndpoint = some endpoint)
      (built : buildDpopSigningInput p endpoint c.config.dpopPublicJwk c.config.accessToken
        (b64Encode (env.random 0).1) env.nowEpochSeconds c.credentialEndpointNonce = .ok dpopInput)
      (grows : c.Grows [env.random 0, env.random 1] c') :
      Accepts p c env (.deferred transactionId nextPoll cNonceHash) .pollDeferred
        (.signingDeferredDpop (env.random 1) transactionId cNonceHash dpopInput 0)
        [.signDpop ⟨env.random 1, c.config.dpopKeyRef, dpopInput⟩] c'
  | deferredRequest {requestId transactionId cNonceHash signingInput retries signature endpoint dpopProof c'}
      (answers : signature.Answers requestId signingInput)
      (supported : c.config.deferredCredentialEndpoint = some endpoint)
      (assembled : assembleCompactJwt signingInput signature.signature = .ok dpopProof)
      (grows : c.Grows [env.random 0] c') :
      Accepts p c env (.signingDeferredDpop requestId transactionId cNonceHash signingInput retries)
        (.dpopSignature signature)
        (.awaitingDeferredResponse (env.random 0) transactionId cNonceHash retries)
        [.sendDeferred ⟨env.random 0, endpoint, "DPoP " ++ c.config.accessToken, dpopProof,
          utf8 (p.renderJson (.obj [("transaction_id", .str transactionId)]))⟩] c'
  | deferredChallenge {requestId transactionId cNonceHash retries response nonce endpoint dpopInput c'}
      (supported : c.config.deferredCredentialEndpoint = some endpoint)
      (answers : response.Answers requestId endpoint) (again : retries < maxResourceDpopNonceRetries)
      (built : buildDpopSigningInput p endpoint c.config.dpopPublicJwk c.config.accessToken
        (b64Encode (env.random 0).1) env.nowEpochSeconds (some nonce) = .ok dpopInput)
      (grows : c.Grows [env.random 0, env.random 1] c') :
      Accepts p c env (.awaitingDeferredResponse requestId transactionId cNonceHash retries)
        (.credentialResponse response)
        (.signingDeferredDpop (env.random 1) transactionId cNonceHash dpopInput (retries + 1))
        [.signDpop ⟨env.random 1, c.config.dpopKeyRef, dpopInput⟩] c'
  | deferredPostponement {requestId transactionId cNonceHash retries response endpoint interval c'}
      (supported : c.config.deferredCredentialEndpoint = some endpoint)
      (answers : response.Answers requestId endpoint)
      (parsed : parseDeferredCredential p response.body = .ok (transactionId, interval))
      (grows : c.Grows [] c') :
      Accepts p c env (.awaitingDeferredResponse requestId transactionId cNonceHash retries)
        (.credentialResponse response)
        (.deferred transactionId (env.nowEpochSeconds + interval) cNonceHash) [] c'
  | deferredCredential {requestId transactionId cNonceHash retries response endpoint raw c'}
      (supported : c.config.deferredCredentialEndpoint = some endpoint)
      (answers : response.Answers requestId endpoint)
      (parsed : parseImmediateCredential p response.body c.config.format c.config.credentialIssuer
        c.config.expectedVct = .ok raw) (grows : c.Grows [] c') :
      Accepts p c env (.awaitingDeferredResponse requestId transactionId cNonceHash retries)
        (.credentialResponse response) (.complete ⟨c.config.format, raw, cNonceHash⟩) [] c'

section Transition
variable {requestId : CorrelationId} {endpoint : HttpsEndpoint} {response : EndpointResponse}
  {signature : SignatureResult} {transactionId credentialProof : String} {cNonceHash : Hash32}
  {retries : ℕ} {signingInput body : Bytes} {stage stage' : Stage} {input : CredentialInput}
  {effects : List CredentialEffect}

/-- A transition draws values and may take over a nonce, and changes nothing else of the context. -/
theorem Accepts.grows (h : Accepts p c env stage input stage' effects c') : ∃ drawn, c.Grows drawn c' := by
  cases h with
  | nonce _ _ _ grows | attestation _ _ grows | proof _ _ _ grows | request _ _ _ grows
  | challenge _ _ _ grows | postponement _ _ _ grows | credential _ _ grows | poll _ _ grows
  | deferredRequest _ _ _ grows | deferredChallenge _ _ _ _ grows
  | deferredPostponement _ _ _ grows | deferredCredential _ _ _ grows => exact ⟨_, grows⟩

/-! ### The methods, one by one -/

theorem validateTransportBinding_eq_ok {u : Unit} :
    validateTransportBinding requestId endpoint "POST" response = .ok u ↔ response.Answers requestId endpoint := by
  unfold validateTransportBinding
  constructor
  · intro h
    split_ifs at h with hbound
    exact ⟨hbound.1, hbound.2.1, hbound.2.2⟩
  · intro h
    rw [if_pos ⟨h.requestId, h.endpoint, h.method⟩]

theorem signature_answers : (¬ (requestId ≠ signature.requestId ∨ signingInput ≠ signature.signingInput) ∧
      ¬ signature.signature.length ≠ 64) ↔ signature.Answers requestId signingInput := by
  simp only [not_or, not_not]
  exact ⟨fun ⟨⟨hid, hinput⟩, hlength⟩ => ⟨hid, hinput, hlength⟩, fun ⟨hid, hinput, hlength⟩ => ⟨⟨hid, hinput⟩, hlength⟩⟩

theorem dpopSigningStage_ok :
    outcome (dpopSigningStage p cNonceHash credentialProof retries env) c = (.ok (stage, effects), c') ↔
      c.Fresh (env.random 0) ∧ ∃ dpopInput,
        buildDpopSigningInput p c.config.credentialEndpoint c.config.dpopPublicJwk c.config.accessToken
          (b64Encode (env.random 0).1) env.nowEpochSeconds c.credentialEndpointNonce = .ok dpopInput ∧
        (c.draw (env.random 0)).Fresh (env.random 1) ∧
        (.signingDpop (env.random 1) cNonceHash credentialProof dpopInput retries = stage ∧
          [.signDpop ⟨env.random 1, c.config.dpopKeyRef, dpopInput⟩] = effects) ∧
        (c.draw (env.random 0)).draw (env.random 1) = c' := by
  simp only [dpopSigningStage, outcome_drawRandom_bind_ok, outcome_get_bind, outcome_lift_bind_ok,
    outcome_pure_ok, Prod.mk.injEq, Context.draw_config, Context.draw_nonce]

theorem deferredDpopSigningStage_ok :
    outcome (deferredDpopSigningStage p transactionId cNonceHash retries env) c = (.ok (stage, effects), c') ↔
      ∃ endpoint, c.config.deferredCredentialEndpoint = some endpoint ∧ c.Fresh (env.random 0) ∧ ∃ dpopInput,
        buildDpopSigningInput p endpoint c.config.dpopPublicJwk c.config.accessToken
          (b64Encode (env.random 0).1) env.nowEpochSeconds c.credentialEndpointNonce = .ok dpopInput ∧
        (c.draw (env.random 0)).Fresh (env.random 1) ∧
        (.signingDeferredDpop (env.random 1) transactionId cNonceHash dpopInput retries = stage ∧
          [.signDpop ⟨env.random 1, c.config.dpopKeyRef, dpopInput⟩] = effects) ∧
        (c.draw (env.random 0)).draw (env.random 1) = c' := by
  simp only [deferredDpopSigningStage, outcome_drawRandom_bind_ok, outcome_get_bind, outcome_lift_bind_ok,
    outcome_pure_ok, Prod.mk.injEq, orErr_eq_ok]

theorem assembleCompactJwt_utf8 (text : String) (signature : Bytes) :
    assembleCompactJwt (utf8 text) signature = .ok (text ++ "." ++ b64Encode signature) := by
  rw [assembleCompactJwt, fromUtf8_compact]
  rfl

/-- What a response has to pass before its status is looked at. -/
theorem checkResponse_ok {r : Option String × Bool} (h : checkResponse requestId endpoint response = .ok r) :
    response.Answers requestId endpoint := by
  obtain ⟨u, hbinding, -⟩ := bind_eq_ok.mp h
  exact validateTransportBinding_eq_ok.mp hbinding

theorem challengeNonce_ok {nonce : Option String} {value : String}
    (h : challengeNonce p nonce retries body = .ok value) : retries < maxResourceDpopNonceRetries := by
  simp only [challengeNonce, bind_eq_ok, guard_eq_ok] at h
  omega

theorem completed_ok : completed p c cNonceHash body = .ok (stage, effects) ↔
      ∃ raw, parseImmediateCredential p body c.config.format c.config.credentialIssuer c.config.expectedVct =
          .ok raw ∧ .complete ⟨c.config.format, raw, cNonceHash⟩ = stage ∧ [] = effects := by
  simp only [completed, bind_eq_ok, pure_eq_ok, Prod.mk.injEq]

theorem postponed_ok {interval : ℕ} {now : ℤ} : postponed transactionId interval cNonceHash now = .ok (stage, effects) ↔
      now + interval < 2 ^ 63 ∧ stage = .deferred transactionId (now + interval) cNonceHash ∧ effects = [] := by
  unfold postponed
  split_ifs with hlate
  · simp only [false_iff, not_and]
    omega
  · rw [not_le] at hlate
    simp only [Except.ok.injEq, Prod.mk.injEq, hlate, true_and, eq_comm]

theorem acceptNonceResponse_accepts
    (h : outcome (acceptNonceResponse p requestId response env) c = (.ok (stage', effects), c')) :
    Accepts p c env (.awaitingNonceResponse requestId) (.nonceResponse response) stage' effects c' := by
  simp only [acceptNonceResponse, outcome_get_bind, outcome_lift_bind_ok, outcome_failIf_bind_ok,
    outcome_rotateIfPresent_bind_ok, outcome_drawRandom_bind_ok, outcome_pure_ok, Prod.mk.injEq] at h
  obtain ⟨_, hbinding, -, _, -, -, -, nonce, -, -, cNonce, hparsed, hunseen, hfresh, ⟨rfl, rfl⟩, rfl⟩ := h
  exact .nonce (validateTransportBinding_eq_ok.mp hbinding) hparsed hunseen
    (Context.Grows.rotate.trans (.draw hfresh))

theorem acceptKeyAttestation_accepts {cNonce : String} {attestation : KeyAttestation}
    (h : outcome (acceptKeyAttestation p requestId cNonce cNonceHash attestation env) c =
      (.ok (stage', effects), c')) :
    Accepts p c env (.awaitingKeyAttestation requestId cNonce cNonceHash) (.keyAttestation attestation) stage'
      effects c' := by
  simp only [acceptKeyAttestation, outcome_get_bind, outcome_lift_bind_ok, outcome_failIf_bind_ok,
    outcome_drawRandom_bind_ok, outcome_pure_ok, Prod.mk.injEq] at h
  obtain ⟨hbinding, _, hvalid, signingInput, hbuilt, hfresh, ⟨rfl, rfl⟩, rfl⟩ := h
  simp only [not_or, not_not] at hbinding
  obtain ⟨hid, hissuer, hendpoint, hkey, hjwk, hnonce⟩ := hbinding
  exact .attestation ⟨hvalid, hid, hissuer, hendpoint, hkey, hjwk, hnonce⟩ hbuilt (.draw hfresh)

theorem acceptCredentialProofSignature_accepts
    (h : outcome (acceptCredentialProofSignature p requestId cNonceHash signingInput signature env) c =
      (.ok (stage', effects), c')) : Accepts p c env (.signingCredentialProof requestId cNonceHash signingInput)
      (.credentialProofSignature signature) stage' effects c' := by
  simp only [acceptCredentialProofSignature, outcome_lift_bind_ok, outcome_failIf_bind_ok, dpopSigningStage_ok] at h
  obtain ⟨hbound, hlength, proof, hassembled, hfirst, dpopInput, hbuilt, hsecond, ⟨rfl, rfl⟩, rfl⟩ := h
  exact .proof (signature_answers.mp ⟨hbound, hlength⟩) hassembled hbuilt
    ((Context.Grows.draw hfirst).trans (.draw hsecond))

theorem acceptDpopSignature_accepts
    (h : outcome (acceptDpopSignature p requestId cNonceHash credentialProof signingInput retries signature
      (env.random 0)) c = (.ok (stage', effects), c')) :
    Accepts p c env (.signingDpop requestId cNonceHash credentialProof signingInput retries)
      (.dpopSignature signature) stage' effects c' := by
  simp only [acceptDpopSignature, outcome_get_bind, outcome_lift_bind_ok, outcome_failIf_bind_ok,
    outcome_drawRandom_bind_ok, outcome_pure_ok, Prod.mk.injEq, mapError_eq_ok] at h
  obtain ⟨hbound, hlength, dpopProof, hassembled, body, hbody, hfresh, ⟨rfl, rfl⟩, rfl⟩ := h
  exact .request (signature_answers.mp ⟨hbound, hlength⟩) hassembled hbody (.draw hfresh)

theorem acceptCredentialResponse_accepts
    (h : outcome (acceptCredentialResponse p requestId cNonceHash credentialProof retries response env) c =
      (.ok (stage', effects), c')) :
    Accepts p c env (.awaitingCredentialResponse requestId cNonceHash credentialProof retries)
      (.credentialResponse response) stage' effects c' := by
  simp only [acceptCredentialResponse, outcome_get_bind, outcome_lift_bind_ok] at h
  obtain ⟨⟨nonce, challenged⟩, hchecked, h⟩ := h
  have hanswers := checkResponse_ok hchecked
  split_ifs at h with hchallenged hpending
  · simp only [outcome_lift_bind_ok, outcome_rotateCredentialEndpointNonce_bind_ok, dpopSigningStage_ok] at h
    obtain ⟨value, hvalue, -, hfirst, dpopInput, hbuilt, hsecond, ⟨rfl, rfl⟩, rfl⟩ := h
    exact .challenge hanswers (challengeNonce_ok hvalue) hbuilt
      (Context.Grows.rotate.trans ((Context.Grows.draw hfirst).trans (.draw hsecond)))
  · simp only [outcome_lift_bind_ok, outcome_failIf_bind_ok, outcome_rotateIfPresent_bind_ok, outcome_lift,
      Prod.mk.injEq, postponed_ok] at h
    obtain ⟨-, -, hsupported, ⟨transactionId, interval⟩, hparsed, ⟨-, rfl, rfl⟩, rfl⟩ := h
    exact .postponement hanswers hsupported hparsed .rotate
  · simp only [outcome_failIf_bind_ok, outcome_rotateIfPresent_bind_ok, outcome_lift, Prod.mk.injEq,
      completed_ok] at h
    obtain ⟨-, -, -, ⟨raw, hparsed, rfl, rfl⟩, rfl⟩ := h
    exact .credential hanswers hparsed .rotate

theorem acceptDeferredDpopSignature_ok {random : Hash32} :
    outcome (acceptDeferredDpopSignature p requestId transactionId cNonceHash signingInput retries signature
      random) c = (.ok (stage', effects), c') ↔
      signature.Answers requestId signingInput ∧ ∃ endpoint, c.config.deferredCredentialEndpoint = some endpoint ∧
        ∃ dpopProof, assembleCompactJwt signingInput signature.signature = .ok dpopProof ∧ c.Fresh random ∧
        (.awaitingDeferredResponse random transactionId cNonceHash retries = stage' ∧
          [.sendDeferred ⟨random, endpoint, "DPoP " ++ c.config.accessToken, dpopProof,
            utf8 (p.renderJson (.obj [("transaction_id", .str transactionId)]))⟩] = effects) ∧ c.draw random = c' := by
  simp only [acceptDeferredDpopSignature, outcome_get_bind, outcome_lift_bind_ok, outcome_failIf_bind_ok,
    outcome_drawRandom_bind_ok, outcome_pure_ok, Prod.mk.injEq, orErr_eq_ok]
  rw [← and_assoc, signature_answers]

theorem acceptDeferredResponse_accepts
    (h : outcome (acceptDeferredResponse p requestId transactionId cNonceHash retries response env) c =
      (.ok (stage', effects), c')) :
    Accepts p c env (.awaitingDeferredResponse requestId transactionId cNonceHash retries)
      (.credentialResponse response) stage' effects c' := by
  simp only [acceptDeferredResponse, outcome_get_bind, outcome_lift_bind_ok, orErr_eq_ok] at h
  obtain ⟨endpoint, hendpoint, ⟨nonce, challenged⟩, hchecked, h⟩ := h
  have hanswers := checkResponse_ok hchecked
  split_ifs at h with hchallenged hissued
  · simp only [outcome_lift_bind_ok, outcome_rotateCredentialEndpointNonce_bind_ok,
      deferredDpopSigningStage_ok] at h
    obtain ⟨value, hvalue, -, endpoint', hendpoint', hfirst, dpopInput, hbuilt, hsecond, ⟨rfl, rfl⟩, rfl⟩ := h
    exact .deferredChallenge hendpoint' (by simp_all) (challengeNonce_ok hvalue) hbuilt
      (Context.Grows.rotate.trans ((Context.Grows.draw hfirst).trans (.draw hsecond)))
  · simp only [outcome_failIf_bind_ok, outcome_rotateIfPresent_bind_ok, outcome_lift, Prod.mk.injEq,
      completed_ok] at h
    obtain ⟨-, -, ⟨raw, hparsed, rfl, rfl⟩, rfl⟩ := h
    exact .deferredCredential hendpoint hanswers hparsed .rotate
  · simp only [outcome_lift_bind_ok, outcome_failIf_bind_ok, outcome_rotateIfPresent_bind_ok, outcome_lift,
      Prod.mk.injEq, postponed_ok, not_not] at h
    obtain ⟨-, -, -, ⟨returnedId, interval⟩, hparsed, hid, ⟨-, rfl, rfl⟩, rfl⟩ := h
    obtain rfl : returnedId = transactionId := hid
    exact .deferredPostponement hendpoint hanswers hparsed .rotate

theorem transition_accepts (h : outcome (transition p stage input env) c = (.ok (stage', effects), c')) :
    Accepts p c env stage input stage' effects c' := by
  unfold transition at h
  split at h
  · exact acceptNonceResponse_accepts h
  · exact acceptKeyAttestation_accepts h
  · exact acceptCredentialProofSignature_accepts h
  · exact acceptDpopSignature_accepts h
  · exact acceptCredentialResponse_accepts h
  · rw [deferredDpopSigningStage_ok] at h
    obtain ⟨endpoint, hendpoint, hfirst, dpopInput, hbuilt, hsecond, ⟨rfl, rfl⟩, rfl⟩ := h
    exact .poll hendpoint hbuilt ((Context.Grows.draw hfirst).trans (.draw hsecond))
  · obtain ⟨hanswers, endpoint, hendpoint, dpopProof, hassembled, hfresh, ⟨rfl, rfl⟩, rfl⟩ :=
      acceptDeferredDpopSignature_ok.mp h
    exact .deferredRequest hanswers hendpoint hassembled (.draw hfresh)
  · exact acceptDeferredResponse_accepts h
  · simp at h

end Transition

/-! ### The calls -/

/-- The context a call works on once its clock is accepted. -/
def Context.at (c : Context) (now : ℤ) : Context := { c with lastNowEpochSeconds := now }

/-- What a call can do. -/
inductive Move (p : Platform) (flow : CredentialFlow) (input : CredentialInput) (env : CredentialEnvironment) :
    CredentialFlow → Reply → Prop
  /-- The clock or the lifetime of the token is refused. -/
  | refuses {e} (clock : clockFailure flow.context env.nowEpochSeconds = some e) :
      Move p flow input env ⟨flow.context, .failed e⟩ (.error e)
  | ended (clock : clockFailure flow.context env.nowEpochSeconds = none) (terminal : flow.stage.terminal = true) :
      Move p flow input env ⟨flow.context.at env.nowEpochSeconds, flow.stage⟩ (.error .alreadyTerminal)
  | early (clock : clockFailure flow.context env.nowEpochSeconds = none) :
      Move p flow input env ⟨flow.context.at env.nowEpochSeconds, flow.stage⟩ (.error .deferredPollTooEarly)
  | fails {e c} : Move p flow input env ⟨c, .failed e⟩ (.error e)
  | accepts {stage effects c} (clock : clockFailure flow.context env.nowEpochSeconds = none)
      (accepts : Accepts p (flow.context.at env.nowEpochSeconds) env flow.stage input stage effects c) :
      Move p flow input env ⟨c, stage⟩ (.ok effects)

theorem step_move (p : Platform) (flow : CredentialFlow) (input : CredentialInput) (env : CredentialEnvironment) :
    Move p flow input env (step p flow input env).1 (step p flow input env).2 := by
  unfold step
  cases hclock : clockFailure flow.context env.nowEpochSeconds with
  | some e => exact .refuses hclock
  | none =>
    dsimp only
    split_ifs with hterminal hearly
    · exact .ended hclock hterminal
    · exact .early hclock
    · rcases houtcome : outcome (transition p flow.stage input env)
        { flow.context with lastNowEpochSeconds := env.nowEpochSeconds } with ⟨_ | ⟨stage, effects⟩, c⟩
      · exact .fails
      · exact .accepts hclock (transition_accepts houtcome)

end EuWallet.Vci.Credential
