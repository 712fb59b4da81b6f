import EuWallet.Vci.Authorization

/-! # Moves of the authorization flow

What a call of `AuthorizationFlow::step` can do, in the manner of `CredentialMoves`: `Accepts` lists the
transitions that succeed with the checks they have passed, `Move` the calls. -/

namespace EuWallet.Vci.Authorization

open Codec Crypto Lib Lib.Fallible

variable {p : Platform} {c c' c'' : Context} {env : AuthorizationEnvironment}

/-! ### How the context grows -/

def Context.Fresh (c : Context) (value : Hash32) : Prop :=
  c.usedRandomValues.length < 32 ∧ value ≠ zeroHash ∧ value ∉ c.usedRandomValues

def Context.draw (c : Context) (value : Hash32) : Context :=
  { c with usedRandomValues := c.usedRandomValues ++ [value] }

/-- The context after a nonce of the token endpoint was taken over. -/
def Context.rotate (c : Context) (nonce : Option String) : Context :=
  match nonce with
  | none => c
  | some nonce => { c with
      tokenEndpointNonce := some nonce
      retiredTokenEndpointNonces := c.retiredTokenEndpointNonces ++ c.tokenEndpointNonce.toList }

/-- A nonce that was not used before. -/
def Context.Rotates (c : Context) (nonce : Option String) : Prop :=
  ∀ value ∈ nonce, value ∉ c.retiredTokenEndpointNonces ∧ c.tokenEndpointNonce ≠ some value

section Run
variable {β : Type} {d : β} {f : Unit → Action β}

theorem outcome_drawRandom_bind_ok {value : Hash32} {f : Hash32 → Action β} :
    outcome (drawRandom value >>= f) c = (.ok d, c') ↔
      c.Fresh value ∧ outcome (f value) (c.draw value) = (.ok d, c') := by
  refine outcome_draw_bind_ok .randomnessFailure Context.usedRandomValues
    (fun c used => { c with usedRandomValues := used }) (fun c => ?_)
  unfold drawRandom
  rw [outcome_get_bind]
  cases freshRandom c.usedRandomValues value <;> rfl

theorem outcome_rotateTokenEndpointNonce_bind_ok {nonce : String} :
    outcome (rotateTokenEndpointNonce nonce >>= f) c = (.ok d, c') ↔
      c.Rotates (some nonce) ∧ outcome (f ()) (c.rotate (some nonce)) = (.ok d, c') := by
  simp only [rotateTokenEndpointNonce, bind_assoc, outcome_get_bind, outcome_failIf_bind_ok, outcome_modify_bind,
    Context.Rotates, Option.mem_def, Option.some.injEq, forall_eq', and_assoc]
  rfl

theorem outcome_rotateIfPresent_bind_ok {nonce : Option String} :
    outcome (rotateIfPresent nonce >>= f) c = (.ok d, c') ↔
      c.Rotates nonce ∧ outcome (f ()) (c.rotate nonce) = (.ok d, c') := by
  cases nonce with
  | none => simp [rotateIfPresent, Context.Rotates, Context.rotate]
  | some nonce => exact outcome_rotateTokenEndpointNonce_bind_ok

end Run

/-- What a call leaves of the context: the configuration and the secrets of the beginning, and the hashes of the
proofs of possession with those it has added. -/
structure Context.Grows (c : Context) (hashes : List Hash32) (c' : Context) : Prop where
  config : c'.config = c.config
  pkceVerifier : c'.pkceVerifier = c.pkceVerifier
  pkceChallenge : c'.pkceChallenge = c.pkceChallenge
  state : c'.state = c.state
  hashes : c'.usedClientAuthPopHashes = c.usedClientAuthPopHashes ++ hashes

namespace Context.Grows

theorem refl : c.Grows [] c := ⟨rfl, rfl, rfl, rfl, by simp⟩

theorem draw {value : Hash32} : c.Grows [] (c.draw value) := ⟨rfl, rfl, rfl, rfl, by simp [Context.draw]⟩

theorem rotate {nonce : Option String} : c.Grows [] (c.rotate nonce) := by
  cases nonce
  · exact refl
  · exact ⟨rfl, rfl, rfl, rfl, by simp [Context.rotate]⟩

theorem use {hash : Hash32} :
    c.Grows [hash] { c with usedClientAuthPopHashes := c.usedClientAuthPopHashes ++ [hash] } :=
  ⟨rfl, rfl, rfl, rfl, rfl⟩

theorem trans {first second : List Hash32} (h : c.Grows first c') (h' : c'.Grows second c'') :
    c.Grows (first ++ second) c'' where
  config := h'.config.trans h.config
  pkceVerifier := h'.pkceVerifier.trans h.pkceVerifier
  pkceChallenge := h'.pkceChallenge.trans h.pkceChallenge
  state := h'.state.trans h.state
  hashes := by rw [h'.hashes, h.hashes, List.append_assoc]

end Context.Grows

/-! ### What a transition does when it succeeds -/

structure WalletClientAuthentication.Answers (auth : WalletClientAuthentication) (p : Platform) (c : Context)
    (purpose : EndpointPurpose) (requestId : CorrelationId) : Prop where
  requestId : requestId = auth.requestId
  endpoint : auth.endpoint = c.endpoint purpose
  purpose : auth.purpose = purpose
  clientId : auth.clientId = c.config.clientId
  audience : auth.audience = c.config.authorizationServer
  new : p.sha256 (utf8 auth.proofOfPossession) ∉ c.usedClientAuthPopHashes

structure DpopSignature.Answers (signature : DpopSignature) (requestId : CorrelationId) (signingInput : Bytes) :
    Prop where
  requestId : requestId = signature.requestId
  signingInput : signingInput = signature.signingInput
  length : signature.signature.length = 64

/-- A response that belongs to a request. -/
structure EndpointResponse.Answers (response : EndpointResponse) (requestId : CorrelationId) (endpoint : HttpsEndpoint) :
    Prop where
  requestId : requestId = response.requestId
  endpoint : response.endpoint = endpoint
  method : response.method = "POST"

/-- The request for a client authentication towards the token endpoint. -/
def Context.tokenAuthentication (c : Context) (requestId : CorrelationId) : WalletClientAuthenticationRequest :=
  ⟨requestId, .token, c.config.clientId, c.config.authorizationServer, c.config.tokenEndpoint⟩

inductive Accepts (p : Platform) (c : Context) (env : AuthorizationEnvironment) :
    Stage → AuthorizationInput → Stage → List AuthorizationEffect → Context → Prop
  | push {requestId auth request c'} (answers : auth.Answers p c .par requestId)
      (built : buildParRequest c (env.random 0) auth = .ok request)
      (grows : c.Grows [p.sha256 (utf8 auth.proofOfPossession)] c') :
      Accepts p c env (.awaitingClientAuthentication .par requestId none 0) (.walletClientAuthentication auth)
        (.awaitingParResponse (env.random 0)) [.sendPar request] c'
  | authenticate {requestId code retries auth signingInput c'} (answers : auth.Answers p c .token requestId)
      (built : buildDpopSigningInput p c (b64Encode (env.random 1).1) env.nowEpochSeconds c.tokenEndpointNonce =
        .ok signingInput) (grows : c.Grows [p.sha256 (utf8 auth.proofOfPossession)] c') :
      Accepts p c env (.awaitingClientAuthentication .token requestId (some code) retries)
        (.walletClientAuthentication auth) (.signingDpop (env.random 0) signingInput auth code retries)
        [.signDpop ⟨env.random 0, c.config.dpopKey.keyRef, signingInput⟩] c'
  | request {requestId signingInput auth code retries signature proof request c'}
      (answers : signature.Answers requestId signingInput)
      (assembled : fromUtf8 (signingInput ++ 46 :: utf8 (b64Encode signature.signature)) = some proof)
      (built : buildTokenRequest c (env.random 0) code auth proof = .ok request) (grows : c.Grows [] c') :
      Accepts p c env (.signingDpop requestId signingInput auth code retries) (.dpopSignature signature)
        (.awaitingTokenResponse (env.random 0) code retries) [.sendToken request] c'
  | pushed {requestId response par c'} (answers : response.Answers requestId c.config.parEndpoint)
      (created : response.status = 201) (parsed : parseParResponse p response.body = .ok par)
      (grows : c.Grows [] c') :
      Accepts p c env (.awaitingParResponse requestId) (.parResponse response) .awaitingAuthorization
        [.openAuthorization ⟨buildAuthorizationUrl c.config.authorizationEndpoint c.config.clientId par.requestUri,
          env.nowEpochSeconds + par.expiresIn⟩] c'
  | returned {redirect callback code c'} (uri : redirect.redirectUri = c.config.redirectUri)
      (parsed : parseAuthorizationCallback redirect.query = .ok callback) (state : callback.state = c.state)
      (issuer : callback.issuer = c.config.authorizationServer) (granted : callback.code = some code)
      (grows : c.Grows [] c') :
      Accepts p c env .awaitingAuthorization (.authorizationRedirect redirect)
        (.awaitingClientAuthentication .token (env.random 0) (some code) 0)
        [.acquireWalletClientAuthentication (c.tokenAuthentication (env.random 0))] c'
  | challenge {requestId code retries response c'} (answers : response.Answers requestId c.config.tokenEndpoint)
      (again : retries < maxDpopNonceRetries) (grows : c.Grows [] c') :
      Accepts p c env (.awaitingTokenResponse requestId code retries) (.tokenResponse response)
        (.awaitingClientAuthentication .token (env.random 0) (some code) (retries + 1))
        [.acquireWalletClientAuthentication (c.tokenAuthentication (env.random 0))] c'
  | grant {requestId code retries response grant c'} (answers : response.Answers requestId c.config.tokenEndpoint)
      (grows : c.Grows [] c') :
      Accepts p c env (.awaitingTokenResponse requestId code retries) (.tokenResponse response) (.complete grant) []
        c'

/-! ### The methods, one by one -/

theorem validateTransportBinding_eq_ok {requestId : CorrelationId} {endpoint : HttpsEndpoint}
    {response : EndpointResponse} {u : Unit} :
    validateTransportBinding requestId endpoint "POST" response = .ok u ↔ response.Answers requestId endpoint := by
  unfold validateTransportBinding
  constructor
  · intro h
    split_ifs at h with hbound
    exact ⟨hbound.1, hbound.2.1, hbound.2.2⟩
  · intro h
    rw [if_pos ⟨h.requestId, h.endpoint, h.method⟩]

theorem outcome_clientAuthStage_ok {code : Option String} {retries : ℕ} {random : Hash32} {β : Type} {d : β}
    {purpose : EndpointPurpose} {f : Stage × AuthorizationEffect → Action β} :
    outcome (clientAuthStage purpose code retries random >>= f) c = (.ok d, c') ↔ c.Fresh random ∧
      outcome (f (.awaitingClientAuthentication purpose random code retries, .acquireWalletClientAuthentication
        ⟨random, purpose, c.config.clientId, c.config.authorizationServer, c.endpoint purpose⟩)) (c.draw random) =
        (.ok d, c') := by
  simp only [clientAuthStage, bind_assoc, outcome_drawRandom_bind_ok, outcome_get_bind, pure_bind]
  rfl

section Transition
variable {stage stage' : Stage} {input : AuthorizationInput} {effects : List AuthorizationEffect}

variable {requestId : CorrelationId} {auth : WalletClientAuthentication} {retries : ℕ} {response : EndpointResponse}

theorem acceptClientAuthentication_accepts {purpose : EndpointPurpose} {code : Option String}
    (h : outcome (acceptClientAuthentication p purpose requestId code retries auth env) c = (.ok (stage', effects), c'))
    :
    Accepts p c env (.awaitingClientAuthentication purpose requestId code retries) (.walletClientAuthentication auth)
      stage' effects c' := by
  simp only [acceptClientAuthentication, outcome_get_bind, outcome_lift_bind_ok, outcome_failIf_bind_ok,
    outcome_modify_bind] at h
  obtain ⟨hid, hbinding, _, -, _, -, hnew, h⟩ := h
  simp only [not_or, not_not] at hid hbinding
  obtain ⟨hpurpose, hclient, haudience, hendpoint⟩ := hbinding
  have hanswers : auth.Answers p c purpose requestId := ⟨hid, hendpoint, hpurpose, hclient, haudience, hnew⟩
  cases purpose with
  | par =>
    simp only [authenticated, outcome_get_bind, outcome_lift_bind_ok, outcome_failIf_bind_ok,
      outcome_drawRandom_bind_ok, outcome_pure_ok, Prod.mk.injEq] at h
    obtain ⟨hfirst, -, request, hbuilt, ⟨rfl, rfl⟩, rfl⟩ := h
    simp only [not_or, Bool.not_eq_true, Option.isSome_eq_false_iff, Option.isNone_iff_eq_none, not_not] at hfirst
    obtain ⟨rfl, rfl⟩ := hfirst
    exact .push hanswers hbuilt (Context.Grows.use.trans .draw)
  | token =>
    simp only [authenticated, outcome_get_bind, outcome_lift_bind_ok, outcome_drawRandom_bind_ok, outcome_pure_ok, Prod.mk.injEq, orErr_eq_ok] at h
    obtain ⟨code, rfl, -, -, signingInput, hbuilt, ⟨rfl, rfl⟩, rfl⟩ := h
    exact .authenticate hanswers hbuilt (Context.Grows.use.trans (Context.Grows.draw.trans .draw))

theorem acceptDpopSignature_accepts {signingInput : Bytes} {code : String} {signature : DpopSignature}
    (h : outcome (acceptDpopSignature requestId signingInput auth code retries signature (env.random 0)) c = (.ok (stage', effects), c'))
    :
    Accepts p c env (.signingDpop requestId signingInput auth code retries) (.dpopSignature signature) stage' effects
      c' := by
  simp only [acceptDpopSignature, outcome_get_bind, outcome_lift_bind_ok, outcome_failIf_bind_ok,
    outcome_drawRandom_bind_ok, outcome_pure_ok, Prod.mk.injEq, orErr_eq_ok, not_or, not_not] at h
  obtain ⟨⟨hid, hinput⟩, hlength, proof, hassembled, -, request, hbuilt, ⟨rfl, rfl⟩, rfl⟩ := h
  exact .request ⟨hid, hinput, hlength⟩ hassembled hbuilt .draw

theorem acceptParResponse_accepts
    (h : outcome (acceptParResponse p requestId response env.nowEpochSeconds) c = (.ok (stage', effects), c')) :
    Accepts p c env (.awaitingParResponse requestId) (.parResponse response) stage' effects c' := by
  simp only [acceptParResponse, outcome_get_bind, outcome_lift_bind_ok] at h
  obtain ⟨_, hbinding, _, -, nonce, -, h⟩ := h
  split_ifs at h with hstatus
  · simp only [outcome_lift_bind_ok, outcome_throw_ok, and_false, exists_false] at h
  · simp only [outcome_lift_bind_ok, outcome_failIf_bind_ok, outcome_rotateIfPresent_bind_ok, outcome_pure_ok,
      Prod.mk.injEq] at h
    obtain ⟨_, -, -, _, -, -, par, hparsed, -, -, ⟨rfl, rfl⟩, rfl⟩ := h
    exact .pushed (validateTransportBinding_eq_ok.mp hbinding) (not_not.mp hstatus) hparsed .rotate

theorem acceptAuthorizationRedirect_accepts {redirect : AuthorizationRedirect}
    (h : outcome (acceptAuthorizationRedirect redirect (env.random 0)) c = (.ok (stage', effects), c')) :
    Accepts p c env .awaitingAuthorization (.authorizationRedirect redirect) stage' effects c' := by
  simp only [acceptAuthorizationRedirect, outcome_get_bind, outcome_lift_bind_ok, outcome_failIf_bind_ok,
    outcome_clientAuthStage_ok, outcome_pure_ok, Prod.mk.injEq, orErr_eq_ok, not_not] at h
  obtain ⟨huri, callback, hparsed, hstate, hissuer, code, hcode, -, ⟨rfl, rfl⟩, rfl⟩ := h
  exact .returned huri hparsed hstate hissuer hcode .draw

theorem acceptTokenResponse_accepts {code : String}
    (h : outcome (acceptTokenResponse p requestId code retries response env) c = (.ok (stage', effects), c')) :
    Accepts p c env (.awaitingTokenResponse requestId code retries) (.tokenResponse response) stage' effects c' := by
  simp only [acceptTokenResponse, outcome_get_bind, outcome_lift_bind_ok] at h
  obtain ⟨_, hbinding, _, -, nonce, -, h⟩ := h
  have hanswers := validateTransportBinding_eq_ok.mp hbinding
  split_ifs at h with hstatus
  · simp only [outcome_lift_bind_ok, outcome_failIf_bind_ok, outcome_rotateTokenEndpointNonce_bind_ok,
      outcome_clientAuthStage_ok, outcome_pure_ok, Prod.mk.injEq, not_le] at h
    obtain ⟨_, -, -, _, -, hagain, -, -, ⟨rfl, rfl⟩, rfl⟩ := h
    exact .challenge hanswers hagain (Context.Grows.rotate.trans .draw)
  · simp only [outcome_lift_bind_ok, outcome_failIf_bind_ok, outcome_rotateIfPresent_bind_ok, outcome_get_bind,
      outcome_pure_ok, Prod.mk.injEq] at h
    obtain ⟨-, _, -, -, _, -, -, -, parsed, -, ⟨rfl, rfl⟩, rfl⟩ := h
    exact .grant hanswers .rotate

theorem transition_accepts (h : outcome (transition p stage input env) c = (.ok (stage', effects), c')) :
    Accepts p c env stage input stage' effects c' := by
  unfold transition at h
  split at h
  · exact acceptClientAuthentication_accepts h
  · exact acceptDpopSignature_accepts h
  · exact acceptParResponse_accepts h
  · exact acceptAuthorizationRedirect_accepts h
  · exact acceptTokenResponse_accepts h
  · simp at h

end Transition

/-! ### The calls -/

/-- The context a call works on once its clock is accepted. -/
def Context.at (c : Context) (now : ℤ) : Context := { c with lastNowEpochSeconds := now }

/-- What a call can do. -/
inductive Move (p : Platform) (flow : AuthorizationFlow) (input : AuthorizationInput)
    (env : AuthorizationEnvironment) : AuthorizationFlow → Reply → Prop
  /-- The clock is refused, the flow is over or the transition fails. -/
  | refuses {e c} : Move p flow input env ⟨c, .failed e⟩ (.error e)
  | ended (terminal : flow.stage.terminal = true) :
      Move p flow input env ⟨flow.context.at env.nowEpochSeconds, flow.stage⟩ (.error .alreadyTerminal)
  | accepts {stage effects c}
      (accepts : Accepts p (flow.context.at env.nowEpochSeconds) env flow.stage input stage effects c) :
      Move p flow input env ⟨c, stage⟩ (.ok effects)

theorem step_move (p : Platform) (flow : AuthorizationFlow) (input : AuthorizationInput)
    (env : AuthorizationEnvironment) : Move p flow input env (step p flow input env).1 (step p flow input env).2 := by
  unfold step
  dsimp only
  split_ifs with hclock hterminal
  · exact .refuses
  · exact .ended hterminal
  · rcases houtcome : outcome (transition p flow.stage input env)
      { flow.context with lastNowEpochSeconds := env.nowEpochSeconds } with ⟨_ | ⟨stage, effects⟩, c⟩
    · exact .refuses
    · exact .accepts (transition_accepts houtcome)

end EuWallet.Vci.Authorization
