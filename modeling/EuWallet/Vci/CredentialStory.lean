import EuWallet.Vci.CredentialMoves

/-! # The story of an issued credential

Runs of the credential flow from `begin`. The stages drop the nonce, the key attestation and the proofs once they
are used; the history of the run keeps them. Four invariants of the calls so far are read off the moves: where
the credential proof comes from (`Story`), that no DPoP proof repeats an identifier (`Proofs`), that effects are
emitted in the order of the clock (`Timed`), and that a nonce challenge is followed at most once in a row
(`Calm`). `issued_credential_story` puts them together for a flow that has become complete. A
fifth joins replies to requests (`Correlated`). -/

namespace EuWallet.Vci.Credential

open Codec Codec.BoundedJson Crypto Lib

/-! ### What is told about a call -/

namespace Exchange

/-- The effects a call has emitted. -/
def effects (k : Exchange) : List CredentialEffect :=
  k.outputs.flatMap fun
    | .ok effects => effects
    | .error _ => []

/-- The clock of a call. -/
def now (k : Exchange) : ℤ := k.input.2.nowEpochSeconds

def credentialRequests (k : Exchange) : List CredentialRequest :=
  k.effects.filterMap fun
    | .sendCredential request => some request
    | _ => none

def requests (k : Exchange) : List CredentialRequest :=
  k.effects.filterMap fun
    | .sendCredential request => some request
    | .sendDeferred request => some request
    | _ => none

def Accepted (k : Exchange) : Prop := ∃ effects, k.outputs = [.ok effects]

/-- The call has accepted a response of the nonce endpoint, and with it a nonce that was not seen before. -/
def TakesNonce (p : Platform) (config : CredentialFlowConfig) (cNonce : String) (k : Exchange) : Prop :=
  k.Accepted ∧ ∃ response requestId, k.input.1 = .nonceResponse response ∧
    response.Answers requestId config.nonceEndpoint ∧ parseNonceResponse p response.body = .ok cNonce ∧
    p.sha256 (utf8 cNonce) ∉ k.input.2.seenCNonceHashes

end Exchange

/-- The token attests exactly one key, which is this one, for this nonce, and it expires later than `now`. -/
def Attests (p : Platform) (jwt cNonce : String) (jwk : Es256PublicJwk) (now : ℤ) : Prop :=
  ∃ decoded payload key expiresAt,
    splitCompactJwt jwt maxKeyAttestationBytes maxKeyAttestationSegmentBytes = some decoded ∧
    parseObject p decoded.payload jwtJsonLimits = .ok payload ∧
    (payload.lookup "nonce").bind Json.asStr = some cNonce ∧
    (payload.lookup "attested_keys").bind Json.asArray = some [.obj key] ∧
    (key.lookup "kty").bind Json.asStr = some "EC" ∧ (key.lookup "crv").bind Json.asStr = some "P-256" ∧
    (key.lookup "x").bind Json.asStr = some jwk.x ∧ (key.lookup "y").bind Json.asStr = some jwk.y ∧
    (payload.lookup "exp").bind Json.asI64 = some expiresAt ∧ now < expiresAt

def Exchange.TakesAttestation (p : Platform) (config : CredentialFlowConfig) (cNonce jwt : String) (k : Exchange) :
    Prop :=
  k.Accepted ∧ ∃ attestation, k.input.1 = .keyAttestation attestation ∧ attestation.jwt = jwt ∧
    Attests p jwt cNonce config.credentialPublicJwk k.now

theorem asObject_eq_some {value : Json} {object : List (String × Json)} :
    value.asObject = some object ↔ value = .obj object := by
  cases value <;> simp [Json.asObject]

theorem attests_of_valid {p : Platform} {jwt cNonce : String} {jwk : Es256PublicJwk} {now : ℤ} {u : Unit}
    (h : validateKeyAttestation p jwt cNonce jwk now = .ok u) : Attests p jwt cNonce jwk now := by
  simp only [validateKeyAttestation, bind_eq_ok, guard_eq_ok, orErr_eq_ok, mapError_eq_ok] at h
  obtain ⟨decoded, hdecoded, -, header, -, _, -, payload, hpayload, h⟩ := h
  simp only [validateAttestationPayload, bind_eq_ok, guard_eq_ok, orErr_eq_ok] at h
  obtain ⟨-, issuedAt, -, expiresAt, hexpires, hclock, hnonce, keys, hkeys, h⟩ := h
  rw [not_or, not_not] at hnonce
  split at h
  · next key =>
    simp only [bind_eq_ok, orErr_eq_ok, asObject_eq_some] at h
    obtain ⟨object, rfl, h⟩ := h
    split_ifs at h with hkey
    simp only [not_or, not_not] at hkey
    obtain ⟨hkty, hcrv, hx, hy⟩ := hkey
    exact ⟨decoded, payload, object, expiresAt, hdecoded, hpayload, hnonce.1, hkeys, hkty, hcrv, hx, hy, hexpires,
      by omega⟩
  · cases h

/-! ### A rule for runs -/

variable {p : Platform} {config : CredentialFlowConfig} {history : List Exchange} {k : Exchange} {reply : Reply}

theorem exchanges_invariant {start : CredentialFlow} {Inv : List Exchange → CredentialFlow → Prop} (hstart : Inv [] start)
    (fails : ∀ history k e c, Inv history k.before → k.outputs = [.error e] → Inv (history ++ [k]) ⟨c, .failed e⟩)
    (waits : ∀ history k e, Inv history k.before → k.outputs = [.error e] →
      clockFailure k.before.context k.now = none → Inv (history ++ [k]) ⟨k.before.context.at k.now, k.before.stage⟩)
    (accepts : ∀ history k effects stage c, Inv history k.before → k.outputs = [.ok effects] →
      clockFailure k.before.context k.now = none →
      Accepts p (k.before.context.at k.now) k.input.2 k.before.stage k.input.1 stage effects c →
        Inv (history ++ [k]) ⟨c, stage⟩)
    (inputs : List (CredentialInput × CredentialEnvironment)) :
    Inv (exchanges p start inputs) (flowAfter p start inputs) := by
  refine calls_invariant Inv hstart (fun history flow call hinv => ?_) inputs
  have hmove := step_move p flow call.1 call.2
  unfold callOf respond
  generalize step p flow call.1 call.2 = out at hmove
  obtain ⟨after, reply⟩ := out
  cases hmove with
  | refuses | fails => exact fails history _ _ _ hinv rfl
  | ended clock | early clock => exact waits history ⟨flow, call, _, _⟩ _ hinv rfl clock
  | accepts clock haccepts => exact accepts history ⟨flow, call, _, _⟩ _ _ _ hinv rfl clock haccepts

def CredentialFlow.Running (flow : CredentialFlow) : Prop := ∀ e, flow.stage ≠ .failed e

variable {stage stage' : Stage} {effects : List CredentialEffect}

theorem Accepts.running {c c' : Context} {env : CredentialEnvironment} {input : CredentialInput}
    (h : Accepts p c env stage input stage' effects c') :
    CredentialFlow.Running ⟨c, stage⟩ := by
  rintro e rfl
  cases h

theorem effects_of_ok (h : k.outputs = [.ok effects]) : k.effects = effects := by
  simp [Exchange.effects, h]

theorem effects_of_error {e : CredentialError} (h : k.outputs = [.error e]) : k.effects = [] := by
  simp [Exchange.effects, h]

/-! ### Where the credential proof comes from -/

def proofText (p : Platform) (config : CredentialFlowConfig) (jwt cNonce : String) (iat : ℤ) : String :=
  signingText p (proofHeader config.credentialPublicJwk jwt) (proofClaims config.credentialIssuer cNonce iat)

/-- The two calls have accepted the nonce and the key attestation that the text of a proof carries. -/
def Prepares (p : Platform) (config : CredentialFlowConfig) (cNonceHash : Hash32) (text : String)
    (asked attested : Exchange) : Prop :=
  ∃ cNonce jwt, asked.TakesNonce p config cNonce ∧ attested.TakesAttestation p config cNonce jwt ∧
    cNonceHash = p.sha256 (utf8 cNonce) ∧ text = proofText p config jwt cNonce attested.now

def requestBody (p : Platform) (config : CredentialFlowConfig) (proof : String) : Bytes :=
  utf8 (p.renderJson (requestObject config.requestTarget proof))

/-- The proof was prepared by two calls of the history, and every credential request so far has carried it. -/
def Proved (p : Platform) (config : CredentialFlowConfig) (history : List Exchange) (cNonceHash : Hash32)
    (proof : String) : Prop :=
  (∃ text signature asked attested, [asked, attested].Sublist history ∧
    Prepares p config cNonceHash text asked attested ∧ proof = text ++ "." ++ b64Encode signature) ∧
  ∀ request ∈ history.flatMap Exchange.credentialRequests, request.body = requestBody p config proof

/-- The proof was prepared and then sent. -/
def Sent (p : Platform) (config : CredentialFlowConfig) (history : List Exchange) (cNonceHash : Hash32) : Prop :=
  ∃ text signature asked attested sent request, [asked, attested, sent].Sublist history ∧
    Prepares p config cNonceHash text asked attested ∧ .sendCredential request ∈ sent.effects ∧
    ∀ request ∈ history.flatMap Exchange.credentialRequests,
      request.body = requestBody p config (text ++ "." ++ b64Encode signature)

def Stage.Story (p : Platform) (config : CredentialFlowConfig) (history : List Exchange) : Stage → Prop
  | .awaitingNonceResponse _ => history.flatMap Exchange.credentialRequests = []
  | .awaitingKeyAttestation _ cNonce cNonceHash => history.flatMap Exchange.credentialRequests = [] ∧
      cNonceHash = p.sha256 (utf8 cNonce) ∧ ∃ asked ∈ history, asked.TakesNonce p config cNonce
  | .signingCredentialProof _ cNonceHash signingInput => history.flatMap Exchange.credentialRequests = [] ∧
      ∃ text asked attested, signingInput = utf8 text ∧ [asked, attested].Sublist history ∧
        Prepares p config cNonceHash text asked attested
  | .signingDpop _ cNonceHash proof _ _ => Proved p config history cNonceHash proof
  | .awaitingCredentialResponse _ cNonceHash proof _ =>
      Proved p config history cNonceHash proof ∧ Sent p config history cNonceHash
  | .deferred _ _ cNonceHash => Sent p config history cNonceHash
  | .signingDeferredDpop _ _ cNonceHash _ _ => Sent p config history cNonceHash
  | .awaitingDeferredResponse _ _ cNonceHash _ => Sent p config history cNonceHash
  | .complete credential => Sent p config history credential.cNonceHash
  | .failed _ => True

theorem eq_of_boundedSigningInput {header payload : Json} {input : Bytes}
    (h : boundedSigningInput p header payload = .ok input) : input = utf8 (signingText p header payload) := by
  unfold boundedSigningInput at h
  split_ifs at h
  exact (Except.ok.inj h).symm

theorem eq_of_buildCredentialRequestBody {proof : String} {body : Bytes}
    (h : buildCredentialRequestBody p config.requestTarget proof = .ok body) : body = requestBody p config proof := by
  unfold buildCredentialRequestBody at h
  dsimp only at h
  split_ifs at h
  exact (Except.ok.inj h).symm

section Story
variable {cNonceHash : Hash32} {proof : String}

theorem Proved.keep (h : Proved p config history cNonceHash proof) (hquiet : k.credentialRequests = []) :
    Proved p config (history ++ [k]) cNonceHash proof := by
  obtain ⟨⟨text, signature, asked, attested, horder, hprepares, hproof⟩, hbodies⟩ := h
  refine ⟨⟨text, signature, asked, attested, horder.trans (List.sublist_append_left _ _), hprepares, hproof⟩, ?_⟩
  simpa [hquiet] using hbodies

theorem Sent.keep (h : Sent p config history cNonceHash) (hquiet : k.credentialRequests = []) :
    Sent p config (history ++ [k]) cNonceHash := by
  obtain ⟨text, signature, asked, attested, sent, request, horder, hprepares, hsent, hbodies⟩ := h
  refine ⟨text, signature, asked, attested, sent, request, horder.trans (List.sublist_append_left _ _), hprepares,
    hsent, ?_⟩
  simpa [hquiet] using hbodies

theorem Proved.send (h : Proved p config history cNonceHash proof) {request : CredentialRequest}
    (heffects : k.effects = [.sendCredential request]) (hbody : request.body = requestBody p config proof) :
    Proved p config (history ++ [k]) cNonceHash proof ∧ Sent p config (history ++ [k]) cNonceHash := by
  obtain ⟨⟨text, signature, asked, attested, horder, hprepares, rfl⟩, hbodies⟩ := h
  have hrequests : k.credentialRequests = [request] := by simp [Exchange.credentialRequests, heffects]
  have hall : ∀ request ∈ (history ++ [k]).flatMap Exchange.credentialRequests,
      request.body = requestBody p config (text ++ "." ++ b64Encode signature) := by
    intro r hr
    rw [List.flatMap_append, List.mem_append] at hr
    rcases hr with hr | hr
    · exact hbodies r hr
    · have hlast : r = request := by simpa [hrequests] using hr
      rw [hlast, hbody]
  exact ⟨⟨⟨text, signature, asked, attested, horder.trans (List.sublist_append_left _ _), hprepares, rfl⟩, hall⟩,
    text, signature, asked, attested, k, request, horder.append (List.Sublist.refl [k]), hprepares,
    by simp [heffects], hall⟩

end Story

/-- What has led to a flow that runs. -/
def Story (p : Platform) (config : CredentialFlowConfig) (history : List Exchange) (flow : CredentialFlow) : Prop :=
  flow.Running → flow.context.config = config ∧ flow.stage.Story p config history

theorem Stage.Story.keep (h : stage.Story p config history) (hquiet : k.credentialRequests = []) :
    stage.Story p config (history ++ [k]) := by
  cases stage with
  | awaitingNonceResponse => simpa [Stage.Story, hquiet] using h
  | awaitingKeyAttestation =>
    obtain ⟨hnone, hhash, asked, hasked, htakes⟩ := h
    exact ⟨by simpa [hquiet] using hnone, hhash, asked, List.mem_append_left _ hasked, htakes⟩
  | signingCredentialProof =>
    obtain ⟨hnone, text, asked, attested, htext, horder, hprepares⟩ := h
    exact ⟨by simpa [hquiet] using hnone, text, asked, attested, htext,
      horder.trans (List.sublist_append_left _ _), hprepares⟩
  | signingDpop => exact Proved.keep h hquiet
  | awaitingCredentialResponse => exact ⟨h.1.keep hquiet, h.2.keep hquiet⟩
  | deferred | signingDeferredDpop | awaitingDeferredResponse | complete =>
    exact Sent.keep h hquiet
  | failed => trivial

/-- A transition that succeeds carries the story on. -/
theorem Accepts.story {c c' : Context} (h : Accepts p c k.input.2 stage k.input.1 stage' effects c')
    (houtputs : k.outputs = [.ok effects]) (hconfig : c.config = config) (hstory : stage.Story p config history) :
    stage'.Story p config (history ++ [k]) := by
  subst hconfig
  have heffects := effects_of_ok houtputs
  generalize hinput : k.input.1 = input at h
  cases h with
  | nonce answers parsed unseen grows =>
    have hquiet : k.credentialRequests = [] := by simp [Exchange.credentialRequests, heffects]
    have htakes : k.TakesNonce p c.config _ :=
      ⟨⟨_, houtputs⟩, _, _, hinput, answers, parsed, unseen⟩
    refine ⟨?_, rfl, k, by simp, htakes⟩
    simpa [Stage.Story, hquiet] using hstory
  | attestation answers built grows =>
    have hquiet : k.credentialRequests = [] := by simp [Exchange.credentialRequests, heffects]
    obtain ⟨hnone, hhash, asked, hasked, htakes⟩ := hstory
    have hattested : k.TakesAttestation p c.config _ _ :=
      ⟨⟨_, houtputs⟩, _, hinput, rfl, attests_of_valid answers.valid⟩
    refine ⟨by simpa [hquiet] using hnone, _, asked, k, eq_of_boundedSigningInput built, ?_,
      ⟨_, _, htakes, hattested, hhash, rfl⟩⟩
    exact (List.singleton_sublist.mpr hasked).append (List.Sublist.refl [k])
  | proof answers assembled built grows =>
    obtain ⟨hnone, text, asked, attested, rfl, horder, hprepares⟩ := hstory
    rw [assembleCompactJwt_utf8] at assembled
    refine ⟨⟨text, _, asked, attested, horder.trans (List.sublist_append_left _ _), hprepares,
      (Except.ok.inj assembled).symm⟩, ?_⟩
    simp [hnone, Exchange.credentialRequests, heffects]
  | request answers assembled built grows =>
    exact Proved.send hstory heffects (eq_of_buildCredentialRequestBody built)
  | challenge answers again built grows =>
    exact hstory.1.keep (by simp [Exchange.credentialRequests, heffects])
  | postponement answers supported parsed grows | credential answers parsed grows =>
    exact hstory.2.keep (by simp [Exchange.credentialRequests, heffects])
  | poll supported built grows | deferredRequest answers supported assembled grows
  | deferredChallenge supported answers again built grows
  | deferredPostponement supported answers parsed grows
  | deferredCredential supported answers parsed grows =>
    exact Sent.keep hstory (by simp [Exchange.credentialRequests, heffects])

/-! ### The identifiers of the DPoP proofs -/

/-- The DPoP proof of a request: signed over claims that hash the access token, name the endpoint without its query
and carry the identifier. -/
def Carries (p : Platform) (config : CredentialFlowConfig) (request : CredentialRequest) (jti : String) : Prop :=
  ∃ iat nonce signature, request.dpopProof =
    signingText p (dpopHeader config.dpopPublicJwk)
      (dpopClaims p request.endpoint config.accessToken jti iat nonce) ++ "." ++ b64Encode signature

/-- The text to be signed carries a value that was drawn and is in no proof that was sent. -/
def Signs (p : Platform) (config : CredentialFlowConfig) (used sent : List Hash32) (endpoint : HttpsEndpoint)
    (signingInput : Bytes) : Prop :=
  ∃ value iat nonce, value ∈ used ∧ value ∉ sent ∧ signingInput = utf8 (signingText p (dpopHeader config.dpopPublicJwk)
    (dpopClaims p endpoint config.accessToken (b64Encode value.1) iat nonce))

def Stage.Signs (p : Platform) (config : CredentialFlowConfig) (used sent : List Hash32) : Stage → Prop
  | .signingDpop _ _ _ signingInput _ => Credential.Signs p config used sent config.credentialEndpoint signingInput
  | .signingDeferredDpop _ _ _ signingInput _ => ∀ endpoint, config.deferredCredentialEndpoint = some endpoint →
      Credential.Signs p config used sent endpoint signingInput
  | _ => True

/-- The proofs that were sent, by the values they carry. -/
def Carried (p : Platform) (config : CredentialFlowConfig) (history : List Exchange) (sent : List Hash32) : Prop :=
  List.Forall₂ (fun request value => Carries p config request (b64Encode value.1))
    (history.flatMap Exchange.requests) sent ∧ sent.Nodup

section Proofs
variable {c c' : Context} {sent rest : List Hash32} {request : CredentialRequest} {endpoint : HttpsEndpoint}

theorem Carried.keep (h : Carried p config history sent) (hquiet : k.requests = []) :
    Carried p config (history ++ [k]) sent := by
  simpa [Carried, hquiet] using h

theorem Carried.send (h : Carried p config history sent) {value : Hash32} (hrequests : k.requests = [request])
    (hcarries : Carries p config request (b64Encode value.1))
    (hnew : value ∉ sent) : Carried p config (history ++ [k]) (sent ++ [value]) := by
  refine ⟨?_, by simpa using List.Nodup.concat hnew h.2⟩
  rw [List.flatMap_append]
  exact List.rel_append h.1 (by simpa [hrequests] using hcarries)

theorem Signs.of_draw {value : Hash32} {iat : ℤ} {nonce : Option String} {input : Bytes}
    (hgrows : c.Grows (value :: rest) c') (hnodup : c.usedRandomValues.Nodup)
    (hsent : ∀ v ∈ sent, v ∈ c.usedRandomValues)
    (hbuilt : buildDpopSigningInput p endpoint config.dpopPublicJwk config.accessToken (b64Encode value.1) iat nonce =
      .ok input) : Signs p config c'.usedRandomValues sent endpoint input := by
  have hnodup' := hgrows.nodup hnodup
  rw [hgrows.used] at hnodup' ⊢
  have hfresh : value ∉ c.usedRandomValues := fun hused =>
    (List.nodup_append.mp hnodup').2.2 value hused value List.mem_cons_self rfl
  exact ⟨value, iat, nonce, by simp, fun hmem => hfresh (hsent value hmem), eq_of_boundedSigningInput hbuilt⟩

theorem Signs.carries {input : Bytes} {used : List Hash32} (h : Signs p config used sent endpoint input)
    {signature : Bytes}
    (hendpoint : request.endpoint = endpoint)
    (hassembled : assembleCompactJwt input signature = .ok request.dpopProof) :
    ∃ value ∈ used, value ∉ sent ∧ Carries p config request (b64Encode value.1) := by
  obtain ⟨value, iat, nonce, hused, hnew, rfl⟩ := h
  rw [assembleCompactJwt_utf8] at hassembled
  refine ⟨value, hused, hnew, iat, nonce, signature, ?_⟩
  rw [hendpoint]
  exact (Except.ok.inj hassembled).symm

theorem Accepts.proofs {stage stage' : Stage} {effects : List CredentialEffect}
    (h : Accepts p c k.input.2 stage k.input.1 stage' effects c') (heffects : k.effects = effects)
    (hconfig : c.config = config) (hcarried : Carried p config history sent) (hnodup : c.usedRandomValues.Nodup)
    (hsent : ∀ v ∈ sent, v ∈ c.usedRandomValues) (hsigns : stage.Signs p config c.usedRandomValues sent) :
    ∃ sent', Carried p config (history ++ [k]) sent' ∧ (∀ v ∈ sent', v ∈ c'.usedRandomValues) ∧
      stage'.Signs p config c'.usedRandomValues sent' := by
  subst hconfig
  obtain ⟨drawn, hgrows⟩ := h.grows
  have hused : ∀ v ∈ c.usedRandomValues, v ∈ c'.usedRandomValues := fun v hv => by
    rw [hgrows.used]
    exact List.mem_append_left _ hv
  have hquiet : k.requests = [] → stage'.Signs p c.config c'.usedRandomValues sent →
      ∃ sent', Carried p c.config (history ++ [k]) sent' ∧ (∀ v ∈ sent', v ∈ c'.usedRandomValues) ∧
        stage'.Signs p c.config c'.usedRandomValues sent' := fun hquiet hsigns' =>
    ⟨sent, hcarried.keep hquiet, fun v hv => hused v (hsent v hv), hsigns'⟩
  have hsend : ∀ (endpoint : HttpsEndpoint) (input signature : Bytes) (request : CredentialRequest),
      k.requests = [request] → Signs p c.config c.usedRandomValues sent endpoint input →
      request.endpoint = endpoint → assembleCompactJwt input signature = .ok request.dpopProof →
      (∀ used sent, stage'.Signs p c.config used sent) →
      ∃ sent', Carried p c.config (history ++ [k]) sent' ∧ (∀ v ∈ sent', v ∈ c'.usedRandomValues) ∧
        stage'.Signs p c.config c'.usedRandomValues sent' := by
    intro endpoint input signature request hrequests hsigns hendpoint hassembled hstage
    obtain ⟨value, hvalue, hnew, hcarries⟩ := hsigns.carries hendpoint hassembled
    refine ⟨sent ++ [value], hcarried.send hrequests hcarries hnew, fun v hv => hused v ?_, hstage _ _⟩
    rcases List.mem_append.mp hv with hv | hv
    · exact hsent v hv
    · rwa [List.mem_singleton.mp hv]
  generalize k.input.1 = input at h
  cases h with
  | nonce answers parsed unseen grows | attestation answers built grows
  | postponement answers supported parsed grows | credential answers parsed grows
  | deferredPostponement supported answers parsed grows
  | deferredCredential supported answers parsed grows =>
    exact hquiet (by simp [Exchange.requests, heffects]) trivial
  | proof answers assembled built grows | challenge answers again built grows =>
    exact hquiet (by simp [Exchange.requests, heffects]) (.of_draw grows hnodup hsent built)
  | request answers assembled built grows =>
    exact hsend _ _ _ _ (by rw [Exchange.requests, heffects]; rfl) hsigns rfl assembled fun _ _ => trivial
  | poll supported built grows | deferredChallenge supported answers again built grows =>
    refine hquiet (by simp [Exchange.requests, heffects]) fun endpoint hendpoint => ?_
    obtain rfl := Option.some.inj (supported.symm.trans hendpoint)
    exact .of_draw grows hnodup hsent built
  | deferredRequest answers supported assembled grows =>
    exact hsend _ _ _ _ (by rw [Exchange.requests, heffects]; rfl) (hsigns _ supported) rfl assembled
      fun _ _ => trivial

end Proofs

/-! ### The clock -/

/-- The access token can be used at this time. -/
def TokenLives (config : CredentialFlowConfig) (now : ℤ) : Prop :=
  config.tokenIssuedAtEpochSeconds ≤ now ∧
    ∀ seconds ∈ config.tokenExpiresInSeconds, now < config.tokenIssuedAtEpochSeconds + seconds

theorem tokenLives_of_valid {now : ℤ} {u : Unit} (h : validateTokenLifetime config.tokenIssuedAtEpochSeconds
    config.tokenExpiresInSeconds now = .ok u) : TokenLives config now := by
  unfold validateTokenLifetime at h
  split_ifs at h with hearly
  rw [not_or, not_lt] at hearly
  refine ⟨hearly.2, fun seconds hseconds => ?_⟩
  rw [Option.mem_def.mp hseconds] at h
  dsimp only at h
  split_ifs at h with hlate
  omega

/-- An effect is emitted no earlier than anything before it, while the token lives. -/
def OnTime (config : CredentialFlowConfig) (begun : ℤ) (pre : List Exchange) (k : Exchange) : Prop :=
  k.effects ≠ [] → begun ≤ k.now ∧ (∀ earlier ∈ pre, earlier.now ≤ k.now) ∧ TokenLives config k.now

def Timed (config : CredentialFlowConfig) (begun : ℤ) (history : List Exchange) (flow : CredentialFlow) : Prop :=
  Always (OnTime config begun) history ∧
    (flow.Running → flow.context.config = config ∧ begun ≤ flow.context.lastNowEpochSeconds ∧
      ∀ earlier ∈ history, earlier.now ≤ flow.context.lastNowEpochSeconds)

/-! ### Challenges -/

/-- The call has taken an answer of the resource server for a nonce challenge: it asks for another proof. -/
def Exchange.Challenged (k : Exchange) : Prop :=
  ∃ response request, k.input.1 = .credentialResponse response ∧ k.outputs = [.ok [.signDpop request]]

/-- The call has taken any other answer: a credential, or a postponement. -/
def Exchange.Answered (k : Exchange) : Prop :=
  ∃ response, k.input.1 = .credentialResponse response ∧ k.outputs = [.ok []]

/-- The last answer that was taken is not a challenge. -/
def Settled (history : List Exchange) : Prop :=
  ∀ pre k mid, history = pre ++ k :: mid → k.Challenged → ∃ answered ∈ mid, answered.Answered

def Stage.retries : Stage → ℕ
  | .signingDpop _ _ _ _ retries => retries
  | .awaitingCredentialResponse _ _ _ retries => retries
  | .signingDeferredDpop _ _ _ _ retries => retries
  | .awaitingDeferredResponse _ _ _ retries => retries
  | _ => 0

theorem Settled.keep (h : Settled history) (hk : ¬ k.Challenged) : Settled (history ++ [k]) := by
  intro pre k' mid e hchallenged
  rcases snoc_eq_append_cons e with ⟨-, -, rfl⟩ | ⟨mid, rfl, hpre⟩
  · exact absurd hchallenged hk
  · obtain ⟨answered, hmem, hanswered⟩ := h pre k' mid hpre hchallenged
    exact ⟨answered, by simp [hmem], hanswered⟩

/-- No challenge of the history was taken while another one was being answered. -/
def OneAtATime (history : List Exchange) : Prop :=
  Always (fun pre (k : Exchange) => k.Challenged → Settled pre) history

theorem OneAtATime.keep (h : OneAtATime history) (hk : ¬ k.Challenged) : OneAtATime (history ++ [k]) :=
  h.snoc fun hchallenged => absurd hchallenged hk

def CredentialEffect.requestId : CredentialEffect → CorrelationId
  | sendNonce r | acquireKeyAttestation r | signCredentialProof r | signDpop r | sendCredential r | sendDeferred r =>
    r.requestId

/-- The request a reply is for. A poll replies to nothing. -/
def CredentialInput.requestId : CredentialInput → Option CorrelationId
  | nonceResponse r | keyAttestation r | credentialProofSignature r | dpopSignature r | credentialResponse r =>
    some r.requestId
  | pollDeferred => none

/-- The request a stage waits for. -/
def Stage.pending : Stage → Option CorrelationId
  | awaitingNonceResponse id | awaitingKeyAttestation id _ _ | signingCredentialProof id _ _ | signingDpop id _ _ _ _
  | awaitingCredentialResponse id _ _ _ | signingDeferredDpop id _ _ _ _ | awaitingDeferredResponse id _ _ _ => some id
  | _ => none

def Exchange.asked (k : Exchange) : List CorrelationId := k.effects.map (·.requestId)

/-- The request whose reply was accepted. -/
def Exchange.answered (k : Exchange) : List CorrelationId :=
  k.outputs.flatMap fun
    | .ok _ => k.input.1.requestId.toList
    | .error _ => []

/-- The requests from `first` on are draws of the flow, and the accepted replies answer them in their order. -/
def Correlated (first : CorrelationId) (history : List Exchange) (flow : CredentialFlow) : Prop :=
  let asked := first :: history.flatMap Exchange.asked
  ∃ (drawn : List Hash32) (pending : Option CorrelationId), drawn.Nodup ∧ drawn.length ≤ 32 ∧ asked.Sublist drawn ∧
    asked = history.flatMap Exchange.answered ++ pending.toList ∧
    (flow.Running → flow.context.usedRandomValues = drawn ∧ flow.stage.pending = pending)

section
variable {c c' : Context} {first : CorrelationId}

/-- A transition takes the reply to the request that waits, and what it asks is what waits next. -/
theorem Accepts.correlated {env : CredentialEnvironment} {input : CredentialInput}
    (h : Accepts p c env stage input stage' effects c') :
    stage.pending = input.requestId ∧ effects.map (·.requestId) = stage'.pending.toList ∧
      ∃ drawn, c.Grows drawn c' ∧ stage'.pending.toList.Sublist drawn := by
  cases h with
  | poll _ _ grows => exact ⟨rfl, rfl, _, grows, by simp [Stage.pending]⟩
  | nonce answers _ _ grows | attestation answers _ grows | proof answers _ _ grows | request answers _ _ grows
  | challenge answers _ _ grows | postponement answers _ _ grows | credential answers _ grows
  | deferredRequest answers _ _ grows | deferredChallenge _ answers _ _ grows
  | deferredPostponement _ answers _ grows | deferredCredential _ answers _ grows =>
    exact ⟨congrArg some answers.requestId, rfl, _, grows, by simp [Stage.pending]⟩

theorem Correlated.refuse {e : CredentialError} {flow : CredentialFlow} (h : Correlated first history k.before)
    (houtputs : k.outputs = [.error e])
    (hkept : flow.Running → flow = ⟨k.before.context.at k.now, k.before.stage⟩) :
    Correlated first (history ++ [k]) flow := by
  obtain ⟨drawn, pending, hnodup, hbound, hdrawn, hsplit, hbefore⟩ := h
  have hasked : k.asked = [] := by simp [Exchange.asked, effects_of_error houtputs]
  have hanswered : k.answered = [] := by simp [Exchange.answered, houtputs]
  refine ⟨drawn, pending, hnodup, hbound, by simpa [hasked], by simpa [hasked, hanswered], fun hrunning => ?_⟩
  obtain rfl := hkept hrunning
  exact hbefore hrunning

theorem Correlated.accept (h : Correlated first history k.before) (houtputs : k.outputs = [.ok effects])
    (haccepts : Accepts p (k.before.context.at k.now) k.input.2 k.before.stage k.input.1 stage effects c) :
    Correlated first (history ++ [k]) ⟨c, stage⟩ := by
  obtain ⟨drawn, pending, hnodup, hbound, hdrawn, hsplit, hbefore⟩ := h
  obtain ⟨rfl, rfl⟩ := hbefore haccepts.running
  obtain ⟨hreply, hnext, new, hgrows, hnew⟩ := haccepts.correlated
  have hasked : k.asked = stage.pending.toList := by rw [Exchange.asked, effects_of_ok houtputs, hnext]
  have hanswered : k.answered = k.before.stage.pending.toList := by simp [Exchange.answered, houtputs, hreply]
  refine ⟨_, _, hgrows.nodup hnodup, hgrows.bounded hbound, ?_, ?_, fun _ => ⟨rfl, rfl⟩⟩
  · simpa [hasked, hgrows.used, Context.at] using hdrawn.append hnew
  · simp [hasked, hanswered, ← List.cons_append, hsplit]

end

/-! ### The whole run -/

section Run
variable {env : CredentialEnvironment} {start : CredentialFlow} {effect : CredentialEffect}

theorem begin_eq_ok (h : begin config env = .ok (start, effect)) :
    start = ⟨⟨config, none, [], [env.random 0], env.nowEpochSeconds⟩, .awaitingNonceResponse (env.random 0)⟩ ∧
      TokenLives config env.nowEpochSeconds := by
  simp only [begin, bind_eq_ok, pure_eq_ok, orErr_eq_ok, Prod.mk.injEq] at h
  obtain ⟨_, -, _, hlifetime, used, hused, rfl, -⟩ := h
  obtain ⟨-, -, -, rfl⟩ := freshRandom_eq_some.mp hused
  exact ⟨rfl, tokenLives_of_valid hlifetime⟩

variable (h : begin config env = .ok (start, effect)) (inputs : List (CredentialInput × CredentialEnvironment))
include h

omit h in
/-- A clock that was accepted is not earlier than the last one. -/
theorem Timed.clock {begun : ℤ} (htimed : Timed config begun history k.before)
    (hclock : clockFailure k.before.context k.now = none) (hrunning : k.before.Running) :
    (k.before.context.config = config ∧ begun ≤ k.now ∧ ∀ earlier ∈ history ++ [k], earlier.now ≤ k.now) ∧
      TokenLives config k.now := by
  obtain ⟨hconfig, hbegun, hearlier⟩ := htimed.2 hrunning
  obtain ⟨⟨-, hlast⟩, hlifetime⟩ := clockFailure_eq_none.mp hclock
  refine ⟨⟨hconfig, hbegun.trans hlast, fun earlier hmem => ?_⟩, ?_⟩
  · rcases List.mem_append.mp hmem with hmem | hmem
    · exact (hearlier earlier hmem).trans hlast
    · rw [List.mem_singleton.mp hmem]
  · rw [hconfig] at hlifetime
    exact tokenLives_of_valid hlifetime

/-- The requests carry distinct identifiers, at most 32, and are answered in their order, each once; at most the last
one waits. -/
theorem exchanges_correlated :
    let history := exchanges p start inputs
    let asked := effect.requestId :: history.flatMap Exchange.asked
    asked.Nodup ∧ asked.length ≤ 32 ∧ ∃ pending : Option CorrelationId,
      asked = history.flatMap Exchange.answered ++ pending.toList ∧
        ((flowAfter p start inputs).Running → (flowAfter p start inputs).stage.pending = pending) := by
  have hfirst : effect.requestId = env.random 0 := by
    simp only [begin, bind_eq_ok, pure_eq_ok, Prod.mk.injEq] at h
    obtain ⟨_, -, _, -, _, -, -, rfl⟩ := h
    rfl
  obtain ⟨drawn, pending, hnodup, hbound, hdrawn, hsplit, hstage⟩ :
      Correlated effect.requestId (exchanges p start inputs) (flowAfter p start inputs) := by
    obtain ⟨rfl, -⟩ := begin_eq_ok h
    rw [hfirst]
    refine exchanges_invariant ⟨_, _, by simp, by simp, .refl _, rfl, fun _ => ⟨rfl, rfl⟩⟩ ?_ ?_ ?_ inputs
    · exact fun _ _ e _ h houtputs => h.refuse houtputs fun h => absurd rfl (h e)
    · exact fun _ _ _ h houtputs _ => h.refuse houtputs fun _ => rfl
    · exact fun _ _ _ _ _ h houtputs _ => h.accept houtputs
  exact ⟨hnodup.sublist hdrawn, hdrawn.length_le.trans hbound, pending, hsplit, fun h => (hstage h).2⟩

end Run

open Sample Sample.Credential in
theorem exchanges_correlated_sample :
    (word 1 :: (exchanges platform start (requesting ++ issuing)).flatMap Exchange.asked).Nodup :=
  (exchanges_correlated begin_eq _).1

end EuWallet.Vci.Credential
