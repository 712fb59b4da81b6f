import EuWallet.Vci.AuthorizationMoves
import EuWallet.Vci.Terminal

/-! # The story of a token request

Runs of the authorization flow from `begin`. Whatever the server and the browser answer, a token request stands at
the end of one path: a pushed request, its `201`, the return of the browser with the state of that request, a
client authentication for the token endpoint and the signature of a DPoP proof. `token_request_story` says so
for every token request of every run, with the bytes of the two bodies read back by `bodyField`. -/

namespace EuWallet.Vci.Authorization

open Codec Crypto Lib Lib.Fallible

/-! ### What is told about a call -/

namespace Exchange

/-- The effects a call has emitted. -/
def effects (k : Exchange) : List AuthorizationEffect :=
  k.outputs.flatMap fun
    | .ok effects => effects
    | .error _ => []

def Accepted (k : Exchange) : Prop := ∃ effects, k.outputs = [.ok effects]

/-- The call has accepted the answer `201` to the pushed request. -/
def TakesParResponse (par : ParRequest) (k : Exchange) : Prop :=
  k.Accepted ∧ ∃ response, k.input.1 = .parResponse response ∧ response.status = 201 ∧
    response.requestId = par.requestId ∧ response.endpoint = par.endpoint ∧ response.method = "POST"

/-- The call has accepted the return of the browser to the configured address, from the configured server, with the
state of the pushed request and the code. -/
def TakesRedirect (config : AuthorizationFlowConfig) (par : ParRequest) (code : String) (k : Exchange) : Prop :=
  k.Accepted ∧ ∃ redirect callback, k.input.1 = .authorizationRedirect redirect ∧
    redirect.redirectUri = config.redirectUri ∧ parseAuthorizationCallback redirect.query = .ok callback ∧
    bodyField par.body "state" = some callback.state ∧ callback.issuer = config.authorizationServer ∧
    callback.code = some code

end Exchange

def asked (first : AuthorizationEffect) (history : List Exchange) : List WalletClientAuthenticationRequest :=
  (first :: history.flatMap Exchange.effects).filterMap fun
    | .acquireWalletClientAuthentication request => some request
    | _ => none

structure WalletClientAuthentication.Repeats (auth : WalletClientAuthentication)
    (request : WalletClientAuthenticationRequest) : Prop where
  requestId : auth.requestId = request.requestId
  purpose : auth.purpose = request.purpose
  clientId : auth.clientId = request.clientId
  audience : auth.audience = request.audience
  endpoint : auth.endpoint = request.endpoint

def dpopText (p : Platform) (config : AuthorizationFlowConfig) (jti : String) (iat : ℤ) (nonce : Option String) :
    String :=
  b64Encode (utf8 (dpopHeader config.dpopKey.publicJwk)) ++ "." ++ b64Encode (utf8 (p.renderJson
    (.obj ([("htm", .str "POST"), ("htu", .str (dpopHtu config.tokenEndpoint)), ("iat", jsonInt iat),
      ("jti", .str jti)] ++ nonce.toList.map fun nonce => ("nonce", .str nonce)))))

/-! ### The parts of the path -/

variable {p : Platform} {config : AuthorizationFlowConfig} {history : List Exchange} {k : Exchange} {reply : Reply}
  {c c' : Context}

structure ParRequest.Of (par : ParRequest) (c : Context) : Prop where
  endpoint : par.endpoint = c.config.parEndpoint
  state : bodyField par.body "state" = some c.state
  challenge : bodyField par.body "code_challenge" = some c.pkceChallenge
  redirectUri : bodyField par.body "redirect_uri" = some c.config.redirectUri

structure TokenRequest.Of (request : TokenRequest) (c : Context) (code : String) : Prop where
  endpoint : request.endpoint = c.config.tokenEndpoint
  code : bodyField request.body "code" = some code
  verifier : bodyField request.body "code_verifier" = some c.pkceVerifier
  redirectUri : bodyField request.body "redirect_uri" = some c.config.redirectUri

/-- The names of a form decide whether it is read back. -/
theorem wellNamed_of_names {fields : List (String × String)} (names : List String) (h : fields.map (·.1) = names)
    (hvalid : ∀ name ∈ names, validFieldName name = true ∧ name.utf8ByteSize ≤ 128) (hnodup : names.Nodup) :
    WellNamed fields where
  valid field hfield := hvalid field.1 (h ▸ List.mem_map_of_mem hfield)
  nodup := h ▸ hnodup

theorem wellNamed_parFields (c : Context) : WellNamed c.parFields := by
  let names := ["response_type", "client_id", "redirect_uri", "scope", "resource", "state", "code_challenge",
    "code_challenge_method", "dpop_jkt"]
  cases hstate : c.config.issuerState with
  | none => exact wellNamed_of_names names (by simp [names, Context.parFields, hstate]) (by decide) (by decide)
  | some state =>
    exact wellNamed_of_names (names ++ ["issuer_state"]) (by simp [names, Context.parFields, hstate]) (by decide)
      (by decide)

theorem wellNamed_tokenFields (c : Context) (code : String) : WellNamed (c.tokenFields code) :=
  wellNamed_of_names ["grant_type", "code", "redirect_uri", "code_verifier"] rfl (by decide)
    (by decide)

variable {requestId : CorrelationId} {auth : WalletClientAuthentication} {c₀ : Context}
    {effects : List AuthorizationEffect} {first : AuthorizationEffect} {par : ParRequest} {code : String}
  {request : TokenRequest} {hashes : List Hash32}

theorem parRequest_of (h : buildParRequest c requestId auth = .ok par) : par.Of c ∧ par.requestId = requestId := by
  simp only [buildParRequest, bind_eq_ok, pure_eq_ok] at h
  obtain ⟨body, hbody, rfl⟩ := h
  have hfield := bodyField_encodeForm hbody (wellNamed_parFields c)
  refine ⟨⟨rfl, ?_, ?_, ?_⟩, rfl⟩
  all_goals
    rw [hfield]
    simp [Context.parFields, List.lookup_cons]

theorem tokenRequest_of {proof : String} (h : buildTokenRequest c requestId code auth proof = .ok request) :
    request.Of c code ∧ request.clientAttestation = auth.attestation ∧
      request.clientAttestationPop = auth.proofOfPossession ∧ request.dpopProof = proof := by
  simp only [buildTokenRequest, bind_eq_ok, pure_eq_ok] at h
  obtain ⟨body, hbody, rfl⟩ := h
  have hfield := bodyField_encodeForm hbody (wellNamed_tokenFields c code)
  refine ⟨⟨rfl, ?_, ?_, ?_⟩, rfl, rfl, rfl⟩
  all_goals
    rw [hfield]
    simp [Context.tokenFields, List.lookup_cons]

theorem eq_of_buildDpopSigningInput {jti : String} {iat : ℤ} {nonce : Option String} {input : Bytes}
    (h : buildDpopSigningInput p c jti iat nonce = .ok input) : input = utf8 (dpopText p c.config jti iat nonce) := by
  unfold buildDpopSigningInput at h
  dsimp only at h
  split_ifs at h
  exact (Except.ok.inj h).symm

/-- The path of the history to the code: a pushed request, its answer and the return of the browser. -/
def Authorized (c₀ : Context) (history : List Exchange) (par : ParRequest) (code : String) : Prop :=
  ∃ pushes answers returns, [pushes, answers, returns].Sublist history ∧ .sendPar par ∈ pushes.effects ∧
    par.Of c₀ ∧ answers.TakesParResponse par ∧ returns.TakesRedirect c₀.config par code

theorem Authorized.keep (h : Authorized c₀ history par code) : Authorized c₀ (history ++ [k]) par code := by
  obtain ⟨pushes, answers, returns, horder, htold⟩ := h
  exact ⟨pushes, answers, returns, horder.trans (List.sublist_append_left _ _), htold⟩

structure Exchange.Authenticates (k : Exchange) (p : Platform) (config : AuthorizationFlowConfig)
    (first : AuthorizationEffect) (pre : List Exchange) (auth : WalletClientAuthentication)
    (sign : DpopSigningRequest) (text : String) : Prop where
  input : k.input.1 = .walletClientAuthentication auth
  repeats : ∃ request, (asked first pre).getLast? = some request ∧ request.purpose = .token ∧
    request.endpoint = config.tokenEndpoint ∧ request.audience = config.authorizationServer ∧ auth.Repeats request
  new : ∀ earlier ∈ pre, ∀ auth', earlier.input.1 = .walletClientAuthentication auth' →
    p.sha256 (utf8 auth'.proofOfPossession) ≠ p.sha256 (utf8 auth.proofOfPossession)
  output : k.outputs = [.ok [.signDpop sign]]
  text : sign.signingInput = utf8 text ∧ ∃ jti iat nonce, text = dpopText p config jti iat nonce

def Stage.Story (p : Platform) (c₀ : Context) (first : AuthorizationEffect) (history : List Exchange) : Stage → Prop
  | .awaitingClientAuthentication .token requestId (some code) _ => (∃ par, Authorized c₀ history par code) ∧
      (asked first history).getLast? = some (c₀.tokenAuthentication requestId)
  | .signingDpop requestId signingInput auth code _ => ∃ pre authenticates sign text, history = pre ++ [authenticates] ∧
      (∃ par, Authorized c₀ pre par code) ∧ authenticates.Authenticates p c₀.config first pre auth sign text ∧
      sign.requestId = requestId ∧ sign.signingInput = signingInput
  | .awaitingParResponse requestId => ∃ par, par.Of c₀ ∧ par.requestId = requestId ∧
      ∃ pushes ∈ history, .sendPar par ∈ pushes.effects
  | .awaitingAuthorization => ∃ par pushes answers, [pushes, answers].Sublist history ∧
      .sendPar par ∈ pushes.effects ∧ par.Of c₀ ∧ answers.TakesParResponse par
  | .awaitingTokenResponse _ code _ => ∃ par, Authorized c₀ history par code
  | _ => True

/-- The proofs of possession of the history are the ones the context has noted. -/
def Noted (p : Platform) (c : Context) (history : List Exchange) : Prop :=
  ∀ earlier ∈ history, ∀ auth, earlier.input.1 = .walletClientAuthentication auth →
    p.sha256 (utf8 auth.proofOfPossession) ∈ c.usedClientAuthPopHashes

/-- The context still has the configuration and the secrets of the beginning. -/
structure Context.Keeps (c₀ c : Context) : Prop where
  config : c.config = c₀.config
  pkceVerifier : c.pkceVerifier = c₀.pkceVerifier
  pkceChallenge : c.pkceChallenge = c₀.pkceChallenge
  state : c.state = c₀.state

theorem Context.Keeps.grows (h : c₀.Keeps c) (hgrows : c.Grows hashes c') : c₀.Keeps c' :=
  ⟨hgrows.config.trans h.config, hgrows.pkceVerifier.trans h.pkceVerifier,
    hgrows.pkceChallenge.trans h.pkceChallenge, hgrows.state.trans h.state⟩

theorem ParRequest.Of.keeps (h : par.Of c) (hkeeps : c₀.Keeps c) : par.Of c₀ :=
  ⟨by rw [h.endpoint, hkeeps.config], by rw [h.state, hkeeps.state], by rw [h.challenge, hkeeps.pkceChallenge],
    by rw [h.redirectUri, hkeeps.config]⟩

theorem TokenRequest.Of.keeps (h : request.Of c code) (hkeeps : c₀.Keeps c) : request.Of c₀ code :=
  ⟨by rw [h.endpoint, hkeeps.config], h.code, by rw [h.verifier, hkeeps.pkceVerifier],
    by rw [h.redirectUri, hkeeps.config]⟩

theorem Context.Keeps.tokenAuthentication (h : c₀.Keeps c) (requestId : CorrelationId) :
    c.tokenAuthentication requestId = c₀.tokenAuthentication requestId := by
  simp [Context.tokenAuthentication, h.config]

theorem WalletClientAuthentication.Answers.repeats (h : auth.Answers p c .token requestId) (hkeeps : c₀.Keeps c) :
    auth.Repeats (c₀.tokenAuthentication requestId) := by
  refine ⟨h.requestId.symm, h.purpose, ?_, ?_, ?_⟩
  · rw [h.clientId, hkeeps.config]
    rfl
  · rw [h.audience, hkeeps.config]
    rfl
  · rw [h.endpoint, Context.endpoint, hkeeps.config]
    rfl

/-- What the history says of a token request: the path to its code, the secrets of the two bodies, the client
authentication and the DPoP proof. -/
def Disciplined (p : Platform) (config : AuthorizationFlowConfig) (first : AuthorizationEffect) (history : List Exchange)
    (k : Exchange) (request : TokenRequest) : Prop :=
  (∃ par code verifier pushes answers returns, [pushes, answers, returns].Sublist history ∧
    .sendPar par ∈ pushes.effects ∧ answers.TakesParResponse par ∧ returns.TakesRedirect config par code ∧
    bodyField request.body "code" = some code ∧ bodyField request.body "code_verifier" = some verifier ∧
    bodyField par.body "code_challenge" = some (b64Encode (p.sha256 (utf8 verifier)).1) ∧
    bodyField par.body "redirect_uri" = some config.redirectUri ∧
    bodyField request.body "redirect_uri" = some config.redirectUri) ∧
  ∃ pre authenticates auth sign text signature, history = pre ++ [authenticates] ∧
    authenticates.Authenticates p config first pre auth sign text ∧
    request.clientAttestation = auth.attestation ∧ request.clientAttestationPop = auth.proofOfPossession ∧
    k.input.1 = .dpopSignature signature ∧ signature.requestId = sign.requestId ∧
    signature.signingInput = sign.signingInput ∧ signature.signature.length = 64 ∧
    request.dpopProof = text ++ "." ++ b64Encode signature.signature

/-! ### One call -/

theorem effects_of_ok (h : k.outputs = [.ok effects]) : k.effects = effects := by
  simp [Exchange.effects, h]

theorem asked_snoc {request : WalletClientAuthenticationRequest}
    (h : k.outputs = [.ok [.acquireWalletClientAuthentication request]]) :
    (asked first (history ++ [k])).getLast? = some request := by
  simp only [asked, List.flatMap_append, List.flatMap_singleton, effects_of_ok h, ← List.cons_append,
    List.filterMap_append]
  simp

theorem noted_snoc (hnoted : Noted p c history) (hgrows : c.Grows hashes c')
    (hk : ∀ auth, k.input.1 = .walletClientAuthentication auth →
      p.sha256 (utf8 auth.proofOfPossession) ∈ hashes) : Noted p c' (history ++ [k]) := by
  intro earlier hearlier auth hauth
  rw [hgrows.hashes, List.mem_append]
  rcases List.mem_append.mp hearlier with hold | hlast
  · exact Or.inl (hnoted earlier hold auth hauth)
  · obtain rfl := List.mem_singleton.mp hlast
    exact Or.inr (hk auth hauth)

section
variable {stage stage' : Stage} (h : Accepts p c k.input.2 stage k.input.1 stage' effects c')
include h

/-- A transition that succeeds notes the proof of possession it was given. -/
theorem Accepts.noted (hnoted : Noted p c history) : (∃ hashes, c.Grows hashes c') ∧ Noted p c' (history ++ [k]) := by
  generalize hinput : k.input.1 = input at h
  have hother : ∀ {hashes}, c.Grows hashes c' → (∀ auth, input ≠ .walletClientAuthentication auth) →
      (∃ hashes, c.Grows hashes c') ∧ Noted p c' (history ++ [k]) := fun hgrows hne =>
    ⟨⟨_, hgrows⟩, noted_snoc hnoted hgrows fun auth hauth => absurd (hinput.symm.trans hauth) (hne auth)⟩
  have hauthenticated : ∀ {auth : WalletClientAuthentication},
      c.Grows [p.sha256 (utf8 auth.proofOfPossession)] c' → input = .walletClientAuthentication auth →
      (∃ hashes, c.Grows hashes c') ∧ Noted p c' (history ++ [k]) := by
    intro auth hgrows hauth
    refine ⟨⟨_, hgrows⟩, noted_snoc hnoted hgrows fun auth' hauth' => ?_⟩
    obtain rfl : auth = auth' := by simpa [hauth] using hinput.symm.trans hauth'
    exact List.mem_singleton_self _
  cases h with
  | push answers built grows | authenticate answers built grows => exact hauthenticated grows rfl
  | request answers assembled built grows | pushed answers created parsed grows
  | returned uri parsed state issuer granted grows | challenge answers again grows
  | grant answers grows => exact hother grows (by simp)

theorem Accepts.story (houtputs : k.outputs = [.ok effects]) (hkeeps : c₀.Keeps c)
    (hpkce : c₀.pkceChallenge = b64Encode (p.sha256 (utf8 c₀.pkceVerifier)).1)
    (hnoted : Noted p c history) (hstory : stage.Story p c₀ first history) :
    stage'.Story p c₀ first (history ++ [k]) ∧
      ∀ request, .sendToken request ∈ effects → Disciplined p c₀.config first history k request := by
  generalize hinput : k.input.1 = input at h
  cases h with
  | push answers built grows =>
    obtain ⟨hof, hid⟩ := parRequest_of built
    refine ⟨⟨_, hof.keeps hkeeps, hid, k, by simp, ?_⟩, by simp⟩
    rw [effects_of_ok houtputs]
    exact List.mem_singleton_self _
  | authenticate answers built grows =>
    obtain ⟨hauthorized, hasked⟩ := hstory
    have htext := eq_of_buildDpopSigningInput built
    rw [hkeeps.config] at htext
    refine ⟨⟨history, k, _, _, rfl, hauthorized, ⟨hinput, ⟨_, hasked, rfl, rfl, rfl,
      answers.repeats hkeeps⟩, ?_, houtputs, htext, _, _, _, rfl⟩, rfl, rfl⟩, by simp⟩
    intro earlier hearlier auth' hauth' heq
    have hmem := hnoted earlier hearlier auth' hauth'
    rw [heq] at hmem
    exact answers.new hmem
  | request answers assembled built grows =>
    obtain ⟨pre, authenticates, sign, text, rfl, ⟨par, hauthorized⟩, hauthenticates, hid, hsigned⟩ := hstory
    refine ⟨⟨par, hauthorized.keep.keep⟩, ?_⟩
    obtain ⟨hof, hattestation, hpop, hproof⟩ := tokenRequest_of built
    have hof := hof.keeps hkeeps
    obtain ⟨htext, -⟩ := hauthenticates.text
    intro request hrequest
    obtain rfl : request = _ := by simpa using hrequest
    obtain ⟨pushes, takes, returns, horder, hpushes, hpar, htakes, hreturns⟩ := hauthorized.keep (k := authenticates)
    refine ⟨⟨par, _, c₀.pkceVerifier, pushes, takes, returns, horder, hpushes, htakes, hreturns, hof.code, hof.verifier,
      ?_, hpar.redirectUri, hof.redirectUri⟩, pre, authenticates, _, sign, text, _, rfl, hauthenticates, hattestation,
      hpop, hinput, ?_, ?_, answers.length, ?_⟩
    · rw [hpar.challenge, hpkce]
    · rw [hid, answers.requestId]
    · rw [hsigned, answers.signingInput]
    · rw [hproof]
      rw [← hsigned, htext, fromUtf8_compact] at assembled
      exact (Option.some.inj assembled).symm
  | pushed answers created parsed grows =>
    obtain ⟨par, hof, rfl, pushes, hpushes, hsent⟩ := hstory
    refine ⟨⟨par, pushes, k, (List.singleton_sublist.mpr hpushes).append (List.Sublist.refl [k]), hsent, hof,
      ⟨_, houtputs⟩, _, hinput, created, answers.requestId.symm, ?_, answers.method⟩, by simp⟩
    rw [answers.endpoint, hof.endpoint, hkeeps.config]
  | returned uri parsed state issuer granted grows =>
    obtain ⟨par, pushes, takes, horder, hsent, hof, htakes⟩ := hstory
    rw [hkeeps.config] at uri issuer
    rw [hkeeps.state] at state
    refine ⟨⟨⟨par, pushes, takes, k, horder.append (List.Sublist.refl [k]), hsent, hof, htakes, ⟨_, houtputs⟩, _, _,
      hinput, uri, parsed, ?_, issuer, granted⟩, ?_⟩, by simp⟩
    · rw [hof.state, state]
    · rw [asked_snoc houtputs, hkeeps.tokenAuthentication]
  | challenge answers again grows =>
    obtain ⟨par, hauthorized⟩ := hstory
    refine ⟨⟨⟨par, hauthorized.keep⟩, ?_⟩, by simp⟩
    rw [asked_snoc houtputs, hkeeps.tokenAuthentication]
  | grant answers grows => exact ⟨trivial, by simp⟩

end

/-! ### The whole run -/

/-- The token requests of the history are disciplined, and a flow that is not over has the story of its stage. -/
def Told (p : Platform) (c₀ : Context) (first : AuthorizationEffect) (history : List Exchange)
    (flow : AuthorizationFlow) : Prop :=
  Always (fun pre (k : Exchange) => ∀ request, .sendToken request ∈ k.effects →
    Disciplined p c₀.config first pre k request) history ∧
  (flow.stage.terminal = false →
    c₀.Keeps flow.context ∧ Noted p flow.context history ∧ flow.stage.Story p c₀ first history)

variable {env : AuthorizationEnvironment}

theorem Accepts.running {stage stage' : Stage} {input : AuthorizationInput}
    (h : Accepts p c env stage input stage' effects c') : stage.terminal = false := by
  cases h <;> rfl

theorem Told.move (hpkce : c₀.pkceChallenge = b64Encode (p.sha256 (utf8 c₀.pkceVerifier)).1)
    (htold : Told p c₀ first history k.before) (houtputs : k.outputs = [reply])
    (hmove : Move p k.before k.input.1 k.input.2 k.after reply) : Told p c₀ first (history ++ [k]) k.after := by
  obtain ⟨hdisciplined, hbefore⟩ := htold
  have hsilent : ∀ e, k.outputs = [.error e] → Always (fun pre (k : Exchange) => ∀ request,
      .sendToken request ∈ k.effects → Disciplined p c₀.config first pre k request) (history ++ [k]) := by
    intro e houtputs
    refine hdisciplined.snoc fun request hrequest => ?_
    simp [Exchange.effects, houtputs] at hrequest
  generalize k.after = after at hmove
  cases hmove with
  | refuses => exact ⟨hsilent _ houtputs, fun h => by cases h⟩
  | ended terminal => exact ⟨hsilent _ houtputs, fun h => by rw [terminal] at h; cases h⟩
  | accepts accepts =>
    obtain ⟨hkeeps, hnoted, hstory⟩ := hbefore accepts.running
    have hkeeps : c₀.Keeps (k.before.context.at k.input.2.nowEpochSeconds) :=
      ⟨hkeeps.config, hkeeps.pkceVerifier, hkeeps.pkceChallenge, hkeeps.state⟩
    obtain ⟨⟨hashes, hgrows⟩, hnoted'⟩ := accepts.noted hnoted
    obtain ⟨hstory', hrequests⟩ := accepts.story houtputs hkeeps hpkce hnoted hstory
    refine ⟨hdisciplined.snoc fun request hrequest => hrequests request ?_,
      fun _ => ⟨hkeeps.grows hgrows, hnoted', hstory'⟩⟩
    rwa [effects_of_ok houtputs] at hrequest

theorem begin_eq_ok {start : AuthorizationFlow} {effect : AuthorizationEffect}
    (h : begin p config env = .ok (start, effect)) : start.context.config = config ∧ start.context.pkceChallenge =
      b64Encode (p.sha256 (utf8 start.context.pkceVerifier)).1 ∧
      start.stage = .awaitingClientAuthentication .par (env.random 2) none 0 := by
  simp only [begin, bind_eq_ok, guard_eq_ok, orErr_eq_ok] at h
  obtain ⟨_, -, _, -, used, -, -, h⟩ := h
  split at h
  · next stage first context hstage =>
    obtain ⟨rfl, rfl⟩ := Prod.mk.inj (pure_eq_ok.mp h)
    rw [← bind_pure (clientAuthStage _ _ _ _), outcome_clientAuthStage_ok, outcome_pure_ok, Prod.mk.injEq] at hstage
    obtain ⟨-, ⟨rfl, -⟩, rfl⟩ := hstage
    exact ⟨rfl, rfl, rfl⟩
  · cases h

/-- Every token request of every run of the flow. -/
theorem token_request_story (p : Platform) (config : AuthorizationFlowConfig) (env : AuthorizationEnvironment)
    (start : AuthorizationFlow) (effect : AuthorizationEffect) (hbegin : begin p config env = .ok (start, effect))
    (inputs : List (AuthorizationInput × AuthorizationEnvironment)) :
    Always (fun history (k : Exchange) => ∀ request, .sendToken request ∈ k.effects →
      Disciplined p config effect history k request) (exchanges p start inputs) := by
  obtain ⟨rfl, hpkce, hstage⟩ := begin_eq_ok hbegin
  have hstart : Told p start.context effect [] start := by
    refine ⟨.nil, fun _ => ⟨⟨rfl, rfl, rfl, rfl⟩, by simp [Noted], ?_⟩⟩
    rw [hstage]
    trivial
  have hend : Told p start.context effect (exchanges p start inputs) (flowAfter p start inputs) := by
    exact calls_invariant (Told p start.context effect) hstart (fun history flow call htold =>
      htold.move (k := callOf (respond p) flow call) hpkce rfl (step_move p flow call.1 call.2)) inputs
  exact hend.1

end EuWallet.Vci.Authorization

namespace EuWallet.Vci.Sample.Authorization

open Codec Crypto Vci.Authorization

def parText : String := "\x7b\"r\":0\x7d"

/-- A platform that tells byte strings apart by their length and parses the answer to the pushed request. -/
def tokenPlatform : Platform := { platform with
  sha256 := fun b => word b.length
  parseJson := fun b => if b = utf8 parText then
      some (.obj [("request_uri", .str "urn:r"), ("expires_in", .num (.posInt 60))])
    else none }

def tokenStart : AuthorizationFlow :=
  ⟨.initial tokenPlatform config (word 1) (word 2) [word 1, word 2, word 3] 1000,
    .awaitingClientAuthentication .par (word 3) none 0⟩

def firstRequest : WalletClientAuthenticationRequest :=
  ⟨word 3, .par, config.clientId, config.authorizationServer, config.parEndpoint⟩

theorem begin_token : begin tokenPlatform config (env 0 1000) =
    .ok (tokenStart, .acquireWalletClientAuthentication firstRequest) := by rfl

def authenticating (requestId : CorrelationId) (purpose : EndpointPurpose) (endpoint proof : String) :
    AuthorizationInput :=
  .walletClientAuthentication
    ⟨requestId, purpose, config.clientId, config.authorizationServer, endpoint, "YQ.YQ.YQ", proof⟩

def requestingToken : List (AuthorizationInput × AuthorizationEnvironment) := [
  (authenticating (word 3) .par config.parEndpoint "YQ.YQ.YQ", env 1 1001),
  (.parResponse ⟨word 5, config.parEndpoint, "POST", 201, "application/json", ["no-store", "no-cache"], [], [],
    utf8 parText⟩, env 2 1002), (.authorizationRedirect ⟨config.redirectUri, utf8 ("state=" ++ b64Encode (word 2).1 ++
    "&iss=https://as.example&code=c")⟩, env 3 1003),
  (authenticating (word 13) .token config.tokenEndpoint "YQ.YQ.YWI", env 4 1004),
  (.dpopSignature ⟨word 17, utf8 (dpopText tokenPlatform config (b64Encode (word 18).1) 1004 none), signature⟩,
    env 5 1005)]

def tokenRequest? (k : Exchange) : Option TokenRequest := k.effects.findSome? fun
  | .sendToken request => some request
  | _ => none

theorem requestingToken_sends :
    ((exchanges tokenPlatform tokenStart requestingToken).getLast?.bind tokenRequest?).isSome := by decide +kernel

end EuWallet.Vci.Sample.Authorization

namespace EuWallet.Vci.Authorization

open Sample Sample.Authorization

/-- The last call of the sample run sends a token request. -/
theorem token_request_sample : ∃ history k request, exchanges tokenPlatform tokenStart
      requestingToken = history ++ [k] ∧ .sendToken request ∈ k.effects ∧ Disciplined tokenPlatform config
      (.acquireWalletClientAuthentication firstRequest) history k request := by
  obtain ⟨request, hrequest⟩ := Option.isSome_iff_exists.mp requestingToken_sends
  obtain ⟨k, hlast, hsends⟩ := Option.bind_eq_some_iff.mp hrequest
  obtain ⟨history, hcalls⟩ := List.getLast?_eq_some_iff.mp hlast
  obtain ⟨effect, heffect, hsome⟩ := List.exists_of_findSome?_eq_some hsends
  have hsent : .sendToken request ∈ k.effects := by
    cases effect with
    | sendToken sent =>
      obtain rfl := Option.some.inj hsome
      exact heffect
    | _ => cases hsome
  exact ⟨history, k, request, hcalls, hsent, token_request_story tokenPlatform config (env 0 1000) tokenStart _
    begin_token requestingToken history k [] hcalls request hsent⟩

end EuWallet.Vci.Authorization
