import EuWallet.Vci.Authorization
import EuWallet.Vci.Credential
import EuWallet.X509.Search

/-! # The terminal stages

Both flows refuse every call once they are complete or have failed, but only after the clock has been looked
at: a call whose clock is not positive, runs backwards or lies outside the lifetime of the token replaces the
stage by that failure, also a stage that is terminal. `terminal_kept_iff` says exactly which runs leave a
terminal stage alone. -/

namespace EuWallet.Vci

open Codec Crypto Lib

namespace Authorization

/-- The clock of a call passes the checks of `step`, or the failure it causes is already recorded. -/
def Timely (flow : AuthorizationFlow) (now : ℤ) : Prop :=
  (0 < now ∧ flow.context.lastNowEpochSeconds ≤ now) ∨ flow.stage = .failed .invalidClock

theorem step_terminal {p : Platform} {flow : AuthorizationFlow} {input : AuthorizationInput}
    {env : AuthorizationEnvironment} (h : flow.stage.terminal = true) :
    (step p flow input env).1.stage = flow.stage ↔ Timely flow env.nowEpochSeconds := by
  unfold step Timely
  by_cases hclock : env.nowEpochSeconds ≤ 0 ∨ env.nowEpochSeconds < flow.context.lastNowEpochSeconds
  · have hlate : ¬ (0 < env.nowEpochSeconds ∧ flow.context.lastNowEpochSeconds ≤ env.nowEpochSeconds) := by
      omega
    rw [if_pos hclock, or_iff_right hlate, eq_comm]
  · have hright : 0 < env.nowEpochSeconds ∧ flow.context.lastNowEpochSeconds ≤ env.nowEpochSeconds := by
      omega
    rw [if_neg hclock]
    simp [h, hright]

end Authorization

namespace Credential

/-- The clock of a call passes the checks of `step`, or the failure it causes is already recorded. -/
def Timely (flow : CredentialFlow) (now : ℤ) : Prop :=
  let lifetime := validateTokenLifetime flow.context.config.tokenIssuedAtEpochSeconds
    flow.context.config.tokenExpiresInSeconds now
  let forward := 0 < now ∧ flow.context.lastNowEpochSeconds ≤ now
  (forward ∧ lifetime = .ok ()) ∨
    (flow.stage = .failed .invalidClock ∧ (¬ forward ∨ lifetime = .error .invalidClock)) ∨
    (flow.stage = .failed .tokenExpired ∧ forward ∧ lifetime = .error .tokenExpired)

/-- The lifetime check fails in two ways only. -/
theorem validateTokenLifetime_cases (issuedAt : ℤ) (expiresIn : Option ℕ) (now : ℤ) :
    validateTokenLifetime issuedAt expiresIn now = .ok () ∨
      validateTokenLifetime issuedAt expiresIn now = .error .invalidClock ∨
      validateTokenLifetime issuedAt expiresIn now = .error .tokenExpired := by
  unfold validateTokenLifetime
  split_ifs with hclock
  · exact Or.inr (Or.inl rfl)
  · cases expiresIn with
    | none => exact Or.inl rfl
    | some seconds =>
      dsimp only
      split_ifs with hexpired
      · exact Or.inr (Or.inr rfl)
      · exact Or.inl rfl

theorem clockFailure_eq_none {c : Context} {now : ℤ} : clockFailure c now = none ↔
    (0 < now ∧ c.lastNowEpochSeconds ≤ now) ∧
      validateTokenLifetime c.config.tokenIssuedAtEpochSeconds c.config.tokenExpiresInSeconds now = .ok () := by
  unfold clockFailure
  split_ifs with hclock
  · simp only [false_iff, not_and]
    omega
  · have hright : 0 < now ∧ c.lastNowEpochSeconds ≤ now := by omega
    rcases validateTokenLifetime_cases c.config.tokenIssuedAtEpochSeconds c.config.tokenExpiresInSeconds now with
      h | h | h <;> simp [h, hright]

/-- What a call that is not timely records. -/
theorem clockFailure_eq_some {c : Context} {now : ℤ} {e : CredentialError} : clockFailure c now = some e ↔
    (e = .invalidClock ∧ (¬ (0 < now ∧ c.lastNowEpochSeconds ≤ now) ∨
      validateTokenLifetime c.config.tokenIssuedAtEpochSeconds c.config.tokenExpiresInSeconds now =
        .error .invalidClock)) ∨ (e = .tokenExpired ∧ (0 < now ∧ c.lastNowEpochSeconds ≤ now) ∧
      validateTokenLifetime c.config.tokenIssuedAtEpochSeconds c.config.tokenExpiresInSeconds now =
        .error .tokenExpired) := by
  unfold clockFailure
  split_ifs with hclock
  · have hlate : ¬ (0 < now ∧ c.lastNowEpochSeconds ≤ now) := by omega
    simp [hlate, eq_comm]
  · have hright : 0 < now ∧ c.lastNowEpochSeconds ≤ now := by omega
    rcases validateTokenLifetime_cases c.config.tokenIssuedAtEpochSeconds c.config.tokenExpiresInSeconds now with
      h | h | h <;> simp [h, hright, eq_comm]

theorem step_terminal {p : Platform} {flow : CredentialFlow} {input : CredentialInput}
    {env : CredentialEnvironment} (h : flow.stage.terminal = true) :
    (step p flow input env).1.stage = flow.stage ↔ Timely flow env.nowEpochSeconds := by
  unfold step Timely
  cases hclock : clockFailure flow.context env.nowEpochSeconds with
  | none =>
    obtain ⟨hright, halive⟩ := clockFailure_eq_none.mp hclock
    simp [h, hright, halive]
  | some e =>
    rcases clockFailure_eq_some.mp hclock with ⟨rfl, hlate⟩ | ⟨rfl, hright, hexpired⟩
    · rcases hlate with hlate | hearly
      · simp [hlate, eq_comm]
      · simp [hearly, eq_comm]
    · simp [hright, hexpired, eq_comm]

end Credential

/-! ### Whole runs -/

/-- A terminal stage, the grant, the credential or the failure it holds included, is the stage of every state
of a run exactly when every call of the run is timely. -/
theorem terminal_kept_iff (p : Platform) : (∀ (flow : Authorization.AuthorizationFlow)
      (inputs : List (Authorization.AuthorizationInput × Authorization.AuthorizationEnvironment)),
      flow.stage.terminal = true → ((∀ k ∈ Authorization.exchanges p flow inputs, k.after.stage = flow.stage) ↔
        ∀ k ∈ Authorization.exchanges p flow inputs, Authorization.Timely k.before k.input.2.nowEpochSeconds)) ∧
    (∀ (flow : Credential.CredentialFlow)
      (inputs : List (Credential.CredentialInput × Credential.CredentialEnvironment)), flow.stage.terminal = true →
      ((∀ k ∈ Credential.exchanges p flow inputs, k.after.stage = flow.stage) ↔
        ∀ k ∈ Credential.exchanges p flow inputs, Credential.Timely k.before k.input.2.nowEpochSeconds)) := by
  constructor
  · intro flow inputs hterminal
    refine calls_kept_iff (·.stage) (fun s a => Authorization.Timely s a.2.nowEpochSeconds)
      (fun s a hs => ?_) inputs rfl
    rw [← hs] at hterminal ⊢
    exact Authorization.step_terminal hterminal
  · intro flow inputs hterminal
    refine calls_kept_iff (·.stage) (fun s a => Credential.Timely s a.2.nowEpochSeconds)
      (fun s a hs => ?_) inputs rfl
    rw [← hs] at hterminal ⊢
    exact Credential.step_terminal hterminal

/-! ### A sample -/

namespace Sample

/-- The random values of the runs below. -/
def word (n : ℕ) : Hash32 := ⟨beBytes 32 n, length_beBytes 32 n⟩

def coordinate : String := b64Encode (List.replicate 32 1)

def jwk : Es256PublicJwk := ⟨coordinate, coordinate, by decide, by decide⟩

def signature : Bytes := List.replicate 64 7

/-- A compact token over the two documents. -/
def token (header payload : String) : String :=
  b64Encode (utf8 header) ++ "." ++ b64Encode (utf8 payload) ++ "." ++ b64Encode signature

/-! Each document of the sample stands under a short text, so that the runs below stay small. -/

def nonceText : String := "\x7b\"n\":0\x7d"
def attestationHeader : String := "\x7b\"h\":0\x7d"
def attestationPayload : String := "\x7b\"p\":0\x7d"
def credentialHeader : String := "\x7b\"h\":1\x7d"
def credentialPayload : String := "\x7b\"p\":1\x7d"
def issuedText : String := "\x7b\"i\":0\x7d"
def pendingText : String := "\x7b\"d\":0\x7d"

def credential : String := token credentialHeader credentialPayload ++ "~"

/-- The documents the sample parser knows. -/
def documents : List (String × Json) := [ (nonceText, .obj [("c_nonce", .str "n")]),
  (attestationHeader, .obj [("alg", .str "ES256"), ("typ", .str "key-attestation+jwt"), ("x5c", .arr [.str "Ag=="])]),
  (attestationPayload, .obj [("iat", .num (.posInt 1000)), ("exp", .num (.posInt 2000)), ("nonce", .str "n"),
    ("key_storage", .arr [.str "iso_18045_high"]), ("user_authentication", .arr [.str "iso_18045_high"]),
    ("attested_keys", .arr [jwk.json])]), (credentialHeader, .obj [("alg", .str "ES256"), ("typ", .str "dc+sd-jwt")]),
  (credentialPayload, .obj [("iss", .str "https://issuer.example"), ("vct", .str "urn:eudi:pid:1")]),
  (issuedText, .obj [("credentials", .arr [.obj [("credential", .str credential)]])]),
  (pendingText, .obj [("transaction_id", .str "later"), ("interval", .num (.posInt 10))])]

def platform : Platform := { X509.TwoIssuers.platform with
  parseJson := fun b => (documents.find? fun document => utf8 document.1 == b).map (·.2)
  renderJson := fun _ => "\x7b\x7d" }

namespace Credential

open Vci.Credential

def config : CredentialFlowConfig where
  accessToken := "token"
  tokenIssuedAtEpochSeconds := 1000
  tokenExpiresInSeconds := some 600
  credentialIssuer := "https://issuer.example"
  format := .dcSdJwt
  expectedVct := "urn:eudi:pid:1"
  credentialEndpoint := "https://issuer.example/credential"
  nonceEndpoint := "https://issuer.example/nonce"
  deferredCredentialEndpoint := some "https://issuer.example/deferred"
  requestTarget := .configurationId "pid"
  dpopKeyRef := "dpop"
  dpopPublicJwk := jwk
  credentialKeyRef := "holder"
  credentialPublicJwk := jwk

def env (i : ℕ) (now : ℤ) : CredentialEnvironment := ⟨fun j => word (4 * i + j + 1), now, []⟩

/-- An answer without a nonce that may not be stored. -/
def answer (requestId : CorrelationId) (endpoint : String) (status : ℕ) (body : String) : EndpointResponse :=
  ⟨requestId, endpoint, "POST", status, ["application/json"], ["no-store"], [], [], [], [], utf8 body⟩

/-- What every signing input is on the sample platform. -/
def signed : Bytes := utf8 "e30.e30"

def requesting : List (CredentialInput × CredentialEnvironment) := [
  (.nonceResponse (answer (word 1) config.nonceEndpoint 200 nonceText), env 1 1001),
  (.keyAttestation ⟨word 5, config.credentialIssuer, config.credentialEndpoint, "holder", jwk, "n",
    token attestationHeader attestationPayload⟩, env 2 1002),
  (.credentialProofSignature ⟨word 9, signed, signature⟩, env 3 1003),
  (.dpopSignature ⟨word 14, signed, signature⟩, env 4 1004)]

def start : CredentialFlow :=
  ⟨⟨config, none, [], [word 1], 1000⟩, .awaitingNonceResponse (word 1)⟩

theorem begin_eq : begin config (env 0 1000) = .ok (start, .sendNonce ⟨word 1, config.nonceEndpoint⟩) := by rfl

def requested : CredentialFlow :=
  ⟨⟨config, none, [], [word 1, word 5, word 9, word 13, word 14, word 17], 1004⟩,
    .awaitingCredentialResponse (word 17) zeroHash ("e30.e30." ++ b64Encode signature) 0⟩

theorem flowAfter_requesting : flowAfter platform start requesting = requested := by decide +kernel

/-- The issuer answers at once. -/
def issuing : List (CredentialInput × CredentialEnvironment) :=
  [(.credentialResponse (answer (word 17) config.credentialEndpoint 200 issuedText), env 5 1005)]

def done : CredentialFlow :=
  ⟨{ requested.context with lastNowEpochSeconds := 1005 },
    .complete ⟨.dcSdJwt, utf8 credential, zeroHash⟩⟩

theorem flowAfter_issuing : flowAfter platform requested issuing = done := by decide +kernel

theorem flowAfter_done : flowAfter platform start (requesting ++ issuing) = done := by
  rw [flowAfter_append, flowAfter_requesting, flowAfter_issuing]

end Credential

namespace Authorization

open Vci.Authorization

def config : AuthorizationFlowConfig where
  authorizationServer := "https://as.example"
  credentialIssuer := "https://issuer.example"
  configurationId := "pid"
  credentialEndpoint := "https://issuer.example/credential"
  nonceEndpoint := "https://issuer.example/nonce"
  authorizationEndpoint := "https://as.example/authorize"
  tokenEndpoint := "https://as.example/token"
  parEndpoint := "https://as.example/par"
  scope := "pid"
  clientId := "wallet"
  redirectUri := "https://wallet.example/cb"
  issuerState := none
  dpopKey := ⟨"dpop", jwk, by decide⟩
  clientIdValid := by decide
  scopeValid := by decide
  issuerStateValid := by decide
  authorizationEndpointPlain := by decide

def env (i : ℕ) (now : ℤ) : AuthorizationEnvironment := ⟨fun j => word (4 * i + j + 1), now⟩

/-- The flow `begin` returns. -/
def start : AuthorizationFlow :=
  ⟨.initial platform config (word 1) (word 2) [word 1, word 2, word 3] 1000,
    .awaitingClientAuthentication .par (word 3) none 0⟩

theorem begin_eq : ∃ effect, begin platform config (env 0 1000) = .ok (start, effect) := by
  refine ⟨.acquireWalletClientAuthentication
    ⟨word 3, .par, config.clientId, config.authorizationServer, config.parEndpoint⟩, ?_⟩
  rfl

/-- The browser returns before anything was sent: the flow fails. -/
def outOfOrder : List (AuthorizationInput × AuthorizationEnvironment) :=
  [(.authorizationRedirect ⟨config.redirectUri, []⟩, env 1 1001)]

def refused : AuthorizationFlow := flowAfter platform start outOfOrder

end Authorization

end Sample

open Sample

/-- Terminal stages of both flows under calls that are timely. -/
theorem terminal_kept_sample : (∀ k ∈ Authorization.exchanges platform Authorization.refused
        Authorization.outOfOrder, k.after.stage = Authorization.refused.stage) ∧
      ∀ k ∈ Credential.exchanges platform Credential.done Credential.issuing,
        k.after.stage = Credential.done.stage := by
  constructor
  · refine ((terminal_kept_iff platform).1 Authorization.refused
      Authorization.outOfOrder rfl).mpr fun k hk => ?_
    obtain rfl := List.mem_singleton.mp hk
    exact Or.inl (by decide)
  · refine ((terminal_kept_iff platform).2 Credential.done Credential.issuing
      rfl).mpr fun k hk => ?_
    obtain rfl := List.mem_singleton.mp hk
    exact Or.inl ⟨by decide, rfl⟩

/-- A failure and an issued credential are replaced by calls whose clock is wrong. -/
theorem terminal_replaced : (∃ effect, Authorization.begin platform Authorization.config
        (Authorization.env 0 1000) = .ok (Authorization.start, effect)) ∧
      (Authorization.flowAfter platform Authorization.start
        Authorization.outOfOrder).stage = .failed .unexpectedInput ∧
      (Authorization.flowAfter platform Authorization.start (Authorization.outOfOrder ++
        [(.authorizationRedirect ⟨"", []⟩, Authorization.env 2 0)])).stage = .failed .invalidClock ∧
      Credential.begin Credential.config (Credential.env 0 1000) =
        .ok (Credential.start, .sendNonce ⟨word 1, Credential.config.nonceEndpoint⟩) ∧
      (Credential.flowAfter platform Credential.start (Credential.requesting ++ Credential.issuing)).stage =
          .complete ⟨.dcSdJwt, utf8 credential, zeroHash⟩ ∧ (Credential.flowAfter platform Credential.start
        (Credential.requesting ++ Credential.issuing ++
          [(.pollDeferred, Credential.env 6 1600)])).stage = .failed .tokenExpired := by
  refine ⟨Authorization.begin_eq, rfl, rfl, Credential.begin_eq, ?_, ?_⟩
  · rw [Credential.flowAfter_done]
    rfl
  · rw [Credential.flowAfter_append, Credential.flowAfter_done]
    rfl

end EuWallet.Vci
