import EuWallet.Vci.CredentialMoves

/-! # Polling for a deferred credential

A poll is three calls: `PollDeferred`, the signature of the DPoP proof, the answer of the issuer. Each poll draws
three random values, and a flow draws at most thirty-two in all. `polling_iff` says what that does to an issuer
that answers `202` again and again: the flow is still waiting after `n` polls exactly when `n` polls fit. -/

namespace EuWallet.Vci.Credential

open Codec Crypto Lib Lib.Fallible

/-! ### Single calls -/

section Calls
variable {p : Platform} {c c' : Context} {stage stage' : Stage} {input : CredentialInput}
  {env : CredentialEnvironment} {effects : List CredentialEffect}

/-- The flow is `flow'` when `P` holds, and has failed when it does not. -/
def LeadsTo (flow flow' : CredentialFlow) (P : Prop) : Prop :=
  (P → flow = flow') ∧ (¬ P → ∃ e, flow.stage = .failed e)

theorem step_of_ok (hclock : clockFailure c env.nowEpochSeconds = none) (hrunning : stage.terminal = false)
    (hdue : pollsEarly stage input env.nowEpochSeconds = false)
    (h : outcome (transition p stage input env) (c.at env.nowEpochSeconds) = (.ok (stage', effects), c')) :
    (step p ⟨c, stage⟩ input env).1 = ⟨c', stage'⟩ := by
  have h' : outcome (transition p stage input env) { c with lastNowEpochSeconds := env.nowEpochSeconds } =
      (.ok (stage', effects), c') := h
  simp [step, hclock, hrunning, hdue, h']

theorem step_leadsTo {P : Prop} (hclock : clockFailure c env.nowEpochSeconds = none)
    (hrunning : stage.terminal = false) (hdue : pollsEarly stage input env.nowEpochSeconds = false)
    (hok : P → ∃ effects, outcome (transition p stage input env) (c.at env.nowEpochSeconds) =
      (.ok (stage', effects), c'))
    (honly : ∀ {stage' effects c'}, outcome (transition p stage input env) (c.at env.nowEpochSeconds) =
      (.ok (stage', effects), c') → P) : LeadsTo (step p ⟨c, stage⟩ input env).1 ⟨c', stage'⟩ P := by
  refine ⟨fun h => (hok h).elim fun _ hok => step_of_ok hclock hrunning hdue hok, fun hnot => ?_⟩
  rcases houtcome : outcome (transition p stage input env) (c.at env.nowEpochSeconds) with ⟨e | ⟨_, _⟩, c'⟩
  · have h' : outcome (transition p stage input env) { c with lastNowEpochSeconds := env.nowEpochSeconds } =
        (.error e, c') := houtcome
    exact ⟨e, by simp [step, hclock, hrunning, hdue, h']⟩
  · exact absurd (honly houtcome) hnot

theorem failed_flowAfter {flow : CredentialFlow} (h : ∃ e, flow.stage = .failed e)
    (inputs : List (CredentialInput × CredentialEnvironment)) : ∃ e, (flowAfter p flow inputs).stage = .failed e := by
  refine calls_invariant (fun _ (flow : CredentialFlow) => ∃ e, flow.stage = .failed e) h
    (fun _ flow call hfailed => ?_) inputs
  obtain ⟨e, hfailed⟩ := hfailed
  show ∃ e, (step p flow call.1 call.2).1.stage = .failed e
  unfold step
  cases clockFailure flow.context call.2.nowEpochSeconds with
  | some e' => exact ⟨e', rfl⟩
  | none => exact ⟨e, by simp [hfailed, Stage.terminal]⟩

theorem LeadsTo.followed {flow flow' flow'' : CredentialFlow} {P Q : Prop}
    (inputs : List (CredentialInput × CredentialEnvironment)) (h : LeadsTo flow flow' P)
    (hnext : P → LeadsTo (flowAfter p flow' inputs) flow'' Q) : LeadsTo (flowAfter p flow inputs) flow'' (P ∧ Q) := by
  by_cases hP : P
  · rw [h.1 hP]
    exact ⟨fun hboth => (hnext hP).1 hboth.2, fun hnot => (hnext hP).2 fun hQ => hnot ⟨hP, hQ⟩⟩
  · exact ⟨fun hboth => absurd hboth.1 hP, fun _ => failed_flowAfter (h.2 hP) _⟩

end Calls

/-! ### Polls -/

structure Round where
  poll : CredentialEnvironment
  sign : CredentialEnvironment
  answer : CredentialEnvironment
  signature : Bytes
  response : EndpointResponse
  interval : ℕ

namespace Round

/-- The values a poll draws: the identifier of its proof, the one of the signing request and the one of the
request to the issuer. -/
def draws (r : Round) : List Hash32 := [r.poll.random 0, r.poll.random 1, r.sign.random 0]

section
variable (p : Platform) (config : CredentialFlowConfig) (nonce : Option String)

def endpoint : HttpsEndpoint := config.deferredCredentialEndpoint.getD ""

/-- The text the flow asks to be signed. -/
def text (r : Round) : String :=
  signingText p (dpopHeader config.dpopPublicJwk)
    (dpopClaims p (endpoint config) config.accessToken (b64Encode (r.poll.random 0).1) r.poll.nowEpochSeconds nonce)

/-- The three calls of a poll that is signed as it was asked for. -/
def calls (r : Round) : List (CredentialInput × CredentialEnvironment) :=
  [(.pollDeferred, r.poll),
    (.dpopSignature ⟨r.poll.random 1, utf8 (r.text p config nonce), r.signature⟩, r.sign),
    (.credentialResponse r.response, r.answer)]

/-- A poll at the permitted time, during the life of the token, with a signature and an answer to its request that
may not be stored and carries neither a nonce nor a challenge. -/
structure Proper (due last : ℤ) (r : Round) : Prop where
  due : due ≤ r.poll.nowEpochSeconds
  positive : 0 < r.poll.nowEpochSeconds
  forward : last ≤ r.poll.nowEpochSeconds ∧ r.poll.nowEpochSeconds ≤ r.sign.nowEpochSeconds ∧
    r.sign.nowEpochSeconds ≤ r.answer.nowEpochSeconds
  alive : ∀ now ∈ [r.poll.nowEpochSeconds, r.sign.nowEpochSeconds, r.answer.nowEpochSeconds],
    validateTokenLifetime config.tokenIssuedAtEpochSeconds config.tokenExpiresInSeconds now = .ok ()
  signed : r.signature.length = 64
  bound : r.response.Answers (r.sign.random 0) (endpoint config)
  small : r.response.body.length ≤ maxCredentialResponseBytes
  headers : validateCommonResponseHeaders r.response true = .ok ()
  plain : r.response.dpopNonceHeaders = [] ∧ r.response.wwwAuthenticateHeaders = []

/-- The text to be signed is within its bound. -/
def Fits (r : Round) : Prop := (r.text p config nonce).utf8ByteSize ≤ maxSigningInputBytes

/-- The time of the next poll is a time. -/
def Representable (r : Round) : Prop := r.answer.nowEpochSeconds + r.interval < 2 ^ 63

/-- The issuer answers `202` with the same transaction. -/
def Pending (transactionId : String) (r : Round) : Prop :=
  r.response.status = 202 ∧ parseDeferredCredential p r.response.body = .ok (transactionId, r.interval)

/-- The issuer answers `200` with a credential. -/
def Delivers (raw : Bytes) (r : Round) : Prop :=
  r.response.status = 200 ∧ parseImmediateCredential p r.response.body config.format config.credentialIssuer
    config.expectedVct = .ok raw

end

def due : ℤ → List Round → ℤ
  | next, [] => next
  | _, r :: rest => due (r.answer.nowEpochSeconds + r.interval) rest

def clock : ℤ → List Round → ℤ
  | last, [] => last
  | _, r :: rest => clock r.answer.nowEpochSeconds rest

/-- Polls one after the other, each proper and answered with the same transaction. -/
def Polls (p : Platform) (config : CredentialFlowConfig) (transactionId : String) : ℤ → ℤ → List Round → Prop
  | _, _, [] => True
  | next, last, r :: rest => r.Proper config next last ∧ r.Pending p transactionId ∧
      Polls p config transactionId (r.answer.nowEpochSeconds + r.interval) r.answer.nowEpochSeconds rest

end Round

/-- The values are new to the flow, not zero and pairwise distinct. -/
def NewValues (used drawn : List Hash32) : Prop := drawn.Nodup ∧ ∀ value ∈ drawn, value ≠ zeroHash ∧ value ∉ used

section Poll
variable {p : Platform} {c : Context} {r : Round} {transactionId : String} {next last : ℤ} {cNonceHash : Hash32}

/-- The context after the first call of a poll. -/
def Context.asked (c : Context) (r : Round) : Context :=
  ((c.at r.poll.nowEpochSeconds).draw (r.poll.random 0)).draw (r.poll.random 1)

/-- The context after its second call. -/
def Context.sent (c : Context) (r : Round) : Context :=
  ((c.asked r).at r.sign.nowEpochSeconds).draw (r.sign.random 0)

def Context.polled (c : Context) (r : Round) : Context := (c.sent r).at r.answer.nowEpochSeconds

@[simp] theorem Context.polled_config : (c.polled r).config = c.config := rfl
@[simp] theorem Context.polled_nonce : (c.polled r).credentialEndpointNonce = c.credentialEndpointNonce := rfl
@[simp] theorem Context.polled_clock : (c.polled r).lastNowEpochSeconds = r.answer.nowEpochSeconds := rfl
@[simp] theorem Context.polled_used : (c.polled r).usedRandomValues = c.usedRandomValues ++ r.draws := by
  simp [Context.polled, Context.sent, Context.asked, Context.at, Context.draw, Round.draws]

/-- Each of the three values can be drawn when there is room for it. -/
theorem fresh_draws (hnew : NewValues c.usedRandomValues r.draws) :
    ((c.at r.poll.nowEpochSeconds).Fresh (r.poll.random 0) ↔ c.usedRandomValues.length + 1 ≤ 32) ∧
    (((c.at r.poll.nowEpochSeconds).draw (r.poll.random 0)).Fresh (r.poll.random 1) ↔
      c.usedRandomValues.length + 2 ≤ 32) ∧
    (((c.asked r).at r.sign.nowEpochSeconds).Fresh (r.sign.random 0) ↔ c.usedRandomValues.length + 3 ≤ 32) := by
  obtain ⟨hnodup, hvalues⟩ := hnew
  simp only [Round.draws, List.nodup_cons, List.mem_cons, List.not_mem_nil, or_false, not_or] at hnodup
  simp only [Round.draws, List.forall_mem_cons, List.not_mem_nil, false_implies, implies_true, and_true] at hvalues
  obtain ⟨⟨hzero₀, hnew₀⟩, ⟨hzero₁, hnew₁⟩, ⟨hzero₂, hnew₂⟩⟩ := hvalues
  obtain ⟨⟨h01, h02⟩, h12, -⟩ := hnodup
  refine ⟨?_, ?_, ?_⟩
  · simp only [Context.Fresh, Context.at, hzero₀, hnew₀, ne_eq, not_false_eq_true, and_true]
    omega
  · simp only [Context.Fresh, Context.at, Context.draw, List.length_append, List.length_singleton,
      List.mem_append, List.mem_singleton, hzero₁, hnew₁, Ne.symm h01, ne_eq, not_false_eq_true, or_false, and_true]
    omega
  · simp only [Context.Fresh, Context.asked, Context.at, Context.draw, List.length_append,
      List.length_singleton, List.mem_append, List.mem_singleton, hzero₂, hnew₂, Ne.symm h02, Ne.symm h12, ne_eq,
      not_false_eq_true, or_false, and_true]
    omega

theorem endpoint_eq (h : c.config.deferredCredentialEndpoint ≠ none) :
    c.config.deferredCredentialEndpoint = some (Round.endpoint c.config) := by
  obtain ⟨endpoint, h⟩ := Option.ne_none_iff_exists'.mp h
  simp [Round.endpoint, h]

theorem flowAfter_cons {flow : CredentialFlow} {input : CredentialInput} {env : CredentialEnvironment}
    {rest : List (CredentialInput × CredentialEnvironment)} :
    flowAfter p flow ((input, env) :: rest) = flowAfter p (step p flow input env).1 rest := rfl

theorem clockFailure_sent (hproper : r.Proper c.config next last) :
    clockFailure (c.sent r) r.answer.nowEpochSeconds = none := by
  have hforward := hproper.forward
  have hpositive := hproper.positive
  exact clockFailure_eq_none.mpr ⟨⟨by omega, hforward.2.2⟩, hproper.alive _ (by simp)⟩

theorem checkResponse_plain (hproper : r.Proper c.config next last) (hstatus : r.response.status ≠ 401) :
    checkResponse (r.sign.random 0) (Round.endpoint c.config) r.response = .ok (none, false) := by
  have hnonce : parseSingleDpopNonce r.response.dpopNonceHeaders = .ok none := by rw [hproper.plain.1]; rfl
  simp only [checkResponse, bind_eq_ok, guard_eq_ok]
  exact ⟨(), validateTransportBinding_eq_ok.mpr hproper.bound, Nat.not_lt.mpr hproper.small, (),
    hproper.headers, none, hnonce, by rw [if_neg hstatus]; rfl⟩

theorem acceptDeferredResponse_plain (p : Platform) (transactionId : String) (cNonceHash : Hash32) (hproper : r.Proper c.config next last)
    (hendpoint : c.config.deferredCredentialEndpoint ≠ none) (hstatus : r.response.status ≠ 401) :
    outcome (acceptDeferredResponse p (r.sign.random 0) transactionId cNonceHash 0 r.response r.answer) (c.polled r) =
      if r.response.status = 200 then (completed p (c.polled r) cNonceHash r.response.body, c.polled r)
      else outcome (do
        failIf (r.response.status ≠ 202) .credentialRejected
        let (returnedId, interval) ← lift (parseDeferredCredential p r.response.body)
        failIf (returnedId ≠ transactionId) .invalidCredentialResponse
        lift (postponed transactionId interval cNonceHash r.answer.nowEpochSeconds) : Action _) (c.polled r) := by
  have hsupported : orErr CredentialError.deferredIssuanceUnsupported (c.polled r).config.deferredCredentialEndpoint =
      .ok (Round.endpoint c.config) := orErr_eq_ok.mpr (endpoint_eq hendpoint)
  unfold acceptDeferredResponse
  rw [outcome_get_bind, hsupported, outcome_ok_bind, checkResponse_plain hproper hstatus, outcome_ok_bind]
  dsimp only
  rw [if_neg Bool.false_ne_true, outcome_pass_bind (not_not.mpr hproper.plain.2)]
  show outcome (if r.response.status = 200 then _ else _) (c.polled r) = _
  split_ifs with hissued
  · rw [outcome_lift]
  · rfl

theorem step_pending (cNonceHash : Hash32) (hproper : r.Proper c.config next c.lastNowEpochSeconds)
    (hendpoint : c.config.deferredCredentialEndpoint ≠ none) (hpending : r.Pending p transactionId) :
    LeadsTo (step p ⟨c.sent r, .awaitingDeferredResponse (r.sign.random 0) transactionId cNonceHash 0⟩
        (.credentialResponse r.response) r.answer).1
      ⟨c.polled r, .deferred transactionId (r.answer.nowEpochSeconds + r.interval) cNonceHash⟩ r.Representable := by
  obtain ⟨hstatus, hparsed⟩ := hpending
  have houtcome : outcome (transition p (.awaitingDeferredResponse (r.sign.random 0) transactionId cNonceHash 0)
      (.credentialResponse r.response) r.answer) ((c.sent r).at r.answer.nowEpochSeconds) =
      (postponed transactionId r.interval cNonceHash r.answer.nowEpochSeconds, c.polled r) := by
    refine (acceptDeferredResponse_plain p transactionId cNonceHash hproper hendpoint (by omega)).trans ?_
    rw [if_neg (by omega), outcome_pass_bind (not_not.mpr hstatus), hparsed, outcome_ok_bind,
      outcome_pass_bind (by simp), outcome_lift]
  refine step_leadsTo (clockFailure_sent hproper) rfl rfl (fun hfits => ?_) fun h => ?_
  · exact ⟨[], by rw [houtcome, postponed_ok.mpr ⟨hfits, rfl, rfl⟩]⟩
  · exact (postponed_ok.mp (Prod.mk.inj (houtcome.symm.trans h)).1).1

theorem step_delivers (hproper : r.Proper c.config next c.lastNowEpochSeconds) {raw : Bytes}
    (hendpoint : c.config.deferredCredentialEndpoint ≠ none) (hdelivers : r.Delivers p c.config raw) :
    (step p ⟨c.sent r, .awaitingDeferredResponse (r.sign.random 0) transactionId cNonceHash 0⟩
        (.credentialResponse r.response) r.answer).1 =
      ⟨c.polled r, .complete ⟨c.config.format, raw, cNonceHash⟩⟩ := by
  obtain ⟨hstatus, hparsed⟩ := hdelivers
  have houtcome := acceptDeferredResponse_plain p transactionId cNonceHash hproper hendpoint
    (by omega)
  have hcompleted : completed p (c.polled r) cNonceHash r.response.body =
      .ok (.complete ⟨c.config.format, raw, cNonceHash⟩, []) := completed_ok.mpr ⟨raw, hparsed, rfl, rfl⟩
  rw [if_pos hstatus, hcompleted] at houtcome
  exact step_of_ok (clockFailure_sent hproper) rfl rfl houtcome

section Answered
variable (p : Platform) (transactionId : String) (cNonceHash : Hash32)
  (hproper : r.Proper c.config next c.lastNowEpochSeconds) (hendpoint : c.config.deferredCredentialEndpoint ≠ none)
  (hnew : NewValues c.usedRandomValues r.draws)

include hproper hendpoint hnew

theorem step_poll : LeadsTo (step p ⟨c, .deferred transactionId next cNonceHash⟩ .pollDeferred r.poll).1
      ⟨c.asked r, .signingDeferredDpop (r.poll.random 1) transactionId cNonceHash
        (utf8 (r.text p c.config c.credentialEndpointNonce)) 0⟩
      (c.usedRandomValues.length + 2 ≤ 32 ∧ r.Fits p c.config c.credentialEndpointNonce) := by
  have hclock : clockFailure c r.poll.nowEpochSeconds = none :=
    clockFailure_eq_none.mpr ⟨⟨hproper.positive, hproper.forward.1⟩, hproper.alive _ (by simp)⟩
  have hdue : pollsEarly (.deferred transactionId next cNonceHash) .pollDeferred r.poll.nowEpochSeconds = false := by
    simpa [pollsEarly] using hproper.due
  obtain ⟨hfirst, hsecond, -⟩ := fresh_draws hnew
  refine step_leadsTo hclock rfl hdue ?_ ?_
  · rintro ⟨hroom, hfits⟩
    exact ⟨_, deferredDpopSigningStage_ok.mpr ⟨_, endpoint_eq hendpoint, hfirst.mpr (by omega), _,
      if_neg (Nat.not_lt.mpr hfits), hsecond.mpr hroom, ⟨rfl, rfl⟩, rfl⟩⟩
  · intro _ _ _ h
    obtain ⟨endpoint, hendpoint', -, dpopInput, hbuilt, hdrawn, -⟩ := deferredDpopSigningStage_ok.mp h
    obtain rfl : endpoint = Round.endpoint c.config :=
      Option.some.inj (hendpoint'.symm.trans (endpoint_eq hendpoint))
    refine ⟨hsecond.mp hdrawn, Nat.not_lt.mp fun hlarge => ?_⟩
    have hrefused : buildDpopSigningInput p (Round.endpoint c.config) c.config.dpopPublicJwk c.config.accessToken
        (b64Encode (r.poll.random 0).1) r.poll.nowEpochSeconds c.credentialEndpointNonce =
        .error .invalidConfiguration := if_pos hlarge
    cases hrefused.symm.trans hbuilt

theorem step_sign (text : String) :
    LeadsTo (step p ⟨c.asked r, .signingDeferredDpop (r.poll.random 1) transactionId cNonceHash (utf8 text) 0⟩
        (.dpopSignature ⟨r.poll.random 1, utf8 text, r.signature⟩) r.sign).1
      ⟨c.sent r, .awaitingDeferredResponse (r.sign.random 0) transactionId cNonceHash 0⟩
      (c.usedRandomValues.length + 3 ≤ 32) := by
  have hclock : clockFailure (c.asked r) r.sign.nowEpochSeconds = none := by
    have hforward := hproper.forward
    have hpositive := hproper.positive
    exact clockFailure_eq_none.mpr ⟨⟨by omega, hforward.2.1⟩, hproper.alive _ (by simp)⟩
  obtain ⟨-, -, hthird⟩ := fresh_draws hnew
  refine step_leadsTo hclock rfl rfl (fun hroom => ?_) fun h => ?_
  · exact ⟨_, acceptDeferredDpopSignature_ok.mpr ⟨⟨rfl, rfl, hproper.signed⟩, _, endpoint_eq hendpoint, _,
      assembleCompactJwt_utf8 _ _, hthird.mpr hroom, ⟨rfl, rfl⟩, rfl⟩⟩
  · obtain ⟨-, -, -, -, -, hdrawn, -⟩ := acceptDeferredDpopSignature_ok.mp h
    exact hthird.mp hdrawn

/-! ### Whole polls -/

/-- What a poll that gets as far as its answer needs. -/
def Affords (p : Platform) (c : Context) (r : Round) : Prop :=
  c.usedRandomValues.length + 3 ≤ 32 ∧ r.Fits p c.config c.credentialEndpointNonce

/-- The flow sends the request of a poll exactly when the values of the poll and its text fit. -/
theorem round_sent :
    LeadsTo (flowAfter p ⟨c, .deferred transactionId next cNonceHash⟩ (r.calls p c.config c.credentialEndpointNonce))
      (step p ⟨c.sent r, .awaitingDeferredResponse (r.sign.random 0) transactionId cNonceHash 0⟩
        (.credentialResponse r.response) r.answer).1 (Affords p c r) := by
  have hpoll := step_poll p transactionId cNonceHash hproper hendpoint hnew
  have hsign := step_sign p transactionId cNonceHash hproper hendpoint hnew
    (r.text p c.config c.credentialEndpointNonce)
  unfold Round.calls
  rw [flowAfter_cons]
  constructor
  · rintro ⟨hroom, hfits⟩
    rw [hpoll.1 ⟨by omega, hfits⟩, flowAfter_cons, hsign.1 hroom, flowAfter_cons]
    rfl
  · intro hnot
    by_cases hfirst : c.usedRandomValues.length + 2 ≤ 32 ∧ r.Fits p c.config c.credentialEndpointNonce
    · have hroom : ¬ c.usedRandomValues.length + 3 ≤ 32 := fun hroom => hnot ⟨hroom, hfirst.2⟩
      rw [hpoll.1 hfirst, flowAfter_cons]
      exact failed_flowAfter (hsign.2 hroom) _
    · exact failed_flowAfter (hpoll.2 hfirst) _

theorem round_pending (hpending : r.Pending p transactionId) :
    LeadsTo (flowAfter p ⟨c, .deferred transactionId next cNonceHash⟩ (r.calls p c.config c.credentialEndpointNonce))
      ⟨c.polled r, .deferred transactionId (r.answer.nowEpochSeconds + r.interval) cNonceHash⟩
      (Affords p c r ∧ r.Representable) := by
  have hsent := round_sent p transactionId cNonceHash hproper hendpoint hnew
  exact hsent.followed (p := p) [] fun _ => step_pending cNonceHash hproper hendpoint hpending

theorem round_delivers {raw : Bytes} (hdelivers : r.Delivers p c.config raw) :
    (flowAfter p ⟨c, .deferred transactionId next cNonceHash⟩ (r.calls p c.config c.credentialEndpointNonce)).stage =
      .complete ⟨c.config.format, raw, cNonceHash⟩ ↔ Affords p c r := by
  have hsent := round_sent p transactionId cNonceHash hproper hendpoint hnew
  constructor
  · intro hcomplete
    by_contra hnot
    obtain ⟨e, hfailed⟩ := hsent.2 hnot
    rw [hfailed] at hcomplete
    cases hcomplete
  · intro haffords
    rw [hsent.1 haffords, step_delivers hproper hendpoint hdelivers]

end Answered

/-- What polls that are all answered `202` need: three values each, texts within their bound and times that can be
represented. -/
def AffordsAll (p : Platform) (c : Context) (rounds : List Round) : Prop :=
  c.usedRandomValues.length + 3 * rounds.length ≤ 32 ∧
    ∀ r ∈ rounds, r.Fits p c.config c.credentialEndpointNonce ∧ r.Representable

def Context.polledAll (c : Context) (rounds : List Round) : Context := rounds.foldl Context.polled c

theorem Context.polledAll_cons (r : Round) (rest : List Round) :
    c.polledAll (r :: rest) = (c.polled r).polledAll rest := rfl

section
variable (rounds : List Round)

theorem Context.polledAll_eq : c.polledAll rounds = { c with
    usedRandomValues := c.usedRandomValues ++ rounds.flatMap Round.draws
    lastNowEpochSeconds := Round.clock c.lastNowEpochSeconds rounds } := by
  induction rounds generalizing c with
  | nil => simp [Context.polledAll, Round.clock]
  | cons r rest ih =>
    rw [Context.polledAll_cons, ih, Context.polled_used, List.append_assoc, List.flatMap_cons]
    rfl

@[simp] theorem Context.polledAll_config : (c.polledAll rounds).config = c.config := by
  rw [Context.polledAll_eq]
@[simp] theorem Context.polledAll_nonce :
    (c.polledAll rounds).credentialEndpointNonce = c.credentialEndpointNonce := by
  rw [Context.polledAll_eq]
@[simp] theorem Context.polledAll_clock :
    (c.polledAll rounds).lastNowEpochSeconds = Round.clock c.lastNowEpochSeconds rounds := by
  rw [Context.polledAll_eq]
@[simp] theorem Context.polledAll_used :
    (c.polledAll rounds).usedRandomValues = c.usedRandomValues ++ rounds.flatMap Round.draws := by
  rw [Context.polledAll_eq]

end

theorem newValues_append {used first second : List Hash32} (h : NewValues used (first ++ second)) :
    NewValues used first ∧ NewValues (used ++ first) second := by
  obtain ⟨hnodup, hnew⟩ := h
  obtain ⟨hfirst, hsecond, hdisjoint⟩ := List.nodup_append.mp hnodup
  refine ⟨⟨hfirst, fun value hvalue => hnew value (List.mem_append_left _ hvalue)⟩, hsecond, fun value hvalue => ?_⟩
  obtain ⟨hzero, hunused⟩ := hnew value (List.mem_append_right _ hvalue)
  refine ⟨hzero, fun hmem => ?_⟩
  rcases List.mem_append.mp hmem with hused | hdrawn
  · exact hunused hused
  · exact hdisjoint value hdrawn value hvalue rfl

/-- Any number of polls answered `202`. -/
theorem rounds_pending (p : Platform) (transactionId : String) (cNonceHash : Hash32) (rounds : List Round)
    (hpolls : Round.Polls p c.config transactionId next c.lastNowEpochSeconds rounds)
    (hendpoint : c.config.deferredCredentialEndpoint ≠ none)
    (hnew : NewValues c.usedRandomValues (rounds.flatMap Round.draws)) (hbound : c.usedRandomValues.length ≤ 32) :
    LeadsTo (flowAfter p ⟨c, .deferred transactionId next cNonceHash⟩
        (rounds.flatMap (Round.calls p c.config c.credentialEndpointNonce)))
      ⟨c.polledAll rounds, .deferred transactionId (Round.due next rounds) cNonceHash⟩ (AffordsAll p c rounds) := by
  -- One poll at a time: what the others need is told from the context this one leaves.
  induction rounds generalizing c next with
  | nil => exact ⟨fun _ => rfl, fun hnot => absurd ⟨by simpa using hbound, by simp⟩ hnot⟩
  | cons r rest ih =>
    obtain ⟨hproper, hpending, hpolls⟩ := hpolls
    obtain ⟨hnewFirst, hnewRest⟩ := newValues_append hnew
    have hround := round_pending p transactionId cNonceHash hproper hendpoint hnewFirst hpending
    have hsplit : AffordsAll p c (r :: rest) ↔
        (Affords p c r ∧ r.Representable) ∧ AffordsAll p (c.polled r) rest := by
      simp only [AffordsAll, Affords, List.forall_mem_cons, List.length_cons, Context.polled_used,
        List.length_append, Context.polled_config, Context.polled_nonce, show r.draws.length = 3 from rfl]
      constructor
      · rintro ⟨hroom, ⟨hfits, hrep⟩, hrest⟩
        exact ⟨⟨⟨by omega, hfits⟩, hrep⟩, by omega, hrest⟩
      · rintro ⟨⟨⟨-, hfits⟩, hrep⟩, hroom, hrest⟩
        exact ⟨by omega, ⟨hfits, hrep⟩, hrest⟩
    rw [hsplit]
    refine hround.followed _ fun hfirst => ih (c := c.polled r) hpolls hendpoint ?_ ?_
    · rwa [Context.polled_used]
    · rw [Context.polled_used, List.length_append]
      exact hfirst.1.1

end Poll

/-! ### Flows that are waiting -/

/-- What a flow brings to its first poll. -/
structure Ready (flow : CredentialFlow) : Prop where
  bounded : (∀ e, flow.stage ≠ .failed e) → flow.context.usedRandomValues.length ≤ 32
  supported : ∀ transactionId next cNonceHash, flow.stage = .deferred transactionId next cNonceHash →
    flow.context.config.deferredCredentialEndpoint ≠ none

variable {p : Platform} {flow : CredentialFlow} {config : CredentialFlowConfig} {env : CredentialEnvironment}
  {effect : CredentialEffect}

theorem Ready.of_begin (h : begin config env = .ok (flow, effect)) : Ready flow := by
  simp only [begin, bind_eq_ok, pure_eq_ok, orErr_eq_ok, Prod.mk.injEq] at h
  obtain ⟨_, -, _, -, used, hused, rfl, -⟩ := h
  obtain ⟨-, -, -, rfl⟩ := freshRandom_eq_some.mp hused
  exact ⟨fun _ => by simp, fun _ _ _ hstage => by cases hstage⟩

theorem Ready.after (h : Ready flow) (input : CredentialInput) (env : CredentialEnvironment) :
    Ready (step p flow input env).1 := by
  have hmove := step_move p flow input env
  generalize step p flow input env = result at hmove
  obtain ⟨flow', reply⟩ := result
  cases hmove with
  | refuses _ | fails =>
    exact ⟨fun hrunning => absurd rfl (hrunning _), fun _ _ _ hstage => by cases hstage⟩
  | ended _ _ | early _ => exact ⟨h.bounded, h.supported⟩
  | accepts _ haccepts =>
    obtain ⟨drawn, hgrows⟩ := haccepts.grows
    have hrunning : ∀ e, flow.stage ≠ .failed e := by
      rintro e hfailed
      rw [hfailed] at haccepts
      cases haccepts
    refine ⟨fun _ => hgrows.bounded (h.bounded hrunning), fun transactionId next cNonceHash hstage => ?_⟩
    rw [hgrows.config]
    obtain rfl : _ = Stage.deferred transactionId next cNonceHash := hstage
    generalize flow.stage = stage at haccepts
    cases haccepts with
    | postponement _ supported => exact supported
    | deferredPostponement supported => simp [supported]

theorem ready_flowAfter (h : Ready flow) (inputs : List (CredentialInput × CredentialEnvironment)) :
    Ready (flowAfter p flow inputs) := by
  exact calls_invariant (fun _ flow => Ready flow) h (fun _ _ call h => h.after call.1 call.2) inputs

/-- A flow that waits for a deferred credential is polled `n` times, each time as it should be and each time
answered `202`, and then once more and answered `200`. It is waiting after the `n` polls, and it is complete
after the last, exactly when three random values for each poll fit among the thirty-two of the whole flow (and
what is signed and the times stay within their bounds). -/
theorem polling_iff (p : Platform) (config : CredentialFlowConfig) (env : CredentialEnvironment)
    (start : CredentialFlow) (effect : CredentialEffect) (hbegin : begin config env = .ok (start, effect))
    (inputs : List (CredentialInput × CredentialEnvironment)) (c : Context) (transactionId : String) (next : ℤ)
    (cNonceHash : Hash32) (hflow : flowAfter p start inputs = ⟨c, .deferred transactionId next cNonceHash⟩)
    (rounds : List Round) (final : Round) (raw : Bytes)
    (hpolls : Round.Polls p c.config transactionId next c.lastNowEpochSeconds rounds)
    (hfinal : final.Proper c.config (Round.due next rounds) (Round.clock c.lastNowEpochSeconds rounds))
    (hdelivers : final.Delivers p c.config raw)
    (hnew : NewValues c.usedRandomValues (rounds.flatMap Round.draws ++ final.draws)) :
    let polls := rounds.flatMap (Round.calls p c.config c.credentialEndpointNonce)
    let last := final.calls p c.config c.credentialEndpointNonce
    ((∃ due, (flowAfter p start (inputs ++ polls)).stage = .deferred transactionId due cNonceHash) ↔
      AffordsAll p c rounds) ∧
    ((∃ due, (flowAfter p start (inputs ++ polls)).stage = .deferred transactionId due cNonceHash) ∧
        (flowAfter p start (inputs ++ polls ++ last)).stage = .complete ⟨c.config.format, raw, cNonceHash⟩ ↔
      c.usedRandomValues.length + 3 * (rounds.length + 1) ≤ 32 ∧
        (∀ r ∈ rounds, r.Fits p c.config c.credentialEndpointNonce ∧ r.Representable) ∧
        final.Fits p c.config c.credentialEndpointNonce) := by
  intro polls last
  have hready : Ready ⟨c, .deferred transactionId next cNonceHash⟩ :=
    hflow ▸ ready_flowAfter (Ready.of_begin hbegin) inputs
  have hendpoint : c.config.deferredCredentialEndpoint ≠ none := hready.supported _ _ _ rfl
  have hbound : c.usedRandomValues.length ≤ 32 := hready.bounded fun _ h => by cases h
  obtain ⟨hnewRounds, hnewFinal⟩ := newValues_append hnew
  have hrounds := rounds_pending p transactionId cNonceHash rounds hpolls hendpoint hnewRounds hbound
  rw [flowAfter_append p start (inputs ++ polls), flowAfter_append p start inputs, hflow]
  have hwaiting : (∃ due, (flowAfter p ⟨c, .deferred transactionId next cNonceHash⟩ polls).stage =
      .deferred transactionId due cNonceHash) ↔ AffordsAll p c rounds := by
    constructor
    · rintro ⟨due, hdue⟩
      by_contra hnot
      obtain ⟨e, hfailed⟩ := hrounds.2 hnot
      cases hfailed.symm.trans hdue
    · intro haffords
      exact ⟨_, by rw [hrounds.1 haffords]⟩
  refine ⟨hwaiting, ?_⟩
  rw [hwaiting]
  have hlast : AffordsAll p c rounds → ((flowAfter p (flowAfter p ⟨c, .deferred transactionId next cNonceHash⟩ polls)
      last).stage = .complete ⟨c.config.format, raw, cNonceHash⟩ ↔ Affords p (c.polledAll rounds) final) := by
    intro haffords
    have hfinal' : final.Proper (c.polledAll rounds).config (Round.due next rounds)
        (c.polledAll rounds).lastNowEpochSeconds := by simpa using hfinal
    have hdelivers' : final.Delivers p (c.polledAll rounds).config raw := by simpa using hdelivers
    have hdone := round_delivers p transactionId cNonceHash hfinal' (by simpa using hendpoint)
      (by simpa using hnewFinal) hdelivers'
    rw [hrounds.1 haffords]
    rwa [Context.polledAll_config, Context.polledAll_nonce] at hdone
  have hfits : Affords p (c.polledAll rounds) final ↔ c.usedRandomValues.length + 3 * (rounds.length + 1) ≤ 32 ∧
      final.Fits p c.config c.credentialEndpointNonce := by
    have hsum : (c.polledAll rounds).usedRandomValues.length + 3 =
        c.usedRandomValues.length + 3 * (rounds.length + 1) := by
      simp [List.length_flatMap, Round.draws]
      omega
    unfold Affords
    rw [hsum, Context.polledAll_config, Context.polledAll_nonce]
  constructor
  · rintro ⟨haffords, hcomplete⟩
    obtain ⟨hroom, hfinalFits⟩ := hfits.mp ((hlast haffords).mp hcomplete)
    exact ⟨hroom, haffords.2, hfinalFits⟩
  · rintro ⟨hroom, hall, hfinalFits⟩
    have haffords : AffordsAll p c rounds := ⟨by omega, hall⟩
    exact ⟨haffords, (hlast haffords).mpr (hfits.mpr ⟨hroom, hfinalFits⟩)⟩

end EuWallet.Vci.Credential

namespace EuWallet.Vci.Sample.Credential

open Codec Crypto Vci.Credential

def postponing : List (CredentialInput × CredentialEnvironment) :=
  [(.credentialResponse (answer (word 17) config.credentialEndpoint 202 pendingText), env 5 1005)]

def waiting : Context := { requested.context with lastNowEpochSeconds := 1005 }

theorem flowAfter_waiting : flowAfter platform start (requesting ++ postponing) =
    ⟨waiting, .deferred "later" 1015 zeroHash⟩ := by
  decide +kernel

def round (status : ℕ) (body : String) (i : ℕ) : Round where
  poll := env (6 + 2 * i) (1015 + 10 * i)
  sign := env (7 + 2 * i) (1015 + 10 * i)
  answer := env 0 (1015 + 10 * i)
  signature := signature
  response := answer (word (4 * (7 + 2 * i) + 1)) "https://issuer.example/deferred" status body
  interval := 10

theorem headers_congr {r r' : EndpointResponse} (hcontent : r.contentTypeHeaders = r'.contentTypeHeaders)
    (hcache : r.cacheControlHeaders = r'.cacheControlHeaders) (hpragma : r.pragmaHeaders = r'.pragmaHeaders)
    (hencoding : r.contentEncodingHeaders = r'.contentEncodingHeaders) (requireNoStore : Bool) :
    validateCommonResponseHeaders r requireNoStore = validateCommonResponseHeaders r' requireNoStore := by
  unfold validateCommonResponseHeaders
  rw [hcontent, hcache, hpragma, hencoding]

theorem headers_round (status : ℕ) (body : String) (i : ℕ) :
    validateCommonResponseHeaders (round status body i).response true = .ok () := by
  have hsame : validateCommonResponseHeaders (round status body i).response true =
      validateCommonResponseHeaders (answer (word 0) "" 0 "") true := headers_congr rfl rfl rfl rfl true
  rw [hsame]
  decide

theorem proper_round (status : ℕ) (body : String) (hbody : (utf8 body).length ≤ maxCredentialResponseBytes) (i : ℕ)
    (hi : i < 58) : (round status body i).Proper config (1015 + 10 * i) (1005 + 10 * i) where
  due := le_rfl
  positive := by simp only [round, env]; omega
  forward := by simp only [round, env]; omega
  alive := by
    intro now hnow
    have hnow : now = 1015 + 10 * i := by simpa [round, env] using hnow
    show validateTokenLifetime 1000 (some 600) now = .ok ()
    unfold validateTokenLifetime
    rw [if_neg (by omega)]
    exact if_neg (by omega)
  signed := rfl
  bound := ⟨rfl, rfl, rfl⟩
  small := hbody
  headers := headers_round status body i
  plain := ⟨rfl, rfl⟩

theorem polls_rounds (n i : ℕ) (h : i + n ≤ 58) : Round.Polls platform config "later" (1015 + 10 * i) (1005 + 10 * i)
    ((List.range' i n).map (round 202 pendingText)) := by
  induction n generalizing i with
  | zero => trivial
  | succ n ih =>
    refine ⟨proper_round 202 pendingText (by decide) i (by omega), ⟨rfl, ?_⟩, ?_⟩
    · show parseDeferredCredential platform (utf8 pendingText) = .ok ("later", 10)
      decide +kernel
    · have hrest := ih (i + 1) (by omega)
      have hnext : (1015 + 10 * (i + 1 : ℕ) : ℤ) = 1015 + 10 * i + 10 := by push_cast; ring
      have hclock : (1005 + 10 * (i + 1 : ℕ) : ℤ) = 1015 + 10 * i := by push_cast; ring
      rw [hnext, hclock] at hrest
      exact hrest

/-- Random values told apart by their numbers. -/
theorem newValues_words (used drawn : List ℕ) (hsmall : ∀ n ∈ drawn ++ used, 0 < n ∧ n < 256 ^ 32)
    (hnodup : drawn.Nodup) (hnew : ∀ n ∈ drawn, n ∉ used) : NewValues (used.map word) (drawn.map word) := by
  have hword : ∀ m n, m < 256 ^ 32 → n < 256 ^ 32 → word m = word n → m = n := by
    intro m n hm hn h
    exact Cbor.beBytes_injOn 32 hm hn (congrArg Subtype.val h)
  have hlow : ∀ n ∈ drawn, 0 < n ∧ n < 256 ^ 32 := fun n hn => hsmall n (List.mem_append_left _ hn)
  refine ⟨hnodup.map_on fun m hm n hn => hword m n (hlow m hm).2 (hlow n hn).2, fun value hvalue => ?_⟩
  obtain ⟨n, hn, rfl⟩ := List.mem_map.mp hvalue
  constructor
  · intro hzero
    have hn0 : n = 0 := hword n 0 (hlow n hn).2 (by decide) hzero
    exact absurd (hlow n hn).1 (by omega)
  · intro hused
    obtain ⟨m, hm, heq⟩ := List.mem_map.mp hused
    obtain rfl := hword m n (hsmall m (List.mem_append_right _ hm)).2 (hlow n hn).2 heq
    exact hnew m hn hm

theorem newValues_rounds : NewValues waiting.usedRandomValues
    (((List.range' 0 9).map (round 202 pendingText)).flatMap Round.draws) :=
  newValues_words [1, 5, 9, 13, 14, 17]
    ((List.range' 0 9).flatMap fun i => [4 * (6 + 2 * i) + 0 + 1, 4 * (6 + 2 * i) + 1 + 1, 4 * (7 + 2 * i) + 0 + 1])
    (by decide) (by decide) (by decide)

theorem fits_round (status : ℕ) (body : String) (i : ℕ) : (round status body i).Fits platform config none := by
  show (signingText platform _ _).utf8ByteSize ≤ maxSigningInputBytes
  have htext : ∀ header payload : Json, signingText platform header payload = "e30.e30" := by
    intro header payload
    show b64Encode (utf8 "\x7b\x7d") ++ "." ++ b64Encode (utf8 "\x7b\x7d") = _
    decide
  rw [htext]
  decide

end EuWallet.Vci.Sample.Credential

namespace EuWallet.Vci.Credential

open Sample Sample.Credential

open Codec Crypto

/-- One poll that is answered `202` and one that is answered `200`. -/
theorem polling_sample : (∃ due, (flowAfter platform start (requesting ++
        postponing ++ [round 202 pendingText 0].flatMap
          (Round.calls platform config none))).stage = .deferred "later" due zeroHash) ∧
      (flowAfter platform start (requesting ++ postponing ++ [round 202 pendingText 0].flatMap
          (Round.calls platform config none) ++ (round 200 issuedText 1).calls platform config
          none)).stage = .complete ⟨.dcSdJwt, utf8 credential, zeroHash⟩ := by
  have hiff := polling_iff platform config (env 0 1000)
    start _ begin_eq (requesting ++ postponing)
    waiting "later" 1015 zeroHash flowAfter_waiting
    [round 202 pendingText 0] (round 200 issuedText 1)
    (utf8 credential) (polls_rounds 1 0 (by omega))
    (proper_round 200 issuedText (by decide) 1 (by omega))
    ⟨rfl, by decide +kernel⟩ (by unfold NewValues; decide)
  refine hiff.2.mpr ⟨by decide, ?_, fits_round 200 issuedText 1⟩
  intro r hr
  obtain rfl := List.mem_singleton.mp hr
  exact ⟨fits_round 202 pendingText 0, by unfold Round.Representable; decide⟩

/-- The ninth poll of a flow fails, although every poll is made and answered as it should be, the token lives and
the random values are new. -/
theorem polling_stopped : begin config (env 0 1000) = .ok (start, .sendNonce ⟨word 1, config.nonceEndpoint⟩) ∧
      flowAfter platform start (requesting ++ postponing) = ⟨waiting, .deferred "later" 1015 zeroHash⟩ ∧
      Round.Polls platform config "later" 1015 1005 ((List.range' 0 9).map (round 202 pendingText)) ∧
      NewValues waiting.usedRandomValues (((List.range' 0 9).map (round 202 pendingText)).flatMap Round.draws) ∧
      ∃ e, (flowAfter platform start (requesting ++
        postponing ++ ((List.range' 0 9).map (round 202 pendingText)).flatMap
          (Round.calls platform config none))).stage = .failed e := by
  have hpolls := polls_rounds 9 0 (by omega)
  refine ⟨begin_eq, flowAfter_waiting, hpolls, newValues_rounds, ?_⟩
  rw [flowAfter_append, flowAfter_waiting]
  have hrounds := rounds_pending (c := waiting) platform "later" zeroHash _ hpolls
    (by decide) newValues_rounds (by decide)
  exact hrounds.2 fun haffords => absurd haffords.1 (by decide)

end EuWallet.Vci.Credential
