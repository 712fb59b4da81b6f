import EuWallet.Lib.Run
import EuWallet.Lib.Trail
import EuWallet.Protocol.Oid4vci

/-! # Runs of the issuance machine

The machine of `Oid4vci` is run from its idle state over inputs that each come with their own environment.
`Move` lists what a step can do, with the guards it has passed. `Story` says of every state which exchanges
have led to it: the state drops the grant, the nonce and the code, the story keeps them. -/

namespace EuWallet.Protocol.Oid4vci

open Codec Crypto Lib

/-! ### Moves -/

/-- What a step can do, and which guards let it. -/
inductive Move (p : Platform) (env : Env) : State → Input → State × List Output → Prop
  | stays {s i} : Move p env s i (s, [])
  | refuses {s i reason} (waiting : ∀ f c, s ≠ .credentialIssued f c) : Move p env s i (.aborted reason, [])
  | closes {s i reason} (waiting : ∀ f c, s ≠ .credentialIssued f c) : Move p env s i (.aborted reason, [.close])
  /-- A decline is heard in every state. -/
  | declines {s} : Move p env s .decline (.aborted .userDeclined, [.close])
  | reviews {offer grant format} (parsed : parseOffer p offer = some (grant, format))
      (trusted : env.issuerTrusted = true) :
      Move p env .idle (.credentialOffer offer) (.reviewingOffer grant format, [.reviewOffer format])
  | pushes {format} : Move p env (.reviewingOffer .authorizationCode format) .acceptOffer
      (.offerParsed .authorizationCode format, [.pushPar])
  | prompts {format} : Move p env (.reviewingOffer (.preAuthorized true) format) .acceptOffer
      (.awaitingTxCode format, [.promptTxCode])
  | requests {format} : Move p env (.reviewingOffer (.preAuthorized false) format) .acceptOffer
      (.requestingToken format, [.requestToken])
  | opens {format} : Move p env (.offerParsed .authorizationCode format) (.parPushed true)
      (.authorizing format, [.openAuthBrowser])
  | returns {format code} : Move p env (.authorizing format) (.authCodeReturned code)
      (.requestingToken format, [.requestToken])
  | enters {format code} (present : code ≠ []) : Move p env (.awaitingTxCode format) (.txCodeEntered code)
      (.requestingToken format, [.requestToken])
  | proves {format cNonce} (fresh : cNonce ∉ env.seenCNonces) (attested : env.proofKeyAttested = true) :
      Move p env (.requestingToken format) (.tokenResponse true cNonce)
        (.provingPossession format
            (proofSigningInput p env.issuerId cNonce env.nowEpoch env.devicePublicKey),
          [.signProof env.deviceKeyRef
            (utf8 (proofSigningInput p env.issuerId cNonce env.nowEpoch env.devicePublicKey))])
  | signs {format signed signature} :
      Move p env (.provingPossession format signed) (.proofSignatureProduced signature)
        (.requestingCredential format, [.requestCredential (utf8 (signed ++ "." ++ b64Encode signature))])
  | issues {format credential} (valid : validateIssuedCredential format credential = true) :
      Move p env (.requestingCredential format) (.credentialResponse format credential true)
        (.credentialIssued format credential, [.close])

section Step
variable {p : Platform} {env : Env}

theorem stepToken_move (format : CredentialFormat) (bound : Bool) (cNonce : ℕ) :
    Move p env (.requestingToken format) (.tokenResponse bound cNonce) (stepToken p env format bound cNonce) := by
  unfold stepToken
  split_ifs with hbound hfresh hattested
  · exact .refuses (by simp)
  · exact .refuses (by simp)
  · exact .refuses (by simp)
  · have hbound' : bound = true := by simpa [Guards.accessTokenIsBound] using hbound
    have hfresh' : cNonce ∉ env.seenCNonces := by simpa [Guards.cNonceIsFresh] using hfresh
    have hattested' : env.proofKeyAttested = true := by simpa [Guards.proofKeyIsAttested] using hattested
    rw [hbound']
    exact .proves hfresh' hattested'

theorem stepCredential_move (format got : CredentialFormat) (credential : Bytes) (issuerAuthenticated : Bool) :
    Move p env (.requestingCredential format) (.credentialResponse got credential issuerAuthenticated)
      (stepCredential format got credential issuerAuthenticated) := by
  unfold stepCredential
  split_ifs with hformat hauthentic
  · exact .closes (by simp)
  · exact .closes (by simp)
  · rw [not_or, not_not] at hformat
    obtain ⟨rfl, -⟩ := hformat
    rw [Bool.or_eq_true, not_or] at hauthentic
    have hauthenticated : issuerAuthenticated = true := by simpa using hauthentic.1
    have hvalid : validateIssuedCredential got credential = true := by simpa using hauthentic.2
    rw [hauthenticated]
    exact .issues hvalid

theorem step_move (p : Platform) (env : Env) (state : State) (input : Input) :
    Move p env state input (step p env state input) := by
  unfold step
  split
  · split
    · exact .refuses (by simp)
    · next grant format hparsed =>
      split_ifs with htrusted
      · exact .refuses (by simp)
      · exact .refuses (by simp)
      · exact .refuses (by simp)
      · exact .reviews hparsed (by simpa [Guards.issuerIsTrusted] using htrusted)
  · next grant format =>
    unfold stepAccept
    split
    · exact .pushes
    · exact .prompts
    · exact .requests
  · next format pkceS256 =>
    split_ifs with hpkce
    · exact .refuses (by simp)
    · have hpresent : pkceS256 = true := by simpa [Guards.pkceS256Present] using hpkce
      rw [hpresent]
      exact .opens
  · exact .returns
  · next format code =>
    split_ifs with hcode
    · exact .refuses (by simp)
    · exact .enters (by simpa [Guards.txCodeValid] using hcode)
  · exact stepToken_move _ _ _
  · exact .signs
  · exact stepCredential_move _ _ _ _
  · exact .closes (by simp)
  · exact .declines
  · exact .stays

end Step

/-! ### Runs -/

/-- One step of a run, with its environment and input. -/
abbrev Exchange := Call State (Env × Input) Output

def respond (p : Platform) (s : State) (i : Env × Input) : State × List Output := step p i.1 s i.2

/-- The steps of a run from the idle state. -/
def exchanges (p : Platform) (inputs : List (Env × Input)) : List Exchange := calls (respond p) .idle inputs

namespace Exchange

def Offers (p : Platform) (grant : HaipGrant) (format : CredentialFormat) (k : Exchange) : Prop :=
  ∃ offer, k.input.2 = .credentialOffer offer ∧ parseOffer p offer = some (grant, format) ∧
    k.input.1.issuerTrusted = true

def Accepts (k : Exchange) : Prop := k.input.2 = .acceptOffer

def PushesPar (k : Exchange) : Prop := k.input.2 = .parPushed true

def ReturnsCode (k : Exchange) : Prop := ∃ code, k.input.2 = .authCodeReturned code

def EntersCode (k : Exchange) : Prop := ∃ code, code ≠ [] ∧ k.input.2 = .txCodeEntered code

/-- The step is given a bound token with a nonce that was not seen, for a key that is attested. -/
def Token (env : Env) (cNonce : ℕ) (k : Exchange) : Prop :=
  k.input = (env, .tokenResponse true cNonce) ∧ cNonce ∉ env.seenCNonces ∧ env.proofKeyAttested = true

def Proof (signature : Bytes) (k : Exchange) : Prop := k.input.2 = .proofSignatureProduced signature

def Response (format : CredentialFormat) (credential : Bytes) (k : Exchange) : Prop :=
  k.input.2 = .credentialResponse format credential true

end Exchange

/-- What a grant asks for between the acceptance and the token. -/
def HaipGrant.phases : HaipGrant → List (Exchange → Prop)
  | .authorizationCode => [Exchange.PushesPar, Exchange.ReturnsCode]
  | .preAuthorized true => [Exchange.EntersCode]
  | .preAuthorized false => []

/-- The signing inputs that were handed to the device. -/
def signings (history : List Exchange) : List Bytes :=
  (history.flatMap (·.outputs)).filterMap fun output => match output with
    | .signProof _ input => some input
    | _ => none

/-- The proofs that were sent to the issuer. -/
def proofs (history : List Exchange) : List Bytes :=
  (history.flatMap (·.outputs)).filterMap fun output => match output with
    | .requestCredential proofJwt => some proofJwt
    | _ => none

/-- An offer was received, and after it the history goes through the phases. -/
def Went (p : Platform) (grant : HaipGrant) (format : CredentialFormat) (phases : List (Exchange → Prop))
    (history : List Exchange) : Prop :=
  Trail (Exchange.Offers p grant format) (fun _ => True) phases history

def tokenSigningInput (p : Platform) (env : Env) (cNonce : ℕ) : String :=
  proofSigningInput p env.issuerId cNonce env.nowEpoch env.devicePublicKey

def tokenProof (p : Platform) (env : Env) (cNonce : ℕ) (signature : Bytes) : Bytes :=
  utf8 (tokenSigningInput p env cNonce ++ "." ++ b64Encode signature)

/-- The whole protocol, in its order, with one proof that was signed and sent once. -/
def WentThrough (p : Platform) (format : CredentialFormat) (credential : Bytes) (history : List Exchange) : Prop :=
  ∃ grant env cNonce signature,
    Went p grant format (Exchange.Accepts :: grant.phases ++
      [Exchange.Token env cNonce, Exchange.Proof signature, Exchange.Response format credential]) history ∧
    signings history = [utf8 (tokenSigningInput p env cNonce)] ∧
    proofs history = [tokenProof p env cNonce signature]

/-- Nothing was signed and nothing sent. -/
def Silent (history : List Exchange) : Prop := signings history = [] ∧ proofs history = []

def Story (p : Platform) (history : List Exchange) : State → Prop
  | .idle => Silent history
  | .reviewingOffer grant format => Silent history ∧ Went p grant format [] history
  | .offerParsed grant format =>
    Silent history ∧ grant = .authorizationCode ∧ Went p grant format [Exchange.Accepts] history
  | .authorizing format =>
    Silent history ∧ Went p .authorizationCode format [Exchange.Accepts, Exchange.PushesPar] history
  | .awaitingTxCode format => Silent history ∧ Went p (.preAuthorized true) format [Exchange.Accepts] history
  | .requestingToken format =>
    Silent history ∧ ∃ grant, Went p grant format (Exchange.Accepts :: grant.phases) history
  | .provingPossession format input => ∃ grant env cNonce, input = tokenSigningInput p env cNonce ∧
      Went p grant format (Exchange.Accepts :: grant.phases ++ [Exchange.Token env cNonce]) history ∧
      signings history = [utf8 input] ∧ proofs history = []
  | .requestingCredential format => ∃ grant env cNonce signature,
      Went p grant format (Exchange.Accepts :: grant.phases ++
        [Exchange.Token env cNonce, Exchange.Proof signature]) history ∧
      signings history = [utf8 (tokenSigningInput p env cNonce)] ∧
      proofs history = [tokenProof p env cNonce signature]
  | .credentialIssued format credential => WentThrough p format credential history
  | .aborted _ => True

section Story
variable {p : Platform} {history : List Exchange} {k : Exchange} {s : State}

theorem signings_concat (history : List Exchange) (k : Exchange) :
    signings (history ++ [k]) = signings history ++ signings [k] := by
  simp [signings, List.filterMap_append]

theorem proofs_concat (history : List Exchange) (k : Exchange) :
    proofs (history ++ [k]) = proofs history ++ proofs [k] := by
  simp [proofs, List.filterMap_append]

theorem Went.advance {grant : HaipGrant} {format : CredentialFormat} {phases : List (Exchange → Prop)}
    {phase : Exchange → Prop} (h : Went p grant format phases history) (hphase : phase k) :
    Went p grant format (phases ++ [phase]) (history ++ [k]) :=
  Trail.advance h trivial hphase

theorem Silent.concat (h : Silent history) (hsignings : signings [k] = []) (hproofs : proofs [k] = []) :
    Silent (history ++ [k]) := by
  obtain ⟨hnone, hnone'⟩ := h
  refine ⟨?_, ?_⟩
  · rw [signings_concat, hnone, hsignings]
    rfl
  · rw [proofs_concat, hnone', hproofs]
    rfl

/-- A step that stays where it is and emits nothing. -/
theorem Story.keep (h : Story p history s) (hout : k.outputs = []) : Story p (history ++ [k]) s := by
  have hsignings : signings [k] = [] := by simp [signings, hout]
  have hproofs : proofs [k] = [] := by simp [proofs, hout]
  have hsame : signings (history ++ [k]) = signings history := by
    rw [signings_concat, hsignings, List.append_nil]
  have hsame' : proofs (history ++ [k]) = proofs history := by
    rw [proofs_concat, hproofs, List.append_nil]
  have hwent {grant : HaipGrant} {format : CredentialFormat} {phases : List (Exchange → Prop)}
      (hwent : Went p grant format phases history) : Went p grant format phases (history ++ [k]) :=
    Trail.keep hwent trivial
  have hsilent (hsilent : Silent history) : Silent (history ++ [k]) := hsilent.concat hsignings hproofs
  cases s with
  | idle => exact hsilent h
  | reviewingOffer | authorizing | awaitingTxCode => exact ⟨hsilent h.1, hwent h.2⟩
  | offerParsed => exact ⟨hsilent h.1, h.2.1, hwent h.2.2⟩
  | requestingToken =>
    obtain ⟨hquiet, grant, hpath⟩ := h
    exact ⟨hsilent hquiet, grant, hwent hpath⟩
  | provingPossession =>
    obtain ⟨grant, env, cNonce, hinput, hpath, hsigned, hnone⟩ := h
    exact ⟨grant, env, cNonce, hinput, hwent hpath, hsame.trans hsigned, hsame'.trans hnone⟩
  | requestingCredential | credentialIssued =>
    obtain ⟨grant, env, cNonce, signature, hpath, hsigned, hsent⟩ := h
    exact ⟨grant, env, cNonce, signature, hwent hpath, hsame.trans hsigned, hsame'.trans hsent⟩
  | aborted => trivial

theorem Story.step {env : Env} {input : Input} {out : State × List Output} (h : Story p history s)
    (hmove : Move p env s input out) : Story p (history ++ [⟨s, (env, input), out.2, out.1⟩]) out.1 := by
  cases hmove with
  | stays => exact h.keep rfl
  | refuses | closes | declines => trivial
  | reviews hparsed htrusted =>
    have hsilent : Silent history := h
    exact ⟨hsilent.concat rfl rfl, Trail.begin ⟨_, rfl, hparsed, htrusted⟩⟩
  | pushes => exact ⟨h.1.concat rfl rfl, rfl, h.2.advance rfl⟩
  | prompts => exact ⟨h.1.concat rfl rfl, h.2.advance rfl⟩
  | requests => exact ⟨h.1.concat rfl rfl, _, h.2.advance rfl⟩
  | opens => exact ⟨h.1.concat rfl rfl, h.2.2.advance rfl⟩
  | returns => exact ⟨h.1.concat rfl rfl, .authorizationCode, h.2.advance ⟨_, rfl⟩⟩
  | enters hpresent => exact ⟨h.1.concat rfl rfl, .preAuthorized true, h.2.advance ⟨_, hpresent, rfl⟩⟩
  | @proves format cNonce hfresh hattested =>
    obtain ⟨⟨hsigned, hsent⟩, grant, hpath⟩ := h
    refine ⟨grant, env, cNonce, rfl, hpath.advance ⟨rfl, hfresh, hattested⟩, ?_, ?_⟩
    · rw [signings_concat, hsigned]
      rfl
    · rw [proofs_concat, hsent]
      rfl
  | @signs format signed signature =>
    obtain ⟨grant, env', cNonce, rfl, hpath, hsigned, hsent⟩ := h
    refine ⟨grant, env', cNonce, signature, ?_, ?_, ?_⟩
    · have hphases : Exchange.Accepts :: grant.phases ++ [Exchange.Token env' cNonce, Exchange.Proof signature] =
          (Exchange.Accepts :: grant.phases ++ [Exchange.Token env' cNonce]) ++ [Exchange.Proof signature] := by simp
      rw [hphases]
      exact hpath.advance rfl
    · rw [signings_concat, hsigned]
      rfl
    · rw [proofs_concat, hsent]
      rfl
  | @issues format credential =>
    obtain ⟨grant, env', cNonce, signature, hpath, hsigned, hsent⟩ := h
    refine ⟨grant, env', cNonce, signature, ?_, ?_, ?_⟩
    · have hphases : Exchange.Accepts :: grant.phases ++ [Exchange.Token env' cNonce, Exchange.Proof signature,
            Exchange.Response format credential] =
          (Exchange.Accepts :: grant.phases ++ [Exchange.Token env' cNonce, Exchange.Proof signature]) ++
            [Exchange.Response format credential] := by simp
      rw [hphases]
      exact hpath.advance rfl
    · rw [signings_concat, hsigned]
      rfl
    · rw [proofs_concat, hsent]
      rfl

end Story

/-- An issuer that is trusted, a key that is attested. -/
def Env.sample : Env := ⟨true, true, [], "device", [], "https://issuer.example", 10⟩

/-- A platform on which every offer is one of a mobile document with a code the wallet has. -/
def samplePlatform : Platform := { (default : Platform) with
  parseJson := fun _ => some (.obj [("format", .str "mso_mdoc"), ("grant", .str "pre-authorized")]) }

/-- The shortest way to a credential, with a step in it that changes nothing. -/
def sampleInputs : List (Env × Input) := [(Env.sample, .credentialOffer []), (Env.sample, .acceptOffer),
  (Env.sample, .parPushed true), (Env.sample, .tokenResponse true 1), (Env.sample, .proofSignatureProduced [7]),
  (Env.sample, .credentialResponse .msoMdoc [5] true)]

example : (exchanges samplePlatform sampleInputs).getLast?.map (·.after) = some (.credentialIssued .msoMdoc [5]) := by
  decide

end EuWallet.Protocol.Oid4vci
