import EuWallet.Lib.Except
import EuWallet.Lib.Run
import EuWallet.Protocol.Oid4vp
import Mathlib.Data.String.Basic

/-! # Runs of the presentation machine

The machine of `Oid4vp` is run from its idle state over inputs that each come with their own
environment. `History` says of every state which calls have led to it; it is kept by every step
(`history_step`), and a response that leaves the machine is read off it. -/

namespace EuWallet.Protocol.Oid4vp

open Codec Crypto Formats Lib

/-- What a step is given. The verifier and the digest of the environment are in the platform. -/
structure Stimulus where
  platform : Platform
  env : Env
  input : Input

abbrev Exchange := Call State Stimulus Output

def respond (s : State) (i : Stimulus) : State × List Output := step i.platform i.env s i.input

/-- The calls of a run from the idle state. -/
def exchanges (inputs : List Stimulus) : List Exchange := calls respond .idle inputs

/-! ### Guards -/

structure GuardsHold (p : Platform) (env : Env) (req : AuthRequest) (trust : ResolvedTrust) : Prop where
  registered : trust.registered = true
  responseMode : Guards.responseModeIsSupported req = true
  responseUriHttps : Guards.responseUriIsHttps p req = true
  responseUriRegistered : Guards.responseUriIsRegistered req trust = true
  encryptionMetadata : Guards.responseEncryptionMetadataIsValid req = true
  redirectUri : Guards.redirectUriIsRegistered req trust = true
  audience : req.audience = env.walletClientId
  nonce : req.nonce ∉ env.seenNonces
  signed : Guards.requestObjectIsSignedAndBound p req trust = true
  clientId : Guards.clientIdBindsToLeaf req trust = true

namespace Exchange

/-- The call changes nothing. -/
def Idles (k : Exchange) : Prop := k.after = k.before ∧ k.outputs = []

/-- The device signature a call hands over. -/
def signature (k : Exchange) : Option Bytes :=
  match k.input.input with
  | .deviceSignatureProduced sig => some sig
  | _ => none

/-- The signing inputs a call asks the device to sign. -/
def signingRequests (k : Exchange) : List Bytes :=
  k.outputs.filterMap fun
    | .signKeyBinding _ input => some input
    | _ => none

/-- The request that starts a session. -/
def Asks (k : Exchange) (req : AuthRequest) : Prop :=
  k.before = .idle ∧
    ∃ b, k.input.input = .authorizationRequest b ∧ parseRequest k.input.platform b = some req

/-- The relying party is resolved and passes every guard. -/
def Resolves (k : Exchange) (req : AuthRequest) : Prop :=
  k.before = .resolvingTrust req ∧
    ∃ trust, k.input.input = .rpTrustResolved trust ∧ GuardsHold k.input.platform k.input.env req trust

/-- The consent: each selected credential has its part of the response. -/
def Grants (k : Exchange) (req : AuthRequest) (subs : List SubPresentation) : Prop :=
  k.before = .requestValidated req ∧ k.input.input = .consentGranted ∧
    List.Forall₂ (fun selected sub => subPresentation k.input.platform k.input.env req selected = some sub)
      k.input.env.selectedCredentials subs

end Exchange

/-! ### Histories -/

/-- The calls up to the resolution of the relying party. -/
def Asked (pre : List Exchange) (req : AuthRequest) : Prop :=
  ∃ before ask asked, pre = before ++ ask :: asked ∧ Exchange.Asks ask req ∧
    ∀ k ∈ asked, Exchange.Idles k ∧ ∀ trust, k.input.input ≠ .rpTrustResolved trust

/-- The calls up to the consent. -/
def Validated (pre : List Exchange) (req : AuthRequest) : Prop :=
  ∃ opening resolve resolved, pre = opening ++ resolve :: resolved ∧ Asked opening req ∧
    Exchange.Resolves resolve req ∧
    ∀ k ∈ resolved, Exchange.Idles k ∧ k.input.input ≠ .consentGranted

structure Signs (subs : List SubPresentation) (grant : Exchange) (granted : List Exchange) : Prop where
  idle : ∀ k ∈ granted, Exchange.signature k = none → Exchange.Idles k
  requests : ∀ u v, granted = u ++ v → (grant :: u).flatMap Exchange.signingRequests =
    (subs.take ((u.filterMap Exchange.signature).length + 1)).map SubPresentation.signingInput

/-- The calls up to a state in which a signature is awaited. -/
structure Granted (pre : List Exchange) (grant : Exchange) (granted : List Exchange) (req : AuthRequest)
    (subs : List SubPresentation) : Prop where
  calls : ∃ opening, pre = opening ++ grant :: granted ∧ Validated opening req
  grants : Exchange.Grants grant req subs
  signs : Signs subs grant granted

section Steps
variable {pre : List Exchange} {req : AuthRequest} {k : Exchange}

theorem Asked.idle (h : Asked pre req) (hk : k.Idles)
    (hinput : ∀ trust, k.input.input ≠ .rpTrustResolved trust) : Asked (pre ++ [k]) req := by
  obtain ⟨before, ask, asked, rfl, hask, hasked⟩ := h
  refine ⟨before, ask, asked ++ [k], by simp, hask, fun x hx => ?_⟩
  rcases List.mem_append.mp hx with hx | hx
  · exact hasked x hx
  · rw [List.mem_singleton.mp hx]
    exact ⟨hk, hinput⟩

theorem Validated.idle (h : Validated pre req) (hk : k.Idles) (hinput : k.input.input ≠ .consentGranted) :
    Validated (pre ++ [k]) req := by
  obtain ⟨opening, resolve, resolved, rfl, hopening, hresolve, hresolved⟩ := h
  refine ⟨opening, resolve, resolved ++ [k], by simp, hopening, hresolve, fun x hx => ?_⟩
  rcases List.mem_append.mp hx with hx | hx
  · exact hresolved x hx
  · rw [List.mem_singleton.mp hx]
    exact ⟨hk, hinput⟩

variable {subs rest : List SubPresentation} {grant : Exchange} {granted : List Exchange} {sub : SubPresentation}

theorem Signs.start (hgrant : grant.signingRequests = (subs.take 1).map SubPresentation.signingInput) :
    Signs subs grant [] := by
  refine ⟨by simp, fun u v h => ?_⟩
  obtain ⟨rfl, -⟩ := List.append_eq_nil_iff.mp h.symm
  simpa using hgrant

/-- One more call, which asks for as many signatures as it hands over. -/
theorem Signs.concat (h : Signs subs grant granted) (hidle : k.signature = none → k.Idles)
    (hrequests : (grant :: (granted ++ [k])).flatMap Exchange.signingRequests =
      (subs.take (((granted ++ [k]).filterMap Exchange.signature).length + 1)).map
        SubPresentation.signingInput) : Signs subs grant (granted ++ [k]) := by
  refine ⟨fun x hx => ?_, fun u v huv => ?_⟩
  · rcases List.mem_append.mp hx with hx | hx
    · exact h.idle x hx
    · rwa [List.mem_singleton.mp hx]
  · rcases List.eq_nil_or_concat v with rfl | ⟨v, x, rfl⟩
    · rw [List.append_nil] at huv
      rwa [← huv]
    · rw [List.concat_eq_append, ← List.append_assoc] at huv
      exact h.requests u v (List.append_inj_left' huv rfl)

theorem Granted.concat (h : Granted pre grant granted req subs) (hsigns : Signs subs grant (granted ++ [k])) :
    Granted (pre ++ [k]) grant (granted ++ [k]) req subs := by
  obtain ⟨opening, rfl, hopening⟩ := h.calls
  exact ⟨⟨opening, by simp, hopening⟩, h.grants, hsigns⟩

end Steps

end EuWallet.Protocol.Oid4vp
