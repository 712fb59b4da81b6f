import EuWallet.Protocol.Issuance
import EuWallet.Wallet.ServiceEvents

/-! # What an event can do to an issuance

The transitions of the issuance machine, the outcomes of `drive_issuance`, and those of the events that
make notes before or after it. -/

namespace EuWallet.Protocol.Oid4vci

/-- The machine waits for something. -/
def State.InProgress : State → Prop
  | .idle | .credentialIssued _ _ | .aborted _ => False
  | _ => True

/-- Every transition of the machine. -/
inductive Transition (p : Crypto.Platform) (env : Env) : State → Input → State × List Output → Prop
  | none {s i} : Transition p env s i (s, [])
  | refused {s i reason} : Transition p env s i (.aborted reason, [])
  | closed {s i reason} : Transition p env s i (.aborted reason, [.close])
  | reviewed {offer grant format} :
      Transition p env .idle (.credentialOffer offer) (.reviewingOffer grant format, [.reviewOffer format])
  | pushed {format} : Transition p env (.reviewingOffer .authorizationCode format) .acceptOffer
      (.offerParsed .authorizationCode format, [.pushPar])
  | prompted {format} : Transition p env (.reviewingOffer (.preAuthorized true) format) .acceptOffer
      (.awaitingTxCode format, [.promptTxCode])
  | preAuthorized {format} : Transition p env (.reviewingOffer (.preAuthorized false) format) .acceptOffer
      (.requestingToken format, [.requestToken])
  | opened {format pkceS256} : Transition p env (.offerParsed .authorizationCode format)
      (.parPushed pkceS256) (.authorizing format, [.openAuthBrowser])
  | authorized {format code} : Transition p env (.authorizing format) (.authCodeReturned code)
      (.requestingToken format, [.requestToken])
  | entered {format code} : Transition p env (.awaitingTxCode format) (.txCodeEntered code)
      (.requestingToken format, [.requestToken])
  | proving {format bound cNonce} (fresh : cNonce ∉ env.seenCNonces) :
      Transition p env (.requestingToken format) (.tokenResponse bound cNonce)
        (.provingPossession format
            (proofSigningInput p env.issuerId cNonce env.nowEpoch env.devicePublicKey),
          [.signProof env.deviceKeyRef (Codec.utf8
            (proofSigningInput p env.issuerId cNonce env.nowEpoch env.devicePublicKey))])
  | proved {format signed signature} :
      Transition p env (.provingPossession format signed) (.proofSignatureProduced signature)
        (.requestingCredential format,
          [.requestCredential (Codec.utf8 (signed ++ "." ++ Codec.b64Encode signature))])
  | issued {format credential} : Transition p env (.requestingCredential format)
      (.credentialResponse format credential true) (.credentialIssued format credential, [.close])

theorem Move.transition {p : Crypto.Platform} {env : Env} {state : State} {input : Input}
    {out : State × List Output} (h : Move p env state input out) : Transition p env state input out := by
  cases h with
  | stays => exact .none
  | refuses => exact .refused
  | closes | declines => exact .closed
  | reviews => exact .reviewed
  | pushes => exact .pushed
  | prompts => exact .prompted
  | requests => exact .preAuthorized
  | opens => exact .opened
  | returns => exact .authorized
  | enters => exact .entered
  | proves hfresh => exact .proving hfresh
  | signs => exact .proved
  | issues => exact .issued

theorem step_transition (p : Crypto.Platform) (env : Env) (state : State) (input : Input) :
    Transition p env state input (step p env state input) := (step_move p env state input).transition

end EuWallet.Protocol.Oid4vci

namespace EuWallet.Wallet

open Codec Crypto Formats Lib Presenter Protocol
open Trust

namespace Core

/-! ### The driver -/

def judged (p : Platform) (c : Core) : Core := { c with issuerTrustedCurrent := c.issuerIsCurrent p }

def withIssuance (c : Core) (issuance : Oid4vci.State) : Core := { c with issuance }

def withReview (c : Core) (hash : Hash32) : Core := { c with issuanceConsentHash := hash }

def issuanceEffect (c : Core) : Oid4vci.Output → Effect
  | .reviewOffer format => .render (c.offerScreen format)
  | .pushPar => .pushPar
  | .openAuthBrowser => .openAuthBrowser
  | .promptTxCode => .promptTxCode
  | .requestToken => .requestToken
  | .signProof keyRef signingInput => .sign keyRef signingInput
  | .requestCredential proofJwt => .requestCredential proofJwt
  | .close => .close

/-- Everything a call of `drive_issuance` can lead to. -/
inductive IssuanceOutcome (p : Platform) (c : Core) (input : Oid4vci.Input) : Core × List Effect → Prop
  /-- The audit entry of the issuance does not fit. -/
  | rejected {next} : IssuanceOutcome p c input
      (((c.judged p).withIssuance next).auditLogCandidateRejectionEffects .issuance)
  /-- The machine waits for the next answer. -/
  | moved {next outputs hash}
      (step : Oid4vci.Transition p (c.judged p).issuanceEnv c.issuance input (next, outputs))
      (waiting : next.InProgress ∨ next = .idle) :
      IssuanceOutcome p c input (((c.judged p).withIssuance next).withReview hash,
        (((c.judged p).withIssuance next).withReview hash).showPreparing p input
          (outputs.map (c.judged p).issuanceEffect))
  | aborted {reason effects}
      (ends : effects = [] ∨ effects = [.close] ∨ effects = credentialIssuanceRejectionEffects) :
      IssuanceOutcome p c input
        (((c.judged p).withIssuance (.aborted reason)).finishFlow .issuance, effects)
  /-- A credential that was issued before. -/
  | settled {format credential} (issuance : c.issuance = .credentialIssued format credential) :
      IssuanceOutcome p c input ((c.judged p).finishFlow .issuance,
        ((c.judged p).showPreparing p input []))
  | stored {format credential verified c' effects} (issuance : c.issuance = .requestingCredential format)
      (answer : input = .credentialResponse format credential true)
      (audit : c.log.checkAppend (c.issuanceEntry (formatName format)) = .ok ())
      (pending : c.pendingVerifiedCredential = some verified)
      (matching : verified.credential.format = format)
      (recorded : ((c.judged p).withIssuance (.credentialIssued format credential)).takeVerified.recordIssuance
        p (formatName format) = (c', .ok ()))
      (ends : ∃ screens, effects = screens ++ [.close] ∧
        ∀ x ∈ screens, ∃ document, x = .render (.issuanceReady document)) :
      IssuanceOutcome p c input ((c'.storeVerifiedCredential verified).finishFlow .issuance, effects)
  /-- The machine says issued, but there is nothing authenticated to store. -/
  | unstored {format credential} (issuance : c.issuance = .requestingCredential format)
      (answer : input = .credentialResponse format credential true) :
      IssuanceOutcome p c input
        ((((c.judged p).withIssuance (.credentialIssued format credential)).takeVerified.rejectIssued
          ).finishFlow .issuance, credentialIssuanceRejectionEffects)
  | unrecorded {format credential verified c' e} (issuance : c.issuance = .requestingCredential format)
      (answer : input = .credentialResponse format credential true)
      (audit : c.log.checkAppend (c.issuanceEntry (formatName format)) = .ok ())
      (pending : c.pendingVerifiedCredential = some verified)
      (failed : ((c.judged p).withIssuance (.credentialIssued format credential)).takeVerified.recordIssuance
        p (formatName format) = (c', .error e)) :
      IssuanceOutcome p c input (c'.auditLogFaultEffects .issuance)

section Driver
variable {p : Platform} {c : Core} {input : Oid4vci.Input} {format : Oid4vci.CredentialFormat}
  {reason : Oid4vci.AbortReason} {credential : Bytes}

theorem collect_translateIssuance : ∀ (outputs : List Oid4vci.Output) (hash : Hash32), ∃ hash',
    collect (translateIssuance p) (c.withReview hash) outputs = (c.withReview hash', outputs.map c.issuanceEffect)
  | [], hash => ⟨hash, rfl⟩
  | o :: outputs, hash => by
    have hone : ∃ hash', (c.withReview hash).translateIssuance p o = (c.withReview hash', [c.issuanceEffect o]) := by
      cases o <;> exact ⟨_, rfl⟩
    obtain ⟨hash', hone⟩ := hone
    obtain ⟨hash'', hrest⟩ := collect_translateIssuance outputs hash'
    refine ⟨hash'', ?_⟩
    rw [collect_cons, hone, hrest]
    rfl

theorem showPreparing_of_aborted (h : c.issuance = .aborted reason) (effects : List Effect)
    : c.showPreparing p input effects = effects := by
  unfold showPreparing
  split
  · rfl
  · next hne => exact absurd h (hne _)
  · rfl

/-- A machine that neither issued nor aborted only translates its outputs. -/
theorem completeIssuance_moved (before : Oid4vci.State) (input : Oid4vci.Input)
    (outputs : List Oid4vci.Output) (hwaiting : c.issuance.InProgress ∨ c.issuance = .idle) :
    ∃ hash, completeIssuance p before input c outputs =
      (c.withReview hash, (c.withReview hash).showPreparing p input (outputs.map c.issuanceEffect)) := by
  obtain ⟨hash, hcollect⟩ := collect_translateIssuance (p := p) (c := c) outputs c.issuanceConsentHash
  have hself : c.withReview c.issuanceConsentHash = c := rfl
  rw [hself] at hcollect
  refine ⟨hash, ?_⟩
  have hissuance : (c.withReview hash).issuance = c.issuance := rfl
  simp only [completeIssuance, hcollect, storeIfIssued, hissuance]
  cases hstate : c.issuance with
  | credentialIssued | aborted => simp [hstate, Oid4vci.State.InProgress] at hwaiting
  | idle | reviewingOffer | offerParsed | authorizing | awaitingTxCode | requestingToken
  | provingPossession | requestingCredential => simp [finishIssuance, hissuance, hstate]

theorem completeIssuance_aborted (before : Oid4vci.State) (input : Oid4vci.Input)
    {outputs : List Oid4vci.Output} (hstate : c.issuance = .aborted reason)
    (houtputs : outputs = [] ∨ outputs = [.close]) :
    ∃ effects, (effects = [] ∨ effects = [.close] ∨ effects = credentialIssuanceRejectionEffects) ∧
      completeIssuance p before input c outputs = (c.finishFlow .issuance, effects) := by
  have hcollect : collect (translateIssuance p) c outputs = (c, outputs.map c.issuanceEffect) := by
    rcases houtputs with rfl | rfl <;> rfl
  have hends : outputs.map c.issuanceEffect = [] ∨ outputs.map c.issuanceEffect = [.close] := by
    rcases houtputs with rfl | rfl
    · exact .inl rfl
    · exact .inr rfl
  simp only [completeIssuance, hcollect, storeIfIssued, hstate, finishIssuance, showPreparing_of_aborted hstate]
  refine ⟨_, ?_, rfl⟩
  split
  · exact hends.imp id .inl
  · split
    · exact .inr (.inl rfl)
    · exact .inr (.inr rfl)

theorem recordIssuance_issuance (format : String) : (c.recordIssuance p format).1.issuance = c.issuance := by
  unfold recordIssuance appendAuditEntry
  split <;> rfl

theorem storeVerifiedCredential_issuance (verified : AuthenticatedCredential) :
    (c.storeVerifiedCredential verified).issuance = c.issuance := by
  unfold storeVerifiedCredential
  split <;> rfl

/-- The first arrival in `CredentialIssued`. -/
theorem driveIssuance_issued (hissuance : c.issuance = .requestingCredential format)
    (haudit : c.log.checkAppend (c.issuanceEntry (formatName format)) = .ok ()) :
    IssuanceOutcome p c (.credentialResponse format credential true)
      (completeIssuance p c.issuance (.credentialResponse format credential true)
        ((c.judged p).withIssuance (.credentialIssued format credential)) [.close]) := by
  set c₁ := (c.judged p).withIssuance (.credentialIssued format credential) with hc₁
  have hstate : c₁.issuance = .credentialIssued format credential := rfl
  have hpending : c₁.pendingVerifiedCredential = c.pendingVerifiedCredential := rfl
  have hcollect : collect (translateIssuance p) c₁ [.close] = (c₁, [.close]) := rfl
  have hshow : c₁.showPreparing p (.credentialResponse format credential true) [.close] = [.close] := rfl
  have hbefore : isIssued c.issuance = false := by rw [hissuance]; rfl
  have hunstored : IssuanceOutcome p c (.credentialResponse format credential true)
      (c₁.takeVerified.rejectIssued.finishIssuance p c.issuance [.close]) := by
    have hfinish : c₁.takeVerified.rejectIssued.finishIssuance p c.issuance [.close] =
        (c₁.takeVerified.rejectIssued.finishFlow .issuance, credentialIssuanceRejectionEffects) := by
      rw [hissuance]
      rfl
    rw [hfinish]
    exact .unstored hissuance rfl
  simp only [completeIssuance, hcollect, hshow, storeIfIssued, hstate, hbefore, Bool.false_eq_true,
    if_false, storeIssued, hpending]
  cases hverified : c.pendingVerifiedCredential with
  | none => exact hunstored
  | some verified =>
    dsimp only
    by_cases hformat : verified.credential.format = format
    · rw [if_pos hformat]
      cases hrecord : c₁.takeVerified.recordIssuance p (formatName format) with
      | mk c' result =>
        cases result with
        | error e => exact .unrecorded hissuance rfl haudit hverified hrecord
        | ok =>
          have hrecorded := recordIssuance_issuance (p := p) (c := c₁.takeVerified) (formatName format)
          rw [hrecord] at hrecorded
          have hissued : (c'.storeVerifiedCredential verified).issuance =
              .credentialIssued format credential := by
            rw [storeVerifiedCredential_issuance]
            exact hrecorded
          simp only [finishIssuance, hissued, hbefore, Bool.false_eq_true, if_false]
          cases (c'.storeVerifiedCredential verified).issuanceDocumentSummary p .ready with
          | none => exact .stored hissuance rfl haudit hverified hformat hrecord ⟨[], rfl, by simp⟩
          | some document =>
            exact .stored hissuance rfl haudit hverified hformat hrecord
              ⟨[.render (.issuanceReady document)], rfl, by simp⟩
    · rw [if_neg hformat]
      exact hunstored

theorem driveIssuance_settled (hstate : c.issuance = .credentialIssued format credential) :
    IssuanceOutcome p c input (completeIssuance p c.issuance input
      ((c.judged p).withIssuance (.credentialIssued format credential)) []) := by
  have hself : (c.judged p).withIssuance (.credentialIssued format credential) = c.judged p := by
    rw [← hstate]
    rfl
  have hissued : (c.judged p).issuance = .credentialIssued format credential := hstate
  have hcomplete : completeIssuance p c.issuance input (c.judged p) [] =
      ((c.judged p).finishFlow .issuance, (c.judged p).showPreparing p input []) := by
    simp [completeIssuance, storeIfIssued, hissued, hstate, isIssued, finishIssuance]
  rw [hself, hcomplete]
  exact .settled hstate

theorem isSome_toOption {ε : Type} {x : Except ε Unit} : x.toOption.isSome = true ↔ x = .ok () := by
  cases x <;> simp [Except.toOption]

theorem driveIssuance_outcome (p : Platform) (c : Core) (input : Oid4vci.Input) :
    IssuanceOutcome p c input (c.driveIssuance p input) := by
  have htransition := Oid4vci.step_transition p (c.judged p).issuanceEnv c.issuance input
  have hadvance : c.advanceIssuance p input = ((c.judged p).withIssuance
      (Oid4vci.step p (c.judged p).issuanceEnv c.issuance input).1,
        (Oid4vci.step p (c.judged p).issuanceEnv c.issuance input).2) := rfl
  generalize Oid4vci.step p (c.judged p).issuanceEnv c.issuance input = stepped at htransition hadvance
  obtain ⟨next, outputs⟩ := stepped
  simp only [driveIssuance, hadvance]
  by_cases haccepted : ((c.judged p).withIssuance next).issuanceEntryAccepted = true
  · rw [if_neg (by simp [haccepted])]
    have hmoved (hwaiting : next.InProgress ∨ next = .idle) : IssuanceOutcome p c input
        (completeIssuance p c.issuance input ((c.judged p).withIssuance next) outputs) := by
      obtain ⟨hash, hcomplete⟩ := completeIssuance_moved (p := p)
        (c := (c.judged p).withIssuance next) c.issuance input outputs hwaiting
      rw [hcomplete]
      exact .moved htransition hwaiting
    have haborted {reason} (hnext : next = .aborted reason)
        (houtputs : outputs = [] ∨ outputs = [.close]) : IssuanceOutcome p c input
          (completeIssuance p c.issuance input ((c.judged p).withIssuance next) outputs) := by
      subst hnext
      obtain ⟨effects, hends, hcomplete⟩ := completeIssuance_aborted (p := p)
        (c := (c.judged p).withIssuance (.aborted reason)) c.issuance input rfl houtputs
      rw [hcomplete]
      exact .aborted hends
    obtain ⟨state, hstate⟩ : ∃ state, c.issuance = state := ⟨_, rfl⟩
    have hcases := htransition
    rw [hstate] at hcases
    cases hcases with
    | refused => exact haborted rfl (.inl rfl)
    | closed => exact haborted rfl (.inr rfl)
    | issued =>
      refine driveIssuance_issued hstate (isSome_toOption.mp ?_)
      exact haccepted
    | none =>
      cases next with
      | aborted => exact haborted rfl (.inl rfl)
      | credentialIssued format credential => exact driveIssuance_settled hstate
      | idle => exact hmoved (.inr rfl)
      | reviewingOffer | offerParsed | authorizing | awaitingTxCode | requestingToken
      | provingPossession | requestingCredential => exact hmoved (.inl trivial)
    | reviewed | pushed | prompted | preAuthorized | opened | authorized | entered | proving | proved =>
      exact hmoved (.inl trivial)
  · rw [if_pos (by simp [haccepted])]
    exact .rejected

theorem storeVerifiedCredential_conduct (c : Core) (a : AuthenticatedCredential) :
    Conduct .issuance c (c.storeVerifiedCredential a) := by
  unfold storeVerifiedCredential
  split <;> exact .ofIssuance

theorem IssuanceOutcome.conduct {out : Core × List Effect} (h : IssuanceOutcome p c input out)
    : Conduct .issuance c out.1 := by
  have hmoved (next) : Conduct .issuance c ((c.judged p).withIssuance next) := .ofIssuance
  have htaken (next) : Conduct .issuance c ((c.judged p).withIssuance next).takeVerified := .ofIssuance
  have hjudged : Conduct .issuance c (c.judged p) := .ofIssuance
  have hrecorded {c₁ c' : Core} {entry result} (h : c₁.appendAuditEntry p entry = (c', result)) :
      Conduct .issuance c₁ c' := by
    obtain ⟨log, latch, rfl⟩ := appendAuditEntry_eq h
    exact .ofIssuance
  cases h with
  | rejected => exact (hmoved _).trans .auditLogCandidateRejectionEffects
  | moved => exact (hmoved _).trans .ofIssuance
  | aborted => exact (hmoved _).trans .finishFlow
  | settled => exact hjudged.trans .finishFlow
  | unstored =>
    have hrejected (c₁ : Core) : Conduct .issuance c₁ c₁.rejectIssued := .ofIssuance
    exact ((htaken _).trans (hrejected _)).trans .finishFlow
  | stored _ _ _ _ _ hrecord =>
    exact (((htaken _).trans (hrecorded hrecord)).trans (storeVerifiedCredential_conduct _ _)).trans .finishFlow
  | unrecorded _ _ _ _ hfailed => exact ((htaken _).trans (hrecorded hfailed)).trans .auditLogFaultEffects

end Driver

/-! ### The events -/

def offering (p : Platform) (c : Core) (chain : List Bytes) (issuerId : String) : Core :=
  let c := { c.beginFlow .issuance with issuance := .idle, issuerCertChainCurrent := chain }
  let issuers := c.resolveCredentialIssuers p chain
  let identity := (issuers.head?.map (·.identity)).getD ""
  let consistent := issuerCandidatesAreConsistent issuers
  { c with
    issuerTrustedCurrent := !issuers.isEmpty && consistent && issuerId == identity
    issuerIdCurrent := identity
    issuerIdAssertionCurrent := issuerId
    issuerCandidatesCurrent := if consistent then issuers else []
    pendingVerifiedCredential := none
    lastCredentialIngestionError := none }

def received (c : Core) (verified : Option AuthenticatedCredential)
    (error : Option CredentialIngestionError) : Core :=
  { c with pendingVerifiedCredential := verified, lastCredentialIngestionError := error }

/-- The use of a nonce is written down once its proof is asked for. -/
def spendCNonce (c : Core) (cNonce : ℕ) : Core :=
  match c.issuance with
  | .provingPossession _ _ => { c with issSeenCNonces := pushNew c.issSeenCNonces cNonce }
  | _ => c

theorem spendCNonce_issuance (c : Core) (cNonce : ℕ) : (c.spendCNonce cNonce).issuance = c.issuance := by
  unfold spendCNonce
  split <;> rfl

inductive IssuanceDrives : Event → Oid4vci.Input → Prop
  | accepted : IssuanceDrives .credentialOfferAccepted .acceptOffer
  | declined : IssuanceDrives .credentialOfferDeclined .decline
  | pushed {pkceS256} : IssuanceDrives (.parPushed pkceS256) (.parPushed pkceS256)
  | authorized {code} : IssuanceDrives (.authorizationCodeReturned code) (.authCodeReturned code)
  | entered {code} : IssuanceDrives (.transactionCodeEntered code) (.txCodeEntered code)
  | signature {signature} :
      IssuanceDrives (.deviceSignatureProduced signature) (.proofSignatureProduced signature)

/-- Everything an event of the issuance flow can lead to. -/
inductive IssuanceEvent (p : Platform) (c : Core) : Event → Core × List Effect → Prop
  | drove {e input out} (drives : IssuanceDrives e input) (outcome : IssuanceOutcome p c input out) :
      IssuanceEvent p c e out
  | offered {offer chain issuerId out}
      (outcome : IssuanceOutcome p (c.offering p chain issuerId) (.credentialOffer offer) out) :
      IssuanceEvent p c (.credentialOfferReceived offer chain issuerId) out
  | token {bound cNonce c' effects}
      (outcome : IssuanceOutcome p c (.tokenResponse bound cNonce) (c', effects)) :
      IssuanceEvent p c (.tokenReceived bound cNonce) (c'.spendCNonce cNonce, effects)
  | received {format credential verified error input requested out}
      (issuance : c.issuance = .requestingCredential requested)
      (answers : input = .credentialResponseRejected ∨
        ∃ f authentic, input = .credentialResponse f credential authentic)
      (outcome : IssuanceOutcome p (c.received verified error) input out) :
      IssuanceEvent p c (.credentialReceived format credential) out
  | unexpected {format credential} (issuance : ∀ f, c.issuance ≠ .requestingCredential f) :
      IssuanceEvent p c (.credentialReceived format credential) c.rejectUnexpectedCredentialResponse

variable {p : Platform} {c : Core}

theorem issuanceEvent_of_drive {e : Event} {input : Oid4vci.Input} (hdrives : IssuanceDrives e input) :
    IssuanceEvent p c e (c.driveIssuance p input) := .drove hdrives (driveIssuance_outcome p c input)

theorem credentialOfferReceived_event (offer : Bytes) (chain : List Bytes) (issuerId : String) :
    IssuanceEvent p c (.credentialOfferReceived offer chain issuerId)
      (c.credentialOfferReceived p offer chain issuerId) := by
  exact .offered (driveIssuance_outcome p _ _)

theorem tokenReceived_event (bound : Bool) (cNonce : ℕ) :
    IssuanceEvent p c (.tokenReceived bound cNonce) (c.tokenReceived p bound cNonce) := by
  have houtcome := driveIssuance_outcome p c (.tokenResponse bound cNonce)
  unfold tokenReceived
  generalize c.driveIssuance p (.tokenResponse bound cNonce) = out at houtcome
  obtain ⟨c', effects⟩ := out
  have hspent : c'.spendCNonce cNonce = match c'.issuance with
      | .provingPossession _ _ => { c' with issSeenCNonces := pushNew c'.issSeenCNonces cNonce }
      | _ => c' := rfl
  have htoken : IssuanceEvent p c (.tokenReceived bound cNonce) (c'.spendCNonce cNonce, effects) :=
    .token houtcome
  rw [hspent] at htoken
  split at htoken <;> simp_all

theorem credentialReceived_event (format : String) (credential : Bytes) :
    IssuanceEvent p c (.credentialReceived format credential) (c.credentialReceived p format credential) := by
  have hdrive {verified error input requested} (hissuance : c.issuance = .requestingCredential requested)
      (hanswers : input = .credentialResponseRejected ∨
        ∃ f authentic, input = .credentialResponse f credential authentic) :
      IssuanceEvent p c (.credentialReceived format credential) ((c.received verified error).driveIssuance p input) :=
    .received hissuance hanswers (driveIssuance_outcome p _ _)
  unfold credentialReceived
  split
  · next hissuance =>
    split
    · exact hdrive hissuance (.inl rfl)
    · split
      · exact hdrive hissuance (.inr ⟨_, _, rfl⟩)
      · exact hdrive hissuance (.inr ⟨_, _, rfl⟩)
  · next hissuance => exact .unexpected hissuance

theorem rejectUnexpectedCredentialResponse_core (c : Core) : c.rejectUnexpectedCredentialResponse.1 =
        ((c.received none (some .malformedCredential)).withIssuance
          (.aborted .credentialInvalid)).finishFlow .issuance ∨ (c.active ≠ .issuance ∧
        c.rejectUnexpectedCredentialResponse.1 = c.received none (some .malformedCredential)) := by
  simp only [rejectUnexpectedCredentialResponse]
  split_ifs with hends
  · exact .inl rfl
  · simp only [Bool.or_eq_true, beq_iff_eq, not_or] at hends
    exact .inr ⟨hends.1, rfl⟩

theorem IssuanceEvent.conduct {e : Event} {out : Core × List Effect} (h : IssuanceEvent p c e out) :
    Conduct .issuance c out.1 := by
  have hreceived {verified error} : Conduct .issuance c (c.received verified error) := .ofIssuance
  cases h with
  | drove _ houtcome => exact houtcome.conduct
  | @offered _ chain issuerId _ houtcome =>
    have hoffering : Conduct .issuance (c.beginFlow .issuance) (c.offering p chain issuerId) := .ofIssuance
    exact (Conduct.beginFlow.trans hoffering).trans houtcome.conduct
  | token houtcome =>
    refine houtcome.conduct.trans ?_
    unfold spendCNonce
    split
    · exact .ofIssuance
    · exact .refl _
  | received _ _ houtcome => exact hreceived.trans houtcome.conduct
  | unexpected =>
    have hrejected (c₁ : Core) : Conduct .issuance c₁ (c₁.withIssuance (.aborted .credentialInvalid)) := .ofIssuance
    rcases rejectUnexpectedCredentialResponse_core c with h | ⟨-, h⟩
    · rw [h]
      exact (hreceived.trans (hrejected _)).trans .finishFlow
    · rw [h]
      exact hreceived

end Core

end EuWallet.Wallet
