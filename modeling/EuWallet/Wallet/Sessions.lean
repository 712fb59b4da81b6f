import EuWallet.Wallet.Selection

/-! # What a call does to the presentation session

`VpMove` lists what a call of `handle_event` can do to the presentation machine, its session and the
nonces it has seen, whichever flow the event belongs to. The histories of presentations are told over
this list. -/

namespace EuWallet.Wallet

open Codec Crypto Formats Lib Presenter Protocol
open Trust

/-- The events that make `drive` capture the session of a validated request anew. -/
def Event.Recaptures : Event → Prop
  | .rpCertChainResolved _ _ | .deviceSignatureProduced _ | .presentationDelivered => True
  | _ => False

namespace Core

/-- What the outputs of a call say about presentations: lists are fetched and nonces stored. -/
def Unspoken (effects : List Effect) : Prop :=
  ∀ x ∈ effects, x.flow = some .presentation →
    (∃ uri, x = .fetchStatusList uri) ∨ ∃ nonce, x = .persistNonce nonce

/-- Where the session of a validated request comes from. -/
structure Captured (p : Platform) (c : Core) (req : Oid4vp.AuthRequest) (s : SessionInfo) : Prop where
  waits : c.vp = .resolvingTrust req ∨ c.vp = .requestValidated req
  admitted : ∃ c₀ s₀, Admitted p c₀ req s₀ ∧ c₀.log = c.log ∧ c₀.nowEpoch = c.nowEpoch ∧
    (s = s₀ ∨ s = s₀.shown p (sessionConsentScreen p s₀))

inductive VpMove (p : Platform) (r : Entropy) (c : Core) (e : Event) (c' : Core)
    (effects : List Effect) : Prop
  | still (vp : c'.vp = c.vp) (session : c'.session = c.session)
      (asks : c.MayAsk e c'.pendingStatusReferences) (nonces : c'.seenNonces = c.seenNonces)
      (unspoken : Unspoken effects)
  | ended (vp : ¬ c'.vp.InProgress) (nonces : ∃ spent, c'.seenNonces = c.seenNonces ++ spent)
      (unspoken : Unspoken effects) (session : c'.session = c.session ∨ c'.session = none)
  | received {b req} (event : e = .authorizationRequestReceived b)
      (parsed : Oid4vp.parseRequest p b = some req) (next : c'.vp = .resolvingTrust req)
      (references : c'.pendingStatusReferences = []) (nonces : c'.seenNonces = c.seenNonces)
      (emits : effects = [.resolveRpTrust req.clientId]) (session : c'.session = none)
  | readmitted {req s} (event : e.Recaptures) (vp : c.vp = .requestValidated req)
      (next : c'.vp = c.vp) (session : c'.session = some s) (nonce : s.nonce = req.nonce)
      (asks : c.MayAsk e c'.pendingStatusReferences)
      (nonces : c'.seenNonces = c.seenNonces) (emits : effects = []) (captured : Captured p c req s)
  | shown {chain uris trust req s} (event : e = .rpCertChainResolved chain uris)
      (vp : c.vp = .resolvingTrust req)
      (passed : Oid4vp.firstFailedGuard p (c.vpEnv (.rpTrustResolved trust)) req trust = none)
      (next : c'.vp = .requestValidated req) (nonce : s.nonce = req.nonce)
      (session : c'.session = some (s.shown p (sessionConsentScreen p s)))
      (asks : c.MayAsk e c'.pendingStatusReferences)
      (nonces : c'.seenNonces = c.seenNonces ++ [req.nonce])
      (emits : effects = [.persistNonce req.nonce, .render (.consent (sessionConsentScreen p s))])
      (captured : Captured p c req (s.shown p (sessionConsentScreen p s)))
  | consented {req first rest}
      (event : e = .userConsented ∨ c.pendingStatusReferences ≠ []) (vp : c.vp = .requestValidated req)
      (built : (c.selectCredentialsFor .consentGranted).mapM
        (Oid4vp.subPresentation p (c.vpEnv .consentGranted) req) = some (first :: rest))
      (clear : c'.presentationSensitiveAbortReason p = none)
      (next : c'.vp = .awaitingDeviceSignature ⟨first :: rest, [], req.state⟩)
      (session : c'.session = c.session) (nonces : c'.seenNonces = c.seenNonces)
      (emits : effects = [.sign c.config.deviceKeyRef first.signingInput])
  | signed {signature pending sub following rest} (event : e = .deviceSignatureProduced signature)
      (vp : c.vp = .awaitingDeviceSignature pending) (queue : pending.queue = sub :: following :: rest)
      (clear : c'.presentationSensitiveAbortReason p = none)
      (next : c'.vp = .awaitingDeviceSignature
        ⟨following :: rest, pending.done ++ [Oid4vp.complete signature sub], pending.state⟩)
      (session : c'.session = c.session) (nonces : c'.seenNonces = c.seenNonces)
      (emits : effects = [.sign c.config.deviceKeyRef following.signingInput])
  | sent {signature pending sub s b} (event : e = .deviceSignatureProduced signature)
      (vp : c.vp = .awaitingDeviceSignature pending) (queue : pending.queue = [sub])
      (session : c.session = some s) (next : c'.vp = .presenting)
      (answers : Answers p r c' s (pending.done ++ [Oid4vp.complete signature sub]) s.responseUri b)
      (nonces : c'.seenNonces = c.seenNonces)
      (emits : effects = [.http .openid4vpDirectPost s.responseUri b])

variable {p : Platform} {r : Entropy} {c : Core} {e : Event} {out : Core × List Effect}
  {reason : Oid4vp.AbortReason} {effects : List Effect} {req : Oid4vp.AuthRequest}

theorem Unspoken.of_ends (h : ∀ x ∈ effects, x.Ends) : Unspoken effects := by
  intro x hx hflow
  rw [(h x hx).flow_eq_none] at hflow
  cases hflow

theorem Unspoken.nil : Unspoken [] := .of_ends (by simp)

theorem Unspoken.errors {errors : List Effect} (h : presentationErrorEffects reason = some errors)
    : Unspoken errors :=
  .of_ends fun _ => presentationErrorEffects_ends h

theorem Unspoken.close : Unspoken [.close] := .of_ends (by simp [Effect.Ends])

theorem vpMove_of_abort {c' : Core} (hnonces : ∃ spent, c'.seenNonces = c.seenNonces ++ spent)
    (hunspoken : Unspoken effects) :
    VpMove p r c e (c'.abortPresentation reason).1 effects :=
  .ended (by rintro ⟨⟩) hnonces hunspoken (.inr rfl)

theorem seenNonces_resetFlow (c : Core) (g : ActiveFlow) : (c.resetFlow g).seenNonces = c.seenNonces := by
  cases g <;> rfl

theorem seenNonces_terminateAuditedFlow {code message : String} :
    (c.terminateAuditedFlow .presentation code message).1.seenNonces = c.seenNonces := by
  simp only [terminateAuditedFlow]
  split <;> simp only [seenNonces_resetFlow]

theorem vpMove_of_terminate {c' : Core} {code message : String} (hnonces : c'.seenNonces = c.seenNonces) :
    VpMove p r c e (c'.terminateAuditedFlow .presentation code message).1
      (c'.terminateAuditedFlow .presentation code message).2 := by
  refine .ended (by rintro ⟨⟩) ⟨[], ?_⟩ (.of_ends fun _ => errorThenClose_ends) (.inr ?_)
  · rw [seenNonces_terminateAuditedFlow, hnonces, List.append_nil]
  · unfold terminateAuditedFlow
    split <;> rfl

theorem Admitted.nonce {s : SessionInfo} (h : Admitted p c req s) : s.nonce = req.nonce := by
  obtain ⟨prepared, -, rfl, -⟩ := h.selection
  rfl

/-- The driver on a core that differs in notes only. -/
theorem DriveOutcome.move {input : Oid4vp.Input} {provenance references lists}
    (h : DriveOutcome p r (c.noted provenance references lists) input out) (hdrives : Drives c e input)
    (hprogress : c.vp.InProgress) (hasks : c.MayAsk e references)
    (hundelivered : input = .presentationDelivered → out.1.vp ≠ .done) : VpMove p r c e out.1 out.2 := by
  have hidle {s : Prop} (hvp : c.vp = .idle) : s := by
    rw [hvp] at hprogress
    exact hprogress.elim
  cases h with
  | unchanged => exact .still rfl rfl hasks rfl .nil
  | readmitted hvp hgranted hdeclined hadmitted =>
    refine .readmitted ?_ hvp rfl rfl hadmitted.nonce hasks rfl rfl ⟨.inr hvp, _, _, hadmitted, rfl, rfl, .inl rfl⟩
    cases hdrives <;> first | exact absurd rfl hgranted | trivial
  | rejected => exact vpMove_of_terminate rfl
  | aborted _ _ hs => exact vpMove_of_abort ⟨[], (List.append_nil _).symm⟩ (.errors hs)
  | @abortedAtConsent _ req _ _ _ _ hs =>
    refine vpMove_of_abort ⟨[req.nonce], rfl⟩ fun x hx hflow => ?_
    rcases List.mem_cons.mp hx with rfl | hx
    · exact .inr ⟨_, rfl⟩
    · exact Unspoken.errors hs x hx hflow
  | received hvp | malformed hvp => exact hidle hvp
  | untrusted hvp hfailed =>
    split
    · next hs => exact .ended (by rintro ⟨⟩) ⟨[], (List.append_nil _).symm⟩ (.errors hs) (.inr rfl)
    · exact .ended (by rintro ⟨⟩) ⟨[], (List.append_nil _).symm⟩ .nil (.inl rfl)
  | validated hvp hpassed hadmitted =>
    cases hdrives with
    | trust =>
      exact .shown rfl hvp hpassed rfl hadmitted.nonce rfl hasks rfl rfl ⟨.inl hvp, _, _, hadmitted, rfl, rfl, .inr rfl⟩
  | unbuildable _ _ hs | emptyQueue _ _ hs =>
    exact .ended (by rintro ⟨⟩) ⟨[], (List.append_nil _).symm⟩ (.errors hs) (.inr rfl)
  | consented hvp hbuilt hclear =>
    refine .consented ?_ hvp hbuilt ?_ rfl rfl rfl rfl
    · cases hdrives with
      | consent => exact .inl rfl
      | status hawaited => exact .inr hawaited
    · rw [← hclear]
      exact presentationSensitiveAbortReason_congr rfl rfl rfl rfl rfl
  | declined => cases hdrives
  | signed hvp hqueue hclear =>
    cases hdrives with
    | signature =>
      refine .signed rfl hvp hqueue ?_ rfl rfl rfl rfl
      rw [← hclear]
      exact presentationSensitiveAbortReason_congr rfl rfl rfl rfl rfl
  | sent hvp hqueue hsession hclear hposted =>
    cases hdrives with
    | signature =>
      refine .sent rfl hvp hqueue hsession rfl ⟨hsession, ?_, ⟨_, hposted⟩, rfl⟩ rfl rfl
      rw [← hclear]
      exact presentationSensitiveAbortReason_congr rfl rfl rfl rfl rfl
  | delivered _ hrecorded =>
    obtain ⟨log, latch, rfl⟩ := recordPresentation_eq hrecorded
    exact absurd rfl (hundelivered rfl)
  | unrecorded _ hfailed =>
    obtain ⟨log, latch, rfl⟩ := recordPresentation_eq hfailed
    exact vpMove_of_terminate rfl

theorem seenNonces_finishFlow (c : Core) (g : ActiveFlow) : (c.finishFlow g).seenNonces = c.seenNonces := by
  cases g <;> rfl

theorem seenNonces_beginFlow (c : Core) (g : ActiveFlow) : (c.beginFlow g).seenNonces = c.seenNonces := by
  simp only [beginFlow, markActive, seenNonces_resetFlow]
  split <;> simp only [seenNonces_resetFlow]

/-- The driver on a request: the machine is idle. -/
theorem DriveOutcome.move_of_began {b : Bytes}
    (h : DriveOutcome p r (c.beginFlow .presentation) (.authorizationRequest b) out) :
    VpMove p r c (.authorizationRequestReceived b) out.1 out.2 := by
  have hnonces : (c.beginFlow .presentation).seenNonces = c.seenNonces := seenNonces_beginFlow c _
  have hspent : ∃ spent, (c.beginFlow .presentation).seenNonces = c.seenNonces ++ spent :=
    ⟨[], by rw [hnonces, List.append_nil]⟩
  cases h with
  | unchanged => exact .ended (by rintro ⟨⟩) hspent .nil (.inr rfl)
  | received _ hparsed => exact .received rfl hparsed rfl rfl hnonces rfl rfl
  | malformed _ _ hs => exact .ended (by rintro ⟨⟩) hspent (.errors hs) (.inr rfl)
  | readmitted hvp => cases hvp
  | rejected hprogress | aborted hprogress => exact hprogress.elim

theorem VpEvent.move (h : VpEvent p r c e out) : VpMove p r c e out.1 out.2 := by
  cases h with
  | noted hfetches hasks =>
    exact .still rfl rfl hasks rfl fun x hx _ => .inl (hfetches x hx)
  | aborted _ hs | stray _ hs => exact vpMove_of_abort ⟨[], (List.append_nil _).symm⟩ (.errors hs)
  | began houtcome => exact houtcome.move_of_began
  | drove hdrives hprogress hasks houtcome hundelivered =>
    exact houtcome.move hdrives hprogress hasks hundelivered
  | declined =>
    refine .ended (by rintro ⟨⟩) ⟨[], ?_⟩ .close (.inr rfl)
    rw [seenNonces_resetFlow, List.append_nil]
    rfl
  | delivered _ hrecorded =>
    obtain ⟨log, latch, rfl⟩ := recordPresentation_eq hrecorded
    refine .ended (by rintro ⟨⟩) ⟨[], ?_⟩ .close (.inr rfl)
    rw [seenNonces_finishFlow, List.append_nil]
    rfl
  | finished hvp =>
    have hdone : (c.finishFlow .presentation).vp = .done := hvp
    refine .ended (by rw [hdone]; exact id) ⟨[], ?_⟩ .nil (.inr rfl)
    rw [seenNonces_finishFlow, List.append_nil]

/-- An event of another flow or of none. -/
theorem Foreign.move {stray : Prop} (h : Foreign stray .presentation c out.1)
    (hflow : ∀ x ∈ out.2, x.flow ≠ some .presentation) : VpMove p r c e out.1 out.2 := by
  have hunspoken : Unspoken out.2 := fun x hx hpresentation => absurd hpresentation (hflow x hx)
  have hstore := h.store
  replace hstore := StoreData.presentation.inj hstore
  cases h with
  | kept data =>
    replace data := FlowData.presentation.inj data
    obtain ⟨hvp, hsession, -, hreferences⟩ := data
    refine .still hvp hsession ?_ hstore.1 hunspoken
    rw [hreferences]
    exact .kept
  | dropped data =>
    replace data := FlowData.presentation.inj data
    refine .ended ?_ ⟨[], by rw [hstore.1, List.append_nil]⟩ hunspoken (.inr data.2.1)
    rw [data.1]
    exact id
  | orphaned _ hother => exact absurd rfl hother

theorem EventOutcome.move (hsteady : c.Steady) (h : EventOutcome p r c e out) : VpMove p r c e out.1 out.2 := by
  rcases h.seenFrom hsteady .presentation nofun with hevent | ⟨hforeign, hother⟩
  · exact VpEvent.move hevent
  · exact hforeign.move hother

/-! ### What a move tells of the session -/

variable {c' : Core} {s : SessionInfo} {url : String} {body : Bytes}

theorem Captured.frozen (h : Captured p c req s) : s.Frozen p := by
  obtain ⟨c₀, s₀, hadmitted, -, -, rfl | rfl⟩ := h.admitted
  · exact hadmitted.frozen
  · exact ⟨hadmitted.frozen.nonempty, hadmitted.frozen.sources⟩

theorem VpMove.session (h : VpMove p r c e c' effects) (hsession : c'.session = some s) :
    c.session = some s ∨ ∃ req, Captured p c req s ∧ c'.vp = .requestValidated req := by
  cases h with
  | still _ session | consented _ _ _ _ _ session | signed _ _ _ _ _ session =>
    exact .inl (session.symm.trans hsession)
  | ended _ _ _ session =>
    rcases session with session | session
    · exact .inl (session.symm.trans hsession)
    · cases session.symm.trans hsession
  | received _ _ _ _ _ _ session => cases session.symm.trans hsession
  | readmitted _ vp next session _ _ _ _ captured =>
    cases session.symm.trans hsession
    exact .inr ⟨_, captured, next.trans vp⟩
  | shown _ _ _ next _ session _ _ _ captured =>
    cases session.symm.trans hsession
    exact .inr ⟨_, captured, next⟩
  | sent _ _ _ session _ answers =>
    cases answers.session.symm.trans hsession
    exact .inl session

theorem VpMove.selected (h : VpMove p r c e c' effects) (hselected : c.Selected p) : c'.Selected p := by
  have hfrozen (s : SessionInfo) (hs : c'.session = some s) : s.Frozen p := by
    rcases h.session hs with hbefore | ⟨req, hcaptured, -⟩
    · exact hselected.frozen s hbefore
    · exact hcaptured.frozen
  cases h with
  | still vp session => exact hselected.congr vp session
  | ended vp => exact .of_unvalidated (fun h => vp h.inProgress) hfrozen
  | received _ _ next => exact .of_unvalidated (by rw [next]; exact id) hfrozen
  | readmitted _ vp next session =>
    refine ⟨fun _ => by simp [session], hfrozen, fun pending s hpending => ?_⟩
    cases vp.symm.trans (next.symm.trans hpending)
  | shown _ _ _ next _ session =>
    refine ⟨fun _ => by simp [session], hfrozen, fun pending s hpending => ?_⟩
    cases next.symm.trans hpending
  | consented _ vp built _ next session =>
    obtain ⟨s, hs⟩ := hselected.some_session (by rw [vp]; trivial)
    rw [selectCredentialsFor_consent hs] at built
    refine ⟨fun _ => by simp [session, hs], hfrozen, fun pending s' hpending hs' => ?_⟩
    cases next.symm.trans hpending
    cases hs.symm.trans (session.symm.trans hs')
    exact .start built
  | signed _ vp queue _ next session =>
    refine ⟨fun _ => by rw [session]; exact hselected.session (by rw [vp]; trivial), hfrozen, fun pending s hpending hs => ?_⟩
    cases next.symm.trans hpending
    exact (hselected.signing _ _ vp (session.symm.trans hs)).next queue
  | sent _ _ _ _ next answers =>
    refine ⟨fun _ => by simp [answers.session], hfrozen, fun pending s hpending => ?_⟩
    cases next.symm.trans hpending

/-- Only the last signature makes a call post, and then the call does nothing else. -/
theorem VpMove.post (h : VpMove p r c e c' effects) (hpost : Effect.http .openid4vpDirectPost url body ∈ effects) :
    ∃ signature pending sub s, c.vp = .awaitingDeviceSignature pending ∧ pending.queue = [sub] ∧
      c.session = some s ∧ c'.vp = .presenting ∧ effects = [.http .openid4vpDirectPost url body] ∧
      Answers p r c' s (pending.done ++ [Oid4vp.complete signature sub]) url body := by
  cases h with
  | still _ _ _ _ unspoken | ended _ _ unspoken =>
    obtain ⟨_, ⟨⟩⟩ | ⟨_, ⟨⟩⟩ := unspoken _ hpost rfl
  | received _ _ _ _ _ emits | readmitted _ _ _ _ _ _ _ emits | shown _ _ _ _ _ _ _ _ emits
  | consented _ _ _ _ _ _ _ emits | signed _ _ _ _ _ _ _ emits =>
    rw [emits] at hpost
    simp at hpost
  | sent _ vp queue session next answers _ emits =>
    rw [emits, List.mem_singleton] at hpost
    cases hpost
    exact ⟨_, _, _, _, vp, queue, session, next, emits, answers⟩

theorem EventOutcome.session (hsteady : c.Steady) (h : EventOutcome p r c e out) (hsession : out.1.session = some s) :
    c.session = some s ∨ ∃ req, Captured p c req s ∧ out.1.vp = .requestValidated req :=
  (h.move hsteady).session hsession

/-- Every call keeps the selection of the session. -/
theorem EventOutcome.selected (hsteady : c.Steady) (h : EventOutcome p r c e out) (hselected : c.Selected p) :
    out.1.Selected p := (h.move hsteady).selected hselected

end Core

open Wallet.Core Wallet.Sample

end EuWallet.Wallet
