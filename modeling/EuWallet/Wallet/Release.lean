import EuWallet.Wallet.Sessions

/-! # What the end of a flow leaves

A presentation ends when its machine is aborted or done, an in-person presentation when its machine is
aborted or terminated. `VpReleased` and `ProximityReleased` say that the wallet is free again: the flow
is not active, its ephemeral data is gone and the shell was told to close. `Unreleased` lists the ends
after which it is not; every other end of every run releases the wallet (`run_ends_released`). -/

namespace EuWallet.Protocol

def Oid4vp.State.Ended : Oid4vp.State → Prop
  | .aborted _ | .done => True
  | .idle | .resolvingTrust _ | .requestValidated _ | .awaitingDeviceSignature _ | .presenting => False

/-- The proximity machine has ended. -/
def Iso18013.State.Ended : Iso18013.State → Prop
  | .aborted _ | .terminated => True
  | .idle | .engaged _ | .sessionEstablished _ | .signingResponse _ | .responded => False

end EuWallet.Protocol

namespace EuWallet.Wallet

open Codec Crypto Formats Lib Presenter Protocol
open Trust

namespace Core

/-! ### Ends -/

/-- The call takes the presentation machine to `Aborted` or `Done`. A refusal and a delivery are followed
by a reset or may be, so the state after the call does not show them; nor does it show that a request
began a flow when the one before it had ended alike. -/
inductive VpEnds (p : Platform) (k : Turn) : Prop
  | seen (ended : k.after.vp.Ended) (changed : k.after.vp ≠ k.before.vp)
  | malformed {b} (event : k.input.1 = .authorizationRequestReceived b)
      (available : k.before.auditLogAvailable = true)
      (capacity : k.before.log.canGuaranteeMaxEntry = true) (parsed : Oid4vp.parseRequest p b = none)
  | declined {req} (event : k.input.1 = .userDeclined) (vp : k.before.vp = .requestValidated req)
  | delivered (event : k.input.1 = .presentationDelivered) (vp : k.before.vp = .presenting)

/-- The presentation has let go of the wallet. -/
structure VpReleased (out : Core × List Effect) : Prop where
  inactive : out.1.active ≠ .presentation
  session : out.1.session = none
  closed : .close ∈ out.2

/-- The core and the input an event of an active proximity flow gives to `drive_proximity`. An engagement
is not among them: it starts an idle machine, which cannot end. -/
def proximityInput (c : Core) : Event → Option (Core × Iso18013.Input)
  | .proximityReaderEstablishment establishment =>
    some (match Iso18013.parseSessionEstablishment establishment with
      | .ok (eReaderKeyCose, data) =>
        ({ c with proximity := { c.proximity with pendingRequest := some data } },
          .readerEstablishment eReaderKeyCose)
      | .error _ => (c, .readerEstablishment []))
  | .proximityReaderTermination => some (c, .readerTermination)
  | .userConsented => some (c, .consentGranted)
  | .userDeclined => some (c, .consentDeclined)
  | .deviceSignatureProduced signature => some (c, .deviceSignatureProduced signature)
  | _ => none

structure ProximityEnds (p : Platform) (k : Turn) : Prop where
  active : k.before.active = .proximity
  ended : ∃ c input, k.before.proximityInput k.input.1 = some (c, input) ∧
    (c.advanceProximity p input).1.proximity.state.Ended ∧
    (c.advanceProximity p input).1.proximity.state ≠ k.before.proximity.state

/-- The proximity flow has let go of the wallet. -/
structure ProximityReleased (out : Core × List Effect) : Prop where
  inactive : out.1.active ≠ .proximity
  deviceKey : out.1.proximity.deviceKey = none
  cipher : out.1.proximity.cipher = none
  presentation : out.1.proximity.presentation = none
  closed : .close ∈ out.2

/-- What `RpCertChainResolved` tells the machine. -/
def resolvedTrust (p : Platform) (c : Core) (chain : List Bytes) (redirectUris : List String) :
    Oid4vp.ResolvedTrust :=
  let (registered, rpPublicKey, leafDnsSans) := c.resolveRp p chain
  ⟨registered, rpPublicKey, c.authenticatedRedirectUris redirectUris, leafDnsSans⟩

/-- The ends the facade does not clean up after. -/
inductive Unreleased (p : Platform) (c : Core) : Event → Prop
  | malformed {b} (parsed : Oid4vp.parseRequest p b = none) :
      Unreleased p c (.authorizationRequestReceived b)
  /-- A guard of the request fails. -/
  | untrusted {chain uris req} (vp : c.vp = .resolvingTrust req)
      (failed : Oid4vp.firstFailedGuard p (c.vpEnv (.rpTrustResolved (c.resolvedTrust p chain uris))) req
        (c.resolvedTrust p chain uris) ≠ none) : Unreleased p c (.rpCertChainResolved chain uris)
  /-- The user has consented, and the selection cannot be turned into presentations. -/
  | unbuildable {e req} (vp : c.vp = .requestValidated req)
      (event : e = .userConsented ∨
        ∃ uri httpStatus token chain, e = .statusListReceived uri httpStatus token chain)
      (failed : ∀ first rest, (c.selectCredentialsFor .consentGranted).mapM
        (Oid4vp.subPresentation p (c.vpEnv .consentGranted) req) ≠ some (first :: rest)) :
      Unreleased p c e
  | terminated (active : c.active = .proximity) : Unreleased p c .proximityReaderTermination

/-! ### Presentations -/

variable {p : Platform} {r : Entropy} {c : Core} {e : Event} {out : Core × List Effect} {effects : List Effect}

theorem userDeclined_of_validated {req : Oid4vp.AuthRequest} (hactive : c.active = .presentation)
    (hvp : c.vp = .requestValidated req) :
    c.userDeclined p r = (((c.noted c.pendingRpProvenance [] c.statusLists).withVp
      (.aborted .userDeclined)).resetFlow .presentation, [.close]) := by
  have hdrive : (c.noted c.pendingRpProvenance [] c.statusLists).drive p r .consentDeclined =
      ((c.noted c.pendingRpProvenance [] c.statusLists).withVp (.aborted .userDeclined), [.close]) := by
    generalize hout : (c.noted c.pendingRpProvenance [] c.statusLists).drive p r .consentDeclined = out
    have houtcome := drive_outcome p r (c.noted c.pendingRpProvenance [] c.statusLists) .consentDeclined
    rw [hout] at houtcome
    cases houtcome with
    | unchanged hvalidated => exact absurd hvp (hvalidated req)
    | declined => rfl
    | readmitted _ _ h | rejected _ h | aborted _ h => exact absurd rfl h
  have hself : ({ c with pendingStatusReferences := [] } : Core) =
      c.noted c.pendingRpProvenance [] c.statusLists := rfl
  unfold userDeclined
  rw [hself, hdrive]
  split
  · next h => cases hactive.symm.trans h
  · next h => cases hactive.symm.trans h
  · rfl

theorem presentationDelivered_of_presenting (hvp : c.vp = .presenting) :
    (∃ c', (c.withVp .done).recordPresentation p = (c', .ok ()) ∧
      c.presentationDelivered p r = (c'.finishFlow .presentation, [.close])) ∨
    ∃ c' error, (c.withVp .done).recordPresentation p = (c', .error error) ∧
      c.presentationDelivered p r = c'.auditLogFaultEffects .presentation := by
  unfold presentationDelivered
  rw [drive_presenting hvp]
  match hrecorded : (c.withVp .done).recordPresentation p with
  | (c', .ok ()) =>
    obtain ⟨log, latch, rfl⟩ := recordPresentation_eq hrecorded
    exact .inl ⟨_, rfl, rfl⟩
  | (c', .error error) =>
    refine .inr ⟨c', error, rfl, ?_⟩
    have hidle : (c'.auditLogFaultEffects .presentation).1.vp ≠ .done := by rintro ⟨⟩
    simp [if_neg hidle]

theorem VpReleased.abortPresentation {reason : Oid4vp.AbortReason} (hclosed : .close ∈ effects)
    : VpReleased ((c.abortPresentation reason).1, effects) :=
  ⟨by rintro ⟨⟩, rfl, hclosed⟩

theorem VpReleased.finishFlow (hclosed : .close ∈ effects) : VpReleased (c.finishFlow .presentation, effects) := by
  refine ⟨?_, rfl, hclosed⟩
  rw [active_finishFlow]
  split <;> simp_all

theorem VpReleased.terminateAuditedFlow {code message : String} :
    VpReleased (c.terminateAuditedFlow .presentation code message) := by
  refine ⟨?_, rfl, by simp [Core.terminateAuditedFlow, errorThenClose]⟩
  rw [active_terminateAuditedFlow]
  rintro ⟨⟩

structure Smooth (p : Platform) (c : Core) (input : Oid4vp.Input) : Prop where
  parsed : ∀ b, input = .authorizationRequest b → Oid4vp.parseRequest p b ≠ none
  trusted : ∀ trust req, input = .rpTrustResolved trust → c.vp = .resolvingTrust req →
    Oid4vp.firstFailedGuard p (c.vpEnv input) req trust = none
  built : ∀ req, input = .consentGranted → c.vp = .requestValidated req → ∃ first rest,
    (c.selectCredentialsFor .consentGranted).mapM
      (Oid4vp.subPresentation p (c.vpEnv .consentGranted) req) = some (first :: rest)
  queued : ∀ pending, c.vp = .awaitingDeviceSignature pending → pending.queue ≠ []

theorem DriveOutcome.released {input : Oid4vp.Input} (h : DriveOutcome p r c input out) (hsmooth : c.Smooth p input)
    (hinput : input ≠ .consentDeclined)
    (hundelivered : out.1.vp ≠ .done) (hended : out.1.vp.Ended) (hchanged : out.1.vp ≠ c.vp) :
    VpReleased out := by
  cases h with
  | unchanged | readmitted => exact absurd rfl hchanged
  | aborted _ _ hs => exact .abortPresentation (presentationErrorEffects_close hs)
  | abortedAtConsent _ _ hs =>
    exact .abortPresentation (List.mem_cons_of_mem _ (presentationErrorEffects_close hs))
  | malformed _ hparsed => exact absurd hparsed (hsmooth.parsed _ rfl)
  | untrusted hvp hfailed => cases (hsmooth.trusted _ _ rfl hvp).symm.trans hfailed
  | unbuildable hvp hfailed =>
    obtain ⟨first, rest, hbuilt⟩ := hsmooth.built _ rfl hvp
    exact absurd hbuilt (hfailed first rest)
  | declined => exact absurd rfl hinput
  | emptyQueue hvp hqueue => exact absurd hqueue (hsmooth.queued _ hvp)
  | delivered _ hrecorded =>
    obtain ⟨log, latch, rfl⟩ := recordPresentation_eq hrecorded
    exact absurd rfl hundelivered
  | rejected | received | validated | consented | signed | sent | unrecorded => exact hended.elim

theorem Selected.queued (h : c.Selected p) {pending : Oid4vp.PendingPresentation}
    (hvp : c.vp = .awaitingDeviceSignature pending) : pending.queue ≠ [] := by
  cases hs : c.session with
  | none => exact absurd hs (h.session (by rw [hvp]; trivial))
  | some s => exact (h.signing pending s hvp hs).waiting

theorem VpEvent.released (h : VpEvent p r c e out) (hselected : c.Selected p) (hclean : ¬ Unreleased p c e)
    (hchain : ∀ chain uris, e ≠ .rpCertChainResolved chain uris)
    (hended : out.1.vp.Ended) (hchanged : out.1.vp ≠ c.vp) : VpReleased out := by
  cases h with
  | noted | finished hvp => exact absurd rfl hchanged
  | aborted _ hs | stray _ hs => exact .abortPresentation (presentationErrorEffects_close hs)
  | @began b _ houtcome =>
    refine houtcome.released ⟨?_, by rintro _ _ ⟨⟩, by rintro _ ⟨⟩, by rintro _ ⟨⟩⟩ (by simp)
      (houtcome.not_done (by rintro ⟨⟩) (by rintro ⟨⟩)) hended ?_
    · rintro _ ⟨⟩ hparsed
      exact hclean (.malformed hparsed)
    · intro hidle
      rw [hidle] at hended
      exact hended
  | drove hdrives hprogress _ houtcome hundelivered =>
    refine houtcome.released ⟨?_, ?_, ?_, fun _ => hselected.queued⟩ ?_
      (houtcome.not_done hprogress.ne_done hundelivered) hended hchanged
    · rintro _ rfl
      cases hdrives
    · rintro _ _ rfl
      cases hdrives
      exact absurd rfl (hchain _ _)
    · rintro req rfl hvp
      by_contra hfailed
      push Not at hfailed
      refine hclean (.unbuildable hvp ?_ hfailed)
      cases hdrives with
      | consent => exact .inl rfl
      | status => exact .inr ⟨_, _, _, _, rfl⟩
    · rintro rfl
      cases hdrives
  | declined => exact hended.elim
  | delivered => exact .finishFlow (by simp)

theorem rpCertChainResolved_eq (chain : List Bytes) (uris : List String) : ∃ provenance,
    c.rpCertChainResolved p r chain uris = (c.noted provenance c.pendingStatusReferences c.statusLists).drive p r
      (.rpTrustResolved (c.resolvedTrust p chain uris)) := ⟨_, rfl⟩

/-- The end of a presentation at the resolution of the relying party. -/
theorem rpCertChainResolved_released {chain : List Bytes} {uris : List String} (hselected : c.Selected p)
    (hclean : ¬ Unreleased p c (.rpCertChainResolved chain uris))
    (hended : (c.rpCertChainResolved p r chain uris).1.vp.Ended)
    (hchanged : (c.rpCertChainResolved p r chain uris).1.vp ≠ c.vp) :
    VpReleased (c.rpCertChainResolved p r chain uris) := by
  obtain ⟨provenance, hdrive⟩ := rpCertChainResolved_eq chain uris
  rw [hdrive] at hended hchanged ⊢
  have houtcome := drive_outcome p r (c.noted provenance c.pendingStatusReferences c.statusLists)
    (.rpTrustResolved (c.resolvedTrust p chain uris))
  refine houtcome.released ⟨by rintro _ ⟨⟩, ?_, by rintro _ ⟨⟩, fun _ => hselected.queued⟩ (by simp) ?_
    hended hchanged
  · rintro _ req ⟨⟩ hvp
    by_contra hfailed
    exact hclean (.untrusted hvp hfailed)
  · by_cases hdone : c.vp = .done
    · rw [hdone] at hchanged
      exact hchanged
    · exact houtcome.not_done hdone (by rintro ⟨⟩)

/-! ### In person -/

theorem translateProximity_state (o : Iso18013.Output) :
    (c.translateProximity p o).1.proximity.state = c.proximity.state := by
  cases o with
  | emitDeviceEngagement | renderConsent | emitTermination => rfl
  | signDeviceAuth | emitDeviceResponse =>
    simp only [translateProximity]
    split <;> rfl

variable {input : Iso18013.Input} {c' : Core}

/-- The driver resets an aborted flow and closes. -/
theorem driveProximity_aborted {reason : Iso18013.AbortReason}
    (h : (c.advanceProximity p input).1.proximity.state = .aborted reason) :
    ProximityReleased (c.driveProximity p input) := by
  set translated := collect (translateProximity p) (c.advanceProximity p input).1
    (c.advanceProximity p input).2 with htranslated
  have hstate : translated.1.proximity.state = .aborted reason := by
    rw [← h]
    exact collect_rel (R := fun s t : Core => t.proximity.state = s.proximity.state) (fun _ => rfl)
      (fun h h' => h'.trans h) (fun _ => translateProximity_state) _ _
  have hdrive : c.driveProximity p input = (translated.1.resetFlow .proximity, ensureClose translated.2) := by
    simp [driveProximity, finishProximity, ← htranslated, hstate]
  rw [hdrive]
  refine ⟨active_resetFlow_ne _ (by simp), rfl, rfl, rfl, ?_⟩
  unfold ensureClose
  split
  · next hclose => simpa using hclose
  · simp

theorem prepareProximity_state (input : Iso18013.Input) :
    (c.prepareProximity p input).1.proximity.state = c.proximity.state := by
  cases input with
  | readerEstablishment =>
    simp only [prepareProximity]
    split <;> rfl
  | _ => rfl

theorem advanceProximity_terminated (h : (c.advanceProximity p input).1.proximity.state = .terminated)
    (hchanged : c.proximity.state ≠ .terminated) : input = .readerTermination := by
  have hstep : (Iso18013.step ⟨(c.prepareProximity p input).2, (c.prepareProximity p input).2, false, false,
      (c.prepareProximity p input).1.config.deviceKeyRef⟩ c.proximity.state input).1 = .terminated := by
    rw [← prepareProximity_state (p := p) input]
    exact h
  by_cases hwaits : ProximityAwaits c.proximity.state input
  · generalize c.proximity.state = state at *
    cases state <;> cases input <;> first | rfl | exact hwaits.elim | skip
    all_goals
      simp only [Iso18013.step] at hstep
      repeat' split at hstep
      all_goals cases hstep
  · rw [proximityStep_quiet hwaits] at hstep
    exact absurd hstep hchanged

theorem handleEvent_proximityInput (hactive : c.active = .proximity) (h : c.proximityInput e = some (c', input))
    : c.handleEvent p r e = c'.driveProximity p input := by
  cases e with
  | proximityReaderEstablishment establishment =>
    simp only [proximityInput, Option.some.injEq] at h
    change c.proximityReaderEstablishment p establishment = _
    unfold proximityReaderEstablishment
    split at h <;> cases h <;> simp_all
  | proximityReaderTermination =>
    cases h
    rfl
  | userConsented =>
    cases h
    change c.userConsented p r = _
    simp [userConsented, hactive]
  | userDeclined =>
    cases h
    change c.userDeclined p r = _
    simp [userDeclined, hactive]
  | deviceSignatureProduced signature =>
    cases h
    change c.deviceSignatureProduced p r signature = _
    simp [deviceSignatureProduced, hactive]
  | _ => cases h

theorem proximityInput_state (h : c.proximityInput e = some (c', input)) :
    c'.proximity.state = c.proximity.state := by
  cases e with
  | proximityReaderEstablishment establishment =>
    simp only [proximityInput, Option.some.injEq] at h
    split at h <;> cases h <;> rfl
  | proximityReaderTermination | userConsented | userDeclined | deviceSignatureProduced =>
    cases h
    rfl
  | _ => cases h

theorem proximityInput_termination (h : c.proximityInput e = some (c', .readerTermination))
    : e = .proximityReaderTermination := by
  cases e with
  | proximityReaderTermination => rfl
  | proximityReaderEstablishment establishment =>
    simp only [proximityInput, Option.some.injEq] at h
    split at h <;> cases h
  | _ => cases h

/-! ### Along runs -/

variable {k : Turn}

theorem VpEnds.released (h : VpEnds p k) (htaken : Taken p k) (hselected : k.before.Selected p)
    (hclean : ¬ Unreleased p k.before k.input.1) : VpReleased (k.after, k.outputs) := by
  have hresult := htaken.result
  cases h with
  | seen hended hchanged =>
    rcases htaken.outcome.seenFrom htaken.steady .presentation nofun with hevent | ⟨hforeign, -⟩
    · by_cases hchain : ∃ chain uris, k.input.1 = .rpCertChainResolved chain uris
      · obtain ⟨chain, uris, hchain⟩ := hchain
        rw [hchain] at hresult hclean
        have hresolved : k.before.rpCertChainResolved p k.input.2 chain uris = (k.after, k.outputs) := hresult
        have hreleased := rpCertChainResolved_released (r := k.input.2) hselected hclean
        rw [hresolved] at hreleased
        exact hreleased hended hchanged
      · push Not at hchain
        exact VpEvent.released hevent hselected hclean hchain hended hchanged
    · exfalso
      rcases hforeign.data with data | data <;> replace data := FlowData.presentation.inj data
      · exact hchanged data.1
      · have hidle : k.after.vp = .idle := data.1
        rw [hidle] at hended
        exact hended
  | malformed hevent _ _ hparsed =>
    rw [hevent] at hclean
    exact absurd (.malformed hparsed) hclean
  | declined hevent hvp =>
    have hactive := htaken.steady.vp.active (by rw [hvp]; trivial)
    rw [hevent] at hresult
    have hdeclined : k.before.userDeclined p k.input.2 = (k.after, k.outputs) := hresult
    rw [← hdeclined, userDeclined_of_validated hactive hvp]
    exact ⟨active_resetFlow_ne _ (by simp), rfl, by simp⟩
  | delivered hevent hvp =>
    rw [hevent] at hresult
    have hdelivered : k.before.presentationDelivered p k.input.2 = (k.after, k.outputs) := hresult
    rw [← hdelivered]
    obtain ⟨c', -, hfinished⟩ | ⟨c', error, -, hfailed⟩ :=
      presentationDelivered_of_presenting (p := p) (r := k.input.2) hvp
    · rw [hfinished]
      exact .finishFlow (by simp)
    · rw [hfailed]
      exact .terminateAuditedFlow

theorem ProximityEnds.released (h : ProximityEnds p k) (htaken : Taken p k)
    (hclean : ¬ Unreleased p k.before k.input.1) : ProximityReleased (k.after, k.outputs) := by
  obtain ⟨c', input, hinput, hended, hchanged⟩ := h.ended
  rw [← htaken.result, handleEvent_proximityInput h.active hinput]
  cases hstate : (c'.advanceProximity p input).1.proximity.state with
  | aborted reason => exact driveProximity_aborted hstate
  | terminated =>
    rw [← proximityInput_state hinput, hstate] at hchanged
    obtain rfl := advanceProximity_terminated hstate hchanged.symm
    rw [proximityInput_termination hinput] at hclean
    exact absurd (.terminated h.active) hclean
  | idle | engaged | sessionEstablished | signingResponse | responded =>
    rw [hstate] at hended
    exact hended.elim

/-- Every end that is not one of those lets go of the wallet. -/
theorem run_ends_released (hfresh : Provisioned p c) (inputs : List (Event × Entropy)) :
    Always (fun _ k => ¬ Unreleased p k.before k.input.1 → (VpEnds p k → VpReleased (k.after, k.outputs)) ∧
      (ProximityEnds p k → ProximityReleased (k.after, k.outputs))) (run p c inputs) := by
  refine run_invariant (fun _ c => c.Selected p) hfresh hfresh.selected
    (fun _ k htaken hselected => htaken.outcome.selected htaken.steady hselected) ?_ inputs
  exact fun _ k htaken hselected hclean =>
    ⟨fun h => h.released htaken hselected hclean, fun h => h.released htaken hclean⟩

end Core

open Wallet.Core Wallet.Sample

/-- The acknowledged delivery of the sample ends the presentation and lets go of the wallet. -/
theorem run_ends_released_sample : ∃ k ∈ run platform core inputs,
    VpEnds platform k ∧ VpReleased (k.after, k.outputs) := by
  have hdelivers : ∃ k ∈ run platform core inputs, k.input.1 = .presentationDelivered ∧ k.before.vp = .presenting := by
    decide
  obtain ⟨k, hk, hevent, hvp⟩ := hdelivers
  obtain ⟨pre, post, hrun⟩ := List.append_of_mem hk
  have hends : VpEnds platform k := .delivered hevent hvp
  refine ⟨k, hk, hends, (run_ends_released core_provisioned inputs pre k post hrun ?_).1 hends⟩
  rw [hevent]
  rintro (_ | _ | ⟨-, hconsent | ⟨_, _, _, _, hstatus⟩, -⟩)
  · cases hconsent
  · cases hstatus

namespace Terminated

/-- A platform that makes one key. -/
def platform : Platform := { (default : Platform) with
  generateP256 := fun _ => some ⟨[0], 4 :: List.replicate 64 0⟩ }

def engaged : Core := (Core.new "wallet" "device" 0).respond platform
  (.proximityEngagementRequested (List.replicate 16 0), []) |>.1

end Terminated

/-- A malformed request leaves the presentation active, and a termination by the reader leaves the
proximity flow active with its device key. -/
theorem run_ends_unreleased : (∃ k ∈ run default (.new "wallet" "device" 0) [(.authorizationRequestReceived [], [])],
      VpEnds default k ∧ ¬ VpReleased (k.after, k.outputs)) ∧ ∃ k ∈ run Terminated.platform (.new "wallet" "device" 0)
        [(.proximityEngagementRequested (List.replicate 16 0), []), (.proximityReaderTermination, [])],
      ProximityEnds Terminated.platform k ∧ ¬ ProximityReleased (k.after, k.outputs) := by
  refine ⟨⟨_, List.mem_singleton_self _, ?_, ?_⟩, ⟨_, List.mem_cons_of_mem _ (List.mem_singleton_self _), ?_, ?_⟩⟩
  · have haborted : ((Core.new "wallet" "device" 0).respond default
        (.authorizationRequestReceived [], [])).1.vp = .aborted .malformedRequest := by decide
    refine .seen ?_ ?_
    · rw [callOf_after, haborted]
      trivial
    · rw [callOf_after, haborted]
      rintro ⟨⟩
  · rintro ⟨hinactive, -, -⟩
    exact hinactive (by decide)
  · exact ⟨by decide, Terminated.engaged, .readerTermination, rfl, trivial, by decide⟩
  · rintro ⟨hinactive, -, -, -, -⟩
    exact hinactive (by decide)

end EuWallet.Wallet
