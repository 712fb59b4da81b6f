import EuWallet.Wallet.Presentation

/-! # What an event can do to a presentation

`VpOwned` ties the presentation machine to the active-flow marker and to the session record. Under it,
`VpEvent` lists what the events of the presentation flow lead to: the notes an event makes before it
drives the machine, then an outcome of the driver, then what the event cleans up. -/

namespace EuWallet.Wallet

open Codec Crypto Formats Lib Presenter Protocol
open Trust

namespace Core

/-! ### The machine and the marker -/

structure VpOwned (c : Core) : Prop where
  active : c.vp.InProgress → c.active = .presentation
  session : c.session ≠ none → c.vp.Validated
  settled : c.vp ≠ .aborted .userDeclined

/-- What an event writes down before it drives the machine. -/
def noted (c : Core) (provenance : Option RelyingPartyProvenance) (references : List StatusReference)
    (lists : List (String × CachedStatusList)) : Core :=
  { c with
    pendingRpProvenance := provenance, pendingStatusReferences := references, statusLists := lists }

variable {c : Core} {provenance : Option RelyingPartyProvenance} {references : List StatusReference}
  {lists : List (String × CachedStatusList)}

@[simp] theorem noted_vp : (c.noted provenance references lists).vp = c.vp := rfl
@[simp] theorem noted_session : (c.noted provenance references lists).session = c.session := rfl
@[simp] theorem noted_active : (c.noted provenance references lists).active = c.active := rfl
@[simp] theorem noted_environment : (c.noted provenance references lists).environment = c.environment := rfl

def MayAsk (c : Core) (e : Event) (references : List StatusReference) : Prop :=
  references ≠ [] → c.pendingStatusReferences ≠ [] ∨ (e = .userConsented ∧ c.session ≠ none)

inductive Drives (c : Core) : Event → Oid4vp.Input → Prop
  | trust {chain uris resolved} : Drives c (.rpCertChainResolved chain uris) (.rpTrustResolved resolved)
  | consent : Drives c .userConsented .consentGranted
  | status {uri httpStatus token chain} (awaited : c.pendingStatusReferences ≠ []) :
      Drives c (.statusListReceived uri httpStatus token chain) .consentGranted
  | signature {signature} :
      Drives c (.deviceSignatureProduced signature) (.deviceSignatureProduced signature)
  | delivery : Drives c .presentationDelivered .presentationDelivered

inductive VpEvent (p : Platform) (r : Entropy) (c : Core) : Event → Core × List Effect → Prop
  /-- Notes only; status lists may be asked for. -/
  | noted {e provenance references lists effects}
      (fetches : ∀ x ∈ effects, ∃ uri, x = .fetchStatusList uri) (asks : c.MayAsk e references) :
      VpEvent p r c e (c.noted provenance references lists, effects)
  /-- The facade ends the active presentation before the machine is driven. -/
  | aborted {e lists reason errors} (active : c.active = .presentation)
      (surfaced : presentationErrorEffects reason = some errors) :
      VpEvent p r c e (((c.noted none [] lists).abortPresentation reason).1, errors)
  /-- A status list nobody waits for: there is no session, and the marker is cleared all the same. -/
  | stray {uri httpStatus token chain errors} (active : c.active ≠ .presentation)
      (surfaced : presentationErrorEffects .presentationTrustInvalid = some errors) :
      VpEvent p r c (.statusListReceived uri httpStatus token chain)
        ((c.abortPresentation .presentationTrustInvalid).1, errors)
  | began {b out}
      (outcome : DriveOutcome p r (c.beginFlow .presentation) (.authorizationRequest b) out) :
      VpEvent p r c (.authorizationRequestReceived b) out
  | drove {e input provenance references lists out} (drives : Drives c e input)
      (inProgress : c.vp.InProgress) (asks : c.MayAsk e references)
      (outcome : DriveOutcome p r (c.noted provenance references lists) input out)
      (undelivered : input = .presentationDelivered → out.1.vp ≠ .done) : VpEvent p r c e out
  | declined {req provenance lists} (vp : c.vp = .requestValidated req) :
      VpEvent p r c .userDeclined
        (((c.noted provenance [] lists).withVp (.aborted .userDeclined)).resetFlow .presentation,
          [.close])
  | delivered {c'} (vp : c.vp = .presenting)
      (recorded : (c.withVp .done).recordPresentation p = (c', .ok ())) :
      VpEvent p r c .presentationDelivered (c'.finishFlow .presentation, [.close])
  /-- A second acknowledgement. -/
  | finished (vp : c.vp = .done) :
      VpEvent p r c .presentationDelivered (c.finishFlow .presentation, [])

/-! ### Each event -/

variable {p : Platform} {r : Entropy}

variable {input : Oid4vp.Input} {e : Event} {reason : Oid4vp.AbortReason} {out : Core × List Effect}
  {errors : List Effect}

/-- A machine that waits for nothing has no transition but the first. -/
theorem drive_of_not_inProgress (h : ¬ c.vp.InProgress)
    (hrequest : ∀ b, input ≠ .authorizationRequest b) : c.drive p r input = (c, []) := by
  have hvp {s : Oid4vp.State} (hs : c.vp = s) (hprogress : s.InProgress) : False := h (hs ▸ hprogress)
  generalize hout : c.drive p r input = out
  have houtcome := drive_outcome p r c input
  rw [hout] at houtcome
  cases houtcome with
  | unchanged => rfl
  | received | malformed => exact absurd rfl (hrequest _)
  | rejected hprogress | aborted hprogress => exact absurd hprogress h
  | readmitted hs | abortedAtConsent hs | untrusted hs | validated hs | unbuildable hs | consented hs
  | declined hs | emptyQueue hs | signed hs | sent hs | delivered hs | unrecorded hs =>
    exact (hvp hs trivial).elim

theorem MayAsk.kept : c.MayAsk e c.pendingStatusReferences := fun h => .inl h

theorem MayAsk.none : c.MayAsk e [] := fun h => absurd rfl h

theorem vpEvent_of_notes : VpEvent p r c e (c, []) := by
  have hnoted : VpEvent p r c e (c.noted c.pendingRpProvenance c.pendingStatusReferences c.statusLists, []) :=
    .noted (by simp) .kept
  exact hnoted

theorem vpEvent_of_outcome (hdrives : Drives c e input) (hprogress : c.vp.InProgress)
    (houtcome : DriveOutcome p r c input out)
    (hundelivered : input = .presentationDelivered → out.1.vp ≠ .done) : VpEvent p r c e out := by
  exact .drove hdrives hprogress .kept houtcome hundelivered

/-- A driven event, whether or not the machine waits for it. -/
theorem vpEvent_of_drive {provenance references lists} (hdrives : Drives c e input) (hasks : c.MayAsk e references)
    (hundelivered : input = .presentationDelivered → c.vp.InProgress → ((c.noted provenance references lists).drive p r input).1.vp ≠ .done)
    : VpEvent p r c e ((c.noted provenance references lists).drive p r input) := by
  by_cases hprogress : c.vp.InProgress
  · exact .drove hdrives hprogress hasks (drive_outcome p r _ input) fun h => hundelivered h hprogress
  · have hquiet : (c.noted provenance references lists).drive p r input =
        (c.noted provenance references lists, []) :=
      drive_of_not_inProgress hprogress (by rintro b rfl; cases hdrives)
    rw [hquiet]
    exact .noted (by simp) hasks

theorem rpCertChainResolved_event (chain : List Bytes) (uris : List String) :
    VpEvent p r c (.rpCertChainResolved chain uris) (c.rpCertChainResolved p r chain uris) := by
  have hdrive {provenance resolved} : VpEvent p r c (.rpCertChainResolved chain uris)
      ((c.noted provenance c.pendingStatusReferences c.statusLists).drive p r
        (.rpTrustResolved resolved)) := vpEvent_of_drive .trust .kept (by simp)
  exact hdrive

theorem vpEvent_of_abort {provenance references lists} (hactive : c.active = .presentation)
    (herrors : presentationErrorEffects reason = some errors) :
    VpEvent p r c e ((c.noted provenance references lists).abortPresentation reason) := by
  rw [abortPresentation_eq herrors]
  exact .aborted hactive herrors

theorem statusBlock_surfaced (revoked : Bool) : ∃ errors, presentationErrorEffects
    (if revoked then .credentialStatusInvalid else .credentialStatusUnavailable) = some errors := by
  cases revoked <;> exact ⟨_, rfl⟩

theorem vpEvent_of_statusBlock {revoked : Bool} {provenance references lists} (hactive : c.active = .presentation) :
    VpEvent p r c e ((c.noted provenance references lists).statusBlockEffects revoked) := by
  obtain ⟨errors, herrors⟩ := statusBlock_surfaced revoked
  exact vpEvent_of_abort hactive herrors

theorem consentAfterStatus_event (hactive : c.active = .presentation) (hsession : c.session ≠ none) :
    VpEvent p r c .userConsented (c.consentAfterStatus p r) := by
  have hdrive : VpEvent p r c .userConsented
      ((c.noted c.pendingRpProvenance [] c.statusLists).drive p r .consentGranted) :=
    vpEvent_of_drive .consent .none (by simp)
  have hblock (revoked : Bool) : VpEvent p r c .userConsented
      ((c.noted c.pendingRpProvenance c.pendingStatusReferences c.statusLists).statusBlockEffects
        revoked) := vpEvent_of_statusBlock hactive
  unfold consentAfterStatus
  split
  · exact hdrive
  · next all uris _ =>
    have hnoted : VpEvent p r c .userConsented
        (c.noted c.pendingRpProvenance all c.statusLists, uris.map .fetchStatusList) := by
      refine .noted (fun x hx => ?_) fun _ => .inr ⟨rfl, hsession⟩
      obtain ⟨uri, -, rfl⟩ := List.mem_map.mp hx
      exact ⟨uri, rfl⟩
    exact hnoted
  · exact hblock true
  · exact hblock false

theorem userConsented_event (hproximity : c.active ≠ .proximity) (hdcapi : c.active ≠ .dcApi) :
    VpEvent p r c .userConsented (c.userConsented p r) := by
  unfold userConsented
  split
  · contradiction
  · contradiction
  · next hactive =>
    split
    · next e _ =>
      obtain ⟨errors, herrors⟩ := eligibilityAbortReason_surfaced e
      have habort : VpEvent p r c .userConsented ((c.noted c.pendingRpProvenance
          c.pendingStatusReferences c.statusLists).abortPresentation (eligibilityAbortReason e)) :=
        vpEvent_of_abort hactive herrors
      exact habort
    · next hevidence =>
      obtain ⟨s, hs, -⟩ := presentationEvidenceIsCurrent_ok hevidence
      exact consentAfterStatus_event hactive (by simp [hs])
  · have hdrive : VpEvent p r c .userConsented ((c.noted c.pendingRpProvenance
        c.pendingStatusReferences c.statusLists).drive p r .consentGranted) :=
      vpEvent_of_drive .consent .kept (by simp)
    exact hdrive

theorem userDeclined_event (hown : c.VpOwned) (hproximity : c.active ≠ .proximity) (hdcapi : c.active ≠ .dcApi) :
    VpEvent p r c .userDeclined (c.userDeclined p r) := by
  have hself : ({ c with pendingStatusReferences := [] } : Core) =
      c.noted c.pendingRpProvenance [] c.statusLists := rfl
  unfold userDeclined
  split
  · contradiction
  · contradiction
  · rw [hself]
    generalize hout : (c.noted c.pendingRpProvenance [] c.statusLists).drive p r .consentDeclined = out
    have houtcome := drive_outcome p r (c.noted c.pendingRpProvenance [] c.statusLists) .consentDeclined
    rw [hout] at houtcome
    dsimp only
    cases houtcome with
    | unchanged =>
      have hsettled : (c.noted c.pendingRpProvenance [] c.statusLists).vp ≠ .aborted .userDeclined :=
        hown.settled
      rw [if_neg hsettled]
      exact .noted (by simp) .none
    | declined hvp => exact .declined hvp
    | readmitted _ _ h | rejected _ h | aborted _ h => exact absurd rfl h

theorem deviceSignatureProduced_event (signature : Bytes)
    (hactive : c.active = .presentation ∨ c.active = .walletTransfer ∨ c.active = .none) :
    VpEvent p r c (.deviceSignatureProduced signature) (c.deviceSignatureProduced p r signature) := by
  have hdrive : VpEvent p r c (.deviceSignatureProduced signature) ((c.noted c.pendingRpProvenance
      c.pendingStatusReferences c.statusLists).drive p r (.deviceSignatureProduced signature)) :=
    vpEvent_of_drive .signature .kept (by simp)
  unfold deviceSignatureProduced
  rcases hactive with h | h | h
  · simp only [h]
    split
    · next reason hreason =>
      obtain ⟨errors, herrors⟩ := presentationSensitiveAbortReason_surfaced hreason
      have habort : VpEvent p r c (.deviceSignatureProduced signature) ((c.noted c.pendingRpProvenance
          c.pendingStatusReferences c.statusLists).abortPresentation reason) :=
        vpEvent_of_abort h herrors
      exact habort
    · exact hdrive
  · simp only [h]
    exact hdrive
  · simp only [h]
    exact hdrive

@[simp] theorem terminateAuditedFlow_vp {code message : String} :
    (c.terminateAuditedFlow .presentation code message).1.vp = .idle := rfl

theorem presentationDelivered_event : VpEvent p r c .presentationDelivered (c.presentationDelivered p r) := by
  unfold presentationDelivered
  dsimp only
  generalize hout : c.drive p r .presentationDelivered = out
  have houtcome := drive_outcome p r c .presentationDelivered
  rw [hout] at houtcome
  have hdrove (hprogress : c.vp.InProgress) (hvp : out.1.vp ≠ .done) : VpEvent p r c .presentationDelivered
        (if out.1.vp = .done then out.1.finishFlow .presentation else out.1, out.2) := by
    rw [if_neg hvp]
    exact vpEvent_of_outcome .delivery hprogress houtcome fun _ => hvp
  cases houtcome with
  | unchanged =>
    split
    · next hdone => exact .finished hdone
    · exact vpEvent_of_notes
  | readmitted hvp => exact hdrove (by rw [hvp]; trivial) (by simp [withSession, hvp])
  | rejected hprogress => exact hdrove hprogress (by simp [auditLogCandidateRejectionEffects])
  | aborted hprogress => exact hdrove hprogress (by simp [abortPresentation])
  | delivered hvp hrecorded =>
    have hevent := VpEvent.delivered (r := r) hvp hrecorded
    obtain ⟨log, latch, rfl⟩ := recordPresentation_eq hrecorded
    exact hevent
  | unrecorded hvp hfailed =>
    exact hdrove (by rw [hvp]; trivial) (by simp [auditLogFaultEffects])

theorem active_of_evidence (hown : c.VpOwned) (h : c.presentationEvidenceIsCurrent p = .ok ()) :
    c.active = .presentation := by
  obtain ⟨s, hs, -⟩ := presentationEvidenceIsCurrent_ok h
  exact hown.active (hown.session (by simp [hs])).inProgress

theorem presentationEvidenceIsCurrent_of_no_session (h : c.session = none) :
    c.presentationEvidenceIsCurrent p = .error .trustEvidenceInvalid := by
  simp only [presentationEvidenceIsCurrent, h]
  rfl

theorem loadStatusList_eq (uri : String) (token : Bytes) (chain : List Bytes) :
    ∃ lists, (c.loadStatusList p uri token chain).1 =
      c.noted c.pendingRpProvenance c.pendingStatusReferences lists := by
  unfold loadStatusList
  split
  · exact ⟨_, rfl⟩
  · split
    · exact ⟨_, rfl⟩
    · split
      · exact ⟨_, rfl⟩
      · split
        · exact ⟨_, rfl⟩
        · dsimp only
          split
          · exact ⟨_, rfl⟩
          · exact ⟨_, rfl⟩

theorem resumeAfterStatus_event {uri : String} {httpStatus : ℕ} {token : Bytes} {chain : List Bytes}
    {lists : List (String × CachedStatusList)} (hactive : c.active = .presentation)
    (hawaited : c.pendingStatusReferences ≠ []) : VpEvent p r c (.statusListReceived uri httpStatus token chain)
      ((c.noted c.pendingRpProvenance c.pendingStatusReferences lists).resumeAfterStatus p r) := by
  have hdrive : VpEvent p r c (.statusListReceived uri httpStatus token chain)
      ((c.noted c.pendingRpProvenance [] lists).drive p r .consentGranted) :=
    vpEvent_of_drive (.status hawaited) .none (by simp)
  have hblock (revoked : Bool) : VpEvent p r c (.statusListReceived uri httpStatus token chain)
      ((c.noted c.pendingRpProvenance [] lists).statusBlockEffects revoked) :=
    vpEvent_of_statusBlock hactive
  unfold resumeAfterStatus
  split
  · exact hdrive
  · next all _ _ =>
    have hnoted : VpEvent p r c (.statusListReceived uri httpStatus token chain)
        (c.noted c.pendingRpProvenance all lists, []) := .noted (by simp) fun _ => .inl hawaited
    exact hnoted
  · exact hblock true
  · exact hblock false

theorem statusListReceived_event (hown : c.VpOwned) (uri : String) (httpStatus : ℕ) (token : Bytes)
    (chain : List Bytes) : VpEvent p r c (.statusListReceived uri httpStatus token chain)
      (c.statusListReceived p r uri httpStatus token chain) := by
  unfold statusListReceived
  split
  · next e hevidence =>
    by_cases hactive : c.active = .presentation
    · obtain ⟨errors, herrors⟩ := eligibilityAbortReason_surfaced e
      have habort : VpEvent p r c (.statusListReceived uri httpStatus token chain)
          ((c.noted c.pendingRpProvenance c.pendingStatusReferences c.statusLists).abortPresentation
            (eligibilityAbortReason e)) := vpEvent_of_abort hactive herrors
      exact habort
    · have hsession : c.session = none := by
        by_contra hsome
        exact hactive (hown.active (hown.session hsome).inProgress)
      rw [presentationEvidenceIsCurrent_of_no_session hsession] at hevidence
      cases hevidence
      exact .stray hactive rfl
  · next hevidence =>
    have hactive := active_of_evidence hown hevidence
    obtain ⟨lists, hlists⟩ := loadStatusList_eq (p := p) (c := c) uri token chain
    have hblock {lists'} : VpEvent p r c (.statusListReceived uri httpStatus token chain)
        ((c.noted c.pendingRpProvenance [] lists').statusBlockEffects false) :=
      vpEvent_of_statusBlock hactive
    split
    · exact hblock
    · next hlisted =>
      have hawaited : c.pendingStatusReferences ≠ [] := by
        intro hnone
        simp [hnone] at hlisted
      split
      · next c' _ hload =>
        rw [hload] at hlists
        subst hlists
        exact hblock
      · next c' _ hload =>
        rw [hload] at hlists
        subst hlists
        exact resumeAfterStatus_event hactive hawaited

/-! ### What every event of the flow keeps -/

theorem firstFailedGuard_ne_userDeclined {env : Oid4vp.Env} {req : Oid4vp.AuthRequest}
    {trust : Oid4vp.ResolvedTrust} : Oid4vp.firstFailedGuard p env req trust ≠ some .userDeclined := by
  unfold Oid4vp.firstFailedGuard
  repeat' split
  all_goals simp

/-- A flow that waits for nothing and has no session is owned by whoever is active. -/
theorem VpOwned.of_ended (hvp : ¬ c.vp.InProgress) (hsession : c.session = none)
    (hsettled : c.vp ≠ .aborted .userDeclined) : c.VpOwned :=
  ⟨fun h => absurd h hvp, fun h => absurd hsession h, hsettled⟩

theorem VpOwned.of_active (hactive : c.active = .presentation) (hvp : c.vp.Validated) : c.VpOwned :=
  ⟨fun _ => hactive, fun _ => hvp, by
    intro h
    rw [h] at hvp
    exact hvp⟩

theorem VpOwned.noted (h : c.VpOwned) {provenance references lists} :
    (c.noted provenance references lists).VpOwned := ⟨h.active, h.session, h.settled⟩

theorem VpOwned.beginFlow : (c.beginFlow .presentation).VpOwned :=
  .of_ended (by rintro ⟨⟩) rfl (by rintro ⟨⟩)

theorem VpOwned.abortPresentation (h : presentationErrorEffects reason = some errors)
    : (c.abortPresentation reason).1.VpOwned := by
  refine .of_ended (by rintro ⟨⟩) rfl ?_
  rintro ⟨⟩
  cases h

theorem VpOwned.terminateAuditedFlow {code message : String} :
    (c.terminateAuditedFlow .presentation code message).1.VpOwned :=
  .of_ended (by rintro ⟨⟩) rfl (by rintro ⟨⟩)

theorem VpOwned.of_finished (hvp : c.vp = .done) : (c.finishFlow .presentation).VpOwned := by
  have hfinished : (c.finishFlow .presentation).vp = .done := hvp
  exact .of_ended (by rw [hfinished]; exact id) rfl (by rw [hfinished]; rintro ⟨⟩)

/-- The driver keeps the machine owned until it is declined or delivered. -/
theorem VpOwned.drive {input : Oid4vp.Input} (hown : c.VpOwned) (hidle : c.vp = .idle → c.active = .presentation)
    (houtcome : DriveOutcome p r c input out)
    (hdeclined : input ≠ .consentDeclined) (hdone : out.1.vp ≠ .done) : out.1.VpOwned := by
  have hactive {s : Oid4vp.State} (hs : c.vp = s) (hprogress : s.InProgress) : c.active = .presentation :=
    hown.active (hs ▸ hprogress)
  cases houtcome with
  | unchanged => exact hown
  | readmitted hvp => exact .of_active (hactive hvp trivial) (by simp [withSession, hvp, Oid4vp.State.Validated])
  | rejected | unrecorded => exact .terminateAuditedFlow
  | aborted _ _ hs | abortedAtConsent _ _ hs => exact .abortPresentation hs
  | received hvp =>
    refine ⟨fun _ => hidle hvp, fun hs => ?_, by rintro ⟨⟩⟩
    have hvalidated := hown.session hs
    rw [hvp] at hvalidated
    exact hvalidated
  | malformed | unbuildable | emptyQueue => exact .of_ended (by rintro ⟨⟩) rfl (by rintro ⟨⟩)
  | untrusted hvp hfailed =>
    next reason =>
    have hnone : c.session = none := by
      by_contra hsome
      have hvalidated := hown.session hsome
      rw [hvp] at hvalidated
      exact hvalidated
    have hreason : reason ≠ .userDeclined := by
      rintro rfl
      exact firstFailedGuard_ne_userDeclined hfailed
    split
    · exact .of_ended (by rintro ⟨⟩) rfl (by simpa [withVp, dropSession] using hreason)
    · exact .of_ended (by rintro ⟨⟩) hnone (by simpa [withVp] using hreason)
  | validated hvp | consented hvp | signed hvp | sent hvp =>
    exact .of_active (hactive hvp trivial) trivial
  | declined => exact absurd rfl hdeclined
  | delivered _ hrecorded =>
    obtain ⟨log, latch, rfl⟩ := recordPresentation_eq hrecorded
    exact absurd rfl hdone

theorem DriveOutcome.not_done (h : DriveOutcome p r c input out) (hvp : c.vp ≠ .done)
    (hundelivered : input = .presentationDelivered → out.1.vp ≠ .done) : out.1.vp ≠ .done := by
  cases h with
  | unchanged | readmitted => exact hvp
  | untrusted => split <;> rintro ⟨⟩
  | delivered | unrecorded => exact hundelivered rfl
  | rejected | aborted | abortedAtConsent | received | malformed | validated | unbuildable | consented
  | declined | emptyQueue | signed | sent => rintro ⟨⟩

/-- The driver keeps to its flow while no other flow is active. -/
theorem DriveOutcome.step (h : DriveOutcome p r c input out) : PresentationConduct c out.1 := by
  cases h with
  | unchanged => exact .refl c
  | rejected => exact .terminateAuditedFlow
  | aborted => exact .abortPresentation
  | abortedAtConsent =>
    exact PresentationConduct.trans .own .abortPresentation
  | untrusted => split <;> exact .own
  | delivered _ hrecorded =>
    obtain ⟨log, latch, rfl⟩ := recordPresentation_eq hrecorded
    exact .own
  | unrecorded _ hfailed =>
    obtain ⟨log, latch, rfl⟩ := recordPresentation_eq hfailed
    exact PresentationConduct.trans .own .auditLogFaultEffects
  | readmitted | received | malformed | validated | unbuildable | consented | declined | emptyQueue
  | signed | sent => exact .own

theorem VpEvent.owned {e : Event} (hown : c.VpOwned) (h : VpEvent p r c e out) : out.1.VpOwned := by
  cases h with
  | noted => exact hown.noted
  | aborted _ hsurfaced | stray _ hsurfaced => exact .abortPresentation hsurfaced
  | began houtcome =>
    exact VpOwned.beginFlow.drive (fun _ => rfl) houtcome (by simp)
      (houtcome.not_done (by rintro ⟨⟩) (by rintro ⟨⟩))
  | drove hdrives hprogress _ houtcome hundelivered =>
    refine hown.noted.drive (fun hidle => ?_) houtcome (by rintro rfl; cases hdrives)
      (houtcome.not_done hprogress.ne_done hundelivered)
    rw [noted_vp] at hidle
    rw [hidle] at hprogress
    exact hprogress.elim
  | declined => exact .of_ended (by rintro ⟨⟩) rfl (by rintro ⟨⟩)
  | @delivered c' _ hrecorded =>
    obtain ⟨log, latch, rfl⟩ := recordPresentation_eq hrecorded
    exact .of_finished rfl
  | finished hvp => exact .of_finished hvp

theorem VpEvent.conduct {e : Event} (hown : c.VpOwned) (h : VpEvent p r c e out)
    (hstray : (∃ uri httpStatus token chain, e = .statusListReceived uri httpStatus token chain) →
      c.NoOtherActive) : Conduct .presentation c out.1 := by
  have hnoted {provenance references lists} :
      Conduct .presentation c (c.noted provenance references lists) := .ofPresentation
  have hactive (hprogress : c.vp.InProgress) : c.NoOtherActive := .inl (hown.active hprogress)
  cases h with
  | noted => exact hnoted
  | @aborted _ lists _ _ hpresentation =>
    have hother : (c.noted none [] lists).NoOtherActive := .inl hpresentation
    exact hnoted.trans (PresentationConduct.abortPresentation hother).1
  | stray => exact (PresentationConduct.abortPresentation (hstray ⟨_, _, _, _, rfl⟩)).1
  | began houtcome => exact Conduct.beginFlow.trans (houtcome.step (.inl rfl)).1
  | drove _ hprogress _ houtcome => exact hnoted.trans (houtcome.step (hactive hprogress)).1
  | declined => exact Conduct.ofPresentation.trans (.resetFlow _)
  | delivered _ hrecorded =>
    obtain ⟨log, latch, rfl⟩ := recordPresentation_eq hrecorded
    exact Conduct.ofPresentation.trans .finishFlow
  | finished => exact .finishFlow

end Core

end EuWallet.Wallet
