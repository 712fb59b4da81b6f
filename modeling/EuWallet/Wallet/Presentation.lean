import EuWallet.Wallet.Evidence

/-! # What the presentation driver can do

`DriveOutcome` lists everything one call of `drive` can lead to, with the core it returns and the
effects it emits; `drive_outcome` says the list is complete. Facts about presentations are read off the
list, and nothing below this module unfolds the driver again. -/

namespace EuWallet.Protocol.Oid4vp

/-- The machine waits for something. -/
def State.InProgress : State → Prop
  | .resolvingTrust _ | .requestValidated _ | .awaitingDeviceSignature _ | .presenting => True
  | .idle | .done | .aborted _ => False

instance (s : State) : Decidable s.InProgress := by
  unfold State.InProgress
  split <;> infer_instance

def State.Validated : State → Prop
  | .requestValidated _ | .awaitingDeviceSignature _ | .presenting => True
  | .idle | .resolvingTrust _ | .done | .aborted _ => False

theorem State.InProgress.ne_done {s : State} (h : s.InProgress) : s ≠ .done := by
  rintro rfl
  exact h

theorem State.Validated.inProgress {s : State} (h : s.Validated) : s.InProgress := by
  cases s <;> trivial

end EuWallet.Protocol.Oid4vp

namespace EuWallet.Wallet

open Codec Crypto Formats Lib Presenter Protocol Oid4vp
open Trust

namespace Core

/-! ### Admission -/

structure Admitted (p : Platform) (c : Core) (req : Oid4vp.AuthRequest) (s : SessionInfo) : Prop where
  selection : ∃ prepared, prepared ≠ [] ∧ s = (c.capturedSession req).freeze prepared ∧
    (c.withSession (c.capturedSession req)).selectPresentation p (c.capturedSession req) = .ok prepared
  trust : (c.withSession (c.capturedSession req)).presentationTrustIsCurrent p (c.capturedSession req) =
    .ok ()
  audit : c.log.checkAppend (c.presentationCandidate s) = .ok ()

variable {p : Platform} {reason : Oid4vp.AbortReason} {c : Core}

theorem preparePresentationSelection_ok {c' : Core} {session : SessionInfo}
    (h : (c.withSession session).preparePresentationSelection p = .ok c') :
    ∃ prepared, prepared ≠ [] ∧ c' = c.withSession (session.freeze prepared) ∧
      (c.withSession session).selectPresentation p session = .ok prepared ∧
      (c.withSession session).presentationTrustIsCurrent p session = .ok () := by
  obtain ⟨⟨⟩, htrust, h⟩ := bind_eq_ok.mp h
  obtain ⟨prepared, hselect, h⟩ := bind_eq_ok.mp h
  obtain ⟨hne, h⟩ := guard_eq_ok.mp h
  refine ⟨prepared, by simpa using hne, ?_, hselect, htrust⟩
  exact (pure_eq_ok.mp h).symm

/-- The three ways an admission ends. -/
theorem admitRequest_cases (p : Platform) (c : Core) (req : Oid4vp.AuthRequest) :
    (∃ s, c.admitRequest p req = .ok (c.withSession s) ∧ Admitted p c req s) ∨ (∃ e, c.admitRequest p req =
        .error ((c.withSession (c.capturedSession req)).abortPresentationEligibility e)) ∨ ∃ s, c.admitRequest p req =
        .error ((c.withSession s).auditLogCandidateRejectionEffects .presentation) := by
  unfold admitRequest
  dsimp only
  split
  · next e _ => exact .inr (.inl ⟨e, rfl⟩)
  · next c' h =>
    obtain ⟨prepared, hne, rfl, hselect, htrust⟩ := preparePresentationSelection_ok h
    simp only [withSession]
    split
    · exact .inr (.inr ⟨_, rfl⟩)
    · next hcheck => exact .inl ⟨_, rfl, ⟨prepared, hne, rfl, hselect⟩, htrust, hcheck⟩

/-! ### Outcomes -/

def Posted (p : Platform) (r : Entropy) (c : Core) (s : SessionInfo) (body b : Bytes) : Prop :=
  (s.responseMode = "direct_post" ∧ b = body) ∨
    (s.responseMode = "direct_post.jwt" ∧ ∃ key, s.responseEncryptionKey = some key ∧
      c.encryptDirectPostJwt p r body key = some b)

def shownCore (p : Platform) (c : Core) (req : Oid4vp.AuthRequest) (s : SessionInfo) : Core :=
  ((c.withVp (.requestValidated req)).withNonce req.nonce).withSession
    (s.shown p (sessionConsentScreen p s))

/-- Everything a call of `drive` can lead to. -/
inductive DriveOutcome (p : Platform) (r : Entropy) (c : Core) :
    Oid4vp.Input → Core × List Effect → Prop
  /-- The machine has no transition and no session to capture. -/
  | unchanged {input} (validated : ∀ req, c.vp ≠ .requestValidated req) :
      DriveOutcome p r c input (c, [])
  /-- An input without transition finds a validated request: the session is captured anew. -/
  | readmitted {input req s} (vp : c.vp = .requestValidated req) (notGranted : input ≠ .consentGranted)
      (notDeclined : input ≠ .consentDeclined) (admitted : Admitted p c req s) :
      DriveOutcome p r c input (c.withSession s, [])
  /-- The audit entry of a validated request does not fit. -/
  | rejected {input} (inProgress : c.vp.InProgress) (notDeclined : input ≠ .consentDeclined) :
      DriveOutcome p r c input (c.auditLogCandidateRejectionEffects .presentation)
  /-- The facade aborts the presentation. -/
  | aborted {input reason errors} (inProgress : c.vp.InProgress)
      (notDeclined : input ≠ .consentDeclined) (surfaced : presentationErrorEffects reason = some errors) :
      DriveOutcome p r c input ((c.abortPresentation reason).1, errors)
  /-- The facade aborts when it is about to show the consent screen; the nonce is used up. -/
  | abortedAtConsent {trust req reason errors} (vp : c.vp = .resolvingTrust req)
      (passed : Oid4vp.firstFailedGuard p (c.vpEnv (.rpTrustResolved trust)) req trust = none)
      (surfaced : presentationErrorEffects reason = some errors) :
      DriveOutcome p r c (.rpTrustResolved trust)
        (((c.withNonce req.nonce).abortPresentation reason).1, .persistNonce req.nonce :: errors)
  | received {b req} (vp : c.vp = .idle) (parsed : Oid4vp.parseRequest p b = some req) :
      DriveOutcome p r c (.authorizationRequest b)
        (c.withVp (.resolvingTrust req), [.resolveRpTrust req.clientId])
  | malformed {b errors} (vp : c.vp = .idle) (parsed : Oid4vp.parseRequest p b = none)
      (surfaced : presentationErrorEffects .malformedRequest = some errors) :
      DriveOutcome p r c (.authorizationRequest b)
        ((c.withVp (.aborted .malformedRequest)).dropSession, errors)
  /-- A guard of the machine fails; not every reason has a screen. -/
  | untrusted {trust req reason} (vp : c.vp = .resolvingTrust req)
      (failed : Oid4vp.firstFailedGuard p (c.vpEnv (.rpTrustResolved trust)) req trust = some reason) :
      DriveOutcome p r c (.rpTrustResolved trust)
        (match presentationErrorEffects reason with
          | some errors => ((c.withVp (.aborted reason)).dropSession, errors)
          | none => (c.withVp (.aborted reason), []))
  /-- The request is validated, its nonce recorded and its consent screen shown. -/
  | validated {trust req s} (vp : c.vp = .resolvingTrust req)
      (passed : Oid4vp.firstFailedGuard p (c.vpEnv (.rpTrustResolved trust)) req trust = none)
      (admitted : Admitted p (c.withVp (.requestValidated req)) req s) :
      DriveOutcome p r c (.rpTrustResolved trust)
        (c.shownCore p req s,
          [.persistNonce req.nonce, .render (.consent (sessionConsentScreen p s))])
  /-- The selection cannot be turned into presentations. -/
  | unbuildable {req errors} (vp : c.vp = .requestValidated req)
      (failed : ∀ first rest, (c.selectCredentialsFor .consentGranted).mapM
        (Oid4vp.subPresentation p (c.vpEnv .consentGranted) req) ≠ some (first :: rest))
      (surfaced : presentationErrorEffects .noCredential = some errors) :
      DriveOutcome p r c .consentGranted ((c.withVp (.aborted .noCredential)).dropSession, errors)
  | consented {req first rest} (vp : c.vp = .requestValidated req)
      (built : (c.selectCredentialsFor .consentGranted).mapM
        (Oid4vp.subPresentation p (c.vpEnv .consentGranted) req) = some (first :: rest))
      (clear : c.presentationSensitiveAbortReason p = none) :
      DriveOutcome p r c .consentGranted
        (c.withVp (.awaitingDeviceSignature ⟨first :: rest, [], req.state⟩),
          [.sign c.config.deviceKeyRef first.signingInput])
  | declined {req} (vp : c.vp = .requestValidated req) :
      DriveOutcome p r c .consentDeclined (c.withVp (.aborted .userDeclined), [.close])
  | emptyQueue {signature pending errors} (vp : c.vp = .awaitingDeviceSignature pending)
      (queue : pending.queue = []) (surfaced : presentationErrorEffects .noCredential = some errors) :
      DriveOutcome p r c (.deviceSignatureProduced signature)
        ((c.withVp (.aborted .noCredential)).dropSession, errors)
  | signed {signature pending sub next rest} (vp : c.vp = .awaitingDeviceSignature pending)
      (queue : pending.queue = sub :: next :: rest)
      (clear : c.presentationSensitiveAbortReason p = none) :
      DriveOutcome p r c (.deviceSignatureProduced signature)
        (c.withVp (.awaitingDeviceSignature
            ⟨next :: rest, pending.done ++ [Oid4vp.complete signature sub], pending.state⟩),
          [.sign c.config.deviceKeyRef next.signingInput])
  | sent {signature pending sub s b} (vp : c.vp = .awaitingDeviceSignature pending)
      (queue : pending.queue = [sub]) (session : c.session = some s)
      (clear : c.presentationSensitiveAbortReason p = none)
      (posted : Posted p r c s (utf8 (Oid4vp.assembleDirectPostBody p
        (pending.done ++ [Oid4vp.complete signature sub]) pending.state)) b) :
      DriveOutcome p r c (.deviceSignatureProduced signature)
        (c.withVp .presenting, [.http .openid4vpDirectPost s.responseUri b])
  | delivered {c'} (vp : c.vp = .presenting)
      (recorded : (c.withVp .done).recordPresentation p = (c', .ok ())) :
      DriveOutcome p r c .presentationDelivered (c', [.close])
  | unrecorded {c' e} (vp : c.vp = .presenting)
      (failed : (c.withVp .done).recordPresentation p = (c', .error e)) :
      DriveOutcome p r c .presentationDelivered (c'.auditLogFaultEffects .presentation)

/-! ### The parts of the driver -/

theorem presentationErrorEffects_close {errors : List Effect} (h : presentationErrorEffects reason = some errors)
    : .close ∈ errors := by
  cases reason <;> cases h <;> simp [errorThenClose]

theorem eligibilityAbortReason_surfaced (e : PresentationEligibilityError) :
    ∃ errors, presentationErrorEffects (eligibilityAbortReason e) = some errors := by
  cases e <;> exact ⟨_, rfl⟩

theorem presentationSensitiveAbortReason_surfaced (h : c.presentationSensitiveAbortReason p = some reason) :
    ∃ errors, presentationErrorEffects reason = some errors := by
  unfold presentationSensitiveAbortReason at h
  split at h
  · cases h
    exact eligibilityAbortReason_surfaced _
  · split at h <;> cases h <;> exact ⟨_, rfl⟩

theorem surfaceAbort_of_not_aborted {before after : Oid4vp.State} (h : ∀ reason, after ≠ .aborted reason)
    (c : Core) (effects : List Effect) : surfaceAbort before after c effects = (c, effects) := by
  unfold surfaceAbort
  split
  · rfl
  · exact absurd rfl (h _)
  · rfl

theorem recordIfDone_of_not_done {before : Oid4vp.State} (h : c.vp ≠ .done) (effects : List Effect)
    : c.recordIfDone p before effects = (c, effects) :=
  if_neg fun hdone => h hdone.2

section
variable {r : Entropy} {input : Oid4vp.Input} {next before : Oid4vp.State} {outputs : List Oid4vp.Output}
  {errors : List Effect}

theorem drive_eq (hstep : Oid4vp.step p (c.vpEnv input) c.vp input = (next, outputs)) :
    c.drive p r input = match (c.withVp next).captureValidated p with
      | .error early => early
      | .ok admitted => completeVp p r c.vp next admitted outputs := by
  simp only [drive, advanceVp, hstep]
  rfl

theorem drive_eq_of_not_validated (hstep : Oid4vp.step p (c.vpEnv input) c.vp input = (next, outputs))
    (hnext : ∀ req, next ≠ .requestValidated req) :
    c.drive p r input = completeVp p r c.vp next (c.withVp next) outputs := by
  have hcapture : (c.withVp next).captureValidated p = .ok (c.withVp next) := by
    unfold captureValidated
    split
    · next h => exact absurd h (hnext _)
    · rfl
  rw [drive_eq hstep, hcapture]

theorem translate_vp_ne_done (c : Core) (o : Oid4vp.Output) (h : c.vp ≠ .done) :
    (c.translate p r o).1.vp ≠ .done := by
  cases o with
  | resolveRpTrust | persistNonce | close => exact h
  | renderConsent =>
    simp only [translate]
    split
    · simp [abortPresentationEligibility, abortPresentation]
    · split <;> exact h
  | signKeyBinding =>
    simp only [translate]
    split
    · simp [abortPresentation]
    · exact h
  | sendVpToken =>
    simp only [translate, sendVpToken]
    repeat' split
    all_goals first | exact h | simp [abortPresentation]

theorem completeVp_eq (hnext : ∀ reason, next ≠ .aborted reason) (hdone : c.vp ≠ .done) :
    completeVp p r before next c outputs = collect (translate p r) c outputs := by
  have hkept : c.vp ≠ .done → (collect (translate p r) c outputs).1.vp ≠ .done :=
    collect_rel (R := fun s t : Core => s.vp ≠ .done → t.vp ≠ .done) (fun _ h => h)
      (fun h h' hs => h' (h hs)) translate_vp_ne_done outputs c
  simp only [completeVp, surfaceAbort_of_not_aborted hnext]
  exact recordIfDone_of_not_done (hkept hdone) _

theorem presentationSensitiveAbortReason_withVp (next : Oid4vp.State) :
    (c.withVp next).presentationSensitiveAbortReason p = c.presentationSensitiveAbortReason p :=
  presentationSensitiveAbortReason_congr rfl rfl rfl rfl rfl

theorem abortPresentation_eq (h : presentationErrorEffects reason = some errors) :
    c.abortPresentation reason = ((c.abortPresentation reason).1, errors) :=
  Prod.ext rfl (by simp [abortPresentation, h])

/-- A rejected entry ends the flow whatever state it has reached. -/
theorem auditLogCandidateRejectionEffects_own (vp : Oid4vp.State) (s : SessionInfo) :
    ((c.withVp vp).withSession s).auditLogCandidateRejectionEffects .presentation =
      c.auditLogCandidateRejectionEffects .presentation := by
  have hactive : ((c.withVp vp).withSession s).active = c.active := rfl
  simp only [auditLogCandidateRejectionEffects, terminateAuditedFlow, hactive]
  cases c.active <;> rfl

theorem drive_validated {req : Oid4vp.AuthRequest}
    (hstep : Oid4vp.step p (c.vpEnv input) c.vp input = (.requestValidated req, outputs))
    (hprogress : c.vp.InProgress) (hdeclined : input ≠ .consentDeclined)
    (hadmitted : ∀ s, Admitted p (c.withVp (.requestValidated req)) req s →
      DriveOutcome p r c input (completeVp p r c.vp (.requestValidated req)
        ((c.withVp (.requestValidated req)).withSession s) outputs)) :
    DriveOutcome p r c input (c.drive p r input) := by
  rw [drive_eq hstep]
  have hcapture : (c.withVp (.requestValidated req)).captureValidated p =
      (c.withVp (.requestValidated req)).admitRequest p req := rfl
  rw [hcapture]
  obtain ⟨s, h, hs⟩ | ⟨e, h⟩ | ⟨s, h⟩ := admitRequest_cases p (c.withVp (.requestValidated req)) req
  · rw [h]
    exact hadmitted s hs
  · rw [h]
    obtain ⟨errors, herrors⟩ := eligibilityAbortReason_surfaced e
    have houtcome : DriveOutcome p r c input _ := .aborted hprogress hdeclined herrors
    rw [← abortPresentation_eq herrors] at houtcome
    exact houtcome
  · rw [h]
    have houtcome : DriveOutcome p r c input _ := .rejected hprogress hdeclined
    rw [← auditLogCandidateRejectionEffects_own (.requestValidated req) s] at houtcome
    exact houtcome

/-! ### The outcome of each input -/

theorem drive_outcome_quiet (hstep : Oid4vp.step p (c.vpEnv input) c.vp input = (c.vp, []))
    (hgranted : ∀ req, c.vp = .requestValidated req → input ≠ .consentGranted)
    (hdeclined : ∀ req, c.vp = .requestValidated req → input ≠ .consentDeclined) :
    DriveOutcome p r c input (c.drive p r input) := by
  by_cases hvalidated : ∃ req, c.vp = .requestValidated req
  · obtain ⟨req, hvp⟩ := hvalidated
    have hself : c.withVp (.requestValidated req) = c := by rw [← hvp]; rfl
    have hstays : Oid4vp.step p (c.vpEnv input) c.vp input = (.requestValidated req, []) := by
      rw [hstep, hvp]
    refine drive_validated hstays (by rw [hvp]; trivial) (hdeclined req hvp) ?_
    intro s hs
    rw [hself] at hs ⊢
    rw [completeVp_eq (by simp) (by simp [withSession, hvp])]
    exact .readmitted hvp (hgranted req hvp) (hdeclined req hvp) hs
  · have hne : ∀ req, c.vp ≠ .requestValidated req := fun req h => hvalidated ⟨req, h⟩
    rw [drive_eq_of_not_validated hstep hne]
    have hself : c.withVp c.vp = c := rfl
    have hsurface : surfaceAbort c.vp c.vp c [] = (c, []) := by
      unfold surfaceAbort
      split
      · rfl
      · next h h' => exact absurd h (h' _)
      · rfl
    have hcomplete : completeVp p r c.vp c.vp c [] = (c, []) := by
      simp only [completeVp, collect_nil, hsurface]
      exact if_neg fun h => h.1 h.2
    rw [hself, hcomplete]
    exact .unchanged hne

theorem completeVp_aborted (hbefore : before.InProgress ∨ before = .idle)
    (herrors : presentationErrorEffects reason = some errors) :
    completeVp p r before (.aborted reason) (c.withVp (.aborted reason)) [] =
      ((c.withVp (.aborted reason)).dropSession, errors) := by
  have hsurface : surfaceAbort before (.aborted reason) (c.withVp (.aborted reason)) [] =
      ((c.withVp (.aborted reason)).dropSession, errors) := by
    unfold surfaceAbort
    split
    · simp [Oid4vp.State.InProgress] at hbefore
    · next h =>
      cases h
      simp [herrors]
    · next h => exact absurd rfl (h _)
  simp only [completeVp, collect_nil, hsurface]
  exact recordIfDone_of_not_done (by simp [dropSession, withVp]) _

theorem sign_outcome {next : Oid4vp.State} {keyRef : String} {signingInput : Bytes} (hprogress : c.vp.InProgress)
    (hdeclined : input ≠ .consentDeclined)
    (hstep : Oid4vp.step p (c.vpEnv input) c.vp input = (next, [.signKeyBinding keyRef signingInput]))
    (hvalidated : ∀ req, next ≠ .requestValidated req) (haborted : ∀ reason, next ≠ .aborted reason)
    (hdone : next ≠ .done) (hclear : c.presentationSensitiveAbortReason p = none →
      DriveOutcome p r c input (c.withVp next, [.sign keyRef signingInput])) :
    DriveOutcome p r c input (c.drive p r input) := by
  rw [drive_eq_of_not_validated hstep hvalidated]
  cases hreason : c.presentationSensitiveAbortReason p with
  | none =>
    have htranslate : collect (translate p r) (c.withVp next) [.signKeyBinding keyRef signingInput] =
        (c.withVp next, [.sign keyRef signingInput]) := by
      simp [translate, presentationSensitiveAbortReason_withVp, hreason]
    rw [completeVp_eq haborted hdone, htranslate]
    exact hclear hreason
  | some reason =>
    obtain ⟨errors, herrors⟩ := presentationSensitiveAbortReason_surfaced hreason
    have htranslate : collect (translate p r) (c.withVp next) [.signKeyBinding keyRef signingInput] =
        (c.abortPresentation reason) := by
      simp only [collect_cons, collect_nil, translate, presentationSensitiveAbortReason_withVp, hreason,
        List.append_nil]
      rfl
    rw [completeVp_eq haborted hdone, htranslate, abortPresentation_eq herrors]
    exact .aborted hprogress hdeclined herrors

theorem drive_outcome_request (b : Bytes) :
    DriveOutcome p r c (.authorizationRequest b) (c.drive p r (.authorizationRequest b)) := by
  cases hvp : c.vp with
  | idle =>
    cases hparsed : parseRequest p b with
    | none =>
      have hstep : Oid4vp.step p (c.vpEnv (.authorizationRequest b)) c.vp (.authorizationRequest b) =
          (.aborted .malformedRequest, []) := by simp [Oid4vp.step, hvp, hparsed]
      rw [drive_eq_of_not_validated hstep (by simp), completeVp_aborted (.inr hvp) rfl]
      exact .malformed hvp hparsed rfl
    | some req =>
      have hstep : Oid4vp.step p (c.vpEnv (.authorizationRequest b)) c.vp (.authorizationRequest b) =
          (.resolvingTrust req, [.resolveRpTrust req.clientId]) := by simp [Oid4vp.step, hvp, hparsed]
      rw [drive_eq_of_not_validated hstep (by simp), completeVp_eq (by simp) (by simp [withVp])]
      exact .received hvp hparsed
  | _ => exact drive_outcome_quiet (by rw [hvp]; rfl) (by simp) (by simp)

theorem drive_outcome_trust (trust : Oid4vp.ResolvedTrust) :
    DriveOutcome p r c (.rpTrustResolved trust) (c.drive p r (.rpTrustResolved trust)) := by
  cases hvp : c.vp with
  | resolvingTrust req =>
    have hprogress : c.vp.InProgress := by rw [hvp]; trivial
    cases hguard : firstFailedGuard p (c.vpEnv (.rpTrustResolved trust)) req trust with
    | some reason =>
      have hstep : Oid4vp.step p (c.vpEnv (.rpTrustResolved trust)) c.vp (.rpTrustResolved trust) =
          (.aborted reason, []) := by simp [Oid4vp.step, hvp, hguard]
      have houtcome : DriveOutcome p r c (.rpTrustResolved trust) _ := .untrusted hvp hguard
      rw [drive_eq_of_not_validated hstep (by simp)]
      cases herrors : presentationErrorEffects reason with
      | some errors =>
        rw [completeVp_aborted (.inl hprogress) herrors]
        simpa only [herrors] using houtcome
      | none =>
        have hcomplete : completeVp p r c.vp (.aborted reason) (c.withVp (.aborted reason)) [] =
            (c.withVp (.aborted reason), []) := by
          simp only [completeVp, collect_nil, hvp, surfaceAbort, herrors]
          exact recordIfDone_of_not_done (by simp [withVp]) _
        rw [hcomplete]
        simpa only [herrors] using houtcome
    | none =>
      have hstep : Oid4vp.step p (c.vpEnv (.rpTrustResolved trust)) c.vp (.rpTrustResolved trust) =
          (.requestValidated req, [.persistNonce req.nonce, .renderConsent req.clientId (req.purpose.getD "")]) := by
        simp [Oid4vp.step, hvp, hguard]
      refine drive_validated hstep hprogress (by simp) fun s hs => ?_
      set admitted := (c.withVp (.requestValidated req)).withSession s with hadmitted
      have hdone : admitted.vp ≠ .done := by simp [hadmitted, withSession, withVp]
      cases hevidence : (admitted.withNonce req.nonce).presentationEvidenceIsCurrent p with
      | error e =>
        obtain ⟨errors, herrors⟩ := eligibilityAbortReason_surfaced e
        have htranslate : collect (translate p r) admitted
            [.persistNonce req.nonce, .renderConsent req.clientId (req.purpose.getD "")] =
              (((c.withNonce req.nonce).abortPresentation (eligibilityAbortReason e)).1,
                .persistNonce req.nonce :: errors) := by
          simp only [collect_cons, collect_nil, translate, hevidence, List.append_nil, List.singleton_append]
          refine Prod.ext rfl ?_
          simp [abortPresentationEligibility, abortPresentation, herrors]
        rw [completeVp_eq (by simp) hdone, htranslate]
        exact .abortedAtConsent hvp hguard herrors
      | ok =>
        have hsession : (admitted.withNonce req.nonce).session = some s := rfl
        have htranslate : collect (translate p r) admitted
            [.persistNonce req.nonce, .renderConsent req.clientId (req.purpose.getD "")] = (c.shownCore p req s,
                [.persistNonce req.nonce, .render (.consent (sessionConsentScreen p s))]) := by
          simp only [collect_cons, collect_nil, translate, hevidence, hsession, List.append_nil,
            List.singleton_append]
          rfl
        rw [completeVp_eq (by simp) hdone, htranslate]
        exact .validated hvp hguard hs
  | _ => exact drive_outcome_quiet (by rw [hvp]; rfl) (by simp) (by simp)

theorem drive_outcome_granted : DriveOutcome p r c .consentGranted (c.drive p r .consentGranted) := by
  cases hvp : c.vp with
  | requestValidated req =>
    have hprogress : c.vp.InProgress := by rw [hvp]; trivial
    by_cases hbuilt : ∃ first rest, (c.selectCredentialsFor .consentGranted).mapM
        (subPresentation p (c.vpEnv .consentGranted) req) = some (first :: rest)
    · obtain ⟨first, rest, hbuilt⟩ := hbuilt
      have hstep : Oid4vp.step p (c.vpEnv .consentGranted) c.vp .consentGranted =
          (.awaitingDeviceSignature ⟨first :: rest, [], req.state⟩,
            [.signKeyBinding c.config.deviceKeyRef first.signingInput]) := by
        have hselected : (c.vpEnv .consentGranted).selectedCredentials = c.selectCredentialsFor .consentGranted := rfl
        simp only [Oid4vp.step, hvp, stepConsent, hselected, hbuilt]
        rfl
      exact sign_outcome hprogress (by simp) hstep (by simp) (by simp) (by simp) (.consented hvp hbuilt)
    · have hfailed : ∀ first rest, (c.selectCredentialsFor .consentGranted).mapM
          (subPresentation p (c.vpEnv .consentGranted) req) ≠ some (first :: rest) :=
        fun first rest h => hbuilt ⟨first, rest, h⟩
      have hstep : Oid4vp.step p (c.vpEnv .consentGranted) c.vp .consentGranted = (.aborted .noCredential, []) := by
        simp only [Oid4vp.step, hvp, stepConsent]
        split
        · next h => exact absurd h (hfailed _ _)
        · rfl
      rw [drive_eq_of_not_validated hstep (by simp), completeVp_aborted (.inl hprogress) rfl]
      exact .unbuildable hvp hfailed rfl
  | _ => exact drive_outcome_quiet (by rw [hvp]; rfl) (by simp [hvp]) (by simp)

theorem drive_outcome_declined : DriveOutcome p r c .consentDeclined (c.drive p r .consentDeclined) := by
  cases hvp : c.vp with
  | requestValidated req =>
    have hstep : Oid4vp.step p (c.vpEnv .consentDeclined) c.vp .consentDeclined =
        (.aborted .userDeclined, [.close]) := by simp [Oid4vp.step, hvp]
    have hcomplete : completeVp p r c.vp (.aborted .userDeclined) (c.withVp (.aborted .userDeclined)) [.close] =
          (c.withVp (.aborted .userDeclined), [.close]) := by
      simp only [completeVp, collect_cons, collect_nil, translate, hvp, surfaceAbort,
        presentationErrorEffects, List.append_nil]
      exact recordIfDone_of_not_done (by simp [withVp]) _
    rw [drive_eq_of_not_validated hstep (by simp), hcomplete]
    exact .declined hvp
  | _ => exact drive_outcome_quiet (by rw [hvp]; rfl) (by simp) (by simp [hvp])

theorem send_outcome {signature : Bytes} {pending : Oid4vp.PendingPresentation}
    {sub : Oid4vp.SubPresentation} (hvp : c.vp = .awaitingDeviceSignature pending) (hqueue : pending.queue = [sub]) :
    DriveOutcome p r c (.deviceSignatureProduced signature)
      (collect (translate p r) (c.withVp .presenting) [.sendVpToken (utf8 (assembleDirectPostBody p
        (pending.done ++ [complete signature sub]) pending.state))]) := by
  have hprogress : c.vp.InProgress := by rw [hvp]; trivial
  have haborted {reason errors} (herrors : presentationErrorEffects reason = some errors) :
      DriveOutcome p r c (.deviceSignatureProduced signature) ((c.withVp .presenting).abortPresentation reason) := by
    rw [abortPresentation_eq herrors]
    exact .aborted hprogress (by simp) herrors
  simp only [collect_cons, collect_nil, translate, presentationSensitiveAbortReason_withVp, List.append_nil]
  split
  · next reason hreason =>
    obtain ⟨errors, herrors⟩ := presentationSensitiveAbortReason_surfaced hreason
    exact haborted herrors
  · next hclear =>
    unfold sendVpToken
    split
    · exact haborted rfl
    · next s hs =>
      split
      · next hmode => exact .sent hvp hqueue hs hclear (.inl ⟨hmode, rfl⟩)
      · split
        · next hmode =>
          split
          · exact haborted rfl
          · next key hkey =>
            split
            · next hencrypted => exact .sent hvp hqueue hs hclear (.inr ⟨hmode, key, hkey, hencrypted⟩)
            · exact haborted rfl
        · exact haborted rfl

theorem drive_outcome_signature (signature : Bytes) : DriveOutcome p r c (.deviceSignatureProduced signature)
      (c.drive p r (.deviceSignatureProduced signature)) := by
  cases hvp : c.vp with
  | awaitingDeviceSignature pending =>
    have hprogress : c.vp.InProgress := by rw [hvp]; trivial
    have hstep : Oid4vp.step p (c.vpEnv (.deviceSignatureProduced signature)) c.vp
        (.deviceSignatureProduced signature) = stepSignature p
          (c.vpEnv (.deviceSignatureProduced signature)) pending signature := by
      simp [Oid4vp.step, hvp]
    match hqueue : pending.queue with
    | [] =>
      simp only [stepSignature, hqueue] at hstep
      rw [drive_eq_of_not_validated hstep (by simp), completeVp_aborted (.inl hprogress) rfl]
      exact .emptyQueue hvp hqueue rfl
    | [sub] =>
      simp only [stepSignature, hqueue] at hstep
      rw [drive_eq_of_not_validated hstep (by simp), completeVp_eq (by simp) (by simp [withVp])]
      exact send_outcome hvp hqueue
    | sub :: next :: rest =>
      simp only [stepSignature, hqueue] at hstep
      exact sign_outcome hprogress (by simp) hstep (by simp) (by simp) (by simp) (.signed hvp hqueue)
  | _ => exact drive_outcome_quiet (by rw [hvp]; rfl) (by simp) (by simp)

theorem drive_presenting (hvp : c.vp = .presenting) :
    c.drive p r .presentationDelivered = match (c.withVp .done).recordPresentation p with
      | (c', .ok _) => (c', [.close])
      | (c', .error _) => c'.auditLogFaultEffects .presentation := by
  have hstep : Oid4vp.step p (c.vpEnv .presentationDelivered) c.vp .presentationDelivered =
      (.done, [.close]) := by simp [Oid4vp.step, hvp]
  have hsurface (effects : List Effect) : surfaceAbort c.vp .done (c.withVp .done) effects =
      (c.withVp .done, effects) := surfaceAbort_of_not_aborted (by simp) _ _
  rw [drive_eq_of_not_validated hstep (by simp)]
  simp only [completeVp, collect_cons, collect_nil, translate, List.append_nil, hsurface, recordIfDone]
  exact if_pos ⟨by simp [hvp], rfl⟩

theorem drive_outcome_delivered : DriveOutcome p r c .presentationDelivered (c.drive p r .presentationDelivered) := by
  cases hvp : c.vp with
  | presenting =>
    rw [drive_presenting hvp]
    split
    · next hrecorded => exact .delivered hvp hrecorded
    · next hfailed => exact .unrecorded hvp hfailed
  | _ => exact drive_outcome_quiet (by rw [hvp]; rfl) (by simp) (by simp)

end

theorem drive_outcome (p : Platform) (r : Entropy) (c : Core) (input : Oid4vp.Input) :
    DriveOutcome p r c input (c.drive p r input) := by
  cases input with
  | authorizationRequest b => exact drive_outcome_request b
  | rpTrustResolved trust => exact drive_outcome_trust trust
  | consentGranted => exact drive_outcome_granted
  | consentDeclined => exact drive_outcome_declined
  | deviceSignatureProduced signature => exact drive_outcome_signature signature
  | presentationDelivered => exact drive_outcome_delivered

end Core

end EuWallet.Wallet
