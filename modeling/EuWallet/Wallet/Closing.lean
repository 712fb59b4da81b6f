import EuWallet.Wallet.Isolation
import EuWallet.Wallet.Release

/-! # Closing

`Close` tells the shell that the flow is over, so the core should have no active flow when it says so, and
say it once and last. The facade's own aborts see to it. What does not: an abort that the presentation
machine decides by itself, a proximity session the reader ends or that cannot be answered, and the errors
of one flow that close while another is active (`Lingers`). -/

namespace EuWallet.Wallet

open Codec Crypto Lib Presenter Protocol

def ClosesOnce (effects : List Effect) : Prop := ∃ shown, effects = shown ++ [.close] ∧ .close ∉ shown

theorem closesOnce_close : ClosesOnce [.close] := ⟨[], rfl, by simp⟩

theorem closesOnce_errorThenClose (code message : String) : ClosesOnce (errorThenClose code message) :=
  ⟨[.render (.error code message)], rfl, by simp⟩

theorem closesOnce_surfaced {reason : Oid4vp.AbortReason} {errors : List Effect}
    (h : Core.presentationErrorEffects reason = some errors) : ClosesOnce errors := by
  cases reason <;> cases h <;> exact closesOnce_errorThenClose _ _

theorem ClosesOnce.cons {effects : List Effect} {x : Effect} (h : ClosesOnce effects) (hx : x ≠ .close) :
    ClosesOnce (x :: effects) := by
  obtain ⟨shown, rfl, hshown⟩ := h
  exact ⟨x :: shown, rfl, by simp [hshown, hx.symm]⟩

namespace Core

/-- A call that closes does so once and last, and no flow is active afterwards. -/
def ClosesFlow (out : Core × List Effect) : Prop :=
  .close ∈ out.2 → ClosesOnce out.2 ∧ out.1.active = .none

def AbortsItself (p : Platform) (c : Core) : Oid4vp.Input → Prop
  | .authorizationRequest b => Oid4vp.parseRequest p b = none
  | .rpTrustResolved trust => ∃ req reason, c.vp = .resolvingTrust req ∧
      Oid4vp.firstFailedGuard p (c.vpEnv (.rpTrustResolved trust)) req trust = some reason ∧
      presentationErrorEffects reason ≠ none
  | .consentGranted => ∃ req, c.vp = .requestValidated req ∧
      ∀ first rest, (c.selectCredentialsFor .consentGranted).mapM
        (Oid4vp.subPresentation p (c.vpEnv .consentGranted) req) ≠ some (first :: rest)
  | _ => False

/-- The device can offer an engagement over the given service. -/
def Engages (p : Platform) (r : Entropy) (bleUuid : Bytes) : Prop :=
  bleUuid.length = 16 ∧ ∃ key cose, p.generateP256 r = some key ∧
    Iso18013.sec1ToCoseEc2 key.publicRaw = .ok cose

/-- The events that close and leave a flow active, or leave a flow behind that does so later. -/
def Lingers (p : Platform) (r : Entropy) (c : Core) : Event → Prop
  | .setClock epoch => epoch < c.nowEpoch ∧ ¬ c.NoOtherActive
  | .authorizationRequestReceived b => c.AbortsItself p (.authorizationRequest b)
  | .rpCertChainResolved chain uris => c.AbortsItself p (.rpTrustResolved (c.resolvedTrust p chain uris))
  | .statusListReceived _ _ _ _ => ¬ c.NoOtherActive ∨ c.AbortsItself p .consentGranted
  | .userConsented => c.AbortsItself p .consentGranted ∨
      (c.active = .proximity ∧ c.proximity.presentation = none ∧
        ∃ transcript, c.proximity.state = .sessionEstablished transcript)
  | .deviceSignatureProduced signature => c.active = .proximity ∧
      (∃ transcript, c.proximity.state = .signingResponse transcript) ∧
      ∀ cipher ciphertext, (c.withSignature signature).sealedDeviceResponse p ≠ some (cipher, .ok ciphertext)
  | .credentialOfferDeclined => c.active ≠ .none ∧ c.active ≠ .issuance
  | .walletTransferReceived credential _ _ _ _ _ => c.w2w = .awaitingTransfer ∧
      ∀ log, c.log.append p (c.transferEntry (p.sha256 credential)) ≠ .ok log
  | .proximityEngagementRequested bleUuid => c.active ≠ .none ∧ ¬ Engages p r bleUuid
  | .proximityReaderTermination => c.active ≠ .none
  | _ => False

/-- A presentation that waits for a signature has something to sign. -/
def Queued (c : Core) : Prop := ∀ pending, c.vp = .awaitingDeviceSignature pending → pending.queue ≠ []

section Flows
variable {p : Platform} {r : Entropy} {c : Core} {e : Event} {out : Core × List Effect}

theorem ClosesFlow.of_open (h : .close ∉ out.2) : ClosesFlow out := fun hclose => absurd hclose h

theorem ClosesFlow.of_ended (hcloses : ClosesOnce out.2) (hactive : out.1.active = .none) : ClosesFlow out :=
  fun _ => ⟨hcloses, hactive⟩

theorem ClosesFlow.terminate (g : ActiveFlow) (code message : String) :
    ClosesFlow (c.terminateAuditedFlow g code message) :=
  .of_ended (closesOnce_errorThenClose _ _) (active_terminateAuditedFlow _ _ _ _)

variable {effects : List Effect}

section
variable {g : ActiveFlow} (hactive : c.active = g ∨ c.active = .none) (hcloses : ClosesOnce effects)
include hactive hcloses

theorem ClosesFlow.reset : ClosesFlow (c.resetFlow g, effects) := by
  refine .of_ended hcloses ?_
  rw [active_resetFlow]
  split
  · rfl
  · next h => exact hactive.resolve_left h

theorem ClosesFlow.finish : ClosesFlow (c.finishFlow g, effects) := by
  refine .of_ended hcloses ?_
  rw [active_finishFlow]
  split
  · rfl
  · next h => exact hactive.resolve_left h

end

/-! ### The presentation -/

theorem DriveOutcome.closesFlow {input : Oid4vp.Input} (h : DriveOutcome p r c input out) (hqueued : c.Queued)
    (hself : ¬ c.AbortsItself p input) (hdeclined : input ≠ .consentDeclined)
    (hundelivered : input = .presentationDelivered → out.1.vp ≠ .done) : ClosesFlow out := by
  cases h with
  | unchanged | readmitted | received | validated | consented | signed | sent =>
    exact .of_open (by simp)
  | rejected | unrecorded => exact .terminate _ _ _
  | aborted _ _ hsurfaced => exact .of_ended (closesOnce_surfaced hsurfaced) rfl
  | abortedAtConsent _ _ hsurfaced =>
    exact .of_ended ((closesOnce_surfaced hsurfaced).cons (by simp)) rfl
  | malformed _ hparsed => exact absurd hparsed hself
  | @untrusted trust req reason hvp hfailed =>
    cases herrors : presentationErrorEffects reason with
    | some errors => exact absurd ⟨req, reason, hvp, hfailed, by simp [herrors]⟩ hself
    | none => exact .of_open (by simp)
  | unbuildable hvp hfailed => exact absurd ⟨_, hvp, hfailed⟩ hself
  | declined => exact absurd rfl hdeclined
  | emptyQueue hvp hqueue => exact absurd hqueue (hqueued _ hvp)
  | delivered _ hrecorded =>
    obtain ⟨log, latch, rfl⟩ := recordPresentation_eq hrecorded
    exact absurd rfl (hundelivered rfl)

theorem VpEvent.closesFlow (hown : c.VpOwned) (hqueued : c.Queued)
    (hself : ∀ input, Drives c e input → ¬ c.AbortsItself p input)
    (hrequest : ∀ b, e = .authorizationRequestReceived b → ¬ c.AbortsItself p (.authorizationRequest b))
    (h : VpEvent p r c e out) : ClosesFlow out := by
  cases h with
  | noted hfetches =>
    refine .of_open fun hclose => ?_
    obtain ⟨uri, huri⟩ := hfetches _ hclose
    cases huri
  | aborted _ hsurfaced | stray _ hsurfaced => exact .of_ended (closesOnce_surfaced hsurfaced) rfl
  | began houtcome =>
    refine houtcome.closesFlow ?_ (hrequest _ rfl) (by simp) (by simp)
    rintro pending ⟨⟩
  | drove hdrives hprogress _ houtcome hundelivered =>
    refine houtcome.closesFlow hqueued ?_ (by rintro rfl; cases hdrives) hundelivered
    have := hself _ hdrives
    cases hdrives <;> exact this
  | declined hvp => exact .reset (.inl (hown.active (by rw [hvp]; trivial))) closesOnce_close
  | delivered hvp hrecorded =>
    refine .finish (.inl ?_) closesOnce_close
    obtain ⟨log, latch, rfl⟩ := recordPresentation_eq hrecorded
    exact hown.active (by rw [hvp]; trivial)
  | finished => exact .of_open (by simp)

/-- The certificates of a relying party, judged for this core. -/
theorem rpCertChainResolved_closesFlow (hqueued : c.Queued) {chain : List Bytes}
    {uris : List String} (hself : ¬ c.AbortsItself p (.rpTrustResolved (c.resolvedTrust p chain uris))) :
    ClosesFlow (c.rpCertChainResolved p r chain uris) := by
  obtain ⟨provenance, hdrive⟩ := rpCertChainResolved_eq chain uris
  rw [hdrive]
  exact (drive_outcome p r _ _).closesFlow hqueued hself (by simp) (by simp)

/-! ### Payments, signatures, transfers, browser requests -/

theorem PaymentEvent.closesFlow (hown : c.payment.InProgress → c.active = .payment)
    (h : PaymentEvent p c e out) : ClosesFlow out := by
  cases h with
  | unchanged | ignored | asked | approved | authorized => exact .of_open (by simp)
  | refused => exact .reset (.inl rfl) (closesOnce_errorThenClose _ _)
  | rejected | unrecorded => exact .terminate _ _ _
  | declined hpayment => exact .reset (.inl (hown (by rw [hpayment]; trivial))) closesOnce_close
  | delivered hactive _ hrecorded =>
    obtain ⟨log, latch, rfl⟩ := recordPayment_eq hrecorded
    exact .finish (.inl hactive) closesOnce_close

theorem QesEvent.closesFlow (hown : c.qes.InProgress → c.active = .qes) (h : QesEvent p c e out) :
    ClosesFlow out := by
  cases h with
  | unchanged | ignored | asked | approved | signed => exact .of_open (by simp)
  | refused => exact .reset (.inl rfl) (closesOnce_errorThenClose _ _)
  | declined hqes => exact .reset (.inl (hown (by rw [hqes]; trivial))) closesOnce_close
  | delivered hactive => exact .finish (.inl hactive) closesOnce_close

theorem TransferEvent.closesFlow (hlingers : ¬ c.Lingers p r e) (h : TransferEvent p c e out) :
    ClosesFlow out := by
  cases h with
  | busy | offered => exact .of_open (by simp [walletTransferInProgressEffects])
  | rejected => exact .terminate _ _ _
  | refused hmine =>
    refine .finish ?_ (closesOnce_errorThenClose _ _)
    unfold receiving
    split
    · exact .inl rfl
    · next h => exact .inl (hmine.resolve_left h)
  | accepted hactive _ _ _ hrecorded =>
    refine .finish (.inl ?_) closesOnce_close
    obtain ⟨log, latch, rfl⟩ := appendAuditEntry_eq hrecorded
    exact hactive
  | unrecorded _ hw2w hfailed =>
    refine absurd ⟨hw2w, fun log hlog => ?_⟩ hlingers
    rw [appendAuditEntry_of_append (by exact hlog)] at hfailed
    cases hfailed

theorem DcApiEvent.closesFlow (h : DcApiEvent p c e out) : ClosesFlow out := by
  cases h with
  | unanswered => exact .reset (.inl rfl) closesOnce_close
  | asked | consented | responded => exact .of_open (by simp)
  | unprepared hactive | declined hactive => exact .reset (.inl hactive) closesOnce_close
  | ended hactive => exact .finish (.inl hactive) closesOnce_close

/-! ### Proximity -/

theorem proximityEngagementRequested_closesFlow {bleUuid : Bytes}
    (hlingers : ¬ c.Lingers p r (.proximityEngagementRequested bleUuid)) :
    ClosesFlow (c.proximityEngagementRequested p r bleUuid) := by
  have hunavailable (hno : ¬ Engages p r bleUuid) : ClosesFlow (c, [.close]) := by
    refine .of_ended closesOnce_close ?_
    by_contra hactive
    exact hlingers ⟨hactive, hno⟩
  unfold proximityEngagementRequested
  split
  · next hlength => exact hunavailable fun h => hlength h.1
  · split
    · next hkey =>
      refine hunavailable fun h => ?_
      obtain ⟨-, key, cose, hsome, -⟩ := h
      simp [hkey] at hsome
    · next deviceKey hkey =>
      split
      · next hcose =>
        refine hunavailable fun h => ?_
        obtain ⟨-, key, cose, hsome, hok⟩ := h
        obtain rfl : deviceKey = key := by simpa [hkey] using hsome
        simp [hcose] at hok
      · next deviceKeyCose _ =>
        have hengaged : ClosesFlow ((c.beginFlow .proximity).withProximity
            { state := .engaged (Iso18013.buildDeviceEngagement deviceKeyCose bleUuid)
              deviceKey := some deviceKey },
            [.emitDeviceEngagement (Iso18013.buildDeviceEngagement deviceKeyCose bleUuid)]) :=
          .of_open (by simp)
        exact hengaged

theorem proximitySignature_closesFlow (hsettled : ∀ reason, c.proximity.state ≠ .aborted reason)
    (hown : c.proximity.state.InProgress → c.active = .proximity) (hactive : c.active = .proximity)
    {signature : Bytes} (hlingers : ¬ c.Lingers p r (.deviceSignatureProduced signature)) :
    ClosesFlow (c.driveProximity p (.deviceSignatureProduced signature)) := by
  have hevent := proximitySignature_event (p := p) (r := r) hsettled hactive signature
  generalize hout : c.driveProximity p (.deviceSignatureProduced signature) = out at hevent ⊢
  cases hevent with
  | noted => exact .of_open (by simp)
  | refused hstate => exact .reset (.inl (hown (by rw [hstate]; trivial))) closesOnce_close
  | @responded transcript _ flow effects _ hstate =>
    rw [driveProximity_signature hstate] at hout
    obtain ⟨-, rfl⟩ := Prod.mk.inj hout
    unfold respondedEffects
    split
    · exact .of_open (by simp)
    · next hsealed => exact absurd ⟨hactive, ⟨_, hstate⟩, by simp [hsealed]⟩ hlingers
    · next hsealed => exact absurd ⟨hactive, ⟨_, hstate⟩, by simp [hsealed]⟩ hlingers

theorem ProximityEvent.closesFlow (hown : c.proximity.state.InProgress → c.active = .proximity)
    (hengagement : ∀ bleUuid, e ≠ .proximityEngagementRequested bleUuid)
    (hsignature : ∀ signature, e ≠ .deviceSignatureProduced signature) (hlingers : ¬ c.Lingers p r e)
    (h : ProximityEvent p r c e out) : ClosesFlow out := by
  cases h with
  | unavailable | engaged => exact absurd rfl (hengagement _)
  | responded => exact absurd rfl (hsignature _)
  | noted | established => exact .of_open (by simp)
  | refused hstate => exact .reset (.inl (hown (by rw [hstate]; trivial))) closesOnce_close
  | consented hactive hstate =>
    refine .of_open ?_
    unfold proximitySign
    split
    · simp
    · next hnone => exact absurd (.inr ⟨hactive, hnone, _, hstate⟩) hlingers
  | declined hactive => exact .reset (.inl hactive) closesOnce_close
  | terminated => exact .of_ended closesOnce_close (not_not.mp hlingers)

/-! ### Issuance -/

theorem issuanceEffect_open {env : Oid4vci.Env} {s next : Oid4vci.State} {i : Oid4vci.Input}
    {outputs : List Oid4vci.Output} (h : Oid4vci.Transition p env s i (next, outputs))
    (hwaiting : next.InProgress ∨ next = .idle) : .close ∉ outputs.map c.issuanceEffect := by
  cases h with
  | refused | closed | issued => rcases hwaiting with h | h <;> cases h
  | _ => simp [issuanceEffect]

variable {input : Oid4vci.Input}

theorem IssuanceOutcome.closesFlow (hactive : c.active = .issuance ∨ c.active = .none)
    (h : IssuanceOutcome p c input out) : ClosesFlow out := by
  have hquiet {c₁ : Core} {effects : List Effect} (h : .close ∉ effects) : .close ∉ c₁.showPreparing p input effects := by
    intro hclose
    obtain hclose | ⟨document, ⟨⟩⟩ := mem_showPreparing hclose
    exact h hclose
  cases h with
  | rejected | unrecorded => exact .terminate _ _ _
  | moved hstep hwaiting => exact .of_open (hquiet (issuanceEffect_open hstep hwaiting))
  | aborted hends =>
    rcases hends with rfl | rfl | rfl
    · exact .of_open (by simp)
    · exact .finish hactive closesOnce_close
    · exact .finish hactive (closesOnce_errorThenClose _ _)
  | settled => exact .of_open (hquiet (by simp))
  | @stored _ _ verified c' _ _ _ _ _ _ hrecorded hends =>
    obtain ⟨screens, rfl, hscreens⟩ := hends
    have hkept : (c'.storeVerifiedCredential verified).active = c.active := by
      obtain ⟨log, latch, rfl⟩ := appendAuditEntry_eq hrecorded
      unfold storeVerifiedCredential
      split <;> rfl
    refine .finish (by rwa [hkept]) ⟨screens, rfl, fun hclose => ?_⟩
    obtain ⟨document, hrender⟩ := hscreens _ hclose
    cases hrender
  | unstored =>
    have hkept (c₁ : Core) : c₁.takeVerified.rejectIssued.active = c₁.active := rfl
    refine .finish ?_ (closesOnce_errorThenClose _ _)
    rw [hkept]
    exact hactive

theorem driveIssuance_closesFlow (hown : c.issuance.InProgress → c.active = .issuance) (hscrubbed : c.Scrubbed)
    (hoffer : ∀ b, input ≠ .credentialOffer b)
    (hdecline : input = .decline → c.active = .issuance ∨ c.active = .none) :
    ClosesFlow (c.driveIssuance p input) := by
  by_cases hactive : c.active = .issuance ∨ c.active = .none
  · exact (driveIssuance_outcome p c input).closesFlow hactive
  have hidle : ¬ c.issuance.InProgress := fun h => hactive (.inl (hown h))
  have hinput : input ≠ .decline := fun h => hactive (hdecline h)
  by_cases hissued : ∃ format credential, c.issuance = .credentialIssued format credential
  · obtain ⟨format, credential, hstate⟩ := hissued
    rw [driveIssuance_nameless hstate (hscrubbed _ _ hstate) hinput]
    exact .terminate _ _ _
  · have hunissued : ∀ format credential, c.issuance ≠ .credentialIssued format credential :=
      fun format credential hstate => hissued ⟨format, credential, hstate⟩
    rcases driveIssuance_quiet (p := p) hidle hunissued hoffer hinput with h | h <;> rw [h]
    · refine .of_open fun hclose => ?_
      obtain hclose | ⟨document, hclose⟩ := mem_showPreparing hclose <;> cases hclose
    · exact .of_open (by simp)

theorem tokenReceived_closesFlow (hown : c.issuance.InProgress → c.active = .issuance)
    (hscrubbed : c.Scrubbed) (bound : Bool) (cNonce : ℕ) : ClosesFlow (c.tokenReceived p bound cNonce) := by
  have hdrive : ClosesFlow (c.driveIssuance p (.tokenResponse bound cNonce)) :=
    driveIssuance_closesFlow hown hscrubbed (by simp) (by simp)
  unfold tokenReceived
  dsimp only
  split
  · exact hdrive
  · exact hdrive

theorem credentialReceived_closesFlow (hown : c.issuance.InProgress → c.active = .issuance)
    (format : String) (credential : Bytes) : ClosesFlow (c.credentialReceived p format credential) := by
  have hevent := credentialReceived_event (p := p) (c := c) format credential
  generalize c.credentialReceived p format credential = out at hevent
  cases hevent with
  | drove hdrives => cases hdrives
  | received hissuance _ houtcome =>
    refine houtcome.closesFlow (.inl ?_)
    exact hown (by rw [hissuance]; trivial)
  | unexpected =>
    -- Only an issuance, or no flow at all, is told to close.
    by_cases hactive : c.active = .none ∨ c.active = .issuance
    · refine .of_ended ?_ ?_
      · simp only [rejectUnexpectedCredentialResponse, if_pos hactive]
        exact closesOnce_errorThenClose _ _
      · rcases rejectUnexpectedCredentialResponse_core c with h | ⟨hother, h⟩
        · rw [h, active_finishFlow]
          split
          · rfl
          · next hne => exact hactive.resolve_right hne
        · rw [h]
          exact hactive.resolve_right hother
    · refine .of_open ?_
      simp only [rejectUnexpectedCredentialResponse, if_neg hactive]
      simp

/-! ### All events -/

theorem drives_abortsItself (hlingers : ¬ c.Lingers p r e)
    (hchain : ∀ chain uris, e ≠ .rpCertChainResolved chain uris) :
    ∀ input, Drives c e input → ¬ c.AbortsItself p input := by
  rintro input (_ | _ | _ | _ | _) hself
  · exact hchain _ _ rfl
  · exact hlingers (.inl hself)
  · exact hlingers (.inr hself)
  · exact hself
  · exact hself

/-- What the lists of outcomes tell of closing. They do not tell how a relying party was judged, why an engagement or a
signature failed, and what an issuance does while another flow is active. -/
theorem DispatchOutcome.closesFlow (hsteady : c.Steady) (hconfined : c.Confined) (hqueued : c.Queued)
    (hpending : c.pendingOperations = []) (hlingers : ¬ c.Lingers p r e)
    (hchain : ∀ chain uris, e ≠ .rpCertChainResolved chain uris)
    (hengagement : ∀ bleUuid, e ≠ .proximityEngagementRequested bleUuid)
    (hsignature : ∀ signature, e ≠ .deviceSignatureProduced signature) (hissuance : ¬ IssuanceEvent p c e out)
    (h : DispatchOutcome p r c e out) : ClosesFlow out := by
  cases h with
  | presentation event =>
    refine event.closesFlow hsteady.vp hqueued (drives_abortsItself hlingers hchain) ?_
    rintro b rfl
    exact hlingers
  | payment event => exact event.closesFlow (hconfined .payment)
  | issuance event => exact absurd event hissuance
  | qes event => exact event.closesFlow (hconfined .qes)
  | transfer event => exact event.closesFlow hlingers
  | proximity event => exact event.closesFlow (hconfined .proximity) hengagement hsignature hlingers
  | dcApi event => exact event.closesFlow
  | clockRefused hbackward hactive =>
    refine .of_ended (closesOnce_errorThenClose _ _) ?_
    by_contra hother
    exact hlingers ⟨hbackward, not_or.mpr ⟨hactive, hother⟩⟩
  | clock | redacted | wiped | hybrid | removed => exact .of_open (by simp)
  | ended hregistered =>
    rw [hpending] at hregistered
    cases hregistered

section
variable (hsteady : c.Steady) (hconfined : c.Confined) (hscrubbed : c.Scrubbed) (hqueued : c.Queued)
  (hpending : c.pendingOperations = []) (hlingers : ¬ c.Lingers p r e)
include hsteady hconfined hscrubbed hqueued hpending hlingers

theorem dispatch_closesFlow : ClosesFlow (c.dispatch p r e) := by
  have hissuance {input : Oid4vci.Input} (hoffer : ∀ b, input ≠ .credentialOffer b)
      (hdecline : input = .decline → c.active = .issuance ∨ c.active = .none) :
      ClosesFlow (c.driveIssuance p input) :=
    driveIssuance_closesFlow (hconfined .issuance) hscrubbed hoffer hdecline
  cases e with
  | rpCertChainResolved => exact rpCertChainResolved_closesFlow hqueued hlingers
  | proximityEngagementRequested => exact proximityEngagementRequested_closesFlow hlingers
  | deviceSignatureProduced signature =>
    show ClosesFlow (c.deviceSignatureProduced p r signature)
    cases hactive : c.active with
    | payment =>
      simp only [deviceSignatureProduced, hactive]
      exact (paymentSignature_event hsteady.payment hactive signature).closesFlow (hconfined .payment)
    | issuance =>
      simp only [deviceSignatureProduced, hactive]
      exact hissuance (by simp) (by simp)
    | qes =>
      simp only [deviceSignatureProduced, hactive]
      exact (qesSignature_event (p := p) hsteady.qes hactive signature).closesFlow (hconfined .qes)
    | proximity =>
      simp only [deviceSignatureProduced, hactive]
      exact proximitySignature_closesFlow hsteady.proximity (hconfined .proximity) hactive hlingers
    | dcApi =>
      simp only [deviceSignatureProduced, hactive]
      exact (dcapiSignatureProduced_event (p := p) hactive signature).closesFlow
    | presentation | walletTransfer | none =>
      exact (deviceSignatureProduced_event signature (by simp [hactive])).closesFlow hsteady.vp hqueued
        (drives_abortsItself hlingers (by simp)) (by simp)
  | credentialOfferReceived offer chain issuerId =>
    have houtcome := driveIssuance_outcome p (c.offering p chain issuerId) (.credentialOffer offer)
    exact houtcome.closesFlow (.inl rfl)
  | credentialOfferAccepted | parPushed | authorizationCodeReturned | transactionCodeEntered =>
    exact hissuance (by simp) (by simp)
  | credentialOfferDeclined =>
    refine hissuance (by simp) fun _ => ?_
    by_contra hactive
    rw [not_or] at hactive
    exact hlingers ⟨hactive.2, hactive.1⟩
  | tokenReceived => exact tokenReceived_closesFlow (hconfined .issuance) hscrubbed _ _
  | credentialReceived => exact credentialReceived_closesFlow (hconfined .issuance) _ _
  | _ =>
    refine (dispatch_outcome hsteady _).closesFlow hsteady hconfined hqueued hpending hlingers (by simp) (by simp)
      (by simp) fun h => ?_
    cases h with
    | drove hdrives => cases hdrives

theorem handleEvent_closesFlow : ClosesFlow (c.handleEvent p r e) := by
  have hdispatch := dispatch_closesFlow hsteady hconfined hscrubbed hqueued hpending hlingers
  unfold handleEvent
  split
  · split_ifs
    · exact .terminate _ _ _
    · exact .terminate _ _ _
    · exact hdispatch
  · exact hdispatch

end

/-! ### Runs -/

theorem EventOutcome.queued (hsteady : c.Steady) (hqueued : c.Queued) {c' : Core}
    (h : EventOutcome p r c e (c', effects)) : c'.Queued := by
  intro pending hpending
  cases h.move hsteady with
  | still hvp => exact hqueued pending (hvp ▸ hpending)
  | ended hvp => exact absurd trivial (by rwa [hpending] at hvp)
  | readmitted _ _ hnext => exact hqueued pending (hnext ▸ hpending)
  | consented _ _ _ _ hnext | signed _ _ _ _ hnext =>
    rw [hnext] at hpending
    cases hpending
    simp
  | received _ _ hnext | shown _ _ _ hnext | sent _ _ _ _ hnext =>
    rw [hnext] at hpending
    cases hpending

/-- A call registers no operation, except that a stray status list is not judged here. -/
theorem EventOutcome.operations (hsteady : c.Steady) (hstray : ¬ c.Stray e) (h : EventOutcome p r c e out) :
    out.1.pendingOperations.Sublist c.pendingOperations := by
  cases h with
  | @unavailable f => exact (Conduct.auditLogFaultEffects (g := f)).operations
  | @full f => exact (Conduct.auditLogCapacityEffects (g := f)).operations
  | dispatched _ houtcome =>
    cases houtcome with
    | presentation hevent =>
      refine (hevent.conduct hsteady.vp ?_).operations
      rintro ⟨uri, httpStatus, token, chain, rfl⟩
      exact not_not.mp hstray
    | payment hevent => exact hevent.conduct.operations
    | issuance hevent => exact hevent.conduct.operations
    | qes hevent => exact hevent.conduct.operations
    | transfer hevent => exact hevent.conduct.operations
    | proximity hevent => exact hevent.conduct.operations
    | dcApi hevent => exact hevent.conduct.operations
    | clock | clockRefused | redacted | wiped | hybrid => exact .refl _
    | removed => exact List.filter_sublist
    | ended => exact (resetFlow_operations _ _).trans List.filter_sublist

theorem not_stray_of_lingers (h : ¬ c.Lingers p r e) : ¬ c.Stray e := by
  cases e <;> first | exact id | exact fun hstray => h (.inl hstray)

theorem Provisioned.pendingOperations (h : Provisioned p c) : c.pendingOperations = [] := by
  obtain ⟨i, k, n, hc⟩ := h.eq_suppliedFrom
  rw [hc]
  rfl

theorem Provisioned.vp (h : Provisioned p c) : c.vp = .idle := by
  obtain ⟨i, k, n, hc⟩ := h.eq_suppliedFrom
  rw [hc]
  rfl

/-- **Close discipline**: in every run without an event that lingers, a call that closes does so once and
last, and leaves no flow active. -/
theorem run_closesFlow (hfresh : Provisioned p c) (inputs : List (Event × Entropy))
    (hcond : Always (fun _ k => ¬ k.before.Lingers p k.input.2 k.input.1) (run p c inputs)) :
    Always (fun _ k => ClosesFlow (k.after, k.outputs)) (run p c inputs) := by
  refine run_always
    (fun _ c => c.Confined ∧ c.Scrubbed ∧ c.Queued ∧ c.pendingOperations = [])
    (fun _ k => ¬ k.before.Lingers p k.input.2 k.input.1) hfresh
    ⟨hfresh.confined, hfresh.scrubbed, ?_, hfresh.pendingOperations⟩ ?_ ?_ inputs hcond
  · intro pending hpending
    rw [hfresh.vp] at hpending
    cases hpending
  · rintro pre k htaken ⟨hconfined, hscrubbed, hqueued, hpending⟩ hlingers
    have hstray := not_stray_of_lingers hlingers
    have hoperations := htaken.outcome.operations htaken.steady hstray
    rw [hpending] at hoperations
    exact ⟨htaken.outcome.confined htaken.steady hconfined hstray,
      htaken.outcome.scrubbed htaken.steady hscrubbed, htaken.outcome.queued htaken.steady hqueued,
      List.sublist_nil.mp hoperations⟩
  · rintro pre k htaken ⟨hconfined, hscrubbed, hqueued, hpending⟩ hlingers
    rw [← htaken.result]
    exact handleEvent_closesFlow htaken.steady hconfined hscrubbed hqueued hpending hlingers

end Flows

/-- A payment request that makes no sense ends the transfer before it, and the shell is told so. -/
theorem run_closesFlow_payment : ∃ k : Turn, (run default (.new "wallet" "device" 0)
      [(.walletTransferOfferCreated, []), (.paymentAuthorizationRequestReceived [], [])]).getLast? = some k ∧
    k.before.active = .walletTransfer ∧ .close ∈ k.outputs ∧ ClosesFlow (k.after, k.outputs) := by
  refine ⟨_, rfl, by decide, by decide, ?_⟩
  refine run_closesFlow (p := default) (.new "wallet" "device" 0)
    [(.walletTransferOfferCreated, []), (.paymentAuthorizationRequestReceived [], [])] ?_ [_] _ [] rfl
  intro pre k post hrun
  have hk : k ∈ run default (.new "wallet" "device" 0)
      [(.walletTransferOfferCreated, []), (.paymentAuthorizationRequestReceived [], [])] := by
    rw [hrun]
    simp
  simp only [run, calls, List.mem_cons, List.not_mem_nil, or_false] at hk
  rcases hk with rfl | rfl <;> exact id

/-- A request that does not parse is answered with an error and `Close`, and the presentation stays active. -/
theorem run_malformed_lingers : ∃ k : Turn,
    run default (.new "wallet" "device" 0) [(.authorizationRequestReceived [], [])] = [k] ∧
      .close ∈ k.outputs ∧ k.after.active = .presentation ∧ ¬ ClosesFlow (k.after, k.outputs) := by
  have hclose : Effect.close ∈ (callOf (respond default) (.new "wallet" "device" 0)
      (.authorizationRequestReceived [], [])).outputs := by decide
  have hactive : (callOf (respond default) (.new "wallet" "device" 0)
      (.authorizationRequestReceived [], [])).after.active = .presentation := by decide
  refine ⟨_, rfl, hclose, hactive, fun h => ?_⟩
  have hnone := (h hclose).2
  cases hnone

end Core

end EuWallet.Wallet
