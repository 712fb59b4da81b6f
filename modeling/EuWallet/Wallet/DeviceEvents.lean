import EuWallet.Wallet.IssuanceEvents

/-! # What an event can do to an in-person or a browser presentation

The outcomes of the proximity driver and of the Digital Credentials API. The proximity machine never
stays aborted, since its driver resets the flow. -/

namespace EuWallet.Wallet

open Codec Crypto Formats Lib Presenter Protocol
open Trust

namespace Core

/-! ### In person -/

def withProximity (c : Core) (proximity : ProximityFlow) : Core := { c with proximity }

def proximityScreen (presentation : Option ProximityPresentation) : ScreenDescription :=
  .proximityConsent ((presentation.map (·.disclosed)).getD [])

/-- What a granted consent asks for. -/
def proximitySign (c : Core) : List Effect :=
  match c.proximity.presentation with
  | some presentation => [.sign c.config.deviceKeyRef presentation.signingInput]
  | none => [.close]

inductive ProximityEvent (p : Platform) (r : Entropy) (c : Core) : Event → Core × List Effect → Prop
  | unavailable {bleUuid} : ProximityEvent p r c (.proximityEngagementRequested bleUuid) (c, [.close])
  | engaged {bleUuid deviceKey engagement} :
      ProximityEvent p r c (.proximityEngagementRequested bleUuid)
        ((c.beginFlow .proximity).withProximity
            { state := .engaged engagement, deviceKey := some deviceKey },
          [.emitDeviceEngagement engagement])
  /-- No transition; a request or a signature may be written down. -/
  | noted {e flow} (state : flow.state = c.proximity.state)
      (presentation : flow.presentation = c.proximity.presentation) :
      ProximityEvent p r c e (c.withProximity flow, [])
  | refused {e engagement} (state : c.proximity.state = .engaged engagement) :
      ProximityEvent p r c e (c.resetFlow .proximity, [.close])
  /-- The reader's request is opened, answered with a selection and shown. -/
  | established {establishment engagement transcript flow}
      (state : c.proximity.state = .engaged engagement)
      (next : flow.state = .sessionEstablished transcript)
      (built : ∀ presentation, flow.presentation = some presentation →
        ∃ summary t, c.buildProximityPresentation p summary t = some presentation)
      (hash : flow.consentHash = consentHash p (proximityScreen flow.presentation)) :
      ProximityEvent p r c (.proximityReaderEstablishment establishment)
        (c.withProximity flow, [.render (proximityScreen flow.presentation)])
  | consented {transcript} (active : c.active = .proximity)
      (state : c.proximity.state = .sessionEstablished transcript) :
      ProximityEvent p r c .userConsented
        (c.withProximity { c.proximity with state := .signingResponse transcript }, c.proximitySign)
  | declined {transcript} (active : c.active = .proximity)
      (state : c.proximity.state = .sessionEstablished transcript) :
      ProximityEvent p r c .userDeclined (c.resetFlow .proximity, [.close])
  | responded {transcript signature flow effects} (active : c.active = .proximity)
      (state : c.proximity.state = .signingResponse transcript) (next : flow.state = .responded)
      (presentation : flow.presentation = c.proximity.presentation)
      (response : effects = [.close] ∨ ∃ sent cipher ciphertext,
        c.proximity.presentation = some sent ∧ c.proximity.cipher = some cipher ∧
        (cipher.sealFromDevice p (deviceResponse sent.doctype sent.issuerSigned
          sent.deviceNamespacesBytes ⟨sent.protectedHeader, {}, none, signature⟩)).2 = .ok ciphertext ∧
        effects = [.emitDeviceResponse (Iso18013.sessionData ciphertext)]) :
      ProximityEvent p r c (.deviceSignatureProduced signature) (c.withProximity flow, effects)
  | terminated :
      ProximityEvent p r c .proximityReaderTermination
        (c.withProximity { c.proximity with state := .terminated }, [.close])

section Proximity
variable {p : Platform} {r : Entropy} {c : Core} {input : Iso18013.Input}

theorem finishProximity_of_not_aborted (h : ∀ reason, c.proximity.state ≠ .aborted reason)
    (effects : List Effect) : c.finishProximity effects = (c, effects) := by
  unfold finishProximity
  split
  · next hreason => exact absurd hreason (h _)
  · rfl

/-- An input that changes nothing before the transition and has none. -/
theorem driveProximity_quiet {flow : ProximityFlow} {agreed : Bool}
    (hsettled : ∀ reason, c.proximity.state ≠ .aborted reason)
    (hprepare : c.prepareProximity p input = (c.withProximity flow, agreed)) (hstate : flow.state = c.proximity.state)
    (hstep : ∀ env, Iso18013.step env c.proximity.state input = (c.proximity.state, [])) :
    c.driveProximity p input = (c.withProximity flow, []) := by
  have hflow : (c.withProximity flow).proximity.state = c.proximity.state := hstate
  have hadvance : c.advanceProximity p input = (c.withProximity flow, []) := by
    simp only [advanceProximity, hprepare, hflow, hstep]
    rw [← hstate]
    rfl
  simp only [driveProximity, hadvance, collect_nil]
  exact finishProximity_of_not_aborted (by rwa [hflow]) []

def ProximityAwaits : Iso18013.State → Iso18013.Input → Prop
  | .idle, .startEngagement _ _ => True
  | .engaged _, .readerEstablishment _ => True
  | .sessionEstablished _, .consentGranted => True
  | .sessionEstablished _, .consentDeclined => True
  | .signingResponse _, .deviceSignatureProduced _ => True
  | .engaged _, .consentGranted => True
  | _, .readerTermination => True
  | _, _ => False

theorem proximityStep_quiet {state : Iso18013.State} (h : ¬ ProximityAwaits state input) (env : Iso18013.Env)
    : Iso18013.step env state input = (state, []) := by
  cases state <;> cases input <;> first | rfl | exact absurd trivial h

theorem proximityEngagementRequested_event (bleUuid : Bytes) :
    ProximityEvent p r c (.proximityEngagementRequested bleUuid) (c.proximityEngagementRequested p r bleUuid) := by
  unfold proximityEngagementRequested
  split
  · exact .unavailable
  · split
    · exact .unavailable
    · next deviceKey _ =>
      split
      · exact .unavailable
      · next deviceKeyCose _ =>
        have hengaged : ProximityEvent p r c (.proximityEngagementRequested bleUuid)
            ((c.beginFlow .proximity).withProximity
              { state := .engaged (Iso18013.buildDeviceEngagement deviceKeyCose bleUuid)
                deviceKey := some deviceKey },
              [.emitDeviceEngagement (Iso18013.buildDeviceEngagement deviceKeyCose bleUuid)]) := .engaged
        exact hengaged

variable {transcript key engagement : Bytes} {cipher : Iso18013.SessionCipher}

theorem openReaderRequest_presentation {presentation : ProximityPresentation}
    (h : (c.openReaderRequest p cipher transcript).proximity.presentation = some presentation) :
    ∃ data request summary, c.proximity.pendingRequest = some data ∧
      (cipher.openFromReader p data).2.toOption = some request ∧
      (Iso18013.parseDeviceRequest request).toOption = some summary ∧
      c.buildProximityPresentation p summary transcript = some presentation := by
  unfold openReaderRequest at h
  dsimp only at h
  split at h
  · cases h
  · next data hdata =>
    simp only [Option.bind_eq_bind, Option.bind_eq_some_iff] at h
    obtain ⟨request, hrequest, summary, hsummary, hbuilt⟩ := h
    exact ⟨data, request, summary, hdata, hrequest, hsummary, hbuilt⟩

/-- The flow after a reader's request was opened and shown. -/
def establishedFlow (p : Platform) (c : Core) (cipher : Iso18013.SessionCipher)
    (opened established : Bytes) : ProximityFlow :=
  let flow := (c.openReaderRequest p cipher opened).proximity
  { flow with
    state := .sessionEstablished established
    consentHash := consentHash p (proximityScreen flow.presentation) }

theorem driveProximity_refused (hengaged : c.proximity.state = .engaged engagement)
    (hsession : c.proximitySession p key = none) :
    c.driveProximity p (.readerEstablishment key) = (c.resetFlow .proximity, [.close]) := by
  simp only [driveProximity, advanceProximity, prepareProximity, hsession, hengaged, Iso18013.step,
    Iso18013.Guards.readerEphemeralKeyValid, finishProximity]
  rfl

/-- The request of any other reader is opened and shown. -/
theorem driveProximity_established (hengaged : c.proximity.state = .engaged engagement)
    (hsession : c.proximitySession p key = some (cipher, transcript)) :
    c.driveProximity p (.readerEstablishment key) =
      (c.withProximity (c.establishedFlow p cipher transcript (Iso18013.sessionTranscript engagement key)),
        [.render (proximityScreen
          (c.establishedFlow p cipher transcript (Iso18013.sessionTranscript engagement key)).presentation)]) := by
  have hopened : (c.openReaderRequest p cipher transcript).proximity.state = .engaged engagement := hengaged
  simp only [driveProximity, advanceProximity, prepareProximity, hsession, hopened, Iso18013.step,
    Iso18013.Guards.readerEphemeralKeyValid, Iso18013.Guards.sessionTranscriptIsBound,
    Iso18013.Guards.readerAuthValid, finishProximity]
  rfl

/-- A reader's request that nobody waits for changes nothing. -/
theorem driveProximity_unawaited (hsettled : ∀ reason, c.proximity.state ≠ .aborted reason)
    (hengaged : ∀ engagement, c.proximity.state ≠ .engaged engagement) :
    c.driveProximity p (.readerEstablishment key) = (c, []) := by
  have hnot : ¬ ProximityAwaits c.proximity.state (.readerEstablishment key) := by
    cases h : c.proximity.state <;> first | exact id | exact absurd h (hengaged _)
  have hsession : c.proximitySession p key = none := by
    unfold proximitySession
    split
    · next h _ => exact absurd h (hengaged _)
    · rfl
  have hprepare : c.prepareProximity p (.readerEstablishment key) = (c.withProximity c.proximity, false) := by
    simp only [prepareProximity, hsession]
    rfl
  exact driveProximity_quiet hsettled hprepare rfl (proximityStep_quiet hnot)

theorem driveProximity_establishment {establishment : Bytes} {pendingRequest : Option Bytes}
    (hsettled : ∀ reason, c.proximity.state ≠ .aborted reason) :
    ProximityEvent p r c (.proximityReaderEstablishment establishment)
      ((c.withProximity { c.proximity with pendingRequest }).driveProximity p (.readerEstablishment key)) := by
  set c₁ := c.withProximity { c.proximity with pendingRequest } with hc₁
  have hstate : c₁.proximity.state = c.proximity.state := rfl
  cases hengaged : c.proximity.state with
  | engaged engagement =>
    cases hsession : c₁.proximitySession p key with
    | none =>
      rw [driveProximity_refused (hstate.trans hengaged) hsession]
      exact .refused hengaged
    | some session =>
      obtain ⟨cipher, transcript⟩ := session
      rw [driveProximity_established (hstate.trans hengaged) hsession]
      refine .established hengaged rfl (fun presentation hpresentation => ?_) rfl
      obtain ⟨-, -, summary, -, -, -, hbuilt⟩ := openReaderRequest_presentation hpresentation
      exact ⟨summary, transcript, hbuilt⟩
  | _ =>
    rw [driveProximity_unawaited (by rwa [hstate]) (by simp [hstate, hengaged])]
    exact .noted rfl rfl

theorem proximityReaderEstablishment_event (hsettled : ∀ reason, c.proximity.state ≠ .aborted reason)
    (establishment : Bytes) : ProximityEvent p r c (.proximityReaderEstablishment establishment)
      (c.proximityReaderEstablishment p establishment) := by
  unfold proximityReaderEstablishment
  split
  · exact driveProximity_establishment hsettled
  · have hdrive : ProximityEvent p r c (.proximityReaderEstablishment establishment)
        ((c.withProximity { c.proximity with pendingRequest := c.proximity.pendingRequest }
          ).driveProximity p (.readerEstablishment [])) := driveProximity_establishment hsettled
    exact hdrive

theorem driveProximity_terminated : c.driveProximity p .readerTermination =
    (c.withProximity { c.proximity with state := .terminated }, [.close]) := by
  have hstep (env : Iso18013.Env) : Iso18013.step env c.proximity.state .readerTermination =
      (.terminated, [.emitTermination]) := by
    cases c.proximity.state <;> rfl
  simp only [driveProximity, advanceProximity, prepareProximity, hstep, finishProximity]
  rfl

theorem proximityReaderTermination_event :
    ProximityEvent p r c .proximityReaderTermination (c.driveProximity p .readerTermination) := by
  rw [driveProximity_terminated]
  exact .terminated

section
variable (hsettled : ∀ reason, c.proximity.state ≠ .aborted reason) (hactive : c.active = .proximity)
include hsettled hactive

theorem proximityConsented_event : ProximityEvent p r c .userConsented (c.driveProximity p .consentGranted) := by
  cases hstate : c.proximity.state with
  | engaged engagement =>
    have hdrive : c.driveProximity p .consentGranted = (c.resetFlow .proximity, [.close]) := by
      simp only [driveProximity, advanceProximity, prepareProximity, hstate, Iso18013.step, finishProximity]
      rfl
    rw [hdrive]
    exact .refused hstate
  | sessionEstablished transcript =>
    have hdrive : c.driveProximity p .consentGranted =
        (c.withProximity { c.proximity with state := .signingResponse transcript }, c.proximitySign) := by
      simp only [driveProximity, advanceProximity, prepareProximity, hstate, Iso18013.step,
        collect_cons, collect_nil, translateProximity, List.append_nil]
      unfold proximitySign
      split <;> simp_all [finishProximity, withProximity]
    rw [hdrive]
    exact .consented hactive hstate
  | _ =>
    rw [driveProximity_quiet hsettled rfl rfl (proximityStep_quiet (by rw [hstate]; exact id))]
    exact .noted rfl rfl

theorem proximityDeclined_event : ProximityEvent p r c .userDeclined (c.driveProximity p .consentDeclined) := by
  cases hstate : c.proximity.state with
  | sessionEstablished transcript =>
    have hdrive : c.driveProximity p .consentDeclined = (c.resetFlow .proximity, [.close]) := by
      simp only [driveProximity, advanceProximity, prepareProximity, hstate, Iso18013.step, finishProximity]
      rfl
    rw [hdrive]
    exact .declined hactive hstate
  | _ =>
    rw [driveProximity_quiet hsettled rfl rfl (proximityStep_quiet (by rw [hstate]; exact id))]
    exact .noted rfl rfl

end

/-- The flow once its response is handed over: the signature is spent, the cipher has moved on. -/
def respondedFlow (p : Platform) (c : Core) : ProximityFlow :=
  { c.proximity with
    state := .responded
    lastSignature := none
    cipher := match c.sealedDeviceResponse p with
      | some (cipher, _) => some cipher
      | none => c.proximity.cipher }

/-- The device response, or the end of the flow when there is none. -/
def respondedEffects (p : Platform) (c : Core) : List Effect :=
  match c.sealedDeviceResponse p with
  | some (_, .ok ciphertext) => [.emitDeviceResponse (Iso18013.sessionData ciphertext)]
  | some (_, .error _) | none => [.close]

theorem translateProximity_response (body : Bytes) :
    (c.withProximity { c.proximity with state := .responded }).translateProximity p
        (.emitDeviceResponse body) =
      (c.withProximity (c.respondedFlow p), c.respondedEffects p) := by
  have hsealed : (c.withProximity { c.proximity with state := .responded }).sealedDeviceResponse p =
      c.sealedDeviceResponse p := rfl
  cases hresponse : c.sealedDeviceResponse p with
  | none =>
    simp only [translateProximity, hsealed, respondedFlow, respondedEffects, hresponse]
    rfl
  | some out =>
    obtain ⟨cipher, response⟩ := out
    simp only [translateProximity, hsealed, respondedFlow, respondedEffects, hresponse]
    cases response <;> rfl

theorem respondedEffects_cases {signature : Bytes} (h : c.proximity.lastSignature = some signature) :
    c.respondedEffects p = [.close] ∨ ∃ sent cipher ciphertext,
      c.proximity.presentation = some sent ∧ c.proximity.cipher = some cipher ∧
      (cipher.sealFromDevice p (deviceResponse sent.doctype sent.issuerSigned
        sent.deviceNamespacesBytes ⟨sent.protectedHeader, {}, none, signature⟩)).2 = .ok ciphertext ∧
      c.respondedEffects p = [.emitDeviceResponse (Iso18013.sessionData ciphertext)] := by
  unfold respondedEffects
  split
  · next ciphertext hsealed =>
    simp only [sealedDeviceResponse, Option.bind_eq_bind, Option.bind_eq_some_iff, h,
      Option.pure_def, Option.some.injEq, exists_eq_left'] at hsealed
    obtain ⟨sent, hsent, cipher, hcipher, hresponse⟩ := hsealed
    exact .inr ⟨sent, cipher, ciphertext, hsent, hcipher, by rw [hresponse], rfl⟩
  · exact .inl rfl
  · exact .inl rfl

def withSignature (c : Core) (signature : Bytes) : Core :=
  c.withProximity { c.proximity with lastSignature := some signature }

theorem driveProximity_signature (hstate : c.proximity.state = .signingResponse transcript)
    (signature : Bytes) : c.driveProximity p (.deviceSignatureProduced signature) =
      (c.withProximity ((c.withSignature signature).respondedFlow p),
        (c.withSignature signature).respondedEffects p) := by
  set c₁ := c.withSignature signature with hc₁
  have hprepare : c.prepareProximity p (.deviceSignatureProduced signature) = (c₁, false) := rfl
  have hkept : c₁.proximity.state = .signingResponse transcript := hstate
  have hadvance : c.advanceProximity p (.deviceSignatureProduced signature) =
      (c₁.withProximity { c₁.proximity with state := .responded },
        [.emitDeviceResponse (Iso18013.assembleDeviceResponse transcript signature)]) := by
    simp only [advanceProximity, hprepare, hkept, Iso18013.step]
    rfl
  simp only [driveProximity, hadvance, collect_cons, collect_nil, translateProximity_response, List.append_nil]
  exact finishProximity_of_not_aborted (by rintro reason ⟨⟩) _

theorem proximitySignature_event (hsettled : ∀ reason, c.proximity.state ≠ .aborted reason)
    (hactive : c.active = .proximity) (signature : Bytes) : ProximityEvent p r c (.deviceSignatureProduced signature)
      (c.driveProximity p (.deviceSignatureProduced signature)) := by
  cases hstate : c.proximity.state with
  | signingResponse transcript =>
    rw [driveProximity_signature hstate]
    exact .responded hactive hstate rfl rfl (respondedEffects_cases rfl)
  | _ =>
    have hprepare : c.prepareProximity p (.deviceSignatureProduced signature) =
        (c.withSignature signature, false) := rfl
    rw [driveProximity_quiet hsettled hprepare rfl (proximityStep_quiet (by rw [hstate]; exact id))]
    exact .noted rfl rfl

theorem ProximityEvent.conduct {e : Event} {out : Core × List Effect} (h : ProximityEvent p r c e out) :
    Conduct .proximity c out.1 := by
  cases h with
  | unavailable => exact .refl c
  | engaged => exact Conduct.beginFlow.trans .ofProximity
  | noted | established | consented | responded | terminated => exact .ofProximity
  | refused | declined => exact .resetFlow _

end Proximity

/-! ### Digital Credentials API -/

def withDcapi (c : Core) (dcapi : DcApiFlow) : Core := { c with dcapi }

def dcapiResponse (p : Platform) (presentation : DcApiPresentation) (signature : Bytes) : Bytes :=
  DcApi.vpTokenResponse p presentation.dcqlId (deviceResponse presentation.doctype
    presentation.issuerSigned presentation.deviceNamespacesBytes
    ⟨presentation.protectedHeader, {}, none, signature⟩)

/-- Everything an event of the browser flow can lead to. -/
inductive DcApiEvent (p : Platform) (c : Core) : Event → Core × List Effect → Prop
  | unanswered {request origin} : DcApiEvent p c (.dcApiRequestReceived request origin)
      ((c.beginFlow .dcApi).resetFlow .dcApi, [.close])
  | asked {request origin req presentation}
      (parsed : (DcApi.parseDcapiRequest p request).toOption = some req)
      (built : (c.beginFlow .dcApi).buildDcapiPresentation p req origin = some presentation) :
      DcApiEvent p c (.dcApiRequestReceived request origin)
        ((c.beginFlow .dcApi).withDcapi ⟨some presentation,
            consentHash p (.dcApiConsent origin presentation.disclosed)⟩,
          [.render (.dcApiConsent origin presentation.disclosed)])
  | consented {presentation} (active : c.active = .dcApi)
      (prepared : c.dcapi.presentation = some presentation) :
      DcApiEvent p c .userConsented (c, [.sign c.config.deviceKeyRef presentation.signingInput])
  | unprepared (active : c.active = .dcApi) (prepared : c.dcapi.presentation = none) :
      DcApiEvent p c .userConsented (c.resetFlow .dcApi, [.close])
  | declined (active : c.active = .dcApi) :
      DcApiEvent p c .userDeclined (c.resetFlow .dcApi, [.close])
  | responded {signature presentation} (active : c.active = .dcApi)
      (prepared : c.dcapi.presentation = some presentation) :
      DcApiEvent p c (.deviceSignatureProduced signature)
        (c.finishFlow .dcApi, [.emitDcApiResponse (dcapiResponse p presentation signature)])
  | ended {signature} (active : c.active = .dcApi) (prepared : c.dcapi.presentation = none) :
      DcApiEvent p c (.deviceSignatureProduced signature) (c.finishFlow .dcApi, [.close])

variable {p : Platform} {c : Core}

theorem dcapiRequestReceived_event (request : Bytes) (origin : String) :
    DcApiEvent p c (.dcApiRequestReceived request origin) (c.dcapiRequestReceived p request origin) := by
  simp only [dcapiRequestReceived]
  split
  · exact .unanswered
  · next presentation hbuilt =>
    obtain ⟨req, hparsed, hbuilt⟩ := Option.bind_eq_some_iff.mp hbuilt
    exact .asked hparsed hbuilt

theorem dcapiConsentGranted_event (hactive : c.active = .dcApi) :
    DcApiEvent p c .userConsented c.dcapiConsentGranted := by
  unfold dcapiConsentGranted
  split
  · next hprepared => exact .consented hactive hprepared
  · next hprepared => exact .unprepared hactive hprepared

theorem dcapiSignatureProduced_event (hactive : c.active = .dcApi) (signature : Bytes) :
    DcApiEvent p c (.deviceSignatureProduced signature) (c.dcapiSignatureProduced p signature) := by
  unfold dcapiSignatureProduced
  split
  · next hprepared => exact .responded hactive hprepared
  · next hprepared => exact .ended hactive hprepared

theorem DcApiEvent.conduct {e : Event} {out : Core × List Effect} (h : DcApiEvent p c e out) :
    Conduct .dcApi c out.1 := by
  cases h with
  | unanswered => exact Conduct.beginFlow.trans (.resetFlow _)
  | asked => exact Conduct.beginFlow.trans .ofDcApi
  | consented => exact .refl c
  | unprepared | declined => exact .resetFlow _
  | responded | ended => exact .finishFlow

end Core

end EuWallet.Wallet
