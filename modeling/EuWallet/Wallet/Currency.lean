import EuWallet.Codec.Base64
import EuWallet.Wallet.Sessions

/-! # Only current credentials are signed for

A signature for an OpenID4VP presentation is asked for after every source of the selection was found
current. The in-person and the browser flow look at the holding when they select it and not again when
the user consents, so they sign for a current holding as long as the clock stands still in between
(`ClockMoves`). -/

namespace EuWallet.Wallet

open Codec Crypto Formats Lib Presenter Protocol
open Trust X509 Cbor

namespace Core

/-! ### What is signed for -/

/-- The call asks for a signature of the OpenID4VP machine, with the parts it has to sign. -/
def SignsVp (k : Turn) (input : Bytes) (pending : Oid4vp.PendingPresentation) : Prop :=
  k.after.vp = .awaitingDeviceSignature pending ∧ k.after.vp ≠ k.before.vp ∧
    pending.queue.head?.map (·.signingInput) = some input

/-- Every source of the session is current, and its selection is what the machine signs. -/
def VpCurrent (p : Platform) (c : Core) (pending : Oid4vp.PendingPresentation) : Prop :=
  ∃ s, c.session = some s ∧ Oid4vp.Signing p s.selectedCredentials pending ∧
    List.Forall₂ (SelectedFrom p) s.selectedSources s.selectedCredentials ∧
    ∀ source ∈ s.selectedSources, SourceCurrent p c source

/-- The document comes from a holding that was stored before one of the calls and is current. -/
def MdocCurrent (p : Platform) (pre : List Turn) (c : Core) (doctype : String) (issuerSigned : IssuerSigned) : Prop :=
  ∃ stored paths, (∃ k ∈ pre, stored ∈ k.before.mdocHoldings) ∧ stored.holding.doctype = doctype ∧
    issuerSigned = minimiseMdoc stored.holding.issuerSigned paths ∧
    c.mdocCredentialIsCurrent p stored = .ok ()

structure SignsCurrent (p : Platform) (pre : List Turn) (k : Turn) : Prop where
  presentation : ∀ keyRef input pending, .sign keyRef input ∈ k.outputs → SignsVp k input pending →
    VpCurrent p k.after pending
  proximity : ∀ keyRef input, .sign keyRef input ∈ k.outputs → k.before.active = .proximity →
    k.input.1 = .userConsented → ∃ prepared, k.after.proximity.presentation = some prepared ∧
      input = prepared.signingInput ∧ MdocCurrent p pre k.after prepared.doctype prepared.issuerSigned
  dcApi : ∀ keyRef input, .sign keyRef input ∈ k.outputs → k.before.active = .dcApi →
    k.input.1 = .userConsented → ∃ prepared, k.after.dcapi.presentation = some prepared ∧
      input = prepared.signingInput ∧ MdocCurrent p pre k.after prepared.doctype prepared.issuerSigned

/-- A presentation in person or in the browser is prepared and waits for the consent. -/
def Prepared (c : Core) : Prop :=
  (c.active = .proximity ∧ (∃ transcript, c.proximity.state = .sessionEstablished transcript) ∧
    c.proximity.presentation ≠ none) ∨ (c.active = .dcApi ∧ c.dcapi.presentation ≠ none)

/-- The clock advances while such a presentation waits. -/
def ClockMoves (c : Core) (e : Event) : Prop :=
  ∃ epoch, e = .setClock epoch ∧ c.nowEpoch < epoch ∧ c.Prepared

/-! ### The environment -/

variable {p : Platform} {r : Entropy} {c : Core} {e : Event} {out : Core × List Effect}

theorem VpEvent.environment (hown : c.VpOwned) (h : VpEvent p r c e out) : out.1.environment = c.environment := by
  cases h with
  | noted | aborted | stray => rfl
  | began houtcome => exact (houtcome.step (.inl rfl)).1.environment.trans (environment_beginFlow c)
  | drove _ hprogress _ houtcome => exact (houtcome.step (.inl (hown.active hprogress))).1.environment
  | declined => exact environment_resetFlow _
  | delivered _ hrecorded =>
    obtain ⟨log, latch, rfl⟩ := recordPresentation_eq hrecorded
    exact environment_finishFlow _
  | finished => exact environment_finishFlow _

/-- Only the clock changes what no flow changes. -/
theorem EventOutcome.environment (hsteady : c.Steady) (h : EventOutcome p r c e out) :
    out.1.environment = c.environment ∨
      ∃ epoch, e = .setClock epoch ∧ c.nowEpoch ≤ epoch ∧ out = ({ c with nowEpoch := epoch }, []) := by
  cases h with
  | unavailable => exact .inl (Conduct.auditLogFaultEffects (g := .none)).environment
  | full => exact .inl (Conduct.auditLogCapacityEffects (g := .none)).environment
  | dispatched _ houtcome =>
    cases houtcome with
    | presentation event => exact .inl (event.environment hsteady.vp)
    | payment _ footprint | issuance _ footprint | qes _ footprint | transfer _ footprint
    | proximity _ footprint | dcApi _ footprint => exact .inl footprint.environment
    | clock forward => exact .inr ⟨_, rfl, forward, rfl⟩
    | clockRefused | redacted | wiped | hybrid | removed => exact .inl rfl
    | ended => exact .inl (environment_resetFlow _)

/-! ### OpenID4VP -/

variable {k : Turn} {input : Bytes}

/-- The machine asks for a signature only after every source was found current. -/
theorem VpMove.signsCurrent (h : VpMove p k.input.2 k.before k.input.1 k.after k.outputs)
    (hselected : k.after.Selected p) {pending : Oid4vp.PendingPresentation}
    (hsigns : SignsVp k input pending) : VpCurrent p k.after pending := by
  obtain ⟨hvp, hmoved, -⟩ := hsigns
  have hcurrent (hclear : k.after.presentationSensitiveAbortReason p = none) : VpCurrent p k.after pending := by
    obtain ⟨hevidence, -⟩ := presentationSensitiveAbortReason_none hclear
    obtain ⟨s, hs, hcurrent⟩ := presentationEvidenceIsCurrent_ok hevidence
    exact ⟨s, hs, hselected.signing pending s hvp hs, (hselected.frozen s hs).sources, hcurrent.sources⟩
  cases h with
  | still hnext | readmitted _ _ hnext => exact absurd hnext hmoved
  | ended hnot =>
    rw [hvp] at hnot
    exact absurd trivial hnot
  | received _ _ hnext | shown _ _ _ hnext | sent _ _ _ _ hnext => cases hvp.symm.trans hnext
  | consented _ _ _ hclear | signed _ _ _ hclear => exact hcurrent hclear

/-! ### In person and in the browser -/

/-- The presentation that waits for a consent in person is from a current holding. -/
def ProximityCurrent (p : Platform) (pre : List Turn) (c : Core) : Prop :=
  c.active = .proximity → (∃ transcript, c.proximity.state = .sessionEstablished transcript) →
    ∀ prepared, c.proximity.presentation = some prepared →
      MdocCurrent p pre c prepared.doctype prepared.issuerSigned

/-- The presentation that waits in the browser is from a current holding. -/
def DcApiCurrent (p : Platform) (pre : List Turn) (c : Core) : Prop :=
  c.active = .dcApi → ∀ prepared, c.dcapi.presentation = some prepared →
    MdocCurrent p pre c prepared.doctype prepared.issuerSigned

variable {pre : List Turn} {doctype keyRef : String} {issuerSigned : IssuerSigned}

theorem MdocCurrent.extend (h : MdocCurrent p pre k.before doctype issuerSigned)
    (henv : k.after.environment = k.before.environment) :
    MdocCurrent p (pre ++ [k]) k.after doctype issuerSigned := by
  obtain ⟨stored, paths, ⟨j, hj, hstored⟩, hdoctype, hsigned, hcurrent⟩ := h
  refine ⟨stored, paths, ⟨j, List.mem_append_left _ hj, hstored⟩, hdoctype, hsigned, ?_⟩
  rwa [mdocCredentialIsCurrent_congr henv]

theorem MdocCurrent.of_currentMdoc (h : c.currentMdoc p doctype = some issuerSigned)
    (hheld : k.before.mdocHoldings = c.mdocHoldings) (paths : List (String × String)) :
    MdocCurrent p (pre ++ [k]) c doctype (minimiseMdoc issuerSigned paths) := by
  obtain ⟨stored, hfind, rfl⟩ := Option.map_eq_some_iff.mp h
  have hkey := List.find?_some hfind
  simp only [Bool.and_eq_true, beq_iff_eq] at hkey
  have hstored : stored ∈ k.before.mdocHoldings := hheld ▸ List.mem_of_find?_eq_some hfind
  refine ⟨stored, paths, ⟨k, by simp, hstored⟩, hkey.1, rfl, ?_⟩
  cases hcurrent : c.mdocCredentialIsCurrent p stored with
  | error =>
    rw [hcurrent] at hkey
    cases hkey.2
  | ok => rfl

theorem buildProximityPresentation_eq_some {summary : Iso18013.DeviceRequestSummary} {transcript : Bytes}
    {sent : ProximityPresentation} (h : c.buildProximityPresentation p summary transcript = some sent) :
    ∃ held, c.currentMdoc p summary.doctype = some held ∧ sent.doctype = summary.doctype ∧
      sent.issuerSigned = minimiseMdoc held summary.claims ∧
      sent.disclosed = summary.claims.map fun (ns, element) => ns ++ "/" ++ element := by
  simp only [buildProximityPresentation, Option.bind_eq_bind, Option.bind_eq_some_iff, Option.pure_def,
    Option.some.injEq] at h
  obtain ⟨held, hheld, deviceAuth, -, rfl⟩ := h
  exact ⟨held, hheld, rfl, rfl, rfl⟩

theorem buildDcapiPresentation_eq_some {req : DcApi.DcApiRequest} {origin : String} {sent : DcApiPresentation}
    (h : c.buildDcapiPresentation p req origin = some sent) :
    ∃ held, c.currentMdoc p req.doctype = some held ∧ sent.doctype = req.doctype ∧
      sent.issuerSigned = minimiseMdoc held req.claims ∧
      sent.disclosed = req.claims.map fun (ns, element) => ns ++ "/" ++ element := by
  simp only [buildDcapiPresentation, Option.bind_eq_bind, Option.bind_eq_some_iff, Option.pure_def,
    Option.some.injEq] at h
  obtain ⟨held, hheld, deviceAuth, -, rfl⟩ := h
  exact ⟨held, hheld, rfl, rfl, rfl⟩

theorem mdocHoldings_beginFlow (c : Core) (g : ActiveFlow) : (c.beginFlow g).mdocHoldings = c.mdocHoldings := by
  have hstore := storeData_beginFlow (c := c) (f := .issuance) (g := g)
  replace hstore := StoreData.issuance.inj hstore
  exact hstore.2.2.1

theorem Taken.environment_of_prepared (htaken : Taken p k) (hstill : ¬ k.before.ClockMoves k.input.1)
    (hprepared : k.before.Prepared) : k.after.environment = k.before.environment := by
  obtain henv | ⟨epoch, hevent, hforward, hout⟩ := htaken.outcome.environment htaken.steady
  · exact henv
  · have hepoch : epoch = k.before.nowEpoch := by
      by_contra hne
      exact hstill ⟨epoch, hevent, lt_of_le_of_ne hforward (Ne.symm hne), hprepared⟩
    have hafter : k.after = { k.before with nowEpoch := epoch } := congrArg Prod.fst hout
    rw [hafter, hepoch]

/-- A call that keeps the flow and what it prepared. -/
theorem ProximityCurrent.extend (h : ProximityCurrent p pre k.before) (htaken : Taken p k)
    (hstill : ¬ k.before.ClockMoves k.input.1) (hactive : k.after.active = .proximity → k.before.active = .proximity)
    (hstate : k.after.proximity.state = k.before.proximity.state)
    (hpresentation : k.after.proximity.presentation = k.before.proximity.presentation) :
    ProximityCurrent p (pre ++ [k]) k.after := by
  intro hafter hestablished prepared hprepared
  rw [hstate] at hestablished
  rw [hpresentation] at hprepared
  have henv := htaken.environment_of_prepared hstill
    (.inl ⟨hactive hafter, hestablished, by simp [hprepared]⟩)
  exact (h (hactive hafter) hestablished prepared hprepared).extend henv

theorem Taken.proximityCurrent (htaken : Taken p k) (hstill : ¬ k.before.ClockMoves k.input.1)
    (hinv : ProximityCurrent p pre k.before) : ProximityCurrent p (pre ++ [k]) k.after := by
  rcases htaken.outcome.seenFrom htaken.steady .proximity nofun with hevent | ⟨hforeign, -⟩
  · have hvacuous (h : ∀ transcript, k.after.proximity.state ≠ .sessionEstablished transcript) :
        ProximityCurrent p (pre ++ [k]) k.after := fun _ ⟨transcript, hstate⟩ => absurd hstate (h transcript)
    have hextend := hinv.extend htaken hstill
    obtain ⟨before, ⟨event, entropy⟩, outputs, after⟩ := k
    dsimp only [OwnEvent] at hevent hvacuous hextend ⊢
    cases hevent with
    | unavailable => exact hextend id rfl rfl
    | noted hstate hpresentation => exact hextend id hstate hpresentation
    | @established _ _ _ flow _ _ hbuilt =>
      intro _ _ prepared hprepared
      obtain ⟨summary, transcript, hbuilt⟩ := hbuilt prepared hprepared
      obtain ⟨held, hheld, hdoctype, hsigned, -⟩ := buildProximityPresentation_eq_some hbuilt
      rw [hdoctype, hsigned]
      exact .of_currentMdoc hheld rfl _
    | responded _ _ hnext =>
      refine hvacuous fun transcript hstate => ?_
      cases hnext.symm.trans hstate
    | engaged | refused | consented | declined | terminated =>
      exact hvacuous (by rintro transcript ⟨⟩)
  · intro hafter
    obtain ⟨hbefore, data⟩ := hforeign.active hafter nofun
    replace data := FlowData.proximity.inj data
    exact hinv.extend htaken hstill (fun _ => hbefore) (by rw [data]) (by rw [data]) hafter

theorem DcApiCurrent.extend (h : DcApiCurrent p pre k.before) (htaken : Taken p k)
    (hstill : ¬ k.before.ClockMoves k.input.1) (hactive : k.after.active = .dcApi → k.before.active = .dcApi)
    (hdcapi : k.after.dcapi = k.before.dcapi) : DcApiCurrent p (pre ++ [k]) k.after := by
  intro hafter prepared hprepared
  rw [hdcapi] at hprepared
  have henv := htaken.environment_of_prepared hstill (.inr ⟨hactive hafter, by simp [hprepared]⟩)
  exact (h (hactive hafter) prepared hprepared).extend henv

theorem Taken.dcApiCurrent (htaken : Taken p k) (hstill : ¬ k.before.ClockMoves k.input.1)
    (hinv : DcApiCurrent p pre k.before) : DcApiCurrent p (pre ++ [k]) k.after := by
  rcases htaken.outcome.seenFrom htaken.steady .dcApi nofun with hevent | ⟨hforeign, -⟩
  · have hextend := hinv.extend htaken hstill
    have hvacuous (h : k.after.active ≠ .dcApi) : DcApiCurrent p (pre ++ [k]) k.after :=
      fun hactive => absurd hactive h
    obtain ⟨before, ⟨event, entropy⟩, outputs, after⟩ := k
    dsimp only [OwnEvent] at hevent hextend hvacuous ⊢
    cases hevent with
    | asked _ hbuilt =>
      intro _ prepared hprepared
      cases hprepared
      obtain ⟨held, hheld, hdoctype, hsigned, -⟩ := buildDcapiPresentation_eq_some hbuilt
      rw [hdoctype, hsigned]
      exact .of_currentMdoc hheld (mdocHoldings_beginFlow _ _).symm _
    | consented => exact hextend id rfl
    | unanswered | unprepared | declined => exact hvacuous (active_resetFlow_ne _ (by simp))
    | responded | ended =>
      refine hvacuous ?_
      rw [active_finishFlow]
      split <;> simp_all
  · intro hafter
    obtain ⟨hbefore, data⟩ := hforeign.active hafter nofun
    replace data := FlowData.dcApi.inj data
    exact hinv.extend htaken hstill (fun _ => hbefore) data hafter

theorem ProximityCurrent.signs (h : ProximityCurrent p pre k.before) (htaken : Taken p k)
    (hsign : .sign keyRef input ∈ k.outputs) (hactive : k.before.active = .proximity)
    (hconsent : k.input.1 = .userConsented) : ∃ prepared, k.after.proximity.presentation = some prepared ∧
      input = prepared.signingInput ∧ MdocCurrent p pre k.after prepared.doctype prepared.issuerSigned := by
  have hdrive : k.before.driveProximity p .consentGranted = (k.after, k.outputs) := by
    rw [← htaken.eq hconsent]
    change _ = k.before.userConsented p k.input.2
    simp [userConsented, hactive]
  have hevent := proximityConsented_event (p := p) (r := k.input.2) htaken.steady.proximity hactive
  rw [hdrive] at hevent
  obtain ⟨before, ⟨event, entropy⟩, outputs, after⟩ := k
  dsimp only at hevent hsign h hactive ⊢
  cases hevent with
  | noted | refused => simp at hsign
  | consented _ hstate =>
    unfold proximitySign at hsign
    split at hsign
    · next prepared hprepared =>
      obtain ⟨-, rfl⟩ : keyRef = before.config.deviceKeyRef ∧ input = prepared.signingInput := by
        simpa using hsign
      exact ⟨prepared, hprepared, rfl, h hactive ⟨_, hstate⟩ prepared hprepared⟩
    · simp at hsign

theorem DcApiCurrent.signs (h : DcApiCurrent p pre k.before) (htaken : Taken p k)
    (hsign : .sign keyRef input ∈ k.outputs) (hactive : k.before.active = .dcApi)
    (hconsent : k.input.1 = .userConsented) : ∃ prepared, k.after.dcapi.presentation = some prepared ∧
      input = prepared.signingInput ∧ MdocCurrent p pre k.after prepared.doctype prepared.issuerSigned := by
  have hevent := dcapiConsentGranted_event (p := p) hactive
  rw [htaken.granted_dcApi hconsent hactive] at hevent
  obtain ⟨before, ⟨event, entropy⟩, outputs, after⟩ := k
  dsimp only at hevent hsign h hactive ⊢
  cases hevent with
  | @consented prepared _ hprepared =>
    obtain ⟨-, rfl⟩ : keyRef = before.config.deviceKeyRef ∧ input = prepared.signingInput := by
      simpa using hsign
    exact ⟨prepared, hprepared, rfl, h hactive prepared hprepared⟩
  | unprepared => simp at hsign

/-! ### Along runs -/

/-- In every run in which the clock does not advance under a presentation that waits for its consent,
only current credentials are signed for. -/
theorem run_signs_current (hfresh : Provisioned p c) (inputs : List (Event × Entropy))
    (hstill : Always (fun _ k => ¬ k.before.ClockMoves k.input.1) (run p c inputs)) :
    Always (SignsCurrent p) (run p c inputs) := by
  refine run_always
    (fun pre c => c.Selected p ∧ ProximityCurrent p pre c ∧ DcApiCurrent p pre c)
    (fun _ k => ¬ k.before.ClockMoves k.input.1) hfresh
    ⟨hfresh.selected, fun h => absurd h (hfresh.inactive (by simp)),
      fun h => absurd h (hfresh.inactive (by simp))⟩ ?_ ?_ inputs hstill
  · rintro pre k htaken ⟨hselected, hproximity, hdcApi⟩ hstill
    exact ⟨htaken.outcome.selected htaken.steady hselected, htaken.proximityCurrent hstill hproximity,
      htaken.dcApiCurrent hstill hdcApi⟩
  · rintro pre k htaken ⟨hselected, hproximity, hdcApi⟩ -
    have hafter := htaken.outcome.selected htaken.steady hselected
    exact ⟨fun _ _ _ _ => (htaken.outcome.move htaken.steady).signsCurrent hafter,
      fun _ _ hsign => hproximity.signs htaken hsign, fun _ _ hsign => hdcApi.signs htaken hsign⟩

end Core

/-! ### What is authenticated is current -/

theorem Core.decodeMdocCredential_b64Encode (cbor : Bytes) : decodeMdocCredential (utf8 (b64Encode cbor)) =
      (IssuerSigned.parse cbor).mapError fun _ => .malformedCredential := by
  simp [decodeMdocCredential, fromUtf8_utf8, orErr, bind, Except.bind, trim_b64Encode, b64Decode_b64Encode]

section
variable {p : Platform} {c : Core} {stored : StoredMdocCredential} {credential : Bytes} {chain : List Bytes}

/-- A document that passes every check is authenticated. -/
theorem Core.authenticateReceivedCredential_mdoc {issuerSigned : IssuerSigned}
    {issuer0 issuer : CredentialIssuerEvidence}
    {issuers : List CredentialIssuerEvidence} {issuerId : String} {verified : VerifiedCredential}
    (hclock : ¬ c.nowEpoch ≤ 0) (hkey : ¬ c.devicePublicKey.isEmpty)
    (hdecoded : decodeMdocCredential credential = .ok issuerSigned)
    (hchain : embeddedMdocIssuerChain issuerSigned = .ok chain)
    (hissuers : c.consistentIssuers p chain = .ok (issuer0, issuers))
    (hverified : c.verifyMdocCredential p issuerSigned issuer0 issuers issuerId = .ok (verified, issuer))
    (supplied : List Bytes) : c.authenticateReceivedCredential p .msoMdoc credential supplied issuerId =
      .ok ⟨verified, ⟨.msoMdoc, credential, issuer⟩⟩ := by
  simp only [authenticateReceivedCredential, if_neg hclock, if_neg hkey, hdecoded, hchain, hissuers,
    hverified, bind, Except.bind, pure, Except.pure]

theorem Core.ingestCredential_of_authenticated {name issuerId : String}
    {format : Oid4vci.CredentialFormat} {a : AuthenticatedCredential}
    (hformat : parseFormat name = some format)
    (h : c.authenticateReceivedCredential p format credential chain issuerId = .ok a) :
    c.ingestCredential p name credential chain issuerId =
      .ok { c.storeVerifiedCredential a with lastCredentialIngestionError := none } := by
  simp [ingestCredential, hformat, orErr, h, bind, Except.bind, pure, Except.pure]

theorem Core.mdocCredentialIsCurrent_of_authenticated {provenance : CredentialProvenance}
    (hprovenance : stored.provenance = .authenticated provenance)
    (hvalid : stored.validity.validateAt c.nowEpoch = .ok ())
    (h : c.authenticateReceivedCredential p provenance.format provenance.rawCredential
      provenance.issuer.certificatePath provenance.issuer.identity =
        .ok ⟨.mdoc stored.holding stored.validity, provenance⟩) : c.mdocCredentialIsCurrent p stored = .ok () := by
  simp [mdocCredentialIsCurrent, credentialIsCurrent, hprovenance, hvalid, h, Except.mapError, bind,
    Except.bind, pure, Except.pure]

theorem Core.dcapiRequestReceived_of_current {request : Bytes} {origin : String}
    {req : DcApi.DcApiRequest} {deviceAuth : Bytes}
    (hparsed : DcApi.parseDcapiRequest p request = .ok req) (honly : c.mdocHoldings = [stored])
    (hdoctype : stored.holding.doctype = req.doctype) (hcurrent : c.mdocCredentialIsCurrent p stored = .ok ())
    (hauth : (deviceAuthenticationBytes (oid4vpDcapiSessionTranscript p origin req.nonce none) req.doctype
      emptyDeviceNamespacesBytes).toOption = some deviceAuth) :
    ∃ presentation hash outputs, c.dcapiRequestReceived p request origin =
      ({ c.beginFlow .dcApi with dcapi := ⟨some presentation, hash⟩ }, outputs) := by
  have hmdoc : (c.beginFlow .dcApi).currentMdoc p req.doctype = some stored.holding.issuerSigned := by
    simp [currentMdoc, mdocHoldings_beginFlow, honly, hdoctype,
      mdocCredentialIsCurrent_congr (environment_beginFlow c), hcurrent, Except.toOption]
  obtain ⟨presentation, hbuilt⟩ : ∃ presentation,
      (c.beginFlow .dcApi).buildDcapiPresentation p req origin = some presentation := by
    simp only [buildDcapiPresentation, hmdoc, hauth]
    exact ⟨_, rfl⟩
  simp only [dcapiRequestReceived, hparsed, Except.toOption, Option.bind_some, hbuilt]
  exact ⟨presentation, _, _, rfl⟩

end

/-! ### A licence that expires

The wallet holds a licence that was authenticated when it was stored and is valid until second 50. -/

namespace Expiring

def deviceKey : Bytes := 4 :: List.replicate 64 0

def coordinate : Value := .bytes (List.replicate 32 0)

def item (id : ℕ) (element : String) : IssuerSignedItem := ⟨id, [], element, .text "x"⟩

def date (second : String) : Value := .tag 0 (.text ("1970-01-01T00:00:" ++ second ++ "Z"))

/-- The digest of everything on the platform below. -/
def digest : Value := .bytes (List.replicate 32 1)

def mso : Value := .map [(.text "version", .text "1.0"), (.text "digestAlgorithm", .text "SHA-256"),
  (.text "docType", .text "org.iso.18013.5.1.mDL"),
  (.text "valueDigests", .map [(.text "org.iso.18013.5.1", .map [(.uint 0, digest), (.uint 1, digest)])]),
  (.text "deviceKeyInfo", .map [(.text "deviceKey", .map [(.uint 1, .uint 2), (.nint 0, .uint 1),
    (.nint 1, coordinate), (.nint 2, coordinate)])]),
  (.text "validityInfo", .map [(.text "signed", date "00"), (.text "validFrom", date "00"),
    (.text "validUntil", date "50")])]

def issuerSigned : IssuerSigned where
  nameSpaces := [("org.iso.18013.5.1", [item 0 "family_name", item 1 "given_name"])]
  issuerAuth := ⟨encodeProtectedHeader .es256, { x5chain := some (.single [4]) },
    some (tag24 mso.toCanonical), [5]⟩

/-- The licence as its issuer sends it. -/
@[irreducible] def credential : Bytes := utf8 (b64Encode issuerSigned.toValue.toCanonical)

def issuer : Certificate := Toy.certificate 4 "issuer" "root"
  [⟨"2.5.29.15", true, .keyUsage true false⟩,
    ⟨"2.5.29.17", false, .subjectAltName [.uniformResourceIdentifier "https://issuer.example"]⟩]

def trustList : Json := .obj [("seq", .num (.posInt 1)), ("valid_from", .num (.posInt 0)),
  ("valid_until", .num (.posInt 100)), ("anchors", .arr [.obj [("cert", .str "AQ"),
    ("service", .str "attestation"), ("status", .str "granted")]])]

def request : Json := .obj [("response_type", .str "vp_token"), ("response_mode", .str "dc_api"),
  ("nonce", .str "n"), ("dcql_query", .obj [("credentials", .arr [.obj [("format", .str "mso_mdoc"),
    ("id", .str "id"), ("meta", .obj [("doctype_value", .str "org.iso.18013.5.1.mDL")])]])])]

def platform : Platform := { (default : Platform) with
  sha256 := fun _ => oneHash
  verify := fun _ _ _ _ => true
  verifyCertificate := fun _ _ _ _ => true
  validateCertificatePublicKey := fun _ _ => true
  decodeCertificate := fun der => if der = [1] then some Decoy.root else if der = [4] then some issuer else none
  parseJson := fun b => if b = [1] then some (.obj [("alg", .str "ES256")])
    else if b = [2] then some trustList else some request }

def trusting : Core := { Core.new "wallet" "device" 0 with
  nowEpoch := 10
  devicePublicKey := deviceKey
  trustStore := ⟨some ⟨1, 0, 100, [⟨[1], .attestationProvider, .granted⟩], [], []⟩⟩ }

/-- What the wallet found out about the issuer. -/
def evidence : CredentialIssuerEvidence :=
  ⟨"https://issuer.example", .attestation, List.replicate 32 4, [[4]], 0, 100⟩

def validity : CredentialValidity := ⟨some 0, some 0, some 50⟩

def stored : StoredMdocCredential :=
  ⟨⟨"org.iso.18013.5.1.mDL", issuerSigned⟩, validity, .authenticated ⟨.msoMdoc, credential, evidence⟩⟩

def core : Core :=
  { trusting.storeVerifiedCredential ⟨.mdoc stored.holding validity, ⟨.msoMdoc, credential, evidence⟩⟩ with
    lastCredentialIngestionError := none }

theorem decoded : Core.decodeMdocCredential credential = .ok issuerSigned := by
  have hparsed : IssuerSigned.parse issuerSigned.toValue.toCanonical = .ok issuerSigned := by decide +kernel
  unfold credential
  rw [Core.decodeMdocCredential_b64Encode, hparsed, Except.mapError]

theorem chain_eq : Core.embeddedMdocIssuerChain issuerSigned = .ok [[4]] := by decide

theorem issuers_eq : trusting.consistentIssuers platform [[4]] = .ok (evidence, [evidence]) := by
  decide

theorem verified : trusting.verifyMdocCredential platform issuerSigned evidence [evidence]
    "https://issuer.example" = .ok (.mdoc stored.holding validity, evidence) := by decide +kernel

theorem authenticated (chain : List Bytes) :
    trusting.authenticateReceivedCredential platform .msoMdoc credential chain "https://issuer.example" =
      .ok ⟨.mdoc stored.holding validity, ⟨.msoMdoc, credential, evidence⟩⟩ :=
  Core.authenticateReceivedCredential_mdoc (by decide) (by decide) decoded chain_eq issuers_eq verified chain

theorem trusting_provisioned_of {p : Platform} (hlist : Trust.parseAndVerify p (utf8 "AQ.Ag.AQ") [] .es256 10 =
    .ok ⟨1, 0, 100, [⟨[1], .attestationProvider, .granted⟩], [], []⟩) : Core.Provisioned p trusting := by
  have hclock : Core.Provisioned p { Core.new "wallet" "device" 0 with nowEpoch := 10 } :=
    .clock (.new "wallet" "device" 0) (by decide)
  have hloaded : Core.loadTrustList p
      (Core.loadDeviceKey { Core.new "wallet" "device" 0 with nowEpoch := 10 } deviceKey)
      (utf8 "AQ.Ag.AQ") [] = .ok trusting := by
    change (Trust.parseAndVerify p (utf8 "AQ.Ag.AQ") [] .es256 10 >>= _) = _
    rw [hlist]
    rfl
  exact .trustList (hclock.deviceKey deviceKey) hloaded

theorem trusting_provisioned : Core.Provisioned platform trusting :=
  trusting_provisioned_of (by decide)

theorem core_provisioned : Core.Provisioned platform core :=
  trusting_provisioned.credential
    (Core.ingestCredential_of_authenticated (show parseFormat "mso_mdoc" = some .msoMdoc by decide)
      (authenticated []))

theorem core_mdocHoldings : core.mdocHoldings = [stored] := rfl

theorem current : core.mdocCredentialIsCurrent platform stored = .ok () := by
  have henv : core.environment = trusting.environment := rfl
  rw [Core.mdocCredentialIsCurrent_congr henv]
  exact Core.mdocCredentialIsCurrent_of_authenticated rfl (by decide) (authenticated _)

def asked : Event := .dcApiRequestReceived [3] "https://rp.example"

/-- The browser asks at second 10 and the user consents at once. -/
def prompt : List (Event × Entropy) := [(asked, []), (.userConsented, [])]

/-- The browser asks at second 10 and the user consents at second 60. -/
def inputs : List (Event × Entropy) := [(asked, []), (.setClock 60, []), (.userConsented, [])]

/-- The wallet that waits for the consent. -/
def waiting (presentation : DcApiPresentation) (hash : Hash32) : Core :=
  { core.beginFlow .dcApi with dcapi := ⟨some presentation, hash⟩ }

/-- The licence is selected for the request. -/
theorem asked_prepares : ∃ presentation hash outputs,
    core.handleEvent platform [] asked = (waiting presentation hash, outputs) := by
  have hparsed : DcApi.parseDcapiRequest platform [3] =
      .ok ⟨"n", "dc_api", "id", "org.iso.18013.5.1.mDL", []⟩ := by decide
  have hauth : (deviceAuthenticationBytes
      (oid4vpDcapiSessionTranscript platform "https://rp.example" "n" none) "org.iso.18013.5.1.mDL"
      emptyDeviceNamespacesBytes).toOption.isSome := by decide
  obtain ⟨deviceAuth, hauth⟩ := Option.isSome_iff_exists.mp hauth
  exact Core.dcapiRequestReceived_of_current hparsed core_mdocHoldings rfl current hauth

end Expiring

open Wallet.Core Expiring

/-- After a consent in time the wallet signs for the licence. -/
theorem run_signs_current_prompt : ∃ pre k post input, run platform core prompt = pre ++ k :: post ∧
      .sign "device" input ∈ k.outputs ∧ ∃ prepared, k.after.dcapi.presentation = some prepared ∧
        input = prepared.signingInput ∧ MdocCurrent platform pre k.after prepared.doctype prepared.issuerSigned := by
  obtain ⟨presentation, hash, outputs, hasked⟩ := asked_prepares
  let waiting := waiting presentation hash
  have hconsent : waiting.handleEvent platform [] .userConsented =
      (waiting, [.sign "device" presentation.signingInput]) := rfl
  have hrun : run platform core prompt = [⟨core, (asked, []), outputs, waiting⟩] ++
        ⟨waiting, (.userConsented, []), [.sign "device" presentation.signingInput], waiting⟩ :: [] := by
    rw [prompt, run_cons hasked, run_cons hconsent]
    rfl
  have hstill : Always (fun _ k => ¬ k.before.ClockMoves k.input.1) (run platform core prompt) := by
    rintro pre k post hsplit ⟨epoch, hevent, -⟩
    have hk : k ∈ run platform core prompt := by simp [hsplit]
    rcases List.mem_pair.mp hk with rfl | rfl <;> cases hevent
  have hsigned := run_signs_current core_provisioned prompt hstill _ _ _ hrun
  exact ⟨_, _, _, _, hrun, List.mem_singleton_self _,
    hsigned.dcApi "device" presentation.signingInput (List.mem_singleton_self _) rfl rfl⟩

/-- The wallet signs for the licence ten seconds after it expired. -/
theorem run_expired_signed : ¬ Always (SignsCurrent platform) (run platform core inputs) := by
  intro h
  obtain ⟨presentation, hash, outputs, hasked⟩ := asked_prepares
  let waiting := waiting presentation hash
  let later : Core := { waiting with nowEpoch := 60 }
  have hclock : waiting.handleEvent platform [] (.setClock 60) = (later, []) := rfl
  have hconsent : later.handleEvent platform [] .userConsented =
      (later, [.sign "device" presentation.signingInput]) := rfl
  have hrun : run platform core inputs =
      [⟨core, (asked, []), outputs, waiting⟩, ⟨waiting, (.setClock 60, []), [], later⟩] ++
        ⟨later, (.userConsented, []), [.sign "device" presentation.signingInput], later⟩ :: [] := by
    rw [inputs, run_cons hasked, run_cons hclock, run_cons hconsent]
    rfl
  -- the holding that backs the signature is the expired licence, the only one there ever was
  obtain ⟨prepared, -, -, stored, -, ⟨k, hk, hstored⟩, -, -, hcurrent⟩ :=
    (h _ _ _ hrun).dcApi "device" presentation.signingInput (by simp) rfl rfl
  have hheld : k.before.mdocHoldings = [Expiring.stored] := by
    rcases List.mem_pair.mp hk with rfl | rfl
    · exact core_mdocHoldings
    · exact (mdocHoldings_beginFlow core .dcApi).trans core_mdocHoldings
  rw [hheld, List.mem_singleton] at hstored
  rw [hstored] at hcurrent
  have hexpired : later.mdocCredentialIsCurrent platform Expiring.stored = .error .credentialExpired := rfl
  cases hexpired.symm.trans hcurrent

end EuWallet.Wallet
