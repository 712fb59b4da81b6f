import EuWallet.Wallet.Currency

/-! # The elements on a consent screen and in the document

In person and in the browser the screen lists what was asked for, and the document holds what was asked
for and is held. `showsExactly_minimiseMdoc_iff` says when the two agree: every element asked for is held,
and its label can be read in one way only. -/

namespace EuWallet.Wallet

open Codec Crypto Formats Lib Presenter Protocol

/-! ### Labels -/

def elementLabel (element : String × String) : String := element.1 ++ "/" ++ element.2

def Contains (document : IssuerSigned) (element : String × String) : Prop :=
  ∃ items, (element.1, items) ∈ document.nameSpaces ∧ ∃ item ∈ items, item.elementId = element.2

structure ShowsExactly (labels : List String) (document : IssuerSigned) : Prop where
  readable : ∀ label ∈ labels, ∃! element, label = elementLabel element
  same : ∀ element, Contains document element ↔ ∃ label ∈ labels, label = elementLabel element

/-- Every element asked for is held, and neither its namespace nor its identifier has a slash. -/
def SharedInFull (claims : List (String × String)) (held : IssuerSigned) : Prop :=
  ∀ element ∈ claims, Contains held element ∧ '/' ∉ element.1.toList ∧ '/' ∉ element.2.toList

section Labels
variable {element other : String × String} {claims : List (String × String)} {held : IssuerSigned}

theorem toList_elementLabel (element : String × String) :
    (elementLabel element).toList = element.1.toList ++ '/' :: element.2.toList := by
  simp [elementLabel, String.toList_append]

theorem elementLabel_unique (hns : '/' ∉ element.1.toList) (hid : '/' ∉ element.2.toList)
    (h : elementLabel other = elementLabel element) : other = element := by
  have hlist := congrArg String.toList h
  rw [toList_elementLabel, toList_elementLabel] at hlist
  obtain ⟨hfst, -, hsnd⟩ := (List.append_cons_inj_of_notMem hns hid).mp hlist.symm
  exact Prod.ext (String.toList_inj.mp hfst.symm) (String.toList_inj.mp hsnd.symm)

theorem elementLabel_split {before after : List Char} (h : (elementLabel element).toList = before ++ '/' :: after) :
    elementLabel element = elementLabel (String.ofList before, String.ofList after) := by
  refine String.toList_inj.mp ?_
  rw [h, toList_elementLabel]
  simp

theorem elementLabel_readable_iff : (∃! other, elementLabel element = elementLabel other) ↔
    '/' ∉ element.1.toList ∧ '/' ∉ element.2.toList := by
  constructor
  · rintro ⟨one, -, honly⟩
    have heq : element = one := honly element rfl
    subst heq
    constructor
    · intro hslash
      obtain ⟨before, after, hsplit⟩ := List.append_of_mem hslash
      have hlabel := honly (String.ofList before, String.ofList (after ++ '/' :: element.2.toList))
        (elementLabel_split (by rw [toList_elementLabel, hsplit]; simp))
      have hlength := congrArg (fun e => e.1.toList.length) hlabel
      simp [hsplit] at hlength
    · intro hslash
      obtain ⟨before, after, hsplit⟩ := List.append_of_mem hslash
      have hlabel := honly (String.ofList (element.1.toList ++ '/' :: before), String.ofList after)
        (elementLabel_split (by rw [toList_elementLabel, hsplit]; simp))
      have hlength := congrArg (fun e => e.2.toList.length) hlabel
      simp [hsplit] at hlength
      omega
  · rintro ⟨hns, hid⟩
    exact ⟨element, rfl, fun other h => elementLabel_unique hns hid h.symm⟩

theorem contains_minimiseMdoc :
    Contains (minimiseMdoc held claims) element ↔ Contains held element ∧ element ∈ claims := by
  constructor
  · rintro ⟨items, hitems, item, hitem, hid⟩
    obtain ⟨⟨ns, kept⟩, hkept, heq⟩ := List.mem_map.mp hitems
    obtain ⟨rfl, rfl⟩ := Prod.mk.inj heq
    obtain ⟨hitem, hasked⟩ := List.mem_filter.mp hitem
    refine ⟨⟨kept, hkept, item, hitem, hid⟩, ?_⟩
    rw [hid] at hasked
    simpa using hasked
  · rintro ⟨⟨items, hitems, item, hitem, hid⟩, hasked⟩
    refine ⟨_, List.mem_map.mpr ⟨_, hitems, rfl⟩, item, List.mem_filter.mpr ⟨hitem, ?_⟩, hid⟩
    rw [hid]
    simpa using hasked

theorem showsExactly_minimiseMdoc_iff :
    ShowsExactly (claims.map elementLabel) (minimiseMdoc held claims) ↔ SharedInFull claims held := by
  constructor
  · intro h element hasked
    have hlabel : elementLabel element ∈ claims.map elementLabel := List.mem_map_of_mem hasked
    exact ⟨(contains_minimiseMdoc.mp ((h.same element).mpr ⟨_, hlabel, rfl⟩)).1,
      elementLabel_readable_iff.mp (h.readable _ hlabel)⟩
  · intro h
    refine ⟨fun label hlabel => ?_, fun element => ?_⟩
    · obtain ⟨element, hasked, rfl⟩ := List.mem_map.mp hlabel
      exact elementLabel_readable_iff.mpr (h element hasked).2
    · rw [contains_minimiseMdoc]
      constructor
      · rintro ⟨-, hasked⟩
        exact ⟨_, List.mem_map_of_mem hasked, rfl⟩
      · rintro ⟨label, hlabel, heq⟩
        obtain ⟨asked, hasked, rfl⟩ := List.mem_map.mp hlabel
        obtain ⟨hheld, hns, hid⟩ := h asked hasked
        cases elementLabel_unique hns hid heq.symm
        exact ⟨hheld, hasked⟩

end Labels

namespace Core

/-! ### What a presentation is prepared from -/

def readerRequest (p : Platform) (c : Core) (establishment : Bytes) : Option Iso18013.DeviceRequestSummary := do
  let (key, data) ← (Iso18013.parseSessionEstablishment establishment).toOption
  let (cipher, _) ← c.proximitySession p key
  let request ← (cipher.openFromReader p data).2.toOption
  (Iso18013.parseDeviceRequest request).toOption

structure AskedInFull (p : Platform) (k : Turn) : Prop where
  reader : ∀ establishment summary held, k.input.1 = .proximityReaderEstablishment establishment →
    k.before.readerRequest p establishment = some summary →
    k.before.currentMdoc p summary.doctype = some held → SharedInFull summary.claims held
  browser : ∀ request origin req held, k.input.1 = .dcApiRequestReceived request origin →
    (DcApi.parseDcapiRequest p request).toOption = some req →
    k.before.currentMdoc p req.doctype = some held → SharedInFull req.claims held

section
variable {p : Platform} {c : Core} {sent : ProximityPresentation}

theorem currentMdoc_beginFlow (g : ActiveFlow) (doctype : String) :
    (c.beginFlow g).currentMdoc p doctype = c.currentMdoc p doctype := by
  simp [currentMdoc, mdocHoldings_beginFlow, mdocCredentialIsCurrent_congr (environment_beginFlow c)]

/-- A reader without a key is none. -/
theorem proximitySession_nil : c.proximitySession p [] = none := by
  unfold proximitySession
  split <;> rfl

theorem proximityReaderEstablishment_prepares {establishment engagement : Bytes} (hengaged : c.proximity.state = .engaged engagement)
    (h : (c.proximityReaderEstablishment p establishment).1.proximity.presentation = some sent) :
    ∃ summary transcript, c.readerRequest p establishment = some summary ∧
      c.buildProximityPresentation p summary transcript = some sent := by
  unfold proximityReaderEstablishment at h
  split at h
  · next key data hparsed =>
    set c₁ : Core := { c with proximity := { c.proximity with pendingRequest := some data } } with hc₁
    have hengaged : c₁.proximity.state = .engaged engagement := hengaged
    have hkept : c₁.proximitySession p key = c.proximitySession p key := rfl
    cases hsession : c₁.proximitySession p key with
    | none =>
      rw [driveProximity_refused hengaged hsession] at h
      cases h
    | some session =>
      obtain ⟨cipher, transcript⟩ := session
      rw [driveProximity_established hengaged hsession] at h
      have hopened : (c₁.openReaderRequest p cipher transcript).proximity.presentation = some sent := h
      obtain ⟨ciphertext, request, summary, hdata, hrequest, hsummary, hbuilt⟩ :=
        openReaderRequest_presentation hopened
      cases hdata
      refine ⟨summary, transcript, ?_, hbuilt⟩
      have hread : (Iso18013.parseSessionEstablishment establishment).toOption = some (key, data) := by
        rw [hparsed]
        rfl
      simp [readerRequest, hread, hkept.symm.trans hsession, hrequest, hsummary]
  · rw [driveProximity_refused hengaged proximitySession_nil] at h
    cases h

/-! ### Runs -/

/-- The call shows the consent screen of an in-person presentation. -/
def ShowsReader (labels : List String) (k : Turn) : Prop := k.outputs = [.render (.proximityConsent labels)]

/-- The call shows none. -/
def ShowsNoReader (k : Turn) : Prop := ∀ labels, .render (.proximityConsent labels) ∉ k.outputs

/-- The call shows the consent screen of a presentation in the browser. -/
def ShowsBrowser (labels : List String) (k : Turn) : Prop :=
  ∃ origin, k.outputs = [.render (.dcApiConsent origin labels)]

/-- The call shows none. -/
def ShowsNoBrowser (k : Turn) : Prop := ∀ origin labels, .render (.dcApiConsent origin labels) ∉ k.outputs

def SealedResponse (p : Platform) (c : Core) (sent : ProximityPresentation) (response : Bytes) : Prop :=
  ∃ cipher signature ciphertext, c.proximity.cipher = some cipher ∧
    (cipher.sealFromDevice p (deviceResponse sent.doctype sent.issuerSigned sent.deviceNamespacesBytes
      ⟨sent.protectedHeader, {}, none, signature⟩)).2 = .ok ciphertext ∧
    response = Iso18013.sessionData ciphertext

structure SendsWhatIsShown (p : Platform) (pre : List Turn) (k : Turn) : Prop where
  reader : ∀ response, .emitDeviceResponse response ∈ k.outputs →
    ∃ sent labels, k.before.proximity.presentation = some sent ∧ SealedResponse p k.before sent response ∧
      Trail (ShowsReader labels) ShowsNoReader [] pre ∧ ShowsExactly labels sent.issuerSigned
  browser : ∀ response, .emitDcApiResponse response ∈ k.outputs →
    ∃ sent signature labels, k.before.dcapi.presentation = some sent ∧
      response = dcapiResponse p sent signature ∧
      Trail (ShowsBrowser labels) ShowsNoBrowser [] pre ∧ ShowsExactly labels sent.issuerSigned

/-- What is prepared for a reader was shown last and as it is. -/
def ReaderStory (pre : List Turn) (c : Core) : Prop :=
  ∀ sent, c.proximity.presentation = some sent →
    Trail (ShowsReader sent.disclosed) ShowsNoReader [] pre ∧ ShowsExactly sent.disclosed sent.issuerSigned

/-- What is prepared for the browser was shown last and as it is. -/
def DocumentStory (pre : List Turn) (c : Core) : Prop :=
  ∀ sent, c.dcapi.presentation = some sent →
    Trail (ShowsBrowser sent.disclosed) ShowsNoBrowser [] pre ∧ ShowsExactly sent.disclosed sent.issuerSigned

variable {pre : List Turn} {k : Turn}

theorem ReaderStory.keep (h : ReaderStory pre k.before) (hquiet : ShowsNoReader k)
    (hkept : k.after.proximity.presentation = k.before.proximity.presentation) :
    ReaderStory (pre ++ [k]) k.after := by
  intro sent hsent
  obtain ⟨htrail, hshows⟩ := h sent (hkept.symm.trans hsent)
  exact ⟨htrail.keep hquiet, hshows⟩

theorem ReaderStory.of_none (h : k.after.proximity.presentation = none) : ReaderStory pre k.after := by
  intro sent hsent
  cases h.symm.trans hsent

theorem DocumentStory.keep (h : DocumentStory pre k.before) (hquiet : ShowsNoBrowser k)
    (hkept : k.after.dcapi.presentation = k.before.dcapi.presentation) : DocumentStory (pre ++ [k]) k.after := by
  intro sent hsent
  obtain ⟨htrail, hshows⟩ := h sent (hkept.symm.trans hsent)
  exact ⟨htrail.keep hquiet, hshows⟩

theorem DocumentStory.of_none (h : k.after.dcapi.presentation = none) : DocumentStory pre k.after := by
  intro sent hsent
  cases h.symm.trans hsent

/-- A call that opens a reader's request prepares what it shows. -/
theorem Taken.established {establishment engagement : Bytes} {sent : ProximityPresentation}
    (htaken : Taken p k) (hfull : AskedInFull p k) (hevent : k.input.1 = .proximityReaderEstablishment establishment)
    (hengaged : k.before.proximity.state = .engaged engagement)
    (hsent : k.after.proximity.presentation = some sent) : ShowsExactly sent.disclosed sent.issuerSigned := by
  have hafter : k.after = (k.before.proximityReaderEstablishment p establishment).1 := by
    have hresult := htaken.eq hevent
    exact (congrArg Prod.fst hresult).symm
  rw [hafter] at hsent
  obtain ⟨summary, transcript, hrequest, hbuilt⟩ := proximityReaderEstablishment_prepares hengaged hsent
  obtain ⟨held, hheld, -, hsigned, hdisclosed⟩ := buildProximityPresentation_eq_some hbuilt
  rw [hsigned, hdisclosed]
  exact showsExactly_minimiseMdoc_iff.mpr (hfull.reader establishment summary held hevent hrequest hheld)

theorem Taken.readerStory (htaken : Taken p k) (hfull : AskedInFull p k) (h : ReaderStory pre k.before) :
    ReaderStory (pre ++ [k]) k.after := by
  rcases htaken.outcome.seenFrom htaken.steady .proximity nofun with hevent | ⟨hforeign, hother⟩
  · obtain ⟨c, ⟨e, r⟩, effects, c'⟩ := k
    have hevent : ProximityEvent p r c e (c', effects) := hevent
    cases hevent with
    | unavailable | terminated => exact h.keep (by simp [ShowsNoReader]) rfl
    | engaged | refused | declined => exact .of_none rfl
    | noted _ hkept => exact h.keep (by simp [ShowsNoReader]) hkept
    | @established _ _ _ flow hengaged =>
      intro sent hsent
      have hpresentation : flow.presentation = some sent := hsent
      refine ⟨.begin ?_, htaken.established hfull rfl hengaged hsent⟩
      simp [ShowsReader, hpresentation, proximityScreen]
    | consented =>
      refine h.keep ?_ rfl
      unfold ShowsNoReader proximitySign
      split <;> simp
    | responded _ _ _ hkept hresponse =>
      refine h.keep ?_ hkept
      unfold ShowsNoReader
      rcases hresponse with rfl | ⟨_, _, _, -, -, -, rfl⟩ <;> simp
  · have hquiet : ShowsNoReader k := fun labels hx => hother _ hx rfl
    rcases hforeign.data with data | data <;> replace data := FlowData.proximity.inj data
    · exact h.keep hquiet (congrArg _ data)
    · exact .of_none (by rw [data]; rfl)

theorem Taken.documentStory (htaken : Taken p k) (hfull : AskedInFull p k) (h : DocumentStory pre k.before) :
    DocumentStory (pre ++ [k]) k.after := by
  rcases htaken.outcome.seenFrom htaken.steady .dcApi nofun with hevent | ⟨hforeign, hother⟩
  · obtain ⟨c, ⟨e, r⟩, effects, c'⟩ := k
    have hevent : DcApiEvent p c e (c', effects) := hevent
    cases hevent with
    | unanswered | unprepared | declined | responded | ended => exact .of_none rfl
    | consented => exact h.keep (by simp [ShowsNoBrowser]) rfl
    | asked hparsed hbuilt =>
      intro sent hsent
      cases hsent
      obtain ⟨held, hheld, -, hsigned, hdisclosed⟩ := buildDcapiPresentation_eq_some hbuilt
      rw [currentMdoc_beginFlow] at hheld
      refine ⟨.begin ⟨_, rfl⟩, ?_⟩
      rw [hsigned, hdisclosed]
      exact showsExactly_minimiseMdoc_iff.mpr (hfull.browser _ _ _ held rfl hparsed hheld)
  · have hquiet : ShowsNoBrowser k := fun origin labels hx => hother _ hx rfl
    rcases hforeign.data with data | data <;> replace data := FlowData.dcApi.inj data
    · exact h.keep hquiet (congrArg _ data)
    · exact .of_none (by rw [data]; rfl)

/-- What is emitted in person or to the browser is what was prepared. -/
theorem Taken.sends (htaken : Taken p k) (hreader : ReaderStory pre k.before)
    (hbrowser : DocumentStory pre k.before) : SendsWhatIsShown p pre k := by
  refine ⟨fun response hresponse => ?_, fun response hresponse => ?_⟩ <;>
    have hevent := htaken.outcome.own htaken.steady hresponse rfl
  · obtain ⟨c, ⟨e, r⟩, effects, c'⟩ := k
    have hevent : ProximityEvent p r c e (c', effects) := hevent
    cases hevent with
    | responded _ _ _ _ hsealed =>
      obtain rfl | ⟨sent, cipher, ciphertext, hsent, hcipher, hseal, rfl⟩ := hsealed
      · simp at hresponse
      · cases List.mem_singleton.mp hresponse
        exact ⟨sent, _, hsent, ⟨cipher, _, ciphertext, hcipher, hseal, rfl⟩, hreader sent hsent⟩
    | consented =>
      unfold proximitySign at hresponse
      split at hresponse <;> simp at hresponse
    | unavailable | engaged | noted | refused | established | declined | terminated =>
      simp at hresponse
  · obtain ⟨c, ⟨e, r⟩, effects, c'⟩ := k
    have hevent : DcApiEvent p c e (c', effects) := hevent
    cases hevent with
    | @responded signature sent _ hsent =>
      cases List.mem_singleton.mp hresponse
      exact ⟨sent, signature, _, hsent, rfl, hbrowser sent hsent⟩
    | unanswered | asked | consented | unprepared | declined | ended => simp at hresponse

end

/-- As long as whatever is asked for is shared in full, every document sent in person or to the browser
holds exactly the elements its consent screen showed. -/
theorem run_sendsWhatIsShown {p : Platform} {c : Core} (hfresh : Provisioned p c)
    (inputs : List (Event × Entropy)) (hfull : Always (fun _ k => AskedInFull p k) (run p c inputs)) :
    Always (SendsWhatIsShown p) (run p c inputs) := by
  refine run_always (fun pre c => ReaderStory pre c ∧ DocumentStory pre c) _ hfresh ?_ ?_ ?_ inputs hfull
  · have hproximity := hfresh.flowData .proximity
    have hdcapi := hfresh.flowData .dcApi
    simp only [flowData, emptyFlow, FlowData.proximity.injEq, FlowData.dcApi.injEq] at hproximity hdcapi
    refine ⟨fun sent hsent => ?_, fun sent hsent => ?_⟩
    · rw [hproximity] at hsent
      cases hsent
    · rw [hdcapi] at hsent
      cases hsent
  · rintro pre k htaken ⟨hreader, hbrowser⟩ hfull
    exact ⟨htaken.readerStory hfull hreader, htaken.documentStory hfull hbrowser⟩
  · rintro pre k htaken ⟨hreader, hbrowser⟩ -
    exact htaken.sends hreader hbrowser

end Core

/-! ### A licence with one element -/

namespace Licence

def request (element : String) : Json := .obj [("response_type", .str "vp_token"),
  ("response_mode", .str "dc_api"), ("nonce", .str "n"),
  ("dcql_query", .obj [("credentials", .arr [.obj [("format", .str "mso_mdoc"), ("id", .str "id"),
    ("meta", .obj [("doctype_value", .str "licence")]),
    ("claims", .arr [.obj [("path", .arr [.str "ns", .str element])]])]])])]

/-- Every text is the request. -/
def platform (element : String) : Platform :=
  { (default : Platform) with parseJson := fun _ => some (request element) }

def document : IssuerSigned := ⟨[("ns", [⟨0, [], "age", .uint 30⟩])], ⟨[], {}, none, []⟩⟩

/-- A wallet that holds the licence. -/
def core : Core := (Core.new "wallet" "device" 0).loadUnverifiedMdocForTesting ⟨"licence", document⟩

theorem core_provisioned (element : String) : Core.Provisioned (platform element) core :=
  .mdocFixture (.new _ _ _) _

def namesOnly : Effect → Bool
  | .render (.dcApiConsent _ labels) => labels == ["ns/name"]
  | _ => true

def inputs : List (Event × Entropy) :=
  [(.dcApiRequestReceived [] "https://rp.example", []), (.userConsented, []),
    (.deviceSignatureProduced [7], [])]

abbrev calls (element : String) : List Core.Turn := Core.run (platform element) core inputs

section
variable (element : String) {pre post : List Core.Turn} {k : Core.Turn} (hrun : calls element = pre ++ k :: post)
include hrun

theorem calls_ask_once {request : Bytes} {origin : String}
    (hevent : k.input.1 = .dcApiRequestReceived request origin) : k.before = core := by
  match pre, hrun with
  | [], hrun =>
    cases hrun
    rfl
  | [_], hrun | [_, _], hrun =>
    cases hrun
    cases hevent
  | _ :: _ :: _ :: _, hrun => simp [calls, Core.run, Lib.calls, inputs] at hrun

theorem calls_no_reader (establishment : Bytes) : k.input.1 ≠ .proximityReaderEstablishment establishment := by
  match pre, hrun with
  | [], hrun | [_], hrun | [_, _], hrun =>
    cases hrun
    rintro ⟨⟩
  | _ :: _ :: _ :: _, hrun => simp [calls, Core.run, Lib.calls, inputs] at hrun

end

/-- The element the licence has is shared in full. -/
theorem calls_askedInFull : Always (fun _ k => Core.AskedInFull (platform "age") k) (calls "age") := by
  intro pre k post hrun
  refine ⟨fun establishment _ _ hevent => absurd hevent (calls_no_reader _ hrun establishment), ?_⟩
  intro request origin req held hevent hparsed hheld
  rw [calls_ask_once _ hrun hevent] at hheld
  cases hparsed
  have hdocument : core.currentMdoc (platform "age") "licence" = some document := by decide
  cases hdocument.symm.trans hheld
  intro element helement
  cases List.mem_singleton.mp helement
  exact ⟨⟨_, List.mem_singleton_self _, _, List.mem_singleton_self _, rfl⟩, by decide, by decide⟩

end Licence

open Wallet.Core

/-- The age is asked for, shown and sent. -/
theorem run_sendsWhatIsShown_age : ∃ pre k post response, Licence.calls "age" = pre ++ k :: post ∧
    .emitDcApiResponse response ∈ k.outputs ∧ SendsWhatIsShown (Licence.platform "age") pre k := by
  have hanswers : (Licence.calls "age").any (fun k => k.outputs.any Effect.isDcApiResponse) = true := by
    decide
  obtain ⟨pre, k, post, x, hrun, hx, hanswers⟩ := exists_call_of_any hanswers
  obtain ⟨response, rfl⟩ := Effect.isDcApiResponse_iff.mp hanswers
  exact ⟨pre, k, post, response, hrun, hx, run_sendsWhatIsShown (Licence.core_provisioned "age")
    Licence.inputs Licence.calls_askedInFull pre k post hrun⟩

/-- A name is asked for and shown, but the licence has none and the document sent is empty. -/
theorem run_name_shownNotSent : ¬ Always (SendsWhatIsShown (Licence.platform "name")) (Licence.calls "name") := by
  intro hshown
  have hanswers : (Licence.calls "name").any (fun k => k.outputs.any Effect.isDcApiResponse) = true := by
    decide
  have hlabels : ∀ k ∈ Licence.calls "name", k.outputs.all Licence.namesOnly = true := by decide
  have hempty : ∀ k ∈ Licence.calls "name", k.before.dcapi.presentation.all
      (fun sent => sent.issuerSigned.nameSpaces == [("ns", [])]) = true := by decide
  obtain ⟨pre, k, post, x, hrun, hx, hanswers⟩ := exists_call_of_any hanswers
  obtain ⟨response, rfl⟩ := Effect.isDcApiResponse_iff.mp hanswers
  obtain ⟨sent, signature, labels, hsent, -, ⟨older, first, newer, marks, rfl, ⟨origin, houtputs⟩, -⟩, hexact⟩ :=
    (hshown pre k post hrun).browser response hx
  obtain rfl : labels = ["ns/name"] := by
    have := hlabels first (by rw [hrun]; simp)
    rw [houtputs] at this
    simpa [Licence.namesOnly] using this
  have hnone := hempty k (by rw [hrun]; simp)
  rw [hsent] at hnone
  obtain ⟨items, hitems, item, hitem, -⟩ := (hexact.same ("ns", "name")).mpr ⟨_, List.mem_singleton_self _, rfl⟩
  rw [eq_of_beq (Option.all_some.symm.trans hnone)] at hitems
  cases List.mem_singleton.mp hitems
  cases hitem

end EuWallet.Wallet
