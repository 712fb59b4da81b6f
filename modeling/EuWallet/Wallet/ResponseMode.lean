import EuWallet.Codec.Numbers
import EuWallet.Wallet.Disclosure

/-! # The response mode of an answer

A relying party says in its request whether the answer is to be encrypted. The OpenID4VP session takes the
mode and the key over from the request and the answer follows them. A browser request may ask for
encryption as well, but its mode is forgotten once it is read, and the answer is plain. -/

namespace EuWallet.Wallet

open Codec Crypto Lib Presenter Protocol

structure SessionInfo.Captures (s : SessionInfo) (req : Oid4vp.AuthRequest) : Prop where
  mode : s.responseMode = req.responseMode
  key : s.responseEncryptionKey = req.responseEncryptionKey

namespace Core

/-! ### The request an answer belongs to -/

def RequestReceived (p : Platform) (req : Oid4vp.AuthRequest) (k : Turn) : Prop :=
  ∃ b, k.input.1 = .authorizationRequestReceived b ∧ Oid4vp.parseRequest p b = some req

def ReceivesNoRequest (k : Turn) : Prop := ∀ b, k.input.1 ≠ .authorizationRequestReceived b

def LastRequest (p : Platform) (req : Oid4vp.AuthRequest) (pre : List Turn) : Prop :=
  Trail (RequestReceived p req) ReceivesNoRequest [] pre

def BrowserAsked (p : Platform) (req : DcApi.DcApiRequest) (k : Turn) : Prop :=
  ∃ request origin, k.input.1 = .dcApiRequestReceived request origin ∧
    (DcApi.parseDcapiRequest p request).toOption = some req

/-- The call receives no request of a browser. -/
def AskedByNoBrowser (k : Turn) : Prop :=
  ∀ request origin, k.input.1 ≠ .dcApiRequestReceived request origin

def LastBrowserRequest (p : Platform) (req : DcApi.DcApiRequest) (pre : List Turn) : Prop :=
  Trail (BrowserAsked p req) AskedByNoBrowser [] pre

/-- The posted bytes are an encryption to the key the request names. -/
def EncryptedFor (p : Platform) (k : Turn) (req : Oid4vp.AuthRequest) (body : Bytes) : Prop :=
  ∃ key form, req.responseEncryptionKey = some key ∧
    k.after.encryptDirectPostJwt p k.input.2 form key = some body

def PlainForm (p : Platform) (body : Bytes) : Prop :=
  ∃ done state, body = utf8 (Oid4vp.assembleDirectPostBody p done state)

structure AnsweredAsAsked (p : Platform) (pre : List Turn) (k : Turn) : Prop where
  /-- An answer to a browser is always plain. -/
  browser : ∀ response, .emitDcApiResponse response ∈ k.outputs →
    ∃ req, LastBrowserRequest p req pre ∧ req.responseMode = "dc_api"
  posted : ∀ url body, .http .openid4vpDirectPost url body ∈ k.outputs →
    ∃ req, LastRequest p req pre ∧ (PlainForm p body → req.responseMode = "direct_post") ∧
      (req.responseMode ≠ "direct_post" → EncryptedFor p k req body)

/-- No browser asks for an encrypted answer at the call. -/
def AsksPlainly (p : Platform) (k : Turn) : Prop :=
  ∀ request origin req, k.input.1 = .dcApiRequestReceived request origin →
    (DcApi.parseDcapiRequest p request).toOption = some req → req.responseMode = "dc_api"

/-! ### Sessions follow their request -/

section
variable {p : Platform} {r : Entropy} {c : Core} {e : Event} {out : Core × List Effect}
  {req : Oid4vp.AuthRequest} {s : SessionInfo}

theorem Admitted.captures (h : Admitted p c req s) : s.Captures req := by
  obtain ⟨prepared, -, rfl, -⟩ := h.selection
  exact ⟨rfl, rfl⟩

theorem Captured.captures (h : Captured p c req s) : s.Captures req := by
  obtain ⟨_, s₀, hadmitted, -, -, rfl | rfl⟩ := h.admitted
  · exact hadmitted.captures
  · exact ⟨hadmitted.captures.mode, hadmitted.captures.key⟩

/-- A request object ends the presentation before it, whether or not it begins one. -/
theorem handleEvent_request {b : Bytes} (h : c.handleEvent p r (.authorizationRequestReceived b) = out) :
    ¬ out.1.vp.InProgress ∨ ∃ req, Oid4vp.parseRequest p b = some req ∧ out.1.vp = .resolvingTrust req := by
  subst h
  simp only [handleEvent, auditedFlowStartedBy]
  split_ifs
  · exact .inl id
  · exact .inl id
  · simp only [dispatch]
    generalize hout : (c.beginFlow .presentation).drive p r (.authorizationRequest b) = out
    have houtcome := drive_outcome p r (c.beginFlow .presentation) (.authorizationRequest b)
    rw [hout] at houtcome
    cases houtcome with
    | unchanged | malformed => exact .inl id
    | received _ hparsed => exact .inr ⟨_, hparsed, rfl⟩
    | readmitted hvp => cases hvp
    | rejected hprogress | aborted hprogress => exact hprogress.elim

/-! ### Runs -/

/-- What the state of the presentation machine says about the request objects so far. -/
def RequestStory (p : Platform) (pre : List Turn) (c : Core) : Prop :=
  match c.vp with
  | .resolvingTrust req => LastRequest p req pre
  | .requestValidated req => LastRequest p req pre ∧ ∀ s, c.session = some s → s.Captures req
  | .awaitingDeviceSignature _ => ∀ s, c.session = some s → ∃ req, LastRequest p req pre ∧ s.Captures req
  | .idle | .presenting | .done | .aborted _ => True

/-- What a prepared answer says about the browser requests so far. -/
def BrowserStory (p : Platform) (pre : List Turn) (c : Core) : Prop :=
  c.dcapi.presentation ≠ none → ∃ req, LastBrowserRequest p req pre ∧ req.responseMode = "dc_api"

variable {pre : List Turn} {k : Turn}

theorem RequestStory.of_not_inProgress (h : ¬ c.vp.InProgress) : RequestStory p pre c := by
  unfold RequestStory
  split <;> simp_all [Oid4vp.State.InProgress]

theorem Taken.requestStory (htaken : Taken p k) (h : RequestStory p pre k.before) :
    RequestStory p (pre ++ [k]) k.after := by
  by_cases hquiet : ReceivesNoRequest k
  · have hkeep {req} (hlast : LastRequest p req pre) : LastRequest p req (pre ++ [k]) := hlast.keep hquiet
    have hcaptures {req s} (hvp : k.after.vp = .requestValidated req) (hs : k.after.session = some s) :
        k.before.session = some s ∨ s.Captures req := by
      refine (htaken.outcome.session htaken.steady hs).imp_right ?_
      rintro ⟨req', hcaptured, hnext⟩
      cases hvp.symm.trans hnext
      exact hcaptured.captures
    cases htaken.outcome.move htaken.steady with
    | still hvp hsession =>
      unfold RequestStory at h ⊢
      rw [hvp, hsession]
      split at h
      · exact hkeep h
      · exact ⟨hkeep h.1, h.2⟩
      · exact fun s hs => (h s hs).imp fun _ h => ⟨hkeep h.1, h.2⟩
      all_goals trivial
    | ended hended => exact .of_not_inProgress hended
    | received hevent => exact absurd hevent (hquiet _)
    | readmitted _ hvp hnext =>
      unfold RequestStory at h ⊢
      rw [hvp] at h hnext
      rw [hnext]
      exact ⟨hkeep h.1, fun s hs => (hcaptures hnext hs).elim (h.2 s) id⟩
    | shown _ hvp _ hnext =>
      unfold RequestStory at h ⊢
      rw [hvp] at h
      rw [hnext]
      refine ⟨hkeep h, fun s hs => (hcaptures hnext hs).elim (fun hbefore => ?_) id⟩
      have hvalidated := htaken.steady.vp.session (by simp [hbefore])
      rw [hvp] at hvalidated
      exact hvalidated.elim
    | consented _ hvp _ _ hnext hsession =>
      unfold RequestStory at h ⊢
      rw [hvp] at h
      rw [hnext, hsession]
      exact fun s hs => ⟨_, hkeep h.1, h.2 s hs⟩
    | signed _ hvp _ _ hnext hsession =>
      unfold RequestStory at h ⊢
      rw [hvp] at h
      rw [hnext, hsession]
      exact fun s hs => (h s hs).imp fun _ h => ⟨hkeep h.1, h.2⟩
    | sent _ _ _ _ hnext =>
      unfold RequestStory
      rw [hnext]
      trivial
  · obtain ⟨b, hevent⟩ : ∃ b, k.input.1 = .authorizationRequestReceived b := by
      simpa [ReceivesNoRequest] using hquiet
    have hresult := htaken.eq hevent
    obtain hended | ⟨req, hparsed, hnext⟩ := handleEvent_request hresult
    · exact .of_not_inProgress hended
    · have hnext : k.after.vp = .resolvingTrust req := hnext
      unfold RequestStory
      rw [hnext]
      exact .begin ⟨b, hevent, hparsed⟩

theorem Taken.browserStory (htaken : Taken p k) (h : BrowserStory p pre k.before) (hplain : AsksPlainly p k) :
    BrowserStory p (pre ++ [k]) k.after := by
  by_cases hquiet : AskedByNoBrowser k
  · have hkeep (hprepared : k.before.dcapi.presentation ≠ none) :
        ∃ req, LastBrowserRequest p req (pre ++ [k]) ∧ req.responseMode = "dc_api" :=
      (h hprepared).imp fun _ h => ⟨h.1.keep hquiet, h.2⟩
    rcases htaken.outcome.seenFrom htaken.steady .dcApi nofun with hevent | ⟨hforeign, -⟩
    · obtain ⟨c, ⟨e, r⟩, effects, c'⟩ := k
      have hevent : DcApiEvent p c e (c', effects) := hevent
      cases hevent with
      | unanswered | asked => exact absurd rfl (hquiet _ _)
      | consented => exact hkeep
      | unprepared | declined | responded | ended => exact fun h => absurd rfl h
    · intro hprepared
      rcases hforeign.data with data | data <;> replace data := FlowData.dcApi.inj data <;>
        rw [data] at hprepared
      · exact hkeep hprepared
      · exact absurd rfl hprepared
  · obtain ⟨request, origin, hevent⟩ : ∃ request origin, k.input.1 = .dcApiRequestReceived request origin := by
      simpa [AskedByNoBrowser] using hquiet
    have hresult := htaken.eq hevent
    have houtcome : DcApiEvent p k.before (.dcApiRequestReceived request origin) (k.after, k.outputs) := by
      rw [← hresult]
      exact dcapiRequestReceived_event request origin
    generalize hout : (k.after, k.outputs) = out at houtcome
    cases houtcome with
    | unanswered =>
      obtain ⟨hafter, -⟩ := Prod.mk.inj hout
      rw [hafter]
      exact fun h => absurd rfl h
    | asked hparsed =>
      exact fun _ => ⟨_, .begin ⟨request, origin, hevent, hparsed⟩, hplain request origin _ hevent hparsed⟩

end

theorem EventOutcome.browserAnswer {p : Platform} {r : Entropy} {c : Core} {e : Event}
    {out : Core × List Effect} {response : Bytes} (hsteady : c.Steady) (h : EventOutcome p r c e out)
    (hresponse : .emitDcApiResponse response ∈ out.2) : ∃ presentation, c.dcapi.presentation = some presentation := by
  have hevent : DcApiEvent p c e out := h.own hsteady hresponse rfl
  cases hevent with
  | responded _ hprepared => exact ⟨_, hprepared⟩
  | unanswered | asked | consented | unprepared | declined | ended => simp at hresponse

theorem not_plainForm_of_encrypted {p : Platform} {r : Entropy} {c : Core} {form key body : Bytes}
    (h : c.encryptDirectPostJwt p r form key = some body) : ¬ PlainForm p body := by
  rintro ⟨done, state, rfl⟩
  simp only [encryptDirectPostJwt, Option.bind_eq_bind, Option.bind_eq_some_iff, Option.pure_def,
    Option.some.injEq] at h
  obtain ⟨_, -, _, -, _, -, jwe, -, h⟩ := h
  have hletter := congrArg (fun s : String => s.toList.head?) (utf8_injective h)
  simp [Oid4vp.assembleDirectPostBody] at hletter

/-- As long as no browser asks for an encrypted answer, every answer is plain only if its request says
so, and encrypted to the key of its request otherwise. -/
theorem run_answeredAsAsked {p : Platform} {c : Core} (hfresh : Provisioned p c)
    (inputs : List (Event × Entropy)) (hplain : Always (fun _ k => AsksPlainly p k) (run p c inputs)) :
    Always (AnsweredAsAsked p) (run p c inputs) := by
  refine run_always (fun pre c => RequestStory p pre c ∧ BrowserStory p pre c) _ hfresh ?_ ?_ ?_ inputs hplain
  · have hvp := hfresh.flowData .presentation
    have hdcapi := hfresh.flowData .dcApi
    simp only [flowData, emptyFlow, FlowData.presentation.injEq, FlowData.dcApi.injEq] at hvp hdcapi
    refine ⟨.of_not_inProgress ?_, fun h => ?_⟩
    · rw [hvp.1]
      exact id
    · rw [hdcapi] at h
      exact absurd rfl h
  · rintro pre k htaken ⟨hrequest, hbrowser⟩ hplain
    exact ⟨htaken.requestStory hrequest, htaken.browserStory hbrowser hplain⟩
  · rintro pre k htaken ⟨hrequest, hbrowser⟩ -
    refine ⟨fun response hresponse => ?_, fun url body hpost => ?_⟩
    · obtain ⟨presentation, hprepared⟩ := htaken.outcome.browserAnswer htaken.steady hresponse
      exact hbrowser (by simp [hprepared])
    · obtain ⟨signature, pending, sub, s, hvp, -, hsession, -, -, hanswers⟩ :=
        (htaken.outcome.move htaken.steady).post hpost
      unfold RequestStory at hrequest
      rw [hvp] at hrequest
      obtain ⟨req, hlast, hcaptures⟩ := hrequest s hsession
      obtain ⟨state, hposted⟩ := hanswers.posted
      refine ⟨req, hlast, ?_⟩
      obtain ⟨hmode, rfl⟩ | ⟨hmode, key, hkey, hencrypted⟩ := hposted
      · rw [hcaptures.mode] at hmode
        exact ⟨fun _ => hmode, fun h => absurd hmode h⟩
      · exact ⟨fun h => absurd h (not_plainForm_of_encrypted hencrypted),
          fun _ => ⟨key, _, hcaptures.key.symm.trans hkey, hencrypted⟩⟩

end Core

/-! ### A browser that asks for encryption -/

namespace Sealed

def request : Json := .obj [("response_type", .str "vp_token"), ("response_mode", .str "dc_api.jwt"),
  ("nonce", .str "n"), ("dcql_query", .obj [("credentials", .arr [.obj [("format", .str "mso_mdoc"),
    ("id", .str "id"), ("meta", .obj [("doctype_value", .str "licence")])]])])]

/-- Every text is the request. -/
def platform : Platform := { (default : Platform) with parseJson := fun _ => some request }

end Sealed

open Wallet.Core

/-- The browser gets a plain answer to a request for one. -/
theorem run_answeredAsAsked_browser : ∃ pre k post response,
    run Browser.platform Browser.core Browser.inputs = pre ++ k :: post ∧
      .emitDcApiResponse response ∈ k.outputs ∧ AnsweredAsAsked Browser.platform pre k := by
  have hanswers : (run Browser.platform Browser.core Browser.inputs).any (fun k =>
      k.outputs.any Effect.isDcApiResponse) = true := by decide
  have hplain : Always (fun _ k => AsksPlainly Browser.platform k)
      (run Browser.platform Browser.core Browser.inputs) := by
    rintro pre k post - request origin req - hparsed
    cases hparsed
    rfl
  obtain ⟨pre, k, post, x, hrun, hx, hanswers⟩ := exists_call_of_any hanswers
  obtain ⟨response, rfl⟩ := Effect.isDcApiResponse_iff.mp hanswers
  exact ⟨pre, k, post, response, hrun, hx,
    run_answeredAsAsked Browser.core_provisioned Browser.inputs hplain pre k post hrun⟩

/-- It gets a plain answer to a request for an encrypted one as well. -/
theorem run_sealed_answeredPlainly :
    ¬ Always (AnsweredAsAsked Sealed.platform) (run Sealed.platform Browser.core Browser.inputs) := by
  intro hasked
  have hanswers : (run Sealed.platform Browser.core Browser.inputs).any (fun k =>
      k.outputs.any Effect.isDcApiResponse) = true := by decide
  obtain ⟨pre, k, post, x, hrun, hx, hanswers⟩ := exists_call_of_any hanswers
  obtain ⟨response, rfl⟩ := Effect.isDcApiResponse_iff.mp hanswers
  obtain ⟨req, ⟨older, first, newer, marks, -, ⟨request, origin, -, hparsed⟩, -⟩, hmode⟩ :=
    (hasked pre k post hrun).browser response hx
  cases hparsed
  exact absurd hmode (by decide)

end EuWallet.Wallet
