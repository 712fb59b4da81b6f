import EuWallet.Protocol.Exchange
import Mathlib.Data.List.Induction

/-! # The reference model of the presentation machine

`oid4vp::model` is a five-event abstraction of `oid4vp::step`. The production machine refines it: every
exchange of a run is answered by model events that lead to the image of the state it reaches
(`exchanges_refine`). The model remembers validation and consent in flags that outlive a session, so
that not every disclosure of its own is authorised in its session; `disclosures_authorised_iff` says
which are. -/

namespace EuWallet.Protocol.Oid4vp.Model

inductive St where
  | idle
  | requested
  | validated
  | awaitingConsent
  | presenting
  | aborted
deriving DecidableEq

inductive Ev where
  | request (nonce : UInt64)
  | validateSig
  | consent
  | disclose
deriving DecidableEq

structure Ctx where
  st : St
  sigValidated : Bool
  consented : Bool
  usedNonces : List UInt64
  disclosed : Bool
deriving DecidableEq

def Ctx.init : Ctx := ⟨.idle, false, false, [], false⟩

def step (c : Ctx) : Ev → Ctx
  | .request n =>
    if c.usedNonces.contains n then { c with st := .aborted }
    else { c with st := .requested, usedNonces := c.usedNonces ++ [n] }
  | .validateSig =>
    if c.st = .requested then { c with st := .validated, sigValidated := true } else c
  | .consent =>
    if c.st = .validated then { c with st := .awaitingConsent, consented := true } else c
  | .disclose =>
    if c.consented && c.sigValidated then { c with st := .presenting, disclosed := true }
    else { c with st := .aborted }

def run (evs : List Ev) : Ctx := evs.foldl step .init

theorem run_append (evs more : List Ev) : run (evs ++ more) = more.foldl step (run evs) :=
  List.foldl_append

theorem run_concat (evs : List Ev) (e : Ev) : run (evs ++ [e]) = step (run evs) e := by
  rw [run_append]
  rfl

/-! ### Disclosures of the model -/

/-- An event after `pre` that changes the state to `target`. -/
def Moves (pre : List Ev) (e : Ev) (target : St) : Prop :=
  (run pre).st ≠ target ∧ (run (pre ++ [e])).st = target

/-- What the events before a disclosure must contain: a request that is no replay, the last such one;
after it a validation and then a consent that take effect; and no request since the consent. -/
def Authorised (pre : List Ev) : Prop :=
  ∃ opening nonce asked validated granted,
    pre = opening ++ .request nonce :: (asked ++ .validateSig :: (validated ++ .consent :: granted)) ∧
    nonce ∉ (run opening).usedNonces ∧
    (∀ before n after, asked ++ .validateSig :: (validated ++ .consent :: granted) =
      before ++ .request n :: after → n ∈ (run (opening ++ .request nonce :: before)).usedNonces) ∧
    Moves (opening ++ .request nonce :: asked) .validateSig .validated ∧
    Moves (opening ++ .request nonce :: (asked ++ .validateSig :: validated)) .consent .awaitingConsent ∧
    ∀ n, .request n ∉ granted

/-- No request is made. -/
def Quiet (evs : List Ev) : Prop := ∀ n, .request n ∉ evs

/-- The events up to a state in which a request is answered: a request that is no replay. -/
def Requested (pre : List Ev) : Prop :=
  ∃ opening nonce asked, pre = opening ++ .request nonce :: asked ∧
    nonce ∉ (run opening).usedNonces ∧ Quiet asked

/-- The events up to a state in which the request of the session is validated. -/
def SigValidated (pre : List Ev) : Prop :=
  ∃ opening validated, pre = opening ++ .validateSig :: validated ∧ Requested opening ∧
    Moves opening .validateSig .validated ∧ Quiet validated

/-- The events up to a state in which the session has a consent. -/
def Consented (pre : List Ev) : Prop :=
  ∃ opening granted, pre = opening ++ .consent :: granted ∧ SigValidated opening ∧
    Moves opening .consent .awaitingConsent ∧ Quiet granted

variable {evs : List Ev} {e : Ev}

theorem Quiet.concat (h : Quiet evs) (he : ∀ n, e ≠ .request n) : Quiet (evs ++ [e]) := by
  intro n hmem
  rcases List.mem_append.mp hmem with hmem | hmem
  · exact h n hmem
  · exact he n (List.mem_singleton.mp hmem).symm

section Sessions
variable {pre : List Ev}

theorem Requested.concat (h : Requested pre) (he : ∀ n, e ≠ .request n) : Requested (pre ++ [e]) := by
  obtain ⟨opening, nonce, asked, rfl, hfresh, hquiet⟩ := h
  exact ⟨opening, nonce, asked ++ [e], by simp, hfresh, hquiet.concat he⟩

theorem SigValidated.concat (h : SigValidated pre) (he : ∀ n, e ≠ .request n) : SigValidated (pre ++ [e]) := by
  obtain ⟨opening, validated, rfl, hopening, hmoves, hquiet⟩ := h
  exact ⟨opening, validated ++ [e], by simp, hopening, hmoves, hquiet.concat he⟩

theorem Consented.concat (h : Consented pre) (he : ∀ n, e ≠ .request n) : Consented (pre ++ [e]) := by
  obtain ⟨opening, granted, rfl, hopening, hmoves, hquiet⟩ := h
  exact ⟨opening, granted ++ [e], by simp, hopening, hmoves, hquiet.concat he⟩

/-- Since the request of the session there was no other. -/
theorem Consented.authorised (h : Consented pre) : Authorised pre := by
  obtain ⟨_, granted, rfl, ⟨_, validated, rfl, ⟨opening, nonce, asked, rfl, hfresh, hasked⟩,
    hvalidates, hvalidated⟩, hconsents, hgranted⟩ := h
  refine ⟨opening, nonce, asked, validated, granted, by simp, hfresh, fun before n after h => ?_,
    hvalidates, by simpa using hconsents, hgranted⟩
  have hmem : Ev.request n ∈ asked ++ .validateSig :: (validated ++ .consent :: granted) := by
    rw [h]
    exact List.mem_append_right _ List.mem_cons_self
  simp only [List.mem_append, List.mem_cons, reduceCtorEq, false_or] at hmem
  rcases hmem with hmem | hmem | hmem
  · exact absurd hmem (hasked n)
  · exact absurd hmem (hvalidated n)
  · exact absurd hmem (hgranted n)

end Sessions

/-- A disclosure that both flags allow is given in the session the flags belong to. -/
def DisclosesInSession (evs : List Ev) : Prop :=
  ∀ pre post, evs = pre ++ .disclose :: post → (run pre).consented = true →
    (run pre).sigValidated = true →
    (run pre).st = .awaitingConsent ∨ (run pre).st = .presenting

theorem DisclosesInSession.of_concat (h : DisclosesInSession (evs ++ [e])) : DisclosesInSession evs := by
  rintro pre post rfl
  exact h pre (post ++ [e]) (by simp)

structure Traced (evs : List Ev) (st : St) : Prop where
  requested : st = .requested → Requested evs
  validated : st = .validated → SigValidated evs
  granted : st = .awaitingConsent ∨ st = .presenting → Consented evs

/-- An event that is no request and leaves the state as it is. -/
theorem Traced.concat {st : St} (h : Traced evs st) (he : ∀ n, e ≠ .request n) : Traced (evs ++ [e]) st :=
  ⟨fun hst => (h.requested hst).concat he, fun hst => (h.validated hst).concat he,
    fun hst => (h.granted hst).concat he⟩

theorem traced_step (h : Traced evs (run evs).st) (hsession : DisclosesInSession (evs ++ [e]))
    : Traced (evs ++ [e]) (run (evs ++ [e])).st := by
  cases e with
  | request n =>
    rw [run_concat]
    by_cases hused : n ∈ (run evs).usedNonces
    · simp only [step, List.contains_iff_mem, hused, if_true]
      exact ⟨nofun, nofun, by simp⟩
    · simp only [step, List.contains_iff_mem, hused, if_false]
      exact ⟨fun _ => ⟨evs, n, [], rfl, hused, by simp [Quiet]⟩, nofun, by simp⟩
  | validateSig =>
    by_cases hst : (run evs).st = .requested
    · have hafter : (run (evs ++ [.validateSig])).st = .validated := by
        rw [run_concat]
        simp [step, hst]
      rw [hafter]
      exact ⟨nofun, fun _ => ⟨evs, [], rfl, h.requested hst, ⟨by simp [hst], hafter⟩, by simp [Quiet]⟩, by simp⟩
    · have hafter : run (evs ++ [.validateSig]) = run evs := by
        rw [run_concat]
        simp [step, hst]
      rw [hafter]
      exact h.concat (by simp)
  | consent =>
    by_cases hst : (run evs).st = .validated
    · have hafter : (run (evs ++ [.consent])).st = .awaitingConsent := by
        rw [run_concat]
        simp [step, hst]
      rw [hafter]
      exact ⟨nofun, nofun, fun _ => ⟨evs, [], rfl, h.validated hst, ⟨by simp [hst], hafter⟩, by simp [Quiet]⟩⟩
    · have hafter : run (evs ++ [.consent]) = run evs := by
        rw [run_concat]
        simp [step, hst]
      rw [hafter]
      exact h.concat (by simp)
  | disclose =>
    rw [run_concat]
    by_cases hflags : (run evs).consented = true ∧ (run evs).sigValidated = true
    · simp only [step, hflags, Bool.and_self, if_true]
      have hgranted := h.granted (hsession evs [] rfl hflags.1 hflags.2)
      exact ⟨nofun, nofun, fun _ => hgranted.concat (by simp)⟩
    · rw [← Bool.and_eq_true] at hflags
      simp only [step, hflags, Bool.false_eq_true, if_false]
      exact ⟨nofun, nofun, by simp⟩

theorem traced_run (h : DisclosesInSession evs) : Traced evs (run evs).st := by
  induction evs using List.reverseRecOn with
  | nil => exact ⟨nofun, nofun, by simp [run, Ctx.init]⟩
  | append_singleton evs e ih => exact traced_step (ih h.of_concat) h

/-! ### Both flags stay set until the next request -/

/-- A state in which the session has both flags. -/
def Open (c : Ctx) : Prop :=
  (c.st = .awaitingConsent ∨ c.st = .presenting) ∧ c.consented = true ∧ c.sigValidated = true

theorem open_step {c : Ctx} (h : Open c) (he : ∀ n, e ≠ .request n) : Open (step c e) := by
  obtain ⟨hst, hconsented, hvalidated⟩ := h
  cases e with
  | request n => exact absurd rfl (he n)
  | validateSig | consent =>
    rcases hst with hst | hst <;> simp [Open, step, hst, hconsented, hvalidated]
  | disclose => simp [Open, step, hconsented, hvalidated]

theorem open_foldl {c : Ctx} (h : Open c) (hquiet : Quiet evs) : Open (evs.foldl step c) := by
  induction evs generalizing c with
  | nil => exact h
  | cons e evs ih =>
    refine ih (open_step h fun n he => hquiet n (he ▸ List.mem_cons_self)) fun n hn => ?_
    exact hquiet n (List.mem_cons_of_mem e hn)

theorem sigValidated_of_validated (evs : List Ev) (h : (run evs).st = .validated) :
    (run evs).sigValidated = true := by
  induction evs using List.reverseRecOn with
  | nil => cases h
  | append_singleton evs e ih =>
    rw [run_concat] at h ⊢
    cases e with
    | request n =>
      simp only [step] at h
      split_ifs at h
    | validateSig =>
      by_cases hst : (run evs).st = .requested
      · simp [step, hst]
      · simp only [step, hst, if_false] at h ⊢
        exact ih h
    | consent =>
      by_cases hst : (run evs).st = .validated
      · simp [step, hst] at h
      · simp only [step, hst, if_false] at h
    | disclose =>
      simp only [step] at h
      split_ifs at h

theorem Authorised.open {pre : List Ev} (h : Authorised pre) : Open (run pre) := by
  obtain ⟨opening, nonce, asked, validated, granted, rfl, -, -, -, hconsents, hgranted⟩ := h
  generalize hbefore : opening ++ .request nonce :: (asked ++ .validateSig :: validated) = before
    at hconsents
  have hsplit : opening ++ .request nonce :: (asked ++ .validateSig :: (validated ++ .consent :: granted))
      = before ++ [.consent] ++ granted := by simp [← hbefore]
  rw [hsplit, run_append]
  refine open_foldl ⟨.inl hconsents.2, ?_⟩ hgranted
  obtain ⟨hne, hafter⟩ := hconsents
  rw [run_concat] at hafter ⊢
  by_cases hst : (run before).st = .validated
  · simp [step, hst, sigValidated_of_validated before hst]
  · simp only [step, hst, if_false] at hafter
    exact absurd hafter hne

/-- **The disclosures of the model.** Every disclosure of a sequence is authorised in its own session
when each `disclose` that finds both flags set is given while the session of the flags is open. -/
theorem disclosures_authorised_iff (evs : List Ev) : (∀ pre post, evs = pre ++ .disclose :: post →
      (run (pre ++ [.disclose])).st = .presenting → Authorised pre) ↔ DisclosesInSession evs := by
  constructor
  · intro h pre post heq hconsented hvalidated
    refine (h pre post heq ?_).open.1
    rw [run_concat]
    simp [step, hconsented, hvalidated]
  · rintro h pre post rfl hpresenting
    have hsession : DisclosesInSession pre := by
      rintro pre' post' rfl
      exact h pre' (post' ++ .disclose :: post) (by simp)
    have hflags : (run pre).consented = true ∧ (run pre).sigValidated = true := by
      rw [run_concat] at hpresenting
      by_contra hflags
      simp [step, hflags] at hpresenting
    exact ((traced_run hsession).granted (h pre post rfl hflags.1 hflags.2)).authorised

/-- The flags of the first session let the second one disclose at once. -/
theorem disclosure_unauthorised :
    (run [.request 1, .validateSig, .consent, .disclose, .request 2, .disclose]).st = .presenting ∧
      ¬ Authorised [.request 1, .validateSig, .consent, .disclose, .request 2] := by
  refine ⟨by decide, fun h => ?_⟩
  have hrequested : (run [.request 1, .validateSig, .consent, .disclose, .request 2]).st = .requested := by
    decide
  have hopen := h.open.1
  rw [hrequested] at hopen
  simp at hopen

end EuWallet.Protocol.Oid4vp.Model

/-! ### The production machine refines the model -/

namespace EuWallet.Protocol.Oid4vp

open Codec Crypto Lib

def State.image : State → Model.St
  | .idle => .idle
  | .resolvingTrust _ => .requested
  | .requestValidated _ => .validated
  | .awaitingDeviceSignature _ => .awaitingConsent
  | .presenting | .done => .presenting
  | .aborted _ => .aborted

def Exchange.modelEvents (f : String → UInt64) (k : Exchange) : List Model.Ev :=
  match k.before, k.after with
  | .idle, .resolvingTrust req => [.request (f req.nonce)]
  | .resolvingTrust _, .requestValidated _ => [.validateSig]
  | .requestValidated _, .awaitingDeviceSignature _ => [.consent]
  | .awaitingDeviceSignature _, .presenting => [.disclose]
  | .idle, .aborted _ | .resolvingTrust _, .aborted _ | .requestValidated _, .aborted _ => [.disclose]
  | _, _ => []

/-- What a step of the machine can do to its state, with what it emits. -/
inductive Transition : State → List Output → State → Prop
  | asks (req : AuthRequest) : Transition .idle [.resolveRpTrust req.clientId] (.resolvingTrust req)
  | refuses (reason : AbortReason) : Transition .idle [] (.aborted reason)
  | validates (req : AuthRequest) (purpose : String) : Transition (.resolvingTrust req)
      [.persistNonce req.nonce, .renderConsent req.clientId purpose] (.requestValidated req)
  | rejects (req : AuthRequest) (reason : AbortReason) :
      Transition (.resolvingTrust req) [] (.aborted reason)
  | grants (req : AuthRequest) (keyRef : String) (first : SubPresentation)
      (rest : List SubPresentation) : Transition (.requestValidated req)
      [.signKeyBinding keyRef first.signingInput]
      (.awaitingDeviceSignature ⟨first :: rest, [], req.state⟩)
  | ends (req : AuthRequest) (out : List Output) (silent : ∀ body, .sendVpToken body ∉ out)
      (reason : AbortReason) : Transition (.requestValidated req) out (.aborted reason)
  | signs (keyRef : String) (sub next : SubPresentation) (rest : List SubPresentation)
      (done done' : List CompletedPresentation) (state : Option String) :
      Transition (.awaitingDeviceSignature ⟨sub :: next :: rest, done, state⟩)
        [.signKeyBinding keyRef next.signingInput]
        (.awaitingDeviceSignature ⟨next :: rest, done', state⟩)
  | sends (sub : SubPresentation) (done : List CompletedPresentation) (state : Option String)
      (body : Bytes) : Transition (.awaitingDeviceSignature ⟨[sub], done, state⟩)
        [.sendVpToken body] .presenting
  | starves (done : List CompletedPresentation) (state : Option String) (reason : AbortReason) :
      Transition (.awaitingDeviceSignature ⟨[], done, state⟩) [] (.aborted reason)
  | delivers : Transition .presenting [.close] .done
  | idles (s : State) : Transition s [] s

theorem respond_transition (s : State) (i : Stimulus) : Transition s (respond s i).2 (respond s i).1 := by
  obtain ⟨p, env, input⟩ := i
  cases s with
  | idle =>
    cases input with
    | authorizationRequest b =>
      simp only [respond, step]
      cases parseRequest p b with
      | none => exact .refuses _
      | some req => exact .asks req
    | _ => exact .idles _
  | resolvingTrust req =>
    cases input with
    | rpTrustResolved trust =>
      simp only [respond, step]
      cases firstFailedGuard p env req trust with
      | none => exact .validates req _
      | some reason => exact .rejects req reason
    | _ => exact .idles _
  | requestValidated req =>
    cases input with
    | consentGranted =>
      simp only [respond, step, stepConsent]
      split
      · exact .grants req _ _ _
      · exact .ends req [] (by simp) _
    | consentDeclined => exact .ends req _ (by simp [respond, step]) _
    | _ => exact .idles _
  | awaitingDeviceSignature pending =>
    obtain ⟨queue, done, state⟩ := pending
    cases input with
    | deviceSignatureProduced sig =>
      rcases queue with _ | ⟨sub, _ | ⟨next, rest⟩⟩
      · exact .starves done state _
      · exact .sends sub done state _
      · exact .signs _ sub next rest done _ state
    | _ => exact .idles _
  | presenting =>
    cases input with
    | presentationDelivered => exact .delivers
    | _ => exact .idles _
  | _ => cases input <;> exact .idles _

/-- The machine and the model after the same exchanges. -/
structure Simulates (outputs : List Output) (s : State) (c : Model.Ctx) : Prop where
  state : c.st = s.image
  disclosed : c.disclosed = true ↔ ∃ body, .sendVpToken body ∈ outputs
  fresh : c.st = .idle → c.usedNonces = []
  unvalidated : c.st = .idle ∨ c.st = .requested → c.sigValidated = false
  unconsented : c.st = .idle ∨ c.st = .requested ∨ c.st = .validated → c.consented = false
  granted : c.st = .awaitingConsent → c.sigValidated = true ∧ c.consented = true
  validated : c.st = .validated → c.sigValidated = true
  queued : ∀ pending, s = .awaitingDeviceSignature pending → pending.queue ≠ []

variable {outputs out : List Output} {c : Model.Ctx}

/-- A step the model does not take part in. -/
theorem Simulates.idle {s s' : State} (h : Simulates outputs s c) (himage : s'.image = s.image)
    (hout : ∀ body, .sendVpToken body ∉ out)
    (hqueue : ∀ pending, s' = .awaitingDeviceSignature pending → pending.queue ≠ []) :
    Simulates (outputs ++ out) s' c where
  state := by rw [h.state, himage]
  disclosed := by simp [h.disclosed, hout]
  fresh := h.fresh
  unvalidated := h.unvalidated
  unconsented := h.unconsented
  granted := h.granted
  validated := h.validated
  queued := hqueue

theorem Simulates.abort {s : State} {reason : AbortReason} (h : Simulates outputs s c)
    (hout : ∀ body, .sendVpToken body ∉ out)
    (hearly : c.st = .idle ∨ c.st = .requested ∨ c.st = .validated) :
    Simulates (outputs ++ out) (.aborted reason) (Model.step c .disclose) := by
  have hstep : Model.step c .disclose = { c with st := .aborted } := by
    simp [Model.step, h.unconsented hearly]
  rw [hstep]
  exact ⟨rfl, by simp [h.disclosed, hout], nofun, by simp, by simp, nofun, nofun, nofun⟩

theorem Simulates.step {f : String → UInt64} {s s' : State} {i : Stimulus} (h : Simulates outputs s c)
    (ht : Transition s out s') : Simulates (outputs ++ out) s'
      ((Exchange.modelEvents f ⟨s, i, out, s'⟩).foldl Model.step c) := by
  obtain ⟨hstate, hdisclosed, hfresh, hunvalidated, hunconsented, hgranted, hvalidated, hqueued⟩ := id h
  cases ht with
  | asks req =>
    have hstep : Model.step c (.request (f req.nonce)) =
        { c with st := .requested, usedNonces := [f req.nonce] } := by
      simp [Model.step, hfresh hstate]
    simp only [Exchange.modelEvents, List.foldl_cons, List.foldl_nil, hstep]
    exact ⟨rfl, by simp [hdisclosed], nofun, fun _ => hunvalidated (.inl hstate),
      fun _ => hunconsented (.inl hstate), nofun, nofun, nofun⟩
  | validates req purpose =>
    have hstep : Model.step c .validateSig = { c with st := .validated, sigValidated := true } := by
      simp [Model.step, hstate, State.image]
    simp only [Exchange.modelEvents, List.foldl_cons, List.foldl_nil, hstep]
    exact ⟨rfl, by simp [hdisclosed], nofun, by simp,
      fun _ => hunconsented (.inr (.inl hstate)), nofun, fun _ => rfl, nofun⟩
  | grants req keyRef first rest =>
    have hstep : Model.step c .consent = { c with st := .awaitingConsent, consented := true } := by
      simp [Model.step, hstate, State.image]
    simp only [Exchange.modelEvents, List.foldl_cons, List.foldl_nil, hstep]
    exact ⟨rfl, by simp [hdisclosed], nofun, by simp, by simp, fun _ => ⟨hvalidated hstate, rfl⟩, nofun, by simp⟩
  | sends sub done state body =>
    obtain ⟨hsig, hconsent⟩ := hgranted hstate
    have hstep : Model.step c .disclose = { c with st := .presenting, disclosed := true } := by
      simp [Model.step, hsig, hconsent]
    simp only [Exchange.modelEvents, List.foldl_cons, List.foldl_nil, hstep]
    exact ⟨rfl, by simp, nofun, by simp, by simp, nofun, nofun, nofun⟩
  | refuses reason => exact h.abort (by simp) (.inl hstate)
  | rejects req reason => exact h.abort (by simp) (.inr (.inl hstate))
  | ends req out silent reason => exact h.abort silent (.inr (.inr hstate))
  | starves done state reason => exact absurd rfl (hqueued _ rfl)
  | signs keyRef sub next rest done done' state => exact h.idle rfl (by simp) (by simp)
  | delivers => exact h.idle rfl (by simp) nofun
  | idles s =>
    have hnone : Exchange.modelEvents f ⟨s, i, [], s⟩ = [] := by cases s <;> rfl
    rw [hnone]
    exact h.idle rfl (by simp) hqueued

/-- **The machine refines the model.** Whatever the environments and whatever renaming of the nonces,
after every exchange the model events of the exchanges so far lead to the image of the state reached,
and the model has disclosed when a response was sent. -/
theorem exchanges_refine (f : String → UInt64) (inputs : List Stimulus) : Always (fun pre k =>
      (Model.run ((pre ++ [k]).flatMap (Exchange.modelEvents f))).st = k.after.image ∧
      ((Model.run ((pre ++ [k]).flatMap (Exchange.modelEvents f))).disclosed = true ↔
        ∃ body, .sendVpToken body ∈ (pre ++ [k]).flatMap (·.outputs))) (exchanges inputs) := by
  let Inv (pre : List Exchange) (s : State) : Prop :=
    Simulates (pre.flatMap (·.outputs)) s (Model.run (pre.flatMap (Exchange.modelEvents f)))
  have hkeep : ∀ pre s i, Inv pre s → Inv (pre ++ [callOf respond s i]) (respond s i).1 := by
    intro pre s i h
    simp only [Inv, List.flatMap_append, List.flatMap_singleton, Model.run_append]
    exact h.step (respond_transition s i)
  have hstart : Inv [] .idle :=
    ⟨rfl, by simp [Model.run, Model.Ctx.init], fun _ => rfl, fun _ => rfl, fun _ => rfl, nofun, nofun,
      nofun⟩
  refine calls_always Inv (fun _ _ => True) hstart (fun pre s i h _ => hkeep pre s i h)
    (fun pre s i h _ => ?_) inputs (fun _ _ _ _ => trivial)
  have hafter := hkeep pre s i h
  exact ⟨hafter.state, hafter.disclosed⟩

end EuWallet.Protocol.Oid4vp
