import EuWallet.Wallet.Sessions

/-! # No disclosure without consent

Whatever leaves the wallet for a relying party comes after a consent of the user to the screen of its
session, and after a signature asked for since. The two-step flows carry the consent in the state of
their machine. The browser flow does not: a signature is taken whether or not it was asked for, and the
result holds of runs that produce one only after a consent (`dcApiConsented`). -/

namespace EuWallet.Wallet

open Codec Crypto Formats Lib Presenter Protocol
open Trust

def Effect.discloses : Effect → Option ActiveFlow
  | .http .openid4vpDirectPost _ _ => some .presentation
  | .emitDeviceResponse _ => some .proximity
  | .emitDcApiResponse _ => some .dcApi
  | _ => none

namespace Core

/-! ### Sessions -/

def Starts : ActiveFlow → Turn → Prop
  | .presentation, k => ∃ clientId, .resolveRpTrust clientId ∈ k.outputs
  | .proximity, k => ∃ engagement, .emitDeviceEngagement engagement ∈ k.outputs
  | .dcApi, k => ∃ origin disclosed, .render (.dcApiConsent origin disclosed) ∈ k.outputs
  | _, _ => False

def Shows : ActiveFlow → Turn → Prop
  | .presentation, k => ∃ screen, .render (.consent screen) ∈ k.outputs
  | .proximity, k => ∃ disclosed, .render (.proximityConsent disclosed) ∈ k.outputs
  | .dcApi, k => ∃ origin disclosed, .render (.dcApiConsent origin disclosed) ∈ k.outputs
  | _, _ => False

/-- What the flow has to sign next. -/
def signingInput (c : Core) : ActiveFlow → Option Bytes
  | .presentation => match c.vp with
    | .awaitingDeviceSignature pending => pending.queue.head?.map (·.signingInput)
    | _ => none
  | .proximity => c.proximity.presentation.map (·.signingInput)
  | .dcApi => c.dcapi.presentation.map (·.signingInput)
  | _ => none

/-- The call asks for a signature of the flow. -/
def Signs (f : ActiveFlow) (k : Turn) : Prop :=
  ∃ keyRef input, k.after.signingInput f = some input ∧ .sign keyRef input ∈ k.outputs

/-- The calls of one session so far, from the one that started it: the flow is active throughout and does
not start again. -/
def Session (f : ActiveFlow) (since : List Turn) : Prop :=
  ∃ start rest, since = start :: rest ∧ Starts f start ∧ start.after.active = f ∧
    ∀ k ∈ rest, ¬ Starts f k ∧ k.before.active = f ∧ k.after.active = f

/-- The user consented after the screen of the flow was shown. -/
def Agreed (f : ActiveFlow) (since : List Turn) : Prop :=
  ∃ seen consent later, since = seen ++ consent :: later ∧ (∃ k ∈ seen, Shows f k) ∧
    consent.input.1 = .userConsented

/-- The user consented after the screen of the flow was shown, and a signature was asked for since. -/
def Asked (f : ActiveFlow) (since : List Turn) : Prop :=
  ∃ seen consent later, since = seen ++ consent :: later ∧ (∃ k ∈ seen, Shows f k) ∧
    consent.input.1 = .userConsented ∧ ∃ k ∈ consent :: later, Signs f k

def InSession (f : ActiveFlow) (pre since : List Turn) : Prop :=
  (∃ older, pre = older ++ since) ∧ Session f since

/-- The session so far has a consent and a signature asked for after it. -/
def Preceded (f : ActiveFlow) (pre : List Turn) : Prop := ∃ since, InSession f pre since ∧ Asked f since

/-- Has the user consented since the last request of a browser? -/
def dcApiConsented (calls : List Turn) : Bool :=
  calls.foldl (fun consented k => match k.input.1 with
    | .dcApiRequestReceived _ _ => false
    | .userConsented => true
    | _ => consented) false

section
variable {f : ActiveFlow} {pre since : List Turn} {k : Turn}

theorem InSession.start (hstarts : Starts f k) (hactive : k.after.active = f) :
    InSession f (pre ++ [k]) [k] := ⟨⟨pre, rfl⟩, k, [], rfl, hstarts, hactive, by simp⟩

theorem InSession.extend (h : InSession f pre since) (hstarts : ¬ Starts f k)
    (hbefore : k.before.active = f) (hafter : k.after.active = f) : InSession f (pre ++ [k]) (since ++ [k]) := by
  obtain ⟨⟨older, rfl⟩, start, rest, rfl, hstart, hactive, hrest⟩ := h
  refine ⟨⟨older, by simp⟩, start, rest ++ [k], rfl, hstart, hactive, fun j hj => ?_⟩
  rcases List.mem_append.mp hj with hj | hj
  · exact hrest j hj
  · rw [List.mem_singleton.mp hj]
    exact ⟨hstarts, hbefore, hafter⟩

theorem Agreed.of_consent (hshown : ∃ k ∈ since, Shows f k) (hevent : k.input.1 = .userConsented) :
    Agreed f (since ++ [k]) := ⟨since, k, [], rfl, hshown, hevent⟩

theorem Agreed.extend (h : Agreed f since) : Agreed f (since ++ [k]) := by
  obtain ⟨seen, consent, later, rfl, hshown, hevent⟩ := h
  exact ⟨seen, consent, later ++ [k], by simp, hshown, hevent⟩

/-- A signature that is asked for after a consent. -/
theorem Agreed.asked (h : Agreed f (since ++ [k])) (hsigns : Signs f k) : Asked f (since ++ [k]) := by
  obtain ⟨seen, consent, later, heq, hshown, hevent⟩ := h
  refine ⟨seen, consent, later, heq, hshown, hevent, k, ?_, hsigns⟩
  have hlast := congrArg List.getLast? heq
  simp only [List.getLast?_append, List.getLast?_singleton, Option.some_or] at hlast
  rw [List.getLast?_cons] at hlast
  simp only [Option.some_or, Option.some.injEq] at hlast
  rw [hlast]
  exact List.mem_of_getLast? (by rw [List.getLast?_cons])

theorem Asked.agreed (h : Asked f since) : Agreed f since := by
  obtain ⟨seen, consent, later, heq, hshown, hevent, -⟩ := h
  exact ⟨seen, consent, later, heq, hshown, hevent⟩

theorem Asked.extend (h : Asked f since) : Asked f (since ++ [k]) := by
  obtain ⟨seen, consent, later, rfl, hshown, hevent, j, hj, hsigns⟩ := h
  refine ⟨seen, consent, later ++ [k], by simp, hshown, hevent, j, ?_, hsigns⟩
  exact List.mem_append_left _ hj

theorem shows_extend (h : ∃ k ∈ since, Shows f k) : ∃ j ∈ since ++ [k], Shows f j := by
  obtain ⟨j, hj, hshows⟩ := h
  exact ⟨j, List.mem_append_left _ hj, hshows⟩

/-! ### Presentations over the network -/

/-- How far a session of the presentation flow has come. -/
structure VpStage (c : Core) (since : List Turn) : Prop where
  shown : c.vp.Validated → ∃ k ∈ since, Shows .presentation k
  agreed : c.pendingStatusReferences ≠ [] → Agreed .presentation since
  asked : (∃ pending, c.vp = .awaitingDeviceSignature pending) ∨ c.vp = .presenting →
    Asked .presentation since

/-- A machine that waits for something is in a session. -/
def VpInSession (pre : List Turn) (c : Core) : Prop :=
  c.vp.InProgress → ∃ since, InSession .presentation pre since ∧ VpStage c since

variable {p : Platform} {response : Bytes}

theorem Unspoken.not_starts (h : Unspoken k.outputs) : ¬ Starts .presentation k := by
  rintro ⟨clientId, hmem⟩
  obtain ⟨uri, ⟨⟩⟩ | ⟨nonce, ⟨⟩⟩ := h _ hmem rfl

theorem VpInSession.extend (h : VpInSession pre k.before) (htaken : Taken p k)
    (hbefore : k.before.vp.InProgress) (hafter : k.after.vp.InProgress) (hstarts : ¬ Starts .presentation k)
    (hstage : ∀ since, VpStage k.before since → VpStage k.after (since ++ [k])) :
    VpInSession (pre ++ [k]) k.after := by
  intro _
  obtain ⟨since, hsession, hstaged⟩ := h hbefore
  exact ⟨since ++ [k], hsession.extend hstarts (htaken.steady.vp.active hbefore)
    ((htaken.outcome.steady htaken.steady).vp.active hafter), hstage since hstaged⟩

/-- What an event writes down is agreed to. -/
theorem VpStage.mayAsk (h : VpStage k.before since) (hown : k.before.VpOwned)
    (hasks : k.before.MayAsk k.input.1 k.after.pendingStatusReferences)
    (hreferences : k.after.pendingStatusReferences ≠ []) : Agreed .presentation (since ++ [k]) := by
  obtain hbefore | ⟨hevent, hsession⟩ := hasks hreferences
  · exact (h.agreed hbefore).extend
  · exact .of_consent (h.shown (hown.session hsession)) hevent

theorem VpStage.asked_extend (h : VpStage k.before since)
    (hvp : (∃ pending, k.before.vp = .awaitingDeviceSignature pending) ∨ k.before.vp = .presenting) :
    VpStage k.after (since ++ [k]) := by
  have hasked : Asked .presentation (since ++ [k]) := (h.asked hvp).extend
  refine ⟨fun _ => shows_extend (h.shown ?_), fun _ => hasked.agreed, fun _ => hasked⟩
  rcases hvp with ⟨pending, hvp⟩ | hvp <;> rw [hvp] <;> trivial

theorem VpMove.inSession (h : VpMove p k.input.2 k.before k.input.1 k.after k.outputs) (htaken : Taken p k)
    (hinv : VpInSession pre k.before) : VpInSession (pre ++ [k]) k.after := by
  have hown := htaken.steady.vp
  cases h with
  | still hvp _ hasks _ hunspoken =>
    intro hprogress
    rw [hvp] at hprogress
    refine hinv.extend htaken hprogress (by rwa [hvp]) hunspoken.not_starts (fun since hstage => ?_)
      (by rwa [hvp])
    refine ⟨fun hvalidated => ?_, hstage.mayAsk hown hasks, fun hsigning => ?_⟩
    · rw [hvp] at hvalidated
      exact shows_extend (hstage.shown hvalidated)
    · rw [hvp] at hsigning
      exact (hstage.asked hsigning).extend
  | ended hvp => exact fun hprogress => absurd hprogress hvp
  | @received _ req _ _ hnext hreferences _ hemits =>
    intro hprogress
    have hstarts : Starts .presentation k := ⟨req.clientId, by simp [hemits]⟩
    refine ⟨[k], .start hstarts ((htaken.outcome.steady htaken.steady).vp.active hprogress), ?_⟩
    refine ⟨fun hvalidated => ?_, fun h => absurd hreferences h, fun h => ?_⟩
    · rw [hnext] at hvalidated
      exact hvalidated.elim
    · simp [hnext] at h
  | readmitted _ hvp hnext _ _ hasks _ hemits =>
    have hprogress : k.before.vp.InProgress := by rw [hvp]; trivial
    refine hinv.extend htaken hprogress (by rwa [hnext]) (by rintro ⟨_, h⟩; simp [hemits] at h)
      fun since hstage => ?_
    refine ⟨fun _ => shows_extend (hstage.shown (by rw [hvp]; trivial)), hstage.mayAsk hown hasks, fun h => ?_⟩
    simp [hnext, hvp] at h
  | @shown _ _ _ req s _ hvp _ hnext _ _ hasks _ hemits =>
    refine hinv.extend htaken (by rw [hvp]; trivial) (by rw [hnext]; trivial)
      (by rintro ⟨_, h⟩; simp [hemits] at h) fun since hstage => ?_
    refine ⟨fun _ => ⟨k, by simp, sessionConsentScreen p s, by simp [hemits]⟩, hstage.mayAsk hown hasks, fun h => ?_⟩
    simp [hnext] at h
  | @consented req first rest hevent hvp _ _ hnext _ _ hemits =>
    refine hinv.extend htaken (by rw [hvp]; trivial) (by rw [hnext]; trivial)
      (by rintro ⟨_, h⟩; simp [hemits] at h) fun since hstage => ?_
    have hshown := hstage.shown (by rw [hvp]; trivial)
    have hsigns : Signs .presentation k :=
      ⟨k.before.config.deviceKeyRef, first.signingInput, by simp [signingInput, hnext], by simp [hemits]⟩
    have hagreed : Agreed .presentation (since ++ [k]) := by
      rcases hevent with hevent | hawaited
      · exact .of_consent hshown hevent
      · exact (hstage.agreed hawaited).extend
    exact ⟨fun _ => shows_extend hshown, fun _ => hagreed, fun _ => hagreed.asked hsigns⟩
  | signed _ hvp _ _ hnext _ _ hemits | sent _ hvp _ _ hnext _ _ hemits =>
    exact hinv.extend htaken (by rw [hvp]; trivial) (by rw [hnext]; trivial)
      (by rintro ⟨_, h⟩; simp [hemits] at h) fun since hstage => hstage.asked_extend (.inl ⟨_, hvp⟩)

theorem VpInSession.preceded (h : VpInSession pre k.before) (htaken : Taken p k) {url : String}
    {body : Bytes} (hpost : .http .openid4vpDirectPost url body ∈ k.outputs) : Preceded .presentation pre := by
  obtain ⟨signature, pending, sub, s, hvp, -⟩ := (htaken.outcome.move htaken.steady).post hpost
  obtain ⟨since, hsession, hstage⟩ := h (by rw [hvp]; trivial)
  exact ⟨since, hsession, hstage.asked (.inl ⟨pending, hvp⟩)⟩

/-! ### In person -/

structure ProximityStage (c : Core) (since : List Turn) : Prop where
  shown : (∃ transcript, c.proximity.state = .sessionEstablished transcript) →
    ∃ k ∈ since, Shows .proximity k
  asked : (∃ transcript, c.proximity.state = .signingResponse transcript) →
    c.proximity.presentation ≠ none → Asked .proximity since

/-- The active proximity flow is in a session. -/
def ProximityInSession (pre : List Turn) (c : Core) : Prop :=
  c.active = .proximity → ∃ since, InSession .proximity pre since ∧ ProximityStage c since

theorem ProximityInSession.extend (h : ProximityInSession pre k.before)
    (hactive : k.after.active = .proximity → k.before.active = .proximity) (hstarts : ¬ Starts .proximity k)
    (hstage : ∀ since, k.before.active = .proximity → ProximityStage k.before since →
      ProximityStage k.after (since ++ [k])) : ProximityInSession (pre ++ [k]) k.after := by
  intro hafter
  obtain ⟨since, hsession, hstaged⟩ := h (hactive hafter)
  exact ⟨since ++ [k], hsession.extend hstarts (hactive hafter) hafter, hstage since (hactive hafter) hstaged⟩

theorem ProximityStage.extend {since : List Turn} (h : ProximityStage k.before since)
    (hstate : k.after.proximity.state = k.before.proximity.state)
    (hpresentation : k.after.proximity.presentation = k.before.proximity.presentation) :
    ProximityStage k.after (since ++ [k]) := by
  refine ⟨fun hs => shows_extend (h.shown (by rwa [hstate] at hs)), fun hs hp => ?_⟩
  rw [hstate] at hs
  rw [hpresentation] at hp
  exact (h.asked hs hp).extend

theorem not_starts_proximity (h : ∀ engagement, .emitDeviceEngagement engagement ∉ k.outputs) :
    ¬ Starts .proximity k := fun ⟨_, hmem⟩ => h _ hmem

theorem ProximityEvent.inSession {r : Entropy} {c : Core} {e : Event} {out : Core × List Effect}
    (h : ProximityEvent p r c e out) (hinv : ProximityInSession pre c) :
    ProximityInSession (pre ++ [⟨c, (e, r), out.2, out.1⟩]) out.1 := by
  have hreset {c : Core} {calls : List Turn} : ProximityInSession calls (c.resetFlow .proximity) :=
    fun hactive => absurd hactive (active_resetFlow_ne _ (by simp))
  cases h with
  | unavailable => exact hinv.extend id (not_starts_proximity (by simp)) fun since _ hstage => hstage.extend rfl rfl
  | engaged =>
    intro _
    refine ⟨_, .start ⟨_, List.mem_singleton_self _⟩ rfl, ?_, ?_⟩
    · rintro ⟨transcript, ⟨⟩⟩
    · rintro ⟨transcript, ⟨⟩⟩
  | noted hstate hpresentation =>
    exact hinv.extend id (not_starts_proximity (by simp)) fun since _ hstage => hstage.extend hstate hpresentation
  | refused | declined => exact hreset
  | @established _ _ _ flow _ hnext =>
    refine hinv.extend id (not_starts_proximity (by simp [proximityScreen])) fun since _ hstage => ⟨fun _ => ?_, ?_⟩
    · exact ⟨_, List.mem_append_right _ (List.mem_singleton_self _), _, List.mem_singleton_self _⟩
    · rintro ⟨transcript, hstate⟩
      cases hnext.symm.trans hstate
  | consented _ hstate =>
    refine hinv.extend id (not_starts_proximity ?_) fun since _ hstage => ⟨?_, fun _ hpresentation => ?_⟩
    · unfold proximitySign
      split <;> simp
    · rintro ⟨transcript, ⟨⟩⟩
    · refine Agreed.asked (.of_consent (hstage.shown ⟨_, hstate⟩) rfl) ?_
      obtain ⟨presentation, hprepared⟩ := Option.ne_none_iff_exists'.mp hpresentation
      have hbefore : c.proximity.presentation = some presentation := hprepared
      have hinput : c.proximity.presentation.map (·.signingInput) = some presentation.signingInput := by
        rw [hbefore]
        rfl
      refine ⟨c.config.deviceKeyRef, presentation.signingInput, hinput, ?_⟩
      simp [proximitySign, hbefore]
  | responded _ _ hnext _ hresponse =>
    refine hinv.extend id (not_starts_proximity ?_) fun since _ hstage => ⟨?_, ?_⟩
    · rcases hresponse with rfl | ⟨_, _, _, _, _, _, rfl⟩ <;> simp
    · rintro ⟨transcript, hstate⟩
      cases hnext.symm.trans hstate
    · rintro ⟨transcript, hstate⟩
      cases hnext.symm.trans hstate
  | terminated =>
    refine hinv.extend id (not_starts_proximity (by simp)) fun since _ hstage => ⟨?_, ?_⟩
    · rintro ⟨transcript, ⟨⟩⟩
    · rintro ⟨transcript, ⟨⟩⟩

theorem Foreign.proximityInSession {stray : Prop} (h : Foreign stray .proximity k.before k.after)
    (hflow : ∀ x ∈ k.outputs, x.flow ≠ some .proximity) (hinv : ProximityInSession pre k.before) :
    ProximityInSession (pre ++ [k]) k.after := by
  have hstarts : ¬ Starts .proximity k := fun ⟨_, hmem⟩ => hflow _ hmem rfl
  intro hafter
  obtain ⟨hbefore, data⟩ := h.active hafter nofun
  replace data := FlowData.proximity.inj data
  exact hinv.extend (fun _ => hbefore) hstarts
    (fun since _ hstage => hstage.extend (by rw [data]) (by rw [data])) hafter

theorem Taken.proximityInSession (htaken : Taken p k) (hinv : ProximityInSession pre k.before) :
    ProximityInSession (pre ++ [k]) k.after := by
  rcases htaken.outcome.seenFrom htaken.steady .proximity nofun with hevent | ⟨hforeign, hother⟩
  · exact ProximityEvent.inSession hevent hinv
  · exact hforeign.proximityInSession hother hinv

theorem ProximityInSession.preceded (h : ProximityInSession pre k.before) (htaken : Taken p k) (hresponse : .emitDeviceResponse response ∈ k.outputs) : Preceded .proximity pre := by
  have hevent := htaken.outcome.own htaken.steady hresponse rfl
  obtain ⟨before, ⟨event, entropy⟩, outputs, after⟩ := k
  dsimp only [OwnEvent] at hevent hresponse h
  cases hevent with
  | responded hactive hstate _ _ heffects =>
    obtain rfl | ⟨sent, cipher, ciphertext, hsent, -, -, rfl⟩ := heffects
    · simp at hresponse
    · obtain ⟨since, hsession, hstage⟩ := h hactive
      exact ⟨since, hsession, hstage.asked ⟨_, hstate⟩ (by simp [hsent])⟩
  | consented =>
    simp only [proximitySign] at hresponse
    split at hresponse <;> simp at hresponse
  | unavailable | engaged | refused | established | declined | terminated => simp [proximityScreen] at hresponse
  | noted => simp at hresponse

/-! ### In the browser -/

/-- The active browser flow is in a session whose screen was shown; a consent since asked for its
signature. -/
def DcApiInSession (pre : List Turn) (c : Core) : Prop :=
  c.active = .dcApi → ∃ since, InSession .dcApi pre since ∧ (∃ k ∈ since, Shows .dcApi k) ∧
    (dcApiConsented pre = true → Asked .dcApi since)

theorem dcApiConsented_concat (pre : List Turn) (k : Turn) : dcApiConsented (pre ++ [k]) =
    match k.input.1 with
    | .dcApiRequestReceived _ _ => false
    | .userConsented => true
    | _ => dcApiConsented pre := by
  simp [dcApiConsented, List.foldl_append]

theorem DcApiInSession.extend (h : DcApiInSession pre k.before)
    (hactive : k.after.active = .dcApi → k.before.active = .dcApi) (hstarts : ¬ Starts .dcApi k)
    (hconsent : k.input.1 = .userConsented → k.before.active = .dcApi → k.after.active = .dcApi →
      Signs .dcApi k) : DcApiInSession (pre ++ [k]) k.after := by
  intro hafter
  have hbefore := hactive hafter
  obtain ⟨since, hsession, hshown, hasked⟩ := h hbefore
  refine ⟨since ++ [k], hsession.extend hstarts hbefore hafter, shows_extend hshown, fun hconsented => ?_⟩
  by_cases hevent : k.input.1 = .userConsented
  · exact Agreed.asked (.of_consent hshown hevent) (hconsent hevent hbefore hafter)
  · refine (hasked ?_).extend
    rw [dcApiConsented_concat] at hconsented
    split at hconsented
    · cases hconsented
    · contradiction
    · exact hconsented

/-- A consent while the browser flow is active asks for its signature. -/
theorem Taken.dcApi_consent (htaken : Taken p k) (hevent : k.input.1 = .userConsented)
    (hbefore : k.before.active = .dcApi) (hafter : k.after.active = .dcApi) : Signs .dcApi k := by
  have hconsented := htaken.granted_dcApi hevent hbefore
  unfold dcapiConsentGranted at hconsented
  split at hconsented
  · next presentation hprepared =>
    obtain ⟨hcore, heffects⟩ := Prod.mk.inj hconsented
    refine ⟨k.before.config.deviceKeyRef, presentation.signingInput, ?_, by simp [← heffects]⟩
    simp [signingInput, ← hcore, hprepared]
  · obtain ⟨hcore, -⟩ := Prod.mk.inj hconsented
    rw [← hcore] at hafter
    exact absurd hafter (active_resetFlow_ne _ (by simp))

/-- Only a request makes the browser flow active. -/
theorem Taken.dcApi_active (htaken : Taken p k) (hstarts : ¬ Starts .dcApi k)
    (hafter : k.after.active = .dcApi) : k.before.active = .dcApi := by
  rcases htaken.outcome.seenFrom htaken.steady .dcApi nofun with hevent | ⟨hforeign, -⟩
  · obtain ⟨before, ⟨event, entropy⟩, outputs, after⟩ := k
    dsimp only [OwnEvent] at hevent hafter ⊢
    cases hevent with
    | unanswered => exact absurd hafter (active_resetFlow_ne _ (by simp))
    | asked => exact absurd ⟨_, _, List.mem_singleton_self _⟩ hstarts
    | consented hactive | unprepared hactive | declined hactive | responded hactive | ended hactive =>
      exact hactive
  · exact (hforeign.active hafter nofun).1

theorem Taken.dcApi_starts (htaken : Taken p k) (hstarts : Starts .dcApi k) :
    k.after.active = .dcApi ∧ ∃ request origin, k.input.1 = .dcApiRequestReceived request origin := by
  obtain ⟨origin, disclosed, hmem⟩ := hstarts
  have hevent := htaken.outcome.own htaken.steady hmem rfl
  obtain ⟨before, ⟨event, entropy⟩, outputs, after⟩ := k
  dsimp only [OwnEvent] at hevent hmem ⊢
  cases hevent with
  | asked => exact ⟨rfl, _, _, rfl⟩
  | unanswered | consented | unprepared | declined | responded | ended => simp at hmem

theorem Taken.dcApiInSession (htaken : Taken p k) (hinv : DcApiInSession pre k.before) :
    DcApiInSession (pre ++ [k]) k.after := by
  by_cases hstarts : Starts .dcApi k
  · obtain ⟨hactive, request, origin, hevent⟩ := htaken.dcApi_starts hstarts
    intro _
    refine ⟨[k], .start hstarts hactive, ⟨k, by simp, hstarts⟩, fun hconsented => ?_⟩
    simp [dcApiConsented_concat, hevent] at hconsented
  · exact hinv.extend (htaken.dcApi_active hstarts) hstarts fun hevent => htaken.dcApi_consent hevent

theorem DcApiInSession.preceded (h : DcApiInSession pre k.before) (htaken : Taken p k)
    (hconsented : ∀ signature, k.input.1 = .deviceSignatureProduced signature →
      k.before.active = .dcApi → dcApiConsented pre = true) (hresponse : .emitDcApiResponse response ∈ k.outputs) : Preceded .dcApi pre := by
  have hevent := htaken.outcome.own htaken.steady hresponse rfl
  obtain ⟨before, ⟨event, entropy⟩, outputs, after⟩ := k
  dsimp only [OwnEvent] at hevent hresponse hconsented h
  cases hevent with
  | @responded signature _ hactive =>
    obtain ⟨since, hsession, -, hasked⟩ := h hactive
    exact ⟨since, hsession, hasked (hconsented signature rfl hactive)⟩
  | unanswered | asked | consented | unprepared | declined | ended => simp at hresponse

end

/-! ### Along runs -/

variable {p : Platform} {c : Core}

/-- In every run in which a signature for the browser flow is produced only after a consent, every
disclosure is preceded by one, in its own session. -/
theorem run_disclosures_preceded (hfresh : Provisioned p c) (inputs : List (Event × Entropy))
    (hconsented : Always (fun pre k => ∀ signature, k.input.1 = .deviceSignatureProduced signature →
      k.before.active = .dcApi → dcApiConsented pre = true) (run p c inputs)) :
    Always (fun pre k => ∀ x ∈ k.outputs, ∀ f, x.discloses = some f → Preceded f pre) (run p c inputs) := by
  have hidle : ¬ c.vp.InProgress := by
    have hdata := FlowData.presentation.inj (hfresh.flowData .presentation)
    rw [hdata.1]
    exact id
  refine run_always (fun pre c => VpInSession pre c ∧ ProximityInSession pre c ∧ DcApiInSession pre c) _ hfresh
    ⟨fun h => absurd h hidle, fun h => absurd h (hfresh.inactive (by simp)),
      fun h => absurd h (hfresh.inactive (by simp))⟩ ?_ ?_ inputs hconsented
  · rintro pre k htaken ⟨hvp, hproximity, hdcApi⟩ -
    exact ⟨(htaken.outcome.move htaken.steady).inSession htaken hvp,
      htaken.proximityInSession hproximity, htaken.dcApiInSession hdcApi⟩
  · rintro pre k htaken ⟨hvp, hproximity, hdcApi⟩ hconsented x hx f hf
    unfold Effect.discloses at hf
    split at hf <;> cases hf
    · exact hvp.preceded htaken hx
    · exact hproximity.preceded htaken hx
    · exact hdcApi.preceded htaken hconsented hx

end Core

/-! ### A browser's request -/

namespace Browser

def request : Json := .obj [("response_type", .str "vp_token"), ("response_mode", .str "dc_api"),
  ("nonce", .str "n"), ("dcql_query", .obj [("credentials", .arr [.obj [("format", .str "mso_mdoc"),
    ("id", .str "id"), ("meta", .obj [("doctype_value", .str "licence")])]])])]

/-- Every text is the request. -/
def platform : Platform := { (default : Platform) with parseJson := fun _ => some request }

/-- A wallet that holds one licence. -/
def core : Core := (Core.new "wallet" "device" 0).loadUnverifiedMdocForTesting
  ⟨"licence", ⟨[], ⟨[], {}, none, []⟩⟩⟩

theorem core_provisioned : Core.Provisioned platform core := .mdocFixture (.new _ _ _) _

def asked : Event := .dcApiRequestReceived [] "https://rp.example"

/-- The run that answers after a consent. -/
def inputs : List (Event × Entropy) :=
  [(asked, []), (.userConsented, []), (.deviceSignatureProduced [7], [])]

/-- The run that answers without one. -/
def unasked : List (Event × Entropy) := [(asked, []), (.deviceSignatureProduced [7], [])]

end Browser

open Wallet.Core Browser

theorem Core.Preceded.consent {f : ActiveFlow} {pre : List Turn} (h : Preceded f pre) :
    ∃ k ∈ pre, k.input.1 = .userConsented := by
  obtain ⟨since, ⟨⟨older, rfl⟩, -⟩, seen, consent, later, rfl, -, hevent, -⟩ := h
  exact ⟨consent, by simp, hevent⟩

/-- After a consent the browser gets its answer. -/
theorem run_disclosures_preceded_browser : ∃ pre k post x,
    run platform core inputs = pre ++ k :: post ∧ x ∈ k.outputs ∧
      x.discloses = some .dcApi ∧ Preceded .dcApi pre := by
  have hdiscloses : (run platform core inputs).any (fun k =>
      k.outputs.any fun x => x.discloses == some .dcApi) = true := by decide
  have hconsented : Always (fun pre k => ∀ signature, k.input.1 = .deviceSignatureProduced signature →
      k.before.active = .dcApi → dcApiConsented pre = true) (run platform core inputs) := by
    rintro pre k post hrun signature hevent -
    match pre, hrun with
    | [], hrun | [_], hrun =>
      injections
      subst_vars
      cases hevent
    | [first, second], hrun =>
      injections
      subst_vars
      rfl
    | first :: second :: third :: rest, hrun => simp [run, calls, inputs] at hrun
  obtain ⟨pre, k, post, x, hrun, hx, hdiscloses⟩ := exists_call_of_any hdiscloses
  have hf : x.discloses = some .dcApi := by simpa using hdiscloses
  exact ⟨pre, k, post, x, hrun, hx, hf, run_disclosures_preceded core_provisioned inputs
    hconsented pre k post hrun x hx .dcApi hf⟩

/-- Without a consent it gets it as well. -/
theorem run_unasked_discloses : ¬ Always (fun pre k => ∀ x ∈ k.outputs, ∀ f, x.discloses = some f →
    Preceded f pre) (run platform core unasked) := by
  intro hpreceded
  have hdiscloses : (run platform core unasked).any (fun k =>
      k.outputs.any fun x => x.discloses == some .dcApi) = true := by decide
  have hevents : ∀ k ∈ run platform core unasked, k.input.1 ≠ .userConsented := by decide
  obtain ⟨pre, k, post, x, hrun, hx, hdiscloses⟩ := exists_call_of_any hdiscloses
  obtain ⟨j, hj, hconsent⟩ := (hpreceded pre k post hrun x hx .dcApi (by simpa using hdiscloses)).consent
  exact hevents j (by simp [hrun, hj]) hconsent

end EuWallet.Wallet
