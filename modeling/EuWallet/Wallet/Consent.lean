import EuWallet.Wallet.Sessions

/-! # What you see is what you share

An entry of a presentation in the audit log is about the last consent screen of its session: it has the
hash and the claims of that screen, and what was posted is built from the selection frozen when the
screen was shown. `drive` captures the session of a validated request anew at every event that has no
transition there (`Event.Recaptures`); a run without such an event tells this story of every
presentation it records. -/

namespace EuWallet.Wallet

open Codec Crypto Formats Lib Presenter Protocol
open Trust

def consentScreens (effects : List Effect) : List ConsentScreen :=
  effects.filterMap fun x => match x with
    | .render (.consent screen) => some screen
    | _ => none

def directPosts (effects : List Effect) : List (String × Bytes) :=
  effects.filterMap fun x => match x with
    | .http .openid4vpDirectPost url body => some (url, body)
    | _ => none

namespace Core

def CapturesAnew (c : Core) (e : Event) : Prop :=
  (∃ req, c.vp = .requestValidated req) ∧ e.Recaptures

instance (e : Event) : Decidable e.Recaptures := by
  unfold Event.Recaptures
  split <;> infer_instance

instance (c : Core) (e : Event) : Decidable (c.CapturesAnew e) :=
  match h : c.vp with
  | .requestValidated req => decidable_of_iff e.Recaptures ⟨fun he => ⟨⟨req, h⟩, he⟩, fun he => he.2⟩
  | .idle | .resolvingTrust _ | .awaitingDeviceSignature _ | .presenting | .done | .aborted _ =>
    isFalse fun he => by
      obtain ⟨⟨req, hreq⟩, -⟩ := he
      cases h.symm.trans hreq

structure Shown (p : Platform) (s : SessionInfo) (screen : ConsentScreen) (shown : Turn)
    (between : List Turn) : Prop where
  rendered : consentScreens shown.outputs = [screen]
  last : ∀ k ∈ between, consentScreens k.outputs = []
  session : shown.after.session = some s
  kept : ∀ k ∈ between, k.before.session = some s ∧ k.after.session = some s
  hash : s.consentHash = consentHash p (.consent screen)
  claims : s.sharedClaims = screen.requestedClaims

/-- Exactly one of the calls posted, and what it posted is made of one completed presentation for each
selected credential of `s`. -/
def SentOnce (p : Platform) (s : SessionInfo) (calls : List Turn) : Prop :=
  ∃ k ∈ calls, ∃ b done, (calls.flatMap fun k => directPosts k.outputs) = [(s.responseUri, b)] ∧
    (s.responseUri, b) ∈ directPosts k.outputs ∧
    Answers p k.input.2 k.after s done s.responseUri b ∧
    List.Forall₂ (Oid4vp.Completes p) s.selectedCredentials done

def Posts (p : Platform) (s : SessionInfo) (calls : List Turn) : Oid4vp.State → Prop
  | .presenting => SentOnce p s calls
  | _ => (calls.flatMap fun k => directPosts k.outputs) = []

/-- A validated request has a session that was shown, and the calls since tell its story. -/
def Told (p : Platform) (pre : List Turn) (c : Core) : Prop :=
  c.vp.Validated → ∃ older shown between s screen, pre = older ++ shown :: between ∧
    c.session = some s ∧ Shown p s screen shown between ∧ Posts p s (shown :: between) c.vp

/-- A presentation entry that the call adds is about what the user saw. -/
def Faithful (p : Platform) (pre : List Turn) (k : Turn) : Prop :=
  ∀ entry, k.after.log.entries = k.before.log.entries ++ [entry] → entry.kind = .presentation →
    ∃ older shown between s screen, pre = older ++ shown :: between ∧ k.before.session = some s ∧
      Shown p s screen shown between ∧ SentOnce p s (shown :: between) ∧
      entry.consentHash = consentHash p (.consent screen) ∧
      entry.claimPaths = screen.requestedClaims.insertionSort (· ≤ ·)

section Screens

variable {effects : List Effect}

theorem filterMap_eq_nil_of_unspoken {β : Type} {f : Effect → Option β} (h : Unspoken effects)
    (hf : ∀ x, f x ≠ none → x.flow = some .presentation ∧ (∀ uri, x ≠ .fetchStatusList uri) ∧ ∀ nonce, x ≠ .persistNonce nonce)
    : effects.filterMap f = [] := by
  refine List.filterMap_eq_nil_iff.mpr fun x hx => ?_
  by_contra hsome
  obtain ⟨hflow, hfetch, hnonce⟩ := hf x hsome
  obtain ⟨uri, rfl⟩ | ⟨nonce, rfl⟩ := h x hx hflow
  · exact hfetch uri rfl
  · exact hnonce nonce rfl

theorem Unspoken.consentScreens (h : Unspoken effects) : consentScreens effects = [] := by
  refine filterMap_eq_nil_of_unspoken h fun x hx => ?_
  split at hx
  · exact ⟨rfl, by simp, by simp⟩
  · exact absurd rfl hx

theorem Unspoken.directPosts (h : Unspoken effects) : directPosts effects = [] := by
  refine filterMap_eq_nil_of_unspoken h fun x hx => ?_
  split at hx
  · exact ⟨rfl, by simp, by simp⟩
  · exact absurd rfl hx

end Screens

variable {p : Platform} {pre : List Turn} {c : Core} {k : Turn}

variable {s : SessionInfo} {calls : List Turn}

/-- A call that keeps the session and shows nothing continues the story. -/
theorem Shown.extend {screen : ConsentScreen} {shown : Turn} {between : List Turn}
    (h : Shown p s screen shown between) (hbefore : k.before.session = some s)
    (hafter : k.after.session = some s) (hscreens : consentScreens k.outputs = []) :
    Shown p s screen shown (between ++ [k]) := by
  refine ⟨h.rendered, fun j hj => ?_, h.session, fun j hj => ?_, h.hash, h.claims⟩
  · rcases List.mem_append.mp hj with hj | hj
    · exact h.last j hj
    · rwa [List.mem_singleton.mp hj]
  · rcases List.mem_append.mp hj with hj | hj
    · exact h.kept j hj
    · rw [List.mem_singleton.mp hj]
      exact ⟨hbefore, hafter⟩

theorem Told.extend (h : Told p pre k.before) (hvalidated : k.before.vp.Validated)
    (hsession : k.after.session = k.before.session) (hscreens : consentScreens k.outputs = [])
    (hposts : ∀ s calls, k.before.session = some s → Posts p s calls k.before.vp →
      Posts p s (calls ++ [k]) k.after.vp) : Told p (pre ++ [k]) k.after := by
  intro _
  obtain ⟨older, shown, between, s, screen, rfl, hs, hshown, hposted⟩ := h hvalidated
  refine ⟨older, shown, between ++ [k], s, screen, by simp, hsession.trans hs,
    hshown.extend hs (hsession.trans hs) hscreens, ?_⟩
  exact hposts s _ hs hposted

theorem SentOnce.extend (h : SentOnce p s calls) (hposts : directPosts k.outputs = [])
    : SentOnce p s (calls ++ [k]) := by
  obtain ⟨j, hj, b, done, hall, hmem, hanswers, hdone⟩ := h
  exact ⟨j, List.mem_append_left _ hj, b, done, by simp [hall, hposts], hmem, hanswers, hdone⟩

theorem Posts.extend (h : Posts p s calls k.before.vp) (hposts : directPosts k.outputs = [])
    (hnext : k.after.vp = .presenting ↔ k.before.vp = .presenting) : Posts p s (calls ++ [k]) k.after.vp := by
  by_cases hpresenting : k.before.vp = .presenting
  · rw [hnext.mpr hpresenting]
    rw [hpresenting] at h
    exact SentOnce.extend h hposts
  · have hnone {vp : Oid4vp.State} (hvp : vp ≠ .presenting) (calls : List Turn) :
        Posts p s calls vp ↔ (calls.flatMap fun k => directPosts k.outputs) = [] := by
      cases vp <;> first | exact Iff.rfl | exact absurd rfl hvp
    rw [hnone (mt hnext.mp hpresenting)]
    rw [hnone hpresenting] at h
    simp [h, hposts]

theorem SentOnce.of_sent {b : Bytes} {done : List Oid4vp.CompletedPresentation}
    (hnone : (calls.flatMap fun k => directPosts k.outputs) = [])
    (heffects : k.outputs = [.http .openid4vpDirectPost s.responseUri b])
    (hanswers : Answers p k.input.2 k.after s done s.responseUri b)
    (hdone : List.Forall₂ (Oid4vp.Completes p) s.selectedCredentials done) : SentOnce p s (calls ++ [k]) := by
  have hposts : directPosts k.outputs = [(s.responseUri, b)] := by
    rw [heffects]
    rfl
  exact ⟨k, by simp, b, done, by simp [hnone, hposts], by simp [hposts], hanswers, hdone⟩

theorem VpMove.told (h : VpMove p k.input.2 k.before k.input.1 k.after k.outputs)
    (hselected : k.before.Selected p) (htold : Told p pre k.before)
    (hclean : ¬ k.before.CapturesAnew k.input.1) : Told p (pre ++ [k]) k.after := by
  cases h with
  | still hvp hsession _ _ hunspoken =>
    intro hvalidated
    rw [hvp] at hvalidated
    refine htold.extend hvalidated hsession hunspoken.consentScreens (fun s calls _ hposted => ?_)
      (by rwa [hvp])
    exact hposted.extend hunspoken.directPosts (by rw [hvp])
  | ended hvp => exact fun hvalidated => absurd hvalidated.inProgress hvp
  | received _ _ hnext =>
    intro hvalidated
    rw [hnext] at hvalidated
    exact hvalidated.elim
  | readmitted hevent hvp => exact absurd ⟨⟨_, hvp⟩, hevent⟩ hclean
  | @shown _ _ _ req s _ _ _ hnext _ hsession _ _ heffects =>
    intro _
    have hscreens : consentScreens k.outputs = [sessionConsentScreen p s] := by
      rw [heffects]
      rfl
    have hposts : directPosts k.outputs = [] := by
      rw [heffects]
      rfl
    refine ⟨pre, k, [], _, _, rfl, hsession, ⟨hscreens, by simp, hsession, by simp, rfl, rfl⟩, ?_⟩
    rw [hnext]
    simpa [Posts] using hposts
  | consented _ hvp _ _ hnext hsession _ heffects | signed _ hvp _ _ hnext hsession _ heffects =>
    refine htold.extend (by rw [hvp]; trivial) hsession (by rw [heffects]; rfl) fun s calls _ hposted => ?_
    exact hposted.extend (by rw [heffects]; rfl) (by rw [hnext, hvp]; simp)
  | @sent signature pending sub s b _ hvp hqueue hs hnext hanswers _ heffects =>
    refine htold.extend (by rw [hvp]; trivial) (hanswers.session.trans hs.symm) (by rw [heffects]; rfl)
      fun s' calls hs' hposted => ?_
    cases hs.symm.trans hs'
    rw [hvp] at hposted
    rw [hnext]
    exact SentOnce.of_sent hposted heffects hanswers ((hselected.signing pending s hvp hs).finish hqueue)

/-- What is recorded is what the story tells. -/
theorem Told.faithful (h : Told p pre k.before) (htaken : Taken p k) : Faithful p pre k := by
  intro entry hgrown hkind
  obtain ⟨new, hrecords, hcontent⟩ := htaken.outcome.logChange.appended hgrown
  rw [hcontent] at hkind
  generalize hevent : k.input.1 = event at hrecords
  cases hrecords with
  | @presentation s hvp hs =>
    obtain ⟨older, shown, between, s', screen, hpre, hs', hshown, hposted⟩ := h (by rw [hvp]; trivial)
    cases hs.symm.trans hs'
    rw [hvp] at hposted
    refine ⟨older, shown, between, s, screen, hpre, hs, hshown, hposted, ?_, ?_⟩
    · rw [hcontent]
      exact hshown.hash
    · rw [hcontent, ← hshown.claims]
      rfl
  | payment | issuance | transfer => cases hkind

/-- In every run in which no event captures the session of a validated request anew, every presentation
entry is about the last consent screen of its session. -/
theorem run_faithful (hfresh : Provisioned p c) (inputs : List (Event × Entropy))
    (hclean : Always (fun _ k => ¬ k.before.CapturesAnew k.input.1) (run p c inputs)) :
    Always (Faithful p) (run p c inputs) := by
  have hstart : Told p [] c := by
    intro hvalidated
    have hdata := FlowData.presentation.inj (hfresh.flowData .presentation)
    rw [hdata.1] at hvalidated
    exact hvalidated.elim
  refine run_always (fun pre c => c.Selected p ∧ Told p pre c)
    (fun _ k => ¬ k.before.CapturesAnew k.input.1) hfresh ⟨hfresh.selected, hstart⟩ ?_ ?_ inputs hclean
  · rintro pre k htaken ⟨hselected, htold⟩ hclean
    exact ⟨htaken.outcome.selected htaken.steady hselected,
      (htaken.outcome.move htaken.steady).told hselected htold hclean⟩
  · rintro pre k htaken ⟨-, htold⟩ -
    exact htold.faithful htaken

end Core

open Wallet.Core Wallet.Sample

/-- The sample run with the chain of the relying party resolved a second time. -/
def Sample.resolvedTwice : List (Event × Entropy) := [(asked, []), (resolved, []), (resolved, []),
  (.userConsented, []), (.deviceSignatureProduced [7], []), (.presentationDelivered, [])]

/-- The call writes the first entry of the log, and it is one of a presentation. -/
def Sample.records (k : Turn) (P : TxnLog.Entry → Bool) : Bool :=
  match k.before.log.entries, k.after.log.entries with
  | [], [entry] => entry.kind == .presentation && P entry
  | _, _ => false

theorem Sample.grown_of_records {k : Turn} {P : TxnLog.Entry → Bool} (h : records k P = true) :
    ∃ entry, k.after.log.entries = k.before.log.entries ++ [entry] ∧ entry.kind = .presentation ∧ P entry = true := by
  unfold records at h
  split at h
  · next entry hbefore hafter =>
    obtain ⟨hkind, hP⟩ := Bool.and_eq_true_iff.mp h
    exact ⟨entry, by rw [hbefore, hafter, List.nil_append], by simpa using hkind, hP⟩
  · cases h

/-- What the sample run records is what was shown. -/
theorem run_faithful_sample : ∃ pre k post entry, run platform core inputs = pre ++ k :: post ∧
    k.after.log.entries = k.before.log.entries ++ [entry] ∧ entry.kind = .presentation ∧
    ∃ older shown between s screen, pre = older ++ shown :: between ∧ k.before.session = some s ∧
      Shown platform s screen shown between ∧ SentOnce platform s (shown :: between) ∧
      entry.consentHash = consentHash platform (.consent screen) ∧
      entry.claimPaths = screen.requestedClaims.insertionSort (· ≤ ·) := by
  have hclean : ∀ k ∈ run platform core inputs, ¬ k.before.CapturesAnew k.input.1 := by decide
  have hrecords : (run platform core inputs).any (fun k => records k fun _ => true) = true := by
    decide
  obtain ⟨k, hk, hrecords⟩ := List.any_eq_true.mp hrecords
  obtain ⟨pre, post, hrun⟩ := List.append_of_mem hk
  obtain ⟨entry, hgrown, hkind, -⟩ := grown_of_records hrecords
  refine ⟨pre, k, post, entry, hrun, hgrown, hkind, ?_⟩
  exact run_faithful core_provisioned inputs (fun pre k post h => hclean k (by simp [h])) pre k post hrun
    entry hgrown hkind

/-- With the chain resolved twice the entry has no hash of a screen. -/
theorem run_resolvedTwice_unfaithful : ¬ Always (Faithful platform) (run platform core resolvedTwice) := by
  intro hfaithful
  have hrecords : (run platform core resolvedTwice).any (fun k =>
      records k fun entry => entry.consentHash == zeroHash) = true := by decide
  obtain ⟨k, hk, hrecords⟩ := List.any_eq_true.mp hrecords
  obtain ⟨pre, post, hrun⟩ := List.append_of_mem hk
  obtain ⟨entry, hgrown, hkind, hzero⟩ := grown_of_records hrecords
  obtain ⟨older, shown, between, s, screen, -, -, -, -, hhash, -⟩ :=
    hfaithful pre k post hrun entry hgrown hkind
  have hscreen : consentHash platform (.consent screen) ≠ zeroHash := by
    have hones : consentHash platform (.consent screen) = ⟨List.replicate 32 1, rfl⟩ := rfl
    rw [hones]
    decide
  exact hscreen (hhash.symm.trans (eq_of_beq hzero))

end EuWallet.Wallet
