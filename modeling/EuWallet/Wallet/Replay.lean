import EuWallet.Lib.Replay
import EuWallet.Wallet.DynamicLinking
import EuWallet.Wallet.Sessions

/-! # No request is answered twice

Every nonce a wallet answers is used once in a run: the nonce of the presentation request that was
validated last when a response is posted, the nonce of the payment or signature request whose
authorisation is posted, and the nonce of the token response for which a proof of possession is signed.
The four flows remember their nonces at different moments. A payment nonce is remembered with the post
and a proof nonce with the signature; the nonce of a presentation or of a qualified signature is
remembered when the screen is shown, so until the answer it is reserved and not yet used up. -/

namespace EuWallet.Wallet

open Codec Crypto Formats Lib Presenter Protocol Effect
open Trust

def Effect.isPaymentAuthorization : Effect → Bool
  | .http .paymentAuthorization _ _ => true
  | _ => false

def Effect.isQesAuthorization : Effect → Bool
  | .http .qesAuthorization _ _ => true
  | _ => false

def Effect.isSign : Effect → Bool
  | .sign _ _ => true
  | _ => false

theorem Effect.isPaymentAuthorization_flow {x : Effect} (h : x.isPaymentAuthorization) : x.flow = some .payment := by
  unfold isPaymentAuthorization at h
  split at h
  · rfl
  · cases h

theorem Effect.isQesAuthorization_flow {x : Effect} (h : x.isQesAuthorization) : x.flow = some .qes := by
  unfold isQesAuthorization at h
  split at h
  · rfl
  · cases h

namespace Core

/-! ### The nonces in use -/

/-- The request that the call found valid. -/
def validated (k : Turn) : Option Oid4vp.AuthRequest :=
  match k.before.vp, k.after.vp with
  | .resolvingTrust _, .requestValidated req => some req
  | _, _ => none

def lastValidated (pre : List Turn) : Option Oid4vp.AuthRequest := pre.reverse.findSome? validated

/-- The call asks for the signature of a proof of possession. -/
def entersProof (k : Turn) : Bool :=
  match k.after.issuance with
  | .provingPossession _ _ => k.after.issuance != k.before.issuance
  | _ => false

def RequestNonce (pre : List Turn) (_ : Turn) (nonce : String) : Prop :=
  ∃ req, lastValidated pre = some req ∧ req.nonce = nonce

def PaymentNonce (_ : List Turn) (k : Turn) (nonce : ℕ) : Prop :=
  ∃ pending, k.before.payment = .awaitingSca pending ∧ pending.request.nonce = nonce

/-- The nonce of the signature request under answer. -/
def QesNonce (_ : List Turn) (k : Turn) (nonce : ℕ) : Prop :=
  ∃ pending, k.before.qes = .awaitingSca pending ∧ pending.request.nonce = nonce

def TokenNonce (_ : List Turn) (k : Turn) (cNonce : ℕ) : Prop :=
  ∃ bound, k.input.1 = .tokenReceived bound cNonce

/-- The answers of the four kinds are the only ones of their calls, and each is to a nonce that was not
answered before. -/
structure Unreplayed (pre : List Turn) (k : Turn) : Prop where
  presentation : Once (fun _ => Effect.isDirectPost) RequestNonce pre k
  payment : Once (fun _ => Effect.isPaymentAuthorization) PaymentNonce pre k
  qes : Once (fun _ => Effect.isQesAuthorization) QesNonce pre k
  proof : Once (fun k x => entersProof k && x.isSign) TokenNonce pre k

/-! ### Presentations -/

/-- A validated request was not answered yet. -/
def Unanswered : Oid4vp.State → Prop
  | .requestValidated _ | .awaitingDeviceSignature _ => True
  | _ => False

/-- The nonce was seen and is not reserved for the request under answer. -/
def RequestBurned (pre : List Turn) (c : Core) (nonce : String) : Prop :=
  nonce ∈ c.seenNonces ∧
    ¬ (Unanswered c.vp ∧ ∃ req, lastValidated pre = some req ∧ req.nonce = nonce)

/-- The request under answer was validated in the run, and its nonce is seen. -/
def RequestSeen (pre : List Turn) (c : Core) : Prop :=
  Unanswered c.vp → ∃ req, lastValidated pre = some req ∧ req.nonce ∈ c.seenNonces

section Presentation
variable {p : Platform} {r : Entropy} {pre : List Turn} {k : Turn}

theorem lastValidated_concat (pre : List Turn) (k : Turn) :
    lastValidated (pre ++ [k]) = (validated k).or (lastValidated pre) := by
  simp only [lastValidated, List.reverse_append, List.reverse_cons, List.reverse_nil, List.nil_append,
    List.singleton_append, List.findSome?_cons]
  cases validated k <;> rfl

theorem nonce_unseen {env : Oid4vp.Env} {req : Oid4vp.AuthRequest} {trust : Oid4vp.ResolvedTrust}
    (h : Oid4vp.firstFailedGuard p env req trust = none) : req.nonce ∉ env.seenNonces := by
  unfold Oid4vp.firstFailedGuard at h
  split_ifs at h with _ _ _ _ _ _ _ hnonce
  simpa using hnonce

/-- While a request waits for its answer no other one is validated. -/
theorem lastValidated_of_unanswered (h : Unanswered k.before.vp) :
    lastValidated (pre ++ [k]) = lastValidated pre := by
  have hnone : validated k = none := by
    unfold validated
    split
    · next hbefore _ =>
      rw [hbefore] at h
      exact h.elim
    · rfl
  rw [lastValidated_concat, hnone, Option.none_or]

section Move
variable (h : VpMove p r k.before k.input.1 k.after k.outputs)
include h

theorem VpMove.seenNonces_subset : k.before.seenNonces ⊆ k.after.seenNonces := by
  cases h with
  | ended _ nonces =>
    obtain ⟨spent, hspent⟩ := nonces
    rw [hspent]
    exact List.subset_append_left _ _
  | shown _ _ _ _ _ _ _ nonces =>
    rw [nonces]
    exact List.subset_append_left _ _
  | still _ _ _ nonces | received _ _ _ _ nonces | readmitted _ _ _ _ _ _ nonces
  | consented _ _ _ _ _ _ nonces | signed _ _ _ _ _ _ nonces | sent _ _ _ _ _ _ nonces =>
    rw [nonces]
    exact List.Subset.refl _

/-- A request waits for its answer because it did before or because the call validated it. -/
theorem VpMove.unanswered (hafter : Unanswered k.after.vp) : Unanswered k.before.vp ∨
    ∃ req, validated k = some req ∧ req.nonce ∉ k.before.seenNonces ∧ req.nonce ∈ k.after.seenNonces := by
  cases h with
  | still vp =>
    rw [vp] at hafter
    exact .inl hafter
  | ended hended =>
    revert hafter hended
    cases k.after.vp <;> simp [Unanswered, Oid4vp.State.InProgress]
  | received _ _ next | sent _ _ _ _ next =>
    rw [next] at hafter
    exact hafter.elim
  | readmitted _ vp | consented _ vp | signed _ vp =>
    rw [vp]
    exact .inl trivial
  | @shown _ _ _ req _ _ vp passed next _ _ _ nonces =>
    refine .inr ⟨req, by simp [validated, vp, next], nonce_unseen passed, ?_⟩
    rw [nonces]
    exact List.mem_append_right _ (List.mem_singleton_self _)

theorem VpMove.posts {x : Effect} (hx : x ∈ k.outputs) (hpost : x.isDirectPost) :
    k.outputs = [x] ∧ Unanswered k.before.vp ∧ ¬ Unanswered k.after.vp := by
  unfold isDirectPost at hpost
  split at hpost
  · obtain ⟨_, _, _, _, hvp, -, -, hnext, houtputs, -⟩ := h.post hx
    rw [hvp, hnext]
    exact ⟨houtputs, trivial, id⟩
  · cases hpost

theorem VpMove.requestSeen (hseen : RequestSeen pre k.before) : RequestSeen (pre ++ [k]) k.after := by
  intro hafter
  obtain hbefore | ⟨req, hvalidated, -, hnonce⟩ := h.unanswered hafter
  · obtain ⟨req, hlast, hnonce⟩ := hseen hbefore
    exact ⟨req, (lastValidated_of_unanswered hbefore).trans hlast, h.seenNonces_subset hnonce⟩
  · exact ⟨req, by rw [lastValidated_concat, hvalidated, Option.some_or], hnonce⟩

/-- A nonce that is used up stays so: the next request that is validated has another one. -/
theorem VpMove.requestBurned {nonce : String} (hburned : RequestBurned pre k.before nonce) :
    RequestBurned (pre ++ [k]) k.after nonce := by
  obtain ⟨hnonce, hfree⟩ := hburned
  refine ⟨h.seenNonces_subset hnonce, ?_⟩
  rintro ⟨hafter, req, hlast, rfl⟩
  obtain hbefore | ⟨req', hvalidated, hfresh, -⟩ := h.unanswered hafter
  · exact hfree ⟨hbefore, req, (lastValidated_of_unanswered hbefore).symm.trans hlast, rfl⟩
  · rw [lastValidated_concat, hvalidated, Option.some_or, Option.some.injEq] at hlast
    subst hlast
    exact hfresh hnonce

theorem VpMove.spends (hseen : RequestSeen pre k.before) :
    Spends (fun _ => isDirectPost) RequestNonce RequestBurned pre k := by
  by_cases hposts : ∃ x ∈ k.outputs, x.isDirectPost
  · obtain ⟨x, hx, hpost⟩ := hposts
    obtain ⟨houtputs, hbefore, hafter⟩ := h.posts hx hpost
    obtain ⟨req, hlast, hnonce⟩ := hseen hbefore
    refine ⟨?_, fun _ _ _ => ⟨req.nonce, req, hlast, rfl⟩, fun _ => h.requestBurned, ?_, ?_⟩
    · rw [houtputs]
      exact List.length_filter_le _ _
    · rintro nonce ⟨-, hrequest⟩ ⟨-, hfree⟩
      exact hfree ⟨hbefore, hrequest⟩
    · rintro nonce ⟨-, req', hlast', rfl⟩
      obtain rfl : req' = req := by simpa using hlast'.symm.trans hlast
      exact ⟨h.seenNonces_subset hnonce, fun hlive => hafter hlive.1⟩
  · refine .of_silent (fun x hx => ?_) fun _ => h.requestBurned
    simpa using fun hpost => hposts ⟨x, hx, hpost⟩

end Move

end Presentation

/-! ### Payments and qualified signatures -/

section Reserved
variable (seen under : Core → List ℕ) (posts : Effect → Bool)

structure Reserved (c c' : Core) (effects : List Effect) : Prop where
  nonces : seen c ⊆ seen c'
  request : ∀ nonce ∈ under c', nonce ∈ under c ∨ nonce ∉ seen c
  posts : ∀ x ∈ effects, posts x → effects = [x] ∧ under c ⊆ seen c' ∧ under c' = []

variable {seen under posts} {pre : List Turn} {k : Turn} {names : List Turn → Turn → ℕ → Prop}

theorem Reserved.spends (h : Reserved seen under posts k.before k.after k.outputs)
    (hnames : ∀ nonce, names pre k nonce → nonce ∈ under k.before)
    (hnamed : ∀ x ∈ k.outputs, posts x → ∃ nonce, names pre k nonce) :
    Spends (fun _ => posts) names (fun _ c nonce => nonce ∈ seen c ∧ nonce ∉ under c) pre k := by
  have hkept (nonce : ℕ) (hburned : nonce ∈ seen k.before ∧ nonce ∉ under k.before) :
      nonce ∈ seen k.after ∧ nonce ∉ under k.after := by
    refine ⟨h.nonces hburned.1, fun hunder => ?_⟩
    exact (h.request nonce hunder).elim hburned.2 fun hfresh => hfresh hburned.1
  refine ⟨?_, hnamed, hkept, fun nonce huses hburned => hburned.2 (hnames nonce huses.2), ?_⟩
  · by_cases hposts : ∃ x ∈ k.outputs, posts x
    · obtain ⟨x, hx, hpost⟩ := hposts
      rw [(h.posts x hx hpost).1]
      exact List.length_filter_le _ _
    · rw [List.filter_eq_nil_iff.mpr fun x hx hpost => hposts ⟨x, hx, hpost⟩]
      exact Nat.zero_le 1
  · rintro nonce ⟨⟨x, hx, hpost⟩, hname⟩
    obtain ⟨-, hseen, hunder⟩ := h.posts x hx hpost
    rw [hunder]
    exact ⟨hseen (hnames nonce hname), List.not_mem_nil⟩

variable {c c' : Core} {effects : List Effect}

theorem Reserved.kept (hunder : under c' = under c) (hnonces : seen c ⊆ seen c')
    (hsilent : ∀ x ∈ effects, posts x = false) : Reserved seen under posts c c' effects := by
  refine ⟨hnonces, fun nonce hnonce => .inl (hunder ▸ hnonce), fun x hx hpost => ?_⟩
  rw [hsilent x hx] at hpost
  cases hpost

theorem Reserved.ended (hunder : under c' = []) (hnonces : seen c ⊆ seen c')
    (hsilent : ∀ x ∈ effects, posts x = false) : Reserved seen under posts c c' effects := by
  refine ⟨hnonces, fun nonce hnonce => ?_, fun x hx hpost => ?_⟩
  · rw [hunder] at hnonce
    cases hnonce
  · rw [hsilent x hx] at hpost
    cases hpost

end Reserved

def paymentUnder (c : Core) : List ℕ :=
  match c.payment with
  | .awaitingConfirmation req => [req.nonce]
  | .awaitingSca pending => [pending.request.nonce]
  | _ => []

variable {effects : List Effect}

theorem silent_of_flow {posts : Effect → Bool} {f : ActiveFlow} (hother : ∀ x ∈ effects, x.flow ≠ some f)
    (hflow : ∀ x, posts x → x.flow = some f) :
    ∀ x ∈ effects, posts x = false := by
  intro x hx
  cases hpost : posts x with
  | false => rfl
  | true => exact absurd (hflow x hpost) (hother x hx)

theorem PaymentMove.reserved {p : Platform} {c c' : Core} {e : Event} (h : PaymentMove p c e c' effects) :
    Reserved (·.paySeenNonces) paymentUnder isPaymentAuthorization c c' effects := by
  have hsilent (hother : ∀ x ∈ effects, x.flow ≠ some .payment) := silent_of_flow hother fun x =>
    isPaymentAuthorization_flow
  cases h with
  | still data nonces _ silent =>
    replace data := FlowData.payment.inj data
    exact .kept (by simp [paymentUnder, data.1]) nonces (hsilent silent)
  | ended past nonces silent =>
    refine .ended ?_ nonces (hsilent silent)
    rcases past with past | ⟨⟨signature, past⟩, -⟩ <;> simp only [paymentUnder, past]
  | asked _ _ fresh next _ nonces emits =>
    refine ⟨by rw [nonces]; exact List.Subset.refl _, fun nonce hnonce => .inr ?_,
      by simp [emits, isPaymentAuthorization, paymentScreen]⟩
    simp only [paymentUnder, next, List.mem_singleton] at hnonce
    rwa [hnonce]
  | approved _ payment next _ nonces emits =>
    refine .kept ?_ (by rw [nonces]; exact List.Subset.refl _) (by simp [emits, isPaymentAuthorization])
    simp [paymentUnder, payment, next]
  | authorized _ payment next _ nonces emits =>
    have hover : c'.paymentUnder = [] := by simp [paymentUnder, next]
    refine ⟨fun n hn => nonces ▸ mem_pushNew.mpr (.inl hn), by simp [hover], fun x hx _ => ⟨?_, fun n hn => ?_, hover⟩⟩
    · rw [emits, List.mem_singleton] at hx
      rw [emits, hx]
    · simp only [paymentUnder, payment, List.mem_singleton] at hn
      exact nonces ▸ mem_pushNew.mpr (.inr hn)

/-- The nonce of the signature request under answer. -/
def qesUnder (c : Core) : List ℕ :=
  match c.qes with
  | .awaitingAuthorization req => [req.nonce]
  | .awaitingSca pending => [pending.request.nonce]
  | _ => []

theorem QesMove.reserved {p : Platform} {c c' : Core} {e : Event} (h : QesMove p c e c' effects)
    (hseen : c.qesUnder ⊆ c.qesSeenNonces) : c'.qesUnder ⊆ c'.qesSeenNonces ∧
      Reserved (·.qesSeenNonces) qesUnder isQesAuthorization c c' effects := by
  have hsilent (hother : ∀ x ∈ effects, x.flow ≠ some .qes) := silent_of_flow hother fun x =>
    isQesAuthorization_flow
  cases h with
  | still data nonces silent =>
    replace data := FlowData.qes.inj data
    have hunder : c'.qesUnder = c.qesUnder := by simp [qesUnder, data.1]
    exact ⟨fun n hn => nonces (hseen (hunder ▸ hn)), .kept hunder nonces (hsilent silent)⟩
  | ended past nonces silent =>
    have hunder : c'.qesUnder = [] := by
      rcases past with past | ⟨signature, past⟩ <;> simp only [qesUnder, past]
    exact ⟨by simp [hunder], .ended hunder nonces (hsilent silent)⟩
  | @asked _ req _ _ fresh next _ nonces emits =>
    have hunder (n : ℕ) : n ∈ c'.qesUnder ↔ n = req.nonce := by simp [qesUnder, next]
    refine ⟨fun n hn => nonces ▸ mem_pushNew.mpr (.inr ((hunder n).mp hn)),
      fun n hn => nonces ▸ mem_pushNew.mpr (.inl hn), fun n hn => .inr ?_,
      by simp [emits, isQesAuthorization, qesScreen]⟩
    rwa [(hunder n).mp hn]
  | approved _ qes next nonces emits =>
    have hunder : c'.qesUnder = c.qesUnder := by simp [qesUnder, qes, next]
    rw [hunder, nonces]
    exact ⟨hseen, .kept hunder (by rw [nonces]; exact List.Subset.refl _) (by simp [emits, isQesAuthorization])⟩
  | signed _ qes next nonces emits =>
    have hunder : c'.qesUnder = [] := by simp [qesUnder, next]
    refine ⟨by simp [hunder], by rw [nonces]; exact List.Subset.refl _, by simp [hunder], fun x hx _ => ⟨?_, ?_, hunder⟩⟩
    · rw [emits, List.mem_singleton] at hx
      rw [emits, hx]
    · rwa [nonces]

/-! ### Proofs of possession -/

variable {p : Platform} {c : Core} {e : Event} {out : Core × List Effect} {format : Oid4vci.CredentialFormat}
  {input : Oid4vci.Input} {signed : String}

theorem issSeenCNonces_of_store {c' : Core} (h : c'.storeData .issuance = c.storeData .issuance) :
    c'.issSeenCNonces = c.issSeenCNonces := by
  replace h := StoreData.issuance.inj h
  exact h.1

theorem issSeenCNonces_finishFlow (c : Core) (g : ActiveFlow) : (c.finishFlow g).issSeenCNonces = c.issSeenCNonces :=
  issSeenCNonces_of_store (storeData_finishFlow c)

theorem issSeenCNonces_terminateAuditedFlow {g : ActiveFlow} {code message : String} :
    (c.terminateAuditedFlow g code message).1.issSeenCNonces = c.issSeenCNonces := by
  refine issSeenCNonces_of_store ?_
  unfold terminateAuditedFlow
  split <;> simp only [storeData_resetFlow]

theorem IssuanceOutcome.issSeenCNonces (h : IssuanceOutcome p c input out) :
    out.1.issSeenCNonces = c.issSeenCNonces := by
  cases h with
  | rejected => exact issSeenCNonces_terminateAuditedFlow
  | moved => rfl
  | aborted | settled | unstored =>
    simp [issSeenCNonces_finishFlow, rejectIssued, takeVerified, withIssuance, judged]
  | @stored _ _ verified _ _ _ _ _ _ _ hrecorded =>
    obtain ⟨log, latch, rfl⟩ := appendAuditEntry_eq hrecorded
    simp only [issSeenCNonces_finishFlow, storeVerifiedCredential]
    split <;> simp only [takeVerified, withIssuance, judged]
  | unrecorded _ _ _ _ hfailed =>
    obtain ⟨log, latch, rfl⟩ := appendAuditEntry_eq hfailed
    exact issSeenCNonces_terminateAuditedFlow

theorem IssuanceOutcome.proving (h : IssuanceOutcome p c input out)
    (hproving : out.1.issuance = .provingPossession format signed)
    (hmoved : out.1.issuance ≠ c.issuance) : ∃ bound cNonce, input = .tokenResponse bound cNonce ∧
      cNonce ∉ c.issSeenCNonces ∧ (out.2.filter isSign).length ≤ 1 := by
  cases h with
  | rejected | aborted | unstored => cases hproving
  | @moved next outputs hash hstep _ =>
    obtain rfl : next = .provingPossession format signed := hproving
    generalize hstate : c.issuance = state at hstep hmoved
    cases hstep with
    | none => exact absurd rfl hmoved
    | @proving _ bound cNonce hfresh =>
      exact ⟨bound, cNonce, rfl, hfresh, List.length_filter_le _ _⟩
  | settled hissuance =>
    have hsame : ((c.judged p).finishFlow .issuance).issuance = c.issuance := by
      simp [finishFlow, finishState, clearActive, clearPendingOperations, judged]
    exact absurd hsame hmoved
  | stored _ _ _ _ _ hrecorded =>
    obtain ⟨log, latch, rfl⟩ := appendAuditEntry_eq hrecorded
    unfold storeVerifiedCredential at hproving
    split at hproving <;> cases hproving
  | unrecorded _ _ _ _ hfailed =>
    cases hproving

theorem rejectUnexpectedCredentialResponse_issuance :
    c.rejectUnexpectedCredentialResponse.1.issSeenCNonces = c.issSeenCNonces ∧
      ((∃ reason, c.rejectUnexpectedCredentialResponse.1.issuance = .aborted reason) ∨
        c.rejectUnexpectedCredentialResponse.1.issuance = c.issuance) := by
  unfold rejectUnexpectedCredentialResponse
  dsimp only
  generalize (c.active == ActiveFlow.issuance || _) = closes
  cases closes with
  | true => exact ⟨issSeenCNonces_finishFlow _ _, .inl ⟨_, rfl⟩⟩
  | false => exact ⟨rfl, .inr rfl⟩

theorem mem_spendCNonce {n m : ℕ} (h : m ∈ c.issSeenCNonces) : m ∈ (c.spendCNonce n).issSeenCNonces := by
  unfold spendCNonce
  split
  · exact mem_pushNew.mpr (.inl h)
  · exact h

theorem IssuanceEvent.issSeenCNonces (h : IssuanceEvent p c e out) : c.issSeenCNonces ⊆ out.1.issSeenCNonces := by
  intro n hn
  cases h with
  | drove _ houtcome | received _ _ houtcome => rwa [houtcome.issSeenCNonces]
  | offered houtcome =>
    have hstore : (c.beginFlow .issuance).storeData .issuance = c.storeData .issuance := storeData_beginFlow c
    rw [houtcome.issSeenCNonces, offering]
    rwa [issSeenCNonces_of_store hstore]
  | token houtcome =>
    refine mem_spendCNonce ?_
    rwa [houtcome.issSeenCNonces]
  | unexpected => rwa [rejectUnexpectedCredentialResponse_issuance.1]

/-- Only a token response makes the machine ask for a proof, and its nonce is then remembered. -/
theorem IssuanceEvent.proving (h : IssuanceEvent p c e out)
    (hproving : out.1.issuance = .provingPossession format signed)
    (hmoved : out.1.issuance ≠ c.issuance) : ∃ bound cNonce, e = .tokenReceived bound cNonce ∧
      cNonce ∉ c.issSeenCNonces ∧ cNonce ∈ out.1.issSeenCNonces ∧ (out.2.filter isSign).length ≤ 1 := by
  cases h with
  | drove hdrives houtcome =>
    obtain ⟨bound, cNonce, rfl, -⟩ := houtcome.proving hproving hmoved
    cases hdrives
  | offered houtcome =>
    obtain ⟨bound, cNonce, hinput, -⟩ := houtcome.proving hproving (by rw [hproving]; rintro ⟨⟩)
    cases hinput
  | @token bound cNonce c' effects houtcome =>
    have hsame : (c'.spendCNonce cNonce).issuance = c'.issuance := spendCNonce_issuance _ cNonce
    rw [hsame] at hproving hmoved
    obtain ⟨bound', cNonce', hinput, hfresh, hsingle⟩ := houtcome.proving hproving hmoved
    cases hinput
    refine ⟨bound, cNonce, rfl, hfresh, ?_, hsingle⟩
    simp only [spendCNonce, hproving]
    exact mem_pushNew.mpr (.inr rfl)
  | @received _ _ _ _ _ requested _ hissuance hanswers houtcome =>
    have hother : out.1.issuance ≠ .requestingCredential requested := by
      rw [hproving]
      rintro ⟨⟩
    obtain ⟨bound, cNonce, rfl, -⟩ := houtcome.proving hproving (by simpa [Core.received, hissuance] using hother)
    rcases hanswers with hanswer | ⟨f, authentic, hanswer⟩ <;> cases hanswer
  | unexpected =>
    obtain ⟨reason, haborted⟩ | hsame := rejectUnexpectedCredentialResponse_issuance (c := c).2
    · rw [haborted] at hproving
      cases hproving
    · exact absurd hsame hmoved

/-! ### Along runs -/

variable {pre : List Turn} {k : Turn}

theorem Taken.requestSpends (htaken : Taken p k) (hseen : RequestSeen pre k.before) :
    RequestSeen (pre ++ [k]) k.after ∧ Spends (fun _ => isDirectPost) RequestNonce RequestBurned pre k :=
  have hmove := htaken.outcome.move htaken.steady
  ⟨hmove.requestSeen hseen, hmove.spends hseen⟩

theorem Taken.paymentSpends (htaken : Taken p k) (hstory : PaymentStory p pre k.before) :
    PaymentStory p (pre ++ [k]) k.after ∧ Spends (fun _ => isPaymentAuthorization) PaymentNonce
      (fun _ c nonce => nonce ∈ c.paySeenNonces ∧ nonce ∉ c.paymentUnder) pre k := by
  have hmove := htaken.paymentMove hstory
  refine ⟨hmove.story hstory, hmove.reserved.spends ?_ fun x hx hpost => ?_⟩
  · rintro nonce ⟨pending, hpayment, rfl⟩
    simp [paymentUnder, hpayment]
  · unfold isPaymentAuthorization at hpost
    split at hpost
    · obtain ⟨pending, hpayment, -⟩ := hmove.posts hx
      exact ⟨_, pending, hpayment, rfl⟩
    · cases hpost

theorem Taken.qesSpends (htaken : Taken p k) (hseen : k.before.qesUnder ⊆ k.before.qesSeenNonces) (pre : List Turn) :
    k.after.qesUnder ⊆ k.after.qesSeenNonces ∧ Spends (fun _ => isQesAuthorization) QesNonce
      (fun _ c nonce => nonce ∈ c.qesSeenNonces ∧ nonce ∉ c.qesUnder) pre k := by
  obtain ⟨hafter, hreserved⟩ := htaken.qesMove.reserved hseen
  refine ⟨hafter, hreserved.spends ?_ fun x hx hpost => ?_⟩
  · rintro nonce ⟨pending, hqes, rfl⟩
    simp [qesUnder, hqes]
  · unfold isQesAuthorization at hpost
    split at hpost
    · obtain ⟨pending, hqes, -⟩ := htaken.qesMove.posts hx
      exact ⟨_, pending, hqes, rfl⟩
    · cases hpost

/-- A call of another flow does not make the issuance machine ask for a proof. -/
theorem Foreign.not_entersProof {stray : Prop} (h : Foreign stray .issuance k.before k.after) :
    entersProof k = false := by
  have hsame (hissuance : k.after.issuance = k.before.issuance) : entersProof k = false := by
    unfold entersProof
    split
    · simp [hissuance]
    · rfl
  rcases h.data with data | data <;> replace data := FlowData.issuance.inj data
  · exact hsame data.1
  · simp only [entersProof, data.1]
    rfl

theorem Taken.tokenSpends (htaken : Taken p k) (pre : List Turn) :
    Spends (fun k x => entersProof k && x.isSign) TokenNonce (fun _ c cNonce => cNonce ∈ c.issSeenCNonces)
      pre k := by
  rcases htaken.outcome.seenFrom htaken.steady .issuance nofun with hevent | ⟨hforeign, -⟩
  · have hkept := IssuanceEvent.issSeenCNonces hevent
    cases henters : entersProof k with
    | false => exact .of_silent (by simp [henters]) fun _ hn => hkept hn
    | true =>
      obtain ⟨format, signed, hproving, hmoved⟩ : ∃ format signed,
          k.after.issuance = .provingPossession format signed ∧ k.after.issuance ≠ k.before.issuance := by
        unfold entersProof at henters
        split at henters
        · next hproving => exact ⟨_, _, hproving, by simpa using henters⟩
        · cases henters
      obtain ⟨bound, cNonce, htoken, hfresh, hseen, hsingle⟩ :=
        IssuanceEvent.proving hevent hproving hmoved
      refine ⟨by simpa [henters] using hsingle, fun _ _ _ => ⟨cNonce, bound, htoken⟩, fun _ hn => hkept hn, ?_, ?_⟩
      · rintro n ⟨-, bound', htoken'⟩
        cases htoken.symm.trans htoken'
        exact hfresh
      · rintro n ⟨-, bound', htoken'⟩
        cases htoken.symm.trans htoken'
        exact hseen
  · refine .of_silent (by simp [hforeign.not_entersProof]) fun n hn => ?_
    rwa [issSeenCNonces_of_store hforeign.store]

structure NonceInv (p : Platform) (pre : List Turn) (c : Core) : Prop where
  requestSeen : RequestSeen pre c
  paymentStory : PaymentStory p pre c
  qesSeen : c.qesUnder ⊆ c.qesSeenNonces
  requests : Remembers (fun _ => Effect.isDirectPost) RequestNonce RequestBurned pre c
  payments : Remembers (fun _ => Effect.isPaymentAuthorization) PaymentNonce
    (fun _ c nonce => nonce ∈ c.paySeenNonces ∧ nonce ∉ c.paymentUnder) pre c
  signatures : Remembers (fun _ => Effect.isQesAuthorization) QesNonce
    (fun _ c nonce => nonce ∈ c.qesSeenNonces ∧ nonce ∉ c.qesUnder) pre c
  tokens : Remembers (fun k x => entersProof k && x.isSign) TokenNonce
    (fun _ c cNonce => cNonce ∈ c.issSeenCNonces) pre c

theorem Provisioned.nonceInv (h : Provisioned p c) : NonceInv p [] c := by
  have hvp := h.flowData .presentation
  have hqes := h.flowData .qes
  simp only [Core.flowData, emptyFlow, FlowData.presentation.injEq, FlowData.qes.injEq] at hvp hqes
  have hunder : c.qesUnder = [] := by
    simp only [qesUnder, hqes.1]
    rfl
  refine ⟨?_, h.paymentStory, by simp [hunder], .nil c, .nil c, .nil c, .nil c⟩
  rw [RequestSeen, hvp.1]
  exact False.elim

/-- No nonce is answered twice, however flows are cancelled, failed, restarted or interleaved. -/
theorem run_unreplayed (hfresh : Provisioned p c) (inputs : List (Event × Entropy)) :
    Always Unreplayed (run p c inputs) := by
  refine run_invariant (NonceInv p) hfresh hfresh.nonceInv ?_ ?_ inputs
  · intro pre k htaken hinv
    obtain ⟨hrequest, hrequests⟩ := htaken.requestSpends hinv.requestSeen
    obtain ⟨hpayment, hpayments⟩ := htaken.paymentSpends hinv.paymentStory
    obtain ⟨hqes, hsignatures⟩ := htaken.qesSpends hinv.qesSeen pre
    exact ⟨hrequest, hpayment, hqes, hrequests.remembers hinv.requests, hpayments.remembers hinv.payments,
      hsignatures.remembers hinv.signatures, (htaken.tokenSpends pre).remembers hinv.tokens⟩
  · intro pre k htaken hinv
    exact ⟨(htaken.requestSpends hinv.requestSeen).2.once hinv.requests,
      (htaken.paymentSpends hinv.paymentStory).2.once hinv.payments,
      (htaken.qesSpends hinv.qesSeen pre).2.once hinv.signatures, (htaken.tokenSpends pre).once hinv.tokens⟩

end Core

open Wallet.Core Wallet.Sample

/-- The run posts the answer to a request, and it is the first answer to its nonce. -/
theorem run_unreplayed_sample : ∃ pre k post nonce, run platform core inputs = pre ++ k :: post ∧
    Uses (fun _ => Effect.isDirectPost) RequestNonce pre k nonce ∧ Unreplayed pre k := by
  have hposts : (run platform core inputs).any (fun k => k.outputs.any Effect.isDirectPost) = true := by
    decide
  obtain ⟨pre, k, post, x, hrun, hx, hpost⟩ := exists_call_of_any hposts
  have hunreplayed := run_unreplayed core_provisioned inputs pre k post hrun
  obtain ⟨nonce, hnonce⟩ := hunreplayed.presentation.named x hx hpost
  exact ⟨pre, k, post, nonce, hrun, ⟨⟨x, hx, hpost⟩, hnonce⟩, hunreplayed⟩

end EuWallet.Wallet
