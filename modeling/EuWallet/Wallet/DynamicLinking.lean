import EuWallet.Presenter.Commitment
import EuWallet.Protocol.Bindings
import EuWallet.Wallet.Runs

/-! # What is authorised is what was confirmed

A payment and a qualified signature are authorised in the same three calls: the request is shown, the
user confirms and the device is asked to sign a binding of the request, the signature is posted. The
request, the hash of its screen and the endpoint are kept in separate fields between these calls.
`PaymentStory` and `QesStory` say of the history what each state of the machine stands for, and every
call continues them. -/

namespace EuWallet.Wallet

open Codec Codec.Cbor Crypto Lib Presenter
open Protocol

namespace Core

/-! ### Payments -/

/-- The call received the request and showed its confirmation screen. -/
def PaymentAsked (p : Platform) (req : Payment.PaymentRequest) (k : Turn) : Prop :=
  ∃ b, k.input.1 = .paymentAuthorizationRequestReceived b ∧ Payment.parseRequest p b = some req ∧
    k.outputs = [.render (paymentScreen req)]

def ShowsNoPayment (k : Turn) : Prop := ∀ screen, .render (.paymentConfirmation screen) ∉ k.outputs

/-- The user approved and the device was asked to sign the binding of the request. -/
def PaymentSigned (req : Payment.PaymentRequest) (k : Turn) : Prop :=
  k.input.1 = .paymentApproved ∧
    ∃ keyRef, k.outputs = [.sign keyRef (Payment.dynamicLinkingBinding req)]

/-- The call posts the signature it was given to the endpoint of the request. -/
def PaymentPosted (req : Payment.PaymentRequest) (k : Turn) : Prop :=
  ∃ signature, k.input.1 = .deviceSignatureProduced signature ∧
    k.outputs = [.http .paymentAuthorization req.responseUri signature]

/-- Since the request was shown, the last of all payments, the calls went through the phases. -/
def PaymentTrail (p : Platform) (req : Payment.PaymentRequest) (phases : List (Turn → Prop))
    (pre : List Turn) : Prop := Trail (PaymentAsked p req) ShowsNoPayment phases pre

structure PaymentNotes (p : Platform) (req : Payment.PaymentRequest) (c : Core) : Prop where
  pending : c.payPending = some (req.responseUri, req.nonce)
  summary : c.paySummary = some (paymentSummary req)
  hash : c.payConsentHash = consentHash p (paymentScreen req)

/-- What the state of the payment machine says about the calls so far. -/
def PaymentStory (p : Platform) (pre : List Turn) (c : Core) : Prop :=
  match c.payment with
  | .awaitingConfirmation req => PaymentNotes p req c ∧ PaymentTrail p req [] pre
  | .awaitingSca pending =>
    PaymentNotes p pending.request c ∧ PaymentTrail p pending.request [PaymentSigned pending.request] pre
  | .authorized _ => c.active = .payment → ∃ req, PaymentNotes p req c ∧
      PaymentTrail p req [PaymentSigned req, PaymentPosted req] pre
  | .idle | .aborted _ => True

structure PaymentEntry (p : Platform) (req : Payment.PaymentRequest) (entry : TxnLog.Entry) : Prop where
  counterparty : entry.counterparty = req.creditorName
  consentHash : entry.consentHash = Presenter.consentHash p (paymentScreen req)
  payment : entry.payment = some ⟨req.creditorName, req.amountMinor, req.currency⟩

structure DynamicallyLinked (p : Platform) (pre : List Turn) (k : Turn) : Prop where
  posts : ∀ url body, .http .paymentAuthorization url body ∈ k.outputs →
    ∃ req, PaymentTrail p req [PaymentSigned req] pre ∧ k.input.1 = .deviceSignatureProduced body ∧
      url = req.responseUri
  entries : ∀ entry, k.after.log.entries = k.before.log.entries ++ [entry] → entry.kind = .payment →
    ∃ req, PaymentTrail p req [PaymentSigned req, PaymentPosted req] pre ∧ PaymentEntry p req entry
  delivered : ∀ signature, k.input.1 = .paymentAuthorizationDelivered → k.before.active = .payment →
    k.before.payment = .authorized signature → k.after.auditLogAvailable = false ∨
      ∃ entry, k.after.log.entries = k.before.log.entries ++ [entry] ∧ entry.kind = .payment

variable {p : Platform} {pre : List Turn} {k : Turn} {c c' : Core} {req : Payment.PaymentRequest}

theorem PaymentNotes.of_same (h : PaymentNotes p req c) (hpending : c'.payPending = c.payPending)
    (hsummary : c'.paySummary = c.paySummary) (hhash : c'.payConsentHash = c.payConsentHash) :
    PaymentNotes p req c' :=
  ⟨hpending.trans h.pending, hsummary.trans h.summary, hhash.trans h.hash⟩

theorem PaymentStory.keep (h : PaymentStory p pre k.before) (hquiet : ShowsNoPayment k)
    (hpayment : k.after.payment = k.before.payment) (hpending : k.after.payPending = k.before.payPending)
    (hsummary : k.after.paySummary = k.before.paySummary) (hhash : k.after.payConsentHash = k.before.payConsentHash)
    (hactive : k.after.active = .payment → k.before.active = .payment) : PaymentStory p (pre ++ [k]) k.after := by
  unfold PaymentStory at h ⊢
  rw [hpayment]
  split at h
  · exact ⟨h.1.of_same hpending hsummary hhash, h.2.keep hquiet⟩
  · exact ⟨h.1.of_same hpending hsummary hhash, h.2.keep hquiet⟩
  · intro hafter
    obtain ⟨req, hnotes, htrail⟩ := h (hactive hafter)
    exact ⟨req, hnotes.of_same hpending hsummary hhash, htrail.keep hquiet⟩
  · trivial
  · trivial

theorem PaymentStory.of_ended (h : c.payment = .idle ∨ (∃ signature, c.payment = .authorized signature) ∧
    c.active ≠ .payment) : PaymentStory p pre c := by
  unfold PaymentStory
  rcases h with h | ⟨⟨signature, h⟩, hactive⟩
  · rw [h]
    trivial
  · rw [h]
    exact fun h => absurd h hactive

/-- The notes of the state, made again, are what they were. -/
theorem PaymentStory.notePayment (h : PaymentStory p pre c) : c.notePayment.flowData .payment = c.flowData .payment ∧
    c.paySeenNonces ⊆ c.notePayment.paySeenNonces ∧ c.notePayment.active = c.active := by
  unfold PaymentStory at h
  unfold Core.notePayment
  split
  · next hpayment =>
    rw [hpayment] at h
    refine ⟨?_, List.Subset.refl _, rfl⟩
    simp [flowData, hpayment, h.1.pending]
  · split
    · exact ⟨rfl, fun nonce hnonce => mem_pushNew.mpr (.inl hnonce), rfl⟩
    · exact ⟨rfl, List.Subset.refl _, rfl⟩
  · exact ⟨rfl, List.Subset.refl _, rfl⟩

/-- What a call does to the payment, whichever flow the event belongs to. -/
inductive PaymentMove (p : Platform) (c : Core) (e : Event) (c' : Core) (effects : List Effect) : Prop
  | still (data : c'.flowData .payment = c.flowData .payment) (nonces : c.paySeenNonces ⊆ c'.paySeenNonces)
      (active : c'.active = .payment → c.active = .payment) (silent : ∀ x ∈ effects, x.flow ≠ some .payment)
  | ended (past : c'.payment = .idle ∨ (∃ signature, c'.payment = .authorized signature) ∧ c'.active ≠ .payment)
      (nonces : c.paySeenNonces ⊆ c'.paySeenNonces) (silent : ∀ x ∈ effects, x.flow ≠ some .payment)
  | asked {b req} (event : e = .paymentAuthorizationRequestReceived b) (parsed : Payment.parseRequest p b = some req)
      (fresh : req.nonce ∉ c.paySeenNonces) (next : c'.payment = .awaitingConfirmation req)
      (notes : PaymentNotes p req c') (nonces : c'.paySeenNonces = c.paySeenNonces)
      (emits : effects = [.render (paymentScreen req)])
  | approved {req keyRef} (event : e = .paymentApproved) (payment : c.payment = .awaitingConfirmation req)
      (next : c'.payment = .awaitingSca ⟨req, Payment.dynamicLinkingBinding req⟩)
      (notes : PaymentNotes p req c → PaymentNotes p req c') (nonces : c'.paySeenNonces = c.paySeenNonces)
      (emits : effects = [.sign keyRef (Payment.dynamicLinkingBinding req)])
  | authorized {pending signature} (event : e = .deviceSignatureProduced signature)
      (payment : c.payment = .awaitingSca pending) (next : c'.payment = .authorized signature)
      (notes : PaymentNotes p pending.request c')
      (nonces : c'.paySeenNonces = pushNew c.paySeenNonces pending.request.nonce)
      (emits : effects = [.http .paymentAuthorization pending.request.responseUri signature])

section Move
variable {e : Event} {effects : List Effect}

theorem paySeenNonces_of_store (h : c'.storeData .payment = c.storeData .payment) :
    c'.paySeenNonces = c.paySeenNonces := by
  simpa [storeData] using h

theorem requestRefusal_none {env : Payment.Env} (h : Payment.requestRefusal env req = none) :
    req.nonce ∉ env.seenNonces := by
  unfold Payment.requestRefusal at h
  split_ifs at h with _ _ hnonce
  simpa using hnonce

theorem flow_ne_of_ends {f : ActiveFlow} (h : ∀ x ∈ effects, x.Ends) : ∀ x ∈ effects, x.flow ≠ some f := by
  intro x hx
  rw [(h x hx).flow_eq_none]
  rintro ⟨⟩

theorem PaymentEvent.move {out : Core × List Effect} (h : PaymentEvent p c e out) (hstory : PaymentStory p pre c) :
    PaymentMove p c e out.1 out.2 := by
  have hsame {c' : Core} (hstore : c'.storeData .payment = c.storeData .payment) :
      c.paySeenNonces ⊆ c'.paySeenNonces := by
    rw [paySeenNonces_of_store hstore]
    exact List.Subset.refl _
  have herror {code message : String} : ∀ x ∈ errorThenClose code message, x.flow ≠ some .payment :=
    flow_ne_of_ends fun _ => errorThenClose_ends
  have hclose : ∀ x ∈ [Effect.close], x.flow ≠ some .payment := flow_ne_of_ends (by simp [Effect.Ends])
  cases h with
  | unchanged =>
    obtain ⟨hdata, hnonces, hactive⟩ := hstory.notePayment
    exact .still hdata hnonces (fun h => hactive.symm.trans h) (by simp)
  | ignored => exact .still rfl (List.Subset.refl _) id (by simp)
  | refused =>
    refine .ended (.inl rfl) (hsame ?_) herror
    rw [storeData_resetFlow, storeData_beginFlow]
  | rejected =>
    refine .ended (.inl rfl) (hsame ?_) herror
    simp only [auditLogCandidateRejectionEffects, terminateAuditedFlow, storeData_resetFlow]
    split <;> simp only [storeData_resetFlow, storeData_beginFlow]
  | asked hparsed hfresh =>
    have hnonces : (c.beginFlow .payment).paySeenNonces = c.paySeenNonces :=
      paySeenNonces_of_store (storeData_beginFlow c)
    exact .asked rfl hparsed (requestRefusal_none hfresh) rfl ⟨rfl, rfl, rfl⟩ hnonces rfl
  | approved hpayment => exact .approved rfl hpayment rfl (fun h => ⟨h.pending, h.summary, h.hash⟩) rfl rfl
  | declined =>
    refine .ended (.inl rfl) (hsame ?_) hclose
    rw [storeData_resetFlow]
  | @authorized pending signature hactive hpayment =>
    rw [PaymentStory, hpayment] at hstory
    obtain ⟨⟨hpending, hsummary, hhash⟩, -⟩ := hstory
    have hafter : (c.withPayment (.authorized signature)).notePayment = { c.withPayment (.authorized signature) with
          paySeenNonces := pushNew c.paySeenNonces pending.request.nonce } := by
      simp [Core.notePayment, withPayment, hpending]
    rw [hafter]
    exact .authorized rfl hpayment rfl ⟨hpending, hsummary, hhash⟩ rfl (by rw [hpending]; rfl)
  | @delivered c₁ signature hactive hpayment hrecorded =>
    obtain ⟨log, latch, rfl⟩ := recordPayment_eq hrecorded
    refine .ended (.inr ⟨⟨signature, hpayment⟩, ?_⟩) (hsame ?_) hclose
    · rw [active_finishFlow, if_pos hactive]
      simp
    · rw [storeData_finishFlow]
      rfl
  | unrecorded _ _ hfailed =>
    obtain ⟨log, latch, rfl⟩ := recordPayment_eq hfailed
    refine .ended (.inl rfl) (hsame ?_) herror
    simp only [auditLogFaultEffects, terminateAuditedFlow, storeData_resetFlow]
    split
    · rw [storeData_resetFlow]
      rfl
    · rfl

theorem Taken.paymentMove (htaken : Taken p k) (hstory : PaymentStory p pre k.before) :
    PaymentMove p k.before k.input.1 k.after k.outputs := by
  rcases htaken.outcome.seenFrom htaken.steady .payment nofun with hevent | ⟨hforeign, hother⟩
  · exact PaymentEvent.move hevent hstory
  · have hnonces : k.before.paySeenNonces ⊆ k.after.paySeenNonces :=
      fun n hn => paySeenNonces_of_store hforeign.store ▸ hn
    cases hforeign with
    | kept data active => exact .still data hnonces active.mp hother
    | orphaned _ _ data active => exact .still data hnonces (fun h => by cases active.symm.trans h) hother
    | dropped data =>
      replace data := FlowData.payment.inj data
      exact .ended (.inl data.1) hnonces hother

theorem PaymentMove.story (h : PaymentMove p k.before k.input.1 k.after k.outputs)
    (hstory : PaymentStory p pre k.before) : PaymentStory p (pre ++ [k]) k.after := by
  cases h with
  | still data _ active silent =>
    replace data := FlowData.payment.inj data
    exact hstory.keep (fun screen hx => silent _ hx rfl) data.1 data.2.1 data.2.2.1 data.2.2.2 active
  | ended past => exact .of_ended past
  | asked event parsed _ next notes _ emits =>
    rw [PaymentStory, next]
    exact ⟨notes, .begin ⟨_, event, parsed, emits⟩⟩
  | approved event payment next notes _ emits =>
    rw [PaymentStory, payment] at hstory
    rw [PaymentStory, next]
    exact ⟨notes hstory.1, hstory.2.advance (by simp [ShowsNoPayment, emits]) ⟨event, _, emits⟩⟩
  | authorized event payment next notes _ emits =>
    rw [PaymentStory, payment] at hstory
    rw [PaymentStory, next]
    exact fun _ => ⟨_, notes, hstory.2.advance (by simp [ShowsNoPayment, emits]) ⟨_, event, emits⟩⟩

theorem PaymentMove.posts {url : String} {body : Bytes} (h : PaymentMove p c e c' effects)
    (hx : .http .paymentAuthorization url body ∈ effects) : ∃ pending, c.payment = .awaitingSca pending ∧
      e = .deviceSignatureProduced body ∧ url = pending.request.responseUri := by
  cases h with
  | still _ _ _ silent | ended _ _ silent => exact absurd rfl (silent _ hx)
  | asked _ _ _ _ _ _ emits | approved _ _ _ _ _ emits =>
    rw [emits] at hx
    cases List.mem_singleton.mp hx
  | authorized event payment _ _ _ emits =>
    rw [emits] at hx
    cases List.mem_singleton.mp hx
    exact ⟨_, payment, event, rfl⟩

end Move

theorem paymentAuthorizationDelivered_records {signature : Bytes} {summary : TxnLog.PaymentSummary}
    (hactive : c.active = .payment) (hpayment : c.payment = .authorized signature)
    (hsummary : c.paySummary = some summary) : (c.paymentAuthorizationDelivered p).1.auditLogAvailable = false ∨
      ∃ entry, (c.paymentAuthorizationDelivered p).1.log.entries = c.log.entries ++ [entry] ∧
        entry.kind = .payment := by
  have hrecord : c.recordPayment p = c.appendAuditEntry p (c.paymentEntry summary c.payConsentHash) := by
    simp only [recordPayment, hsummary]
    rfl
  cases hresult : c.appendAuditEntry p (c.paymentEntry summary c.payConsentHash) with
  | mk c' result => cases result with
    | error e =>
      have hledger : (c'.auditLogFaultEffects .payment).1.ledger = (c'.log, false) :=
        ledger_auditLogFaultEffects
      left
      simp only [paymentAuthorizationDelivered, hactive, hpayment, hrecord, hresult]
      exact congrArg Prod.snd hledger
    | ok _ =>
      obtain ⟨happend, -⟩ := appendAuditEntry_ok hresult
      obtain ⟨entry, hentries, hcontent⟩ := TxnLog.append_entries happend
      refine .inr ⟨entry, ?_, ?_⟩
      · simp only [paymentAuthorizationDelivered, hactive, hpayment, hrecord, hresult]
        exact hentries
      · rw [hcontent]
        rfl

theorem Taken.dynamicallyLinked (htaken : Taken p k) (hstory : PaymentStory p pre k.before) :
    DynamicallyLinked p pre k := by
  constructor
  · intro url body hx
    obtain ⟨pending, hpayment, hevent, hurl⟩ := (htaken.paymentMove hstory).posts hx
    rw [PaymentStory, hpayment] at hstory
    exact ⟨pending.request, hstory.2, hevent, hurl⟩
  · intro entry hgrown hkind
    obtain ⟨new, hrecords, hcontent⟩ := htaken.outcome.logChange.appended hgrown
    rw [hcontent] at hkind
    generalize hevent : k.input.1 = event at hrecords
    cases hrecords with
    | payment hactive hpayment hsummary =>
      rw [PaymentStory, hpayment] at hstory
      obtain ⟨req, hnotes, htrail⟩ := hstory hactive
      cases hnotes.summary.symm.trans hsummary
      refine ⟨req, htrail, ?_, ?_, ?_⟩
      · rw [hcontent]
        rfl
      · rw [hcontent]
        exact hnotes.hash
      · rw [hcontent]
        rfl
    | presentation | issuance | transfer => cases hkind
  · intro signature hevent hactive hpayment
    have hresult := htaken.eq hevent
    have hafter : (k.before.paymentAuthorizationDelivered p).1 = k.after := congrArg Prod.fst hresult
    rw [PaymentStory, hpayment] at hstory
    obtain ⟨req, hnotes, -⟩ := hstory hactive
    rw [← hafter]
    exact paymentAuthorizationDelivered_records hactive hpayment hnotes.summary

theorem Provisioned.paymentStory (h : Provisioned p c) : PaymentStory p [] c := by
  have hdata := FlowData.payment.inj (h.flowData .payment)
  exact .of_ended (.inl hdata.1)

/-- **Dynamic linking.** In every run each posted payment authorisation is the signature given for the
binding of the request that was shown last, approved after it was shown; the entry written on delivery is
about that request; and bindings tell payments apart. -/
theorem run_dynamicallyLinked (hfresh : Provisioned p c) (inputs : List (Event × Entropy)) :
    Always (DynamicallyLinked p) (run p c inputs) ∧ ∀ r s : Payment.PaymentRequest, r.Typed → s.Typed →
      Payment.dynamicLinkingBinding r = Payment.dynamicLinkingBinding s →
      r.creditorName = s.creditorName ∧ r.creditorAccount = s.creditorAccount ∧
        r.amountMinor = s.amountMinor ∧ r.currency = s.currency ∧ r.transactionId = s.transactionId ∧
        r.nonce = s.nonce := by
  refine ⟨?_, fun r s hr hs h => Payment.dynamicLinkingBinding_injective hr hs h⟩
  exact run_invariant (PaymentStory p) hfresh hfresh.paymentStory (fun _ _ htaken hstory => (htaken.paymentMove hstory).story hstory)
    (fun _ _ htaken => htaken.dynamicallyLinked) inputs

end Core

namespace Confirmed

def paymentRequest : Json := .obj [("creditor_name", .str "Shop"), ("creditor_account", .str "12"),
  ("amount_minor", .num (.posInt 3)), ("currency", .str "EUR"), ("nonce", .num (.posInt 1)),
  ("response_uri", .str "https://bank.example/")]

def signRequest : Json := .obj [("document_name", .str "Lease"), ("document_hash_hex", .str "0a"),
  ("qtsp_id", .str "qtsp"), ("nonce", .num (.posInt 1))]

/-- One byte stands for each request. -/
def platform : Platform := { (default : Platform) with
  sha256 := fun _ => oneHash
  parseJson := fun b => if b = [1] then some paymentRequest else if b = [2] then some signRequest
    else none }

def core : Core := .new "wallet" "device" 0

/-- The payment is authorised and delivered, then the signature. -/
def inputs : List (Event × Entropy) := [(.paymentAuthorizationRequestReceived [1], []),
  (.paymentApproved, []), (.deviceSignatureProduced [7], []), (.paymentAuthorizationDelivered, []),
  (.qesSignRequestReceived [2], []), (.qesAuthorized, []), (.deviceSignatureProduced [8], []),
  (.qesAuthorizationDelivered, [])]

end Confirmed

open Wallet.Core Confirmed in
/-- The run posts the authorisation of the payment. -/
theorem run_dynamicallyLinked_confirmed : ∃ pre k post, run platform core inputs = pre ++ k :: post ∧
    .http .paymentAuthorization "https://bank.example/" [7] ∈ k.outputs ∧
    DynamicallyLinked platform pre k := by
  have hposts : (run platform core inputs).any (fun k =>
      k.outputs.contains (.http .paymentAuthorization "https://bank.example/" [7])) = true := by
    decide
  obtain ⟨k, hk, hposts⟩ := List.any_eq_true.mp hposts
  obtain ⟨pre, post, hrun⟩ := List.append_of_mem hk
  exact ⟨pre, k, post, hrun, by simpa using hposts,
    (run_dynamicallyLinked (.new "wallet" "device" 0) inputs).1 pre k post hrun⟩

namespace Core

/-! ### Qualified signatures -/

/-- The call received the request and showed its confirmation screen. -/
def QesAsked (p : Platform) (req : Qes.SignRequest) (k : Turn) : Prop :=
  ∃ b, k.input.1 = .qesSignRequestReceived b ∧ Qes.parseRequest p b = some req ∧
    k.outputs = [.render (qesScreen req)]

def ShowsNoSignature (k : Turn) : Prop := ∀ screen, .render (.signConfirmation screen) ∉ k.outputs

/-- The user authorised and the device was asked to sign the binding of the request and its screen. -/
def QesSigned (p : Platform) (req : Qes.SignRequest) (k : Turn) : Prop :=
  k.input.1 = .qesAuthorized ∧ ∃ keyRef, k.outputs =
    [.sign keyRef (Qes.qesAuthorizationBinding req (consentHash p (qesScreen req)))]

/-- Since the request was shown, the last of all signature requests, the calls went through the phases. -/
def QesTrail (p : Platform) (req : Qes.SignRequest) (phases : List (Turn → Prop)) (pre : List Turn) :
    Prop := Trail (QesAsked p req) ShowsNoSignature phases pre

/-- What the state of the signature machine says about the calls so far. -/
def QesStory (p : Platform) (pre : List Turn) (c : Core) : Prop :=
  match c.qes with
  | .awaitingAuthorization req =>
    c.qesConsentHash = consentHash p (qesScreen req) ∧ QesTrail p req [] pre
  | .awaitingSca pending => QesTrail p pending.request [QesSigned p pending.request] pre
  | .idle | .signed _ | .aborted _ => True

/-- Every authorisation the call posts is the signature asked for after the user confirmed the screen
that was shown last. -/
def SignedAsSeen (p : Platform) (pre : List Turn) (k : Turn) : Prop :=
  ∀ url body, .http .qesAuthorization url body ∈ k.outputs →
    ∃ req, QesTrail p req [QesSigned p req] pre ∧ k.input.1 = .deviceSignatureProduced body

variable {p : Platform} {pre : List Turn} {k : Turn} {c : Core}

theorem QesStory.keep (h : QesStory p pre k.before) (hquiet : ShowsNoSignature k)
    (hqes : k.after.qes = k.before.qes) (hhash : k.after.qesConsentHash = k.before.qesConsentHash) :
    QesStory p (pre ++ [k]) k.after := by
  unfold QesStory at h ⊢
  rw [hqes]
  split at h
  · exact ⟨hhash.trans h.1, h.2.keep hquiet⟩
  · exact Trail.keep h hquiet
  · trivial
  · trivial
  · trivial

theorem QesStory.of_idle (h : c.qes = .idle) : QesStory p pre c := by
  rw [QesStory, h]
  trivial

/-- What a call does to the signature request, whichever flow the event belongs to. -/
inductive QesMove (p : Platform) (c : Core) (e : Event) (c' : Core) (effects : List Effect) : Prop
  | still (data : c'.flowData .qes = c.flowData .qes) (nonces : c.qesSeenNonces ⊆ c'.qesSeenNonces)
      (silent : ∀ x ∈ effects, x.flow ≠ some .qes)
  | ended (past : c'.qes = .idle ∨ ∃ signature, c'.qes = .signed signature)
      (nonces : c.qesSeenNonces ⊆ c'.qesSeenNonces) (silent : ∀ x ∈ effects, x.flow ≠ some .qes)
  | asked {b req} (event : e = .qesSignRequestReceived b) (parsed : Qes.parseRequest p b = some req)
      (fresh : req.nonce ∉ c.qesSeenNonces) (next : c'.qes = .awaitingAuthorization req)
      (hash : c'.qesConsentHash = consentHash p (qesScreen req))
      (nonces : c'.qesSeenNonces = pushNew c.qesSeenNonces req.nonce) (emits : effects = [.render (qesScreen req)])
  | approved {req keyRef} (event : e = .qesAuthorized) (qes : c.qes = .awaitingAuthorization req)
      (next : c'.qes = .awaitingSca ⟨req, c.qesConsentHash⟩) (nonces : c'.qesSeenNonces = c.qesSeenNonces)
      (emits : effects = [.sign keyRef (Qes.qesAuthorizationBinding req c.qesConsentHash)])
  | signed {pending signature} (event : e = .deviceSignatureProduced signature) (qes : c.qes = .awaitingSca pending)
      (next : c'.qes = .signed signature) (nonces : c'.qesSeenNonces = c.qesSeenNonces)
      (emits : effects = [.http .qesAuthorization "" signature])

section Move
variable {c' : Core} {e : Event} {effects : List Effect}

theorem qesSeenNonces_of_store (h : c'.storeData .qes = c.storeData .qes) : c'.qesSeenNonces = c.qesSeenNonces := by
  simpa [storeData] using h

theorem QesEvent.move {out : Core × List Effect} (h : QesEvent p c e out) : QesMove p c e out.1 out.2 := by
  have hsame {c' : Core} (hstore : c'.storeData .qes = c.storeData .qes) : c.qesSeenNonces ⊆ c'.qesSeenNonces := by
    rw [qesSeenNonces_of_store hstore]
    exact List.Subset.refl _
  have hclose : ∀ x ∈ [Effect.close], x.flow ≠ some .qes := flow_ne_of_ends (by simp [Effect.Ends])
  cases h with
  | unchanged =>
    refine .still ?_ ?_ (by simp) <;> unfold noteQes <;> split
    · rfl
    · rfl
    · exact fun nonce hnonce => mem_pushNew.mpr (.inl hnonce)
    · exact List.Subset.refl _
  | ignored => exact .still rfl (List.Subset.refl _) (by simp)
  | refused =>
    refine .ended (.inl rfl) (hsame ?_) (flow_ne_of_ends fun _ => errorThenClose_ends)
    rw [storeData_resetFlow, storeData_beginFlow]
  | @asked b req hparsed hfresh =>
    have hnonces : ((c.beginFlow .qes).askedQes p req).qesSeenNonces = pushNew c.qesSeenNonces req.nonce := by
      rw [← qesSeenNonces_of_store (storeData_beginFlow (g := .qes) c)]
      rfl
    exact .asked rfl hparsed hfresh rfl rfl hnonces rfl
  | approved hqes => exact .approved rfl hqes rfl rfl rfl
  | declined =>
    refine .ended (.inl rfl) (hsame ?_) hclose
    rw [storeData_resetFlow]
  | signed _ hqes => exact .signed rfl hqes rfl rfl rfl
  | delivered _ hqes =>
    refine .ended (.inr ⟨_, hqes⟩) (hsame ?_) hclose
    rw [storeData_finishFlow]

theorem Taken.qesMove (htaken : Taken p k) : QesMove p k.before k.input.1 k.after k.outputs := by
  rcases htaken.outcome.seenFrom htaken.steady .qes nofun with hevent | ⟨hforeign, hother⟩
  · exact QesEvent.move hevent
  · have hnonces : k.before.qesSeenNonces ⊆ k.after.qesSeenNonces :=
      fun n hn => qesSeenNonces_of_store hforeign.store ▸ hn
    rcases hforeign.data with data | data
    · exact .still data hnonces hother
    · replace data := FlowData.qes.inj data
      exact .ended (.inl data.1) hnonces hother

theorem QesMove.story (h : QesMove p k.before k.input.1 k.after k.outputs) (hstory : QesStory p pre k.before) :
    QesStory p (pre ++ [k]) k.after := by
  cases h with
  | still data _ silent =>
    replace data := FlowData.qes.inj data
    exact hstory.keep (fun screen hx => silent _ hx rfl) data.1 data.2
  | ended past =>
    unfold QesStory
    rcases past with past | ⟨signature, past⟩ <;> rw [past] <;> trivial
  | asked event parsed _ next hash _ emits =>
    rw [QesStory, next]
    exact ⟨hash, .begin ⟨_, event, parsed, emits⟩⟩
  | @approved req keyRef event qes next _ emits =>
    rw [QesStory, qes] at hstory
    rw [QesStory, next]
    refine hstory.2.advance (by simp [ShowsNoSignature, emits]) ⟨event, keyRef, ?_⟩
    rw [emits, hstory.1]
  | signed _ _ next =>
    rw [QesStory, next]
    trivial

theorem QesMove.posts {url : String} {body : Bytes} (h : QesMove p c e c' effects)
    (hx : .http .qesAuthorization url body ∈ effects) :
    ∃ pending, c.qes = .awaitingSca pending ∧ e = .deviceSignatureProduced body := by
  cases h with
  | still _ _ silent | ended _ _ silent => exact absurd rfl (silent _ hx)
  | asked _ _ _ _ _ _ emits | approved _ _ _ _ emits =>
    rw [emits] at hx
    cases List.mem_singleton.mp hx
  | signed event qes _ _ emits =>
    rw [emits] at hx
    cases List.mem_singleton.mp hx
    exact ⟨_, qes, event⟩

end Move

theorem Taken.signedAsSeen (htaken : Taken p k) (hstory : QesStory p pre k.before) :
    SignedAsSeen p pre k := by
  intro url body hx
  obtain ⟨pending, hqes, hevent⟩ := htaken.qesMove.posts hx
  rw [QesStory, hqes] at hstory
  exact ⟨pending.request, hstory, hevent⟩

theorem Provisioned.qesStory (h : Provisioned p c) : QesStory p [] c := by
  have hdata := FlowData.qes.inj (h.flowData .qes)
  exact .of_idle hdata.1

theorem utf8ByteSize_hexBytes (b : Bytes) : (hexBytes b).utf8ByteSize = 2 * b.length := by
  have hdigit : ∀ n < 16, (hexDigit n).utf8Size = 1 := by decide
  induction b with
  | nil => rfl
  | cons x xs ih =>
    have hhigh := hdigit (x.toNat / 16) (by have := x.toNat_lt; omega)
    have hlow := hdigit (x.toNat % 16) (by omega)
    simp only [hexBytes] at ih
    simp only [hexBytes, List.flatMap_cons, String.ofList_append, String.utf8ByteSize_append, ih,
      String.ofList_cons, String.utf8ByteSize_singleton, hhigh, hlow, String.ofList_nil,
      String.utf8ByteSize_empty, List.length_cons]
    omega

theorem qesScreen_typed {req : Qes.SignRequest} (h : req.Typed) : (qesScreen req).Typed := by
  have htag : "signConfirmation".utf8ByteSize < 2 ^ 64 := by decide
  refine ⟨by simp, htag, h.documentName, h.qtspId, ?_, trivial⟩
  have hlength := h.documentHash
  simp only [Value.Fits, utf8ByteSize_hexBytes]
  omega

/-- **What you see is what you sign.** In every run each posted signature authorisation is the signature
given for the binding of a request and of the screen that showed it, the last one shown, authorised after
it was shown; and two such bindings are equal only for one document name, provider, document hash and
nonce, unless their two screens collide. -/
theorem run_signedAsSeen (hfresh : Provisioned p c) (inputs : List (Event × Entropy)) :
    Always (SignedAsSeen p) (run p c inputs) ∧ ∀ r s : Qes.SignRequest, r.Typed → s.Typed →
      Set.InjOn p.sha256 {canonicalBytes (qesScreen r), canonicalBytes (qesScreen s)} →
      Qes.qesAuthorizationBinding r (consentHash p (qesScreen r)) =
        Qes.qesAuthorizationBinding s (consentHash p (qesScreen s)) →
      r.documentName = s.documentName ∧ r.qtspId = s.qtspId ∧ r.documentHash = s.documentHash ∧
        r.nonce = s.nonce := by
  refine ⟨?_, fun r s hr hs hcollision h => ?_⟩
  · exact run_invariant (QesStory p) hfresh hfresh.qesStory (fun _ _ htaken => htaken.qesMove.story)
      (fun _ _ htaken => htaken.signedAsSeen) inputs
  · obtain ⟨hdocument, hhash, hqtsp, hnonce⟩ := Qes.qesAuthorizationBinding_injective hr hs h
    have hbytes : canonicalBytes (qesScreen r) = canonicalBytes (qesScreen s) :=
      hcollision (Set.mem_insert _ _) (Set.mem_insert_of_mem _ rfl) hhash
    have hscreen := canonicalBytes_injective (qesScreen_typed hr) (qesScreen_typed hs) hbytes
    simp only [qesScreen, ScreenDescription.signConfirmation.injEq, SignScreen.mk.injEq] at hscreen
    exact ⟨hscreen.1, hqtsp, hdocument, hnonce⟩

end Core

open Wallet.Core Confirmed in
/-- The run posts the authorisation of the signature. -/
theorem run_signedAsSeen_confirmed : ∃ pre k post, run platform core inputs = pre ++ k :: post ∧
    .http .qesAuthorization "" [8] ∈ k.outputs ∧ SignedAsSeen platform pre k := by
  have hposts : (run platform core inputs).any (fun k =>
      k.outputs.contains (.http .qesAuthorization "" [8])) = true := by decide
  obtain ⟨k, hk, hposts⟩ := List.any_eq_true.mp hposts
  obtain ⟨pre, post, hrun⟩ := List.append_of_mem hk
  exact ⟨pre, k, post, hrun, by simpa using hposts,
    (run_signedAsSeen (.new "wallet" "device" 0) inputs).1 pre k post hrun⟩

end EuWallet.Wallet
