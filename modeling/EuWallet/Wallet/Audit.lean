import EuWallet.TxnLog.Capacity
import EuWallet.Wallet.DynamicLinking
import EuWallet.Wallet.Isolation
import EuWallet.Wallet.Transfers

/-! # The audit log is complete

A flow that ends with an entry reserves room for it when it starts: the log must be able to take any entry.
While one flow is active no other writes (`Confined`), so the room is still there when the entry is written,
and the entry, whose parts were checked on the way, fits. `Provided` collects what a core has to know for
that; every call but a stray status list keeps it. -/

namespace EuWallet.Wallet

open Codec Crypto Formats Lib Presenter Protocol
open Trust TxnLog

namespace Core

/-! ### The moments that are recorded -/

def Completes (k : Turn) : Prop := ∃ f, CompletesFlow k.input.1 k.before k.after f

structure Grows (c c' : Core) : Prop where
  entry : ∃ entry, c'.log.entries = c.log.entries ++ [entry]
  latch : c'.auditLogAvailable = c.auditLogAvailable
  closed : c'.active = .none

/-- A call that completes the flow adds an entry, and one that does not adds none. -/
def FlowAudited (e : Event) (c c' : Core) (f : ActiveFlow) : Prop :=
  (CompletesFlow e c c' f ∧ Grows c c') ∨ (¬ CompletesFlow e c c' f ∧ c'.ledger = c.ledger)

structure AuditComplete (k : Turn) : Prop where
  available : k.after.auditLogAvailable = true
  recorded : Completes k → ∃ entry, k.after.log.entries = k.before.log.entries ++ [entry]
  silent : ¬ Completes k → k.after.log.entries.length ≤ k.before.log.entries.length

/-! ### The flows -/

section
variable {p : Platform} {r : Entropy} {c c' : Core} {e : Event} {out : Core × List Effect}

theorem PaymentEvent.ledger (h : PaymentEvent p c e out) (he : e ≠ .paymentAuthorizationDelivered) :
    out.1.ledger = c.ledger := by
  cases h with
  | unchanged | authorized => exact ledger_notePayment
  | approved => rfl
  | refused => exact ledger_resetFlow.trans ledger_beginFlow
  | rejected => exact ledger_terminateAuditedFlow.trans ledger_beginFlow
  | asked => exact ledger_beginFlow (c := c)
  | declined => exact ledger_resetFlow
  | ignored | delivered | unrecorded => exact absurd rfl he

theorem transferEntry_recordable (hepoch : 0 ≤ c.nowEpoch) (hash : Hash32) : (c.transferEntry hash).Recordable where
  epoch := hepoch
  counterparty := show validateText "peer-wallet" .counterparty maxCounterpartyBytes = .ok () by decide
  count := Nat.zero_le _
  paths := by simp [transferEntry]
  nodup := List.nodup_nil
  payment _ := rfl
  bytes := show fieldsBytes "peer-wallet" [] none ≤ maxEntryBytes by decide

/-! ### A call -/

/-- A call writes nothing. The log may be wiped, or an entry of it erased. -/
inductive Quiet (c c' : Core) : Prop
  | kept (ledger : c'.ledger = c.ledger)
  | wiped (ledger : c'.ledger = ({}, true))
  | redacted {seq} (ledger : c'.ledger = ((c.log.redact seq).1, c.auditLogAvailable))

variable {k : Turn}

theorem Quiet.length_le (h : Quiet c c') : c'.log.entries.length ≤ c.log.entries.length := by
  cases h with
  | kept hledger => exact (congrArg (·.1.entries.length) hledger).le
  | wiped hledger =>
    have hlength := congrArg (·.1.entries.length) hledger
    exact hlength.le.trans (Nat.zero_le _)
  | redacted hledger =>
    have hlength := congrArg (·.1.entries.length) hledger
    exact hlength.le.trans (length_redact _ _).le

theorem Quiet.available (h : Quiet c c') (hlatch : c.auditLogAvailable = true) : c'.auditLogAvailable = true := by
  cases h with
  | kept hledger | redacted hledger => exact (congrArg Prod.snd hledger).trans hlatch
  | wiped hledger => exact congrArg Prod.snd hledger

theorem Quiet.room (h : Quiet c c') (hroom : c.log.canGuaranteeMaxEntry = true) :
    c'.log.canGuaranteeMaxEntry = true := by
  cases h with
  | kept hledger =>
    have hlog : c'.log = c.log := congrArg Prod.fst hledger
    rw [hlog, hroom]
  | wiped hledger =>
    have hlog : c'.log = {} := congrArg Prod.fst hledger
    rw [hlog]
    decide
  | redacted hledger =>
    have hlog : c'.log = _ := congrArg Prod.fst hledger
    rw [hlog]
    exact canGuaranteeMaxEntry_redact hroom _

theorem Foreign.not_completes {stray : Prop} {f : ActiveFlow} (h : Foreign stray f c c')
    (he : f = .payment → e ≠ .paymentAuthorizationDelivered) : ¬ CompletesFlow e c c' f := by
  intro hcompletes
  cases f with
  | none | qes | proximity | dcApi => exact hcompletes
  | payment => exact he rfl hcompletes.1
  | presentation =>
    obtain ⟨hbefore, hdone⟩ := hcompletes
    cases h with
    | kept data =>
      replace data := FlowData.presentation.inj data
      exact hbefore (data.1.symm.trans hdone)
    | dropped data =>
      replace data := FlowData.presentation.inj data
      cases data.1.symm.trans hdone
    | orphaned _ hother => exact hother rfl
  | issuance =>
    obtain ⟨format, credential, hrequesting, hissued⟩ := hcompletes
    cases h with
    | kept data | orphaned _ _ data =>
      replace data := FlowData.issuance.inj data
      cases (data.1.symm.trans hissued).symm.trans hrequesting
    | dropped data =>
      replace data := FlowData.issuance.inj data
      cases data.1.symm.trans hissued
  | walletTransfer =>
    obtain ⟨hwaiting, credential, haccepted⟩ := hcompletes
    cases h with
    | kept data | orphaned _ _ data =>
      replace data := FlowData.walletTransfer.inj data
      cases (data.symm.trans haccepted).symm.trans hwaiting
    | dropped data =>
      replace data := FlowData.walletTransfer.inj data
      cases data.symm.trans haccepted

/-- What a call does to the log, as far as completeness goes. -/
def Audited (e : Event) (c c' : Core) : Prop :=
  ((∃ f, CompletesFlow e c c' f) ∧ Grows c c') ∨ ((¬ ∃ f, CompletesFlow e c c' f) ∧ Quiet c c')

/-- A flow and the others make a call. -/
theorem audited_of_flow {g : ActiveFlow}
    (hforeign : ∀ f ≠ g, f ≠ .none → Foreign (c.Stray e) f c c') (he : g ≠ .payment → e ≠ .paymentAuthorizationDelivered)
    (h : (CompletesFlow e c c' g ∧ Grows c c') ∨ (¬ CompletesFlow e c c' g ∧ Quiet c c')) : Audited e c c' := by
  rcases h with ⟨hcompletes, hgrows⟩ | ⟨hincomplete, hquiet⟩
  · exact .inl ⟨⟨g, hcompletes⟩, hgrows⟩
  · refine .inr ⟨?_, hquiet⟩
    rintro ⟨f, hcompletes⟩
    by_cases hg : f = g
    · exact hincomplete (hg ▸ hcompletes)
    · refine (hforeign f hg ?_).not_completes (fun hf => he ?_) hcompletes
      · rintro rfl
        exact hcompletes
      · rintro rfl
        exact hg hf

/-! ### What a core has to know -/

/-- The entry of the session can be written, whenever that is. -/
def SessionRecordable (s : SessionInfo) : Prop := ∀ c : Core, 0 ≤ c.nowEpoch → (c.presentationEntry s).Recordable

/-- The entry of the payment can be written, whenever that is. -/
def SummaryRecordable (summary : PaymentSummary) : Prop :=
  ∀ (c : Core) (hash : Hash32), 0 ≤ c.nowEpoch → (c.paymentEntry summary hash).Recordable

def PaymentPending : Payment.State → Prop
  | .awaitingConfirmation _ | .awaitingSca _ | .authorized _ => True
  | _ => False

/-- What the core knows about the payment it may still record. -/
def Summarised (c : Core) : Prop := c.active = .payment → PaymentPending c.payment →
  ∃ summary, c.paySummary = some summary ∧ SummaryRecordable summary

structure Provided (p : Platform) (c : Core) : Prop where
  latch : c.auditLogAvailable = true
  epoch : 0 ≤ c.nowEpoch
  confined : c.Confined
  selected : c.Selected p
  room : c.active = .presentation ∨ c.active = .payment → c.log.canGuaranteeMaxEntry = true
  recordable : ∀ s, c.session = some s → SessionRecordable s
  summarised : c.Summarised

variable {entry : NewEntry}

/-- The entry of a flow that completes can be written. -/
theorem Provided.admits (h : c.Provided p) (hown : c.VpOwned)
    (hroom : auditedFlowStartedBy e ≠ none → c.log.canGuaranteeMaxEntry = true)
    (hrecords : Records p c e entry) : c.log.Admits entry := by
  cases hrecords with
  | presentation hvp hs =>
    have hactive : c.active = .presentation := hown.active (by rw [hvp]; trivial)
    exact admits_of_canGuaranteeMaxEntry (h.room (.inl hactive)) (h.recordable _ hs c h.epoch)
  | payment hactive hpayment hsummary =>
    obtain ⟨summary, hknown, hrecordable⟩ := h.summarised hactive (by rw [hpayment]; trivial)
    obtain rfl := Option.some.inj (hknown.symm.trans hsummary)
    exact admits_of_canGuaranteeMaxEntry (h.room (.inr hactive)) (hrecordable c _ h.epoch)
  | issuance _ haudit => exact checkAppend_ok_iff.mp haudit
  | transfer =>
    exact admits_of_canGuaranteeMaxEntry (hroom (by simp [auditedFlowStartedBy])) (transferEntry_recordable h.epoch _)

theorem Writes.audited {g : ActiveFlow} (h : Writes p c e g c') (hprovided : c.Provided p)
    (hnonzero : ∀ b, p.sha256 b ≠ zeroHash) (hadmits : ∀ {entry}, Records p c e entry → c.log.Admits entry) :
    FlowAudited e c c' g := by
  cases h with
  | kept hledger hincomplete => exact .inr ⟨hincomplete, hledger⟩
  | unheld _ hvp hsession => exact absurd hsession (hprovided.selected.session (by rw [hvp]; trivial))
  | recorded hrecords happend hledger hcompletes hclosed =>
    rw [(hadmits hrecords).append hnonzero] at happend
    cases happend
    exact .inl ⟨hcompletes, ⟨_, congrArg (·.1.entries) hledger⟩, congrArg Prod.snd hledger,
      hclosed (hprovided.confined g)⟩
  | failed hrecords happend =>
    rw [(hadmits hrecords).append hnonzero] at happend
    cases happend

theorem paymentDelivered_audited (hprovided : c.Provided p) (hown : c.VpOwned)
    (hnonzero : ∀ b, p.sha256 b ≠ zeroHash) :
    FlowAudited .paymentAuthorizationDelivered c (c.paymentAuthorizationDelivered p).1 .payment := by
  by_cases hcompletes : c.active = .payment ∧ ∃ signature, c.payment = .authorized signature
  · obtain ⟨hactive, signature, hpayment⟩ := hcompletes
    left
    obtain ⟨summary, hsummary, -⟩ := hprovided.summarised hactive (by rw [hpayment]; trivial)
    have hadmits := hprovided.admits hown (by simp [auditedFlowStartedBy]) (.payment hactive hpayment hsummary)
    have hrecord : c.recordPayment p = c.appendAuditEntry p (c.paymentEntry summary c.payConsentHash) := by
      simp only [recordPayment, hsummary]
      rfl
    rw [appendAuditEntry_of_append (hadmits.append hnonzero)] at hrecord
    refine ⟨⟨rfl, hactive, signature, hpayment⟩, ?_⟩
    simp only [paymentAuthorizationDelivered, hactive, hpayment, hrecord]
    exact ⟨⟨_, rfl⟩, rfl, finishFlow_over rfl⟩
  · right
    refine ⟨fun h => hcompletes h.2, ?_⟩
    unfold paymentAuthorizationDelivered
    split
    · next hactive hpayment => exact absurd ⟨hactive, _, hpayment⟩ hcompletes
    · rfl

/-- A call writes an entry exactly when it completes a flow. -/
theorem EventOutcome.audited (hsteady : c.Steady) (hprovided : c.Provided p) (hnonzero : ∀ b, p.sha256 b ≠ zeroHash)
    (he : e ≠ .paymentAuthorizationDelivered) (h : EventOutcome p r c e out) : Audited e c out.1 := by
  have hnone {c' : Core} (hforeign : ∀ f ≠ .none, Foreign (c.Stray e) f c c') (hquiet : Quiet c c') : Audited e c c' :=
    audited_of_flow (g := .none) (fun f _ hn => hforeign f hn) (fun _ => he) (.inr ⟨id, hquiet⟩)
  have hown {c' : Core} {g : ActiveFlow} (footprint : Footprint g c c') (h : FlowAudited e c c' g) : Audited e c c' :=
    audited_of_flow (fun f hf hn => footprint.foreign hf hn) (fun _ => he) (h.imp_right fun h => ⟨h.1, .kept h.2⟩)
  cases h with
  | unavailable _ hlatch =>
    rw [hprovided.latch] at hlatch
    cases hlatch
  | full =>
    exact hnone (fun f hn => Conduct.auditLogCapacityEffects.foreign hn hn) (.kept ledger_terminateAuditedFlow)
  | dispatched hadmitted houtcome =>
    have hwrites {g : ActiveFlow} {c' : Core} (h : Writes p c e g c') : FlowAudited e c c' g :=
      h.audited hprovided hnonzero (hprovided.admits hsteady.vp fun hstarts => (hadmitted hstarts).2)
    cases houtcome with
    | presentation event =>
      refine audited_of_flow (fun f hf hn => event.foreign hsteady.vp hf hn) (fun _ => he) ?_
      exact (hwrites event.writes).imp_right fun h => ⟨h.1, .kept h.2⟩
    | payment event footprint => exact hown footprint (.inr ⟨fun h => he h.1, event.ledger he⟩)
    | issuance event footprint => exact hown footprint (hwrites event.writes)
    | transfer event footprint => exact hown footprint (hwrites event.writes)
    | qes event footprint | proximity event footprint | dcApi event footprint =>
      exact hown footprint (.inr ⟨id, event.ledger⟩)
    | clock => exact hnone (fun f _ => by cases f <;> exact .kept rfl .rfl rfl) (.kept rfl)
    | clockRefused | hybrid => exact hnone (fun f hn => (Conduct.refl c).foreign hn hn) (.kept rfl)
    | redacted => exact hnone (fun f _ => by cases f <;> exact .kept rfl .rfl rfl) (.redacted rfl)
    | wiped => exact hnone (fun f _ => by cases f <;> exact .kept rfl .rfl rfl) (.wiped rfl)
    | removed => exact hnone (fun f _ => by cases f <;> exact .kept rfl .rfl rfl) (.kept rfl)
    | ended => exact hnone (fun f hn => ended_foreign hn) (.kept ledger_resetFlow)

theorem Taken.audited (htaken : Taken p k) (hprovided : k.before.Provided p)
    (hnonzero : ∀ b, p.sha256 b ≠ zeroHash) : Audited k.input.1 k.before k.after := by
  by_cases he : k.input.1 = .paymentAuthorizationDelivered
  · have hresult := htaken.result
    rw [he] at hresult ⊢
    have hafter : (k.before.paymentAuthorizationDelivered p).1 = k.after := congrArg Prod.fst hresult
    rw [← hafter]
    refine audited_of_flow (fun f hf hn => paymentDelivered_event.conduct.foreign hf hn)
      (fun h => absurd rfl h) ?_
    exact (paymentDelivered_audited hprovided htaken.steady.vp hnonzero).imp_right fun h => ⟨h.1, .kept h.2⟩
  · exact htaken.outcome.audited htaken.steady hprovided hnonzero he

theorem Recordable.without_claims (h : entry.Recordable) (hkind : entry.kind ≠ .payment) :
    { entry with claimPaths := [] }.Recordable where
  epoch := h.epoch
  counterparty := h.counterparty
  count := Nat.zero_le _
  paths := by simp
  nodup := List.nodup_nil
  payment seq := by
    have hpayment := h.payment seq
    unfold validatePayment at hpayment ⊢
    dsimp only
    split at hpayment
    · next hpaid _ => exact absurd hpaid hkind
    · cases hpayment
    · cases hpayment
    · rfl
  bytes := by
    refine le_trans ?_ h.bytes
    simp only [fieldsBytes, List.map_nil, List.sum_nil]
    omega

theorem Captured.recordable {req : Oid4vp.AuthRequest} {s : SessionInfo} (h : Captured p c req s) :
    SessionRecordable s := by
  obtain ⟨c₀, s₀, hadmitted, -, -, hs⟩ := h.admitted
  have hcandidate : (c₀.presentationCandidate s₀).Recordable := (checkAppend_ok_iff.mp hadmitted.audit).recordable
  obtain ⟨prepared, -, hfrozen, -⟩ := hadmitted.selection
  have hentry {s : SessionInfo} (h : { c₀.presentationCandidate s₀ with
      counterparty := s.rpClientId, claimPaths := s.sharedClaims }.Recordable) : SessionRecordable s := by
    intro c hepoch
    exact ⟨hepoch, h.counterparty, h.count, h.paths, h.nodup, fun _ => rfl, h.bytes⟩
  rcases hs with rfl | rfl
  · -- A session that was captured anew and not shown names no claims.
    have hshared : s.sharedClaims = [] := by rw [hfrozen]; rfl
    refine hentry ?_
    rw [hshared]
    exact Recordable.without_claims hcandidate (by rintro ⟨⟩)
  · have hclaims : (sessionConsentScreen p s₀).requestedClaims = s₀.selectedRevealedClaims := by
      unfold sessionConsentScreen
      split <;> rfl
    refine hentry ?_
    rw [show (s₀.shown p (sessionConsentScreen p s₀)).sharedClaims = s₀.selectedRevealedClaims from hclaims]
    exact hcandidate

/-! ### Every call provides -/

theorem EventOutcome.room (hsteady : c.Steady) (h : EventOutcome p r c e out) {f : ActiveFlow}
    (hf : f = .presentation ∨ f = .payment) (hactive : out.1.active = f) :
    c.active = f ∨ c.log.canGuaranteeMaxEntry = true := by
  have hn : f ≠ .none := by rcases hf with rfl | rfl <;> rintro ⟨⟩
  have hseen := h.seenFrom hsteady f hn
  cases h with
  | unavailable =>
    rw [active_auditLogFaultEffects] at hactive
    exact absurd hactive.symm hn
  | full =>
    rw [active_auditLogCapacityEffects] at hactive
    exact absurd hactive.symm hn
  | dispatched hadmitted =>
    rcases hseen with hevent | ⟨hforeign, -⟩
    · rcases hf with rfl | rfl
      · cases (hevent : VpEvent p r c e out) with
        | noted => exact .inl hactive
        | aborted hpresentation => exact .inl hpresentation
        | stray => cases hactive
        | began => exact .inr (hadmitted (by rintro ⟨⟩)).2
        | drove _ hprogress => exact .inl (hsteady.vp.active hprogress)
        | declined hvp | delivered hvp => exact .inl (hsteady.vp.active (by rw [hvp]; trivial))
        | finished =>
          rw [active_finishFlow] at hactive
          split_ifs at hactive with hbefore
          exact .inl hactive
      · cases (hevent : PaymentEvent p c e out) with
        | unchanged => exact .inl (notePayment_active.symm.trans hactive)
        | ignored | approved => exact .inl hactive
        | refused | rejected | asked => exact .inr (hadmitted (by rintro ⟨⟩)).2
        | declined => exact absurd hactive (active_resetFlow_ne c hn)
        | authorized hbefore | delivered hbefore | unrecorded hbefore => exact .inl hbefore
    · exact .inl (hforeign.active hactive hn).1

theorem notePayment_paySummary : c.notePayment.paySummary = c.paySummary := by
  unfold notePayment
  split
  · rfl
  · split <;> rfl
  · rfl

theorem PaymentEvent.summarised (h : PaymentEvent p c e out) (hsummarised : c.Summarised) : out.1.Summarised := by
  intro hactive hpending
  cases h with
  | unchanged =>
    rw [notePayment_active] at hactive
    rw [notePayment_payment] at hpending
    rw [notePayment_paySummary]
    exact hsummarised hactive hpending
  | ignored => exact hsummarised hactive hpending
  | refused | declined | rejected => exact hpending.elim
  | @asked b req _ _ haudit =>
    have hentry := (checkAppend_ok_iff.mp haudit).recordable
    exact ⟨paymentSummary req, rfl, fun c hash hepoch => ⟨hepoch, hentry.counterparty, hentry.count, hentry.paths,
      hentry.nodup, hentry.payment, hentry.bytes⟩⟩
  | approved hpayment => exact hsummarised hactive (by rw [hpayment]; trivial)
  | @authorized pending signature hbefore hpayment =>
    rw [notePayment_paySummary]
    exact hsummarised hbefore (by rw [hpayment]; trivial)
  | @delivered c' signature hbefore _ hrecorded =>
    obtain ⟨log, latch, rfl⟩ := recordPayment_eq hrecorded
    cases hactive.symm.trans (finishFlow_over hbefore)
  | unrecorded =>
    rw [active_auditLogFaultEffects] at hactive
    cases hactive

theorem EventOutcome.summarised (hsteady : c.Steady) (h : EventOutcome p r c e out) (hsummarised : c.Summarised) :
    out.1.Summarised := by
  rcases h.seenFrom hsteady .payment nofun with hevent | ⟨hforeign, -⟩
  · exact PaymentEvent.summarised hevent hsummarised
  · intro hactive hpending
    obtain ⟨hbefore, data⟩ := hforeign.active hactive nofun
    replace data := FlowData.payment.inj data
    rw [data.1] at hpending
    rw [data.2.2.1]
    exact hsummarised hbefore hpending

/-- Every call but a stray status list leaves a core that is provided for. -/
theorem Taken.provided (htaken : Taken p k) (hprovided : k.before.Provided p)
    (hnonzero : ∀ b, p.sha256 b ≠ zeroHash) (hstray : ¬ k.before.Stray k.input.1) : k.after.Provided p where
  latch := by
    rcases htaken.audited hprovided hnonzero with ⟨-, hgrows⟩ | ⟨-, hquiet⟩
    · exact hgrows.latch.trans hprovided.latch
    · exact hquiet.available hprovided.latch
  epoch := by
    rcases htaken.outcome.environment htaken.steady with henvironment | ⟨epoch, -, hforward, hafter⟩
    · have hepoch : k.after.nowEpoch = k.before.nowEpoch := congrArg (·.nowEpoch) henvironment
      rw [hepoch]
      exact hprovided.epoch
    · have hepoch : k.after.nowEpoch = epoch := congrArg (·.1.nowEpoch) hafter
      rw [hepoch]
      exact hprovided.epoch.trans hforward
  confined := htaken.outcome.confined htaken.steady hprovided.confined hstray
  selected := htaken.outcome.selected htaken.steady hprovided.selected
  room := by
    have hroom {f : ActiveFlow} (hf : f = .presentation ∨ f = .payment) (hactive : k.after.active = f) :
        k.after.log.canGuaranteeMaxEntry = true := by
      have hbefore : k.before.log.canGuaranteeMaxEntry = true := by
        rcases htaken.outcome.room htaken.steady hf hactive with hactive | hroom
        · exact hprovided.room (hf.imp hactive.trans hactive.trans)
        · exact hroom
      rcases htaken.audited hprovided hnonzero with ⟨-, hgrows⟩ | ⟨-, hquiet⟩
      · -- The flow that was recorded is over.
        have hnone := hactive.symm.trans hgrows.closed
        rcases hf with rfl | rfl <;> cases hnone
      · exact hquiet.room hbefore
    rintro (hactive | hactive)
    · exact hroom (.inl rfl) hactive
    · exact hroom (.inr rfl) hactive
  recordable s hsession := by
    rcases htaken.outcome.session htaken.steady hsession with hbefore | ⟨req, hcaptured, -⟩
    · exact hprovided.recordable s hbefore
    · exact hcaptured.recordable
  summarised := htaken.outcome.summarised htaken.steady hprovided.summarised

theorem Provisioned.provided (h : Provisioned p c) : c.Provided p := by
  have hactive := h.active
  have hsession : c.session = none := by
    have hdata := FlowData.presentation.inj (h.flowData .presentation)
    exact hdata.2.1
  have hlatch : c.auditLogAvailable = true := by
    obtain ⟨i, k, n, hc⟩ := h.eq_suppliedFrom
    rw [hc]
    rfl
  refine ⟨hlatch, h.supplied.2, h.confined, h.selected, ?_, by simp [hsession], ?_⟩
  · rw [hactive]
    rintro (⟨⟨⟩⟩ | ⟨⟨⟩⟩)
  · intro hpayment
    cases hactive.symm.trans hpayment

/-- **The audit log is complete** in every run without a stray status list: it stays available, a call that
completes a flow adds one entry and no other call adds any. -/
theorem run_auditComplete (hfresh : Provisioned p c) (hnonzero : ∀ b, p.sha256 b ≠ zeroHash)
    (inputs : List (Event × Entropy)) (hstray : Always (fun _ k => ¬ k.before.Stray k.input.1) (run p c inputs)) :
    Always (fun _ k => AuditComplete k) (run p c inputs) := by
  refine run_always (fun _ c => c.Provided p) (fun _ k => ¬ k.before.Stray k.input.1) hfresh hfresh.provided
    (fun _ _ htaken hprovided hstray => htaken.provided hprovided hnonzero hstray) ?_ inputs hstray
  intro _ k htaken hprovided hstray
  refine ⟨(htaken.provided hprovided hnonzero hstray).latch, ?_, ?_⟩
  · intro hcompletes
    rcases htaken.audited hprovided hnonzero with ⟨-, hgrows⟩ | ⟨hnot, -⟩
    · exact hgrows.entry
    · exact absurd hcompletes hnot
  · intro hincomplete
    rcases htaken.audited hprovided hnonzero with ⟨hcompletes, -⟩ | ⟨-, hquiet⟩
    · exact absurd hcompletes hincomplete
    · exact hquiet.length_le

end

/-! ### A log with one place left

Each transfer leaves an entry. After 4095 of them one place is left, and two flows are made to share it. -/

theorem walletTransferReceived_accepted {p : Platform} {c : Core} {credential : Bytes} {chain : List Bytes}
    {key signature hash : Bytes} {nonce : ℕ} {log : TransactionLog} (hactive : c.active = .walletTransfer)
    (hw2w : c.w2w = .awaitingTransfer) (hvalid : c.receivedCredentialIssuerValid p credential chain = true)
    (hbound : c.transferIsPeerBound p credential key signature hash nonce = true)
    (happend : c.log.append p (c.transferEntry (p.sha256 credential)) = .ok log) :
    c.walletTransferReceived p credential chain key signature hash nonce =
      ({ c with w2w := .accepted credential, log, w2wCredential := some credential }.finishFlow .walletTransfer,
        [.close]) := by
  have hmine : ¬ (c.active ≠ .none ∧ c.active ≠ .walletTransfer) := fun h => h.2 hactive
  have hbusy : c.active ≠ .none := by rw [hactive]; rintro ⟨⟩
  have hself : { c with active := .walletTransfer } = c := by rw [← hactive]
  have hdrive : c.driveW2w p (.transferReceived true true credential) =
      ({ c with w2w := .accepted credential, log, w2wCredential := some credential }.finishFlow .walletTransfer,
        [.close]) := by
    have hstep : W2w.step c.w2w (.transferReceived true true credential) =
        (.accepted credential, [.storeCredential credential, .close]) := by rw [hw2w]; rfl
    have happended : (c.withW2w (.accepted credential)).appendAuditEntry p (c.transferEntry (p.sha256 credential)) =
        ({ c.withW2w (.accepted credential) with log }, .ok ()) := appendAuditEntry_of_append happend
    rw [driveW2w_accepted hstep, happended]
    rfl
  simp [walletTransferReceived, if_neg hmine, if_neg hbusy, hvalid, hbound, hself, hdrive]

theorem handleEvent_of_room {p : Platform} {r : Entropy} {c : Core} {e : Event} (hlatch : c.auditLogAvailable = true)
    (hroom : c.log.canGuaranteeMaxEntry = true) : c.handleEvent p r e = c.dispatch p r e := by
  unfold handleEvent
  split
  · simp [hlatch, hroom]
  · rfl

end Core

namespace Overfull

def coordinate : Json := .str "AAAAAAAAAAAAAAAAAAAAAAAAAAAAAAAAAAAAAAAAAAA"

/-- A mobile licence that is bound to the key of the device. -/
def licence : Json := .obj [("age_over_18", .bool true), ("cnf", .obj [("jwk", .obj [("crv", .str "P-256"),
    ("kty", .str "EC"), ("x", coordinate), ("y", coordinate)])]), ("driving_privileges", .str "B"),
  ("family_name", .str "x"), ("given_name", .str "y"), ("iss", .str "https://issuer.example"),
  ("issuing_country", .str "SE"), ("vct", .str "urn:eudi:mdl:1")]

/-- The attestation of the device key. -/
def attestation : Json := .obj [("exp", .num (.posInt 100)), ("aal", .str "high"),
  ("cnf", .obj [("jwk_raw", .str "BAAAAAAAAAAAAAAAAAAAAAAAAAAAAAAAAAAAAAAAAAAAAAAAAAAAAAAAAAAAAAAAAAAAAAAAAAAAAAAAAAAAAAA")])]

def offer : Json := .obj [("format", .str "dc+sd-jwt"), ("grant", .str "pre-authorized")]

def platform : Platform := { Expiring.platform with
  parseJson := fun b => [([1], Transferred.header), ([2], Expiring.trustList), ([3], licence), ([4], attestation),
    ([5], offer), ([6], Confirmed.paymentRequest)].lookup b }

def credential : Bytes := utf8 "AQ.Aw.AQ~"

def attested : Core := { Expiring.trusting with wua := some ⟨Expiring.deviceKey, .high, 100⟩ }

theorem attested_provisioned : Core.Provisioned platform attested := by
  have htrusting : Core.Provisioned platform Expiring.trusting :=
    Expiring.trusting_provisioned_of (by decide)
  have hloaded : Expiring.trusting.loadWua platform (utf8 "AQ.BA.AQ") [] = .ok attested := by
    rfl
  exact .wua htrusting hloaded

/-- The wallet makes an offer and receives the licence. -/
def transfer : List (Event × Entropy) := [(.walletTransferOfferCreated, []),
  (.walletTransferReceived credential [[4]] [5] [6] (List.replicate 32 7) 8, [])]

/-- An issuance waits for its credential when a status list takes the marker away. A payment reserves its
entry, and the credential comes before the payment is delivered. -/
def strayed : List (Event × Entropy) := [(.credentialOfferReceived [5] [[4]] "https://issuer.example", []),
  (.credentialOfferAccepted, []), (.tokenReceived true 1, []), (.deviceSignatureProduced [7], []),
  (.statusListReceived "" 0 [] [], []), (.paymentAuthorizationRequestReceived [6], []),
  (.credentialReceived "dc+sd-jwt" credential, []), (.paymentApproved, []), (.deviceSignatureProduced [8], []),
  (.paymentAuthorizationDelivered, [])]

/-- The wallet between two transfers. -/
def resting (w2w : W2w.State) (w2wCredential : Option Bytes) (log : TransactionLog) : Core :=
  { attested with w2w, w2wCredential, log }

def hash : Hash32 := oneHash

def entry (i : ℕ) : Entry :=
  ⟨attested.transferEntry hash, i, if i = 0 then zeroHash else hash, hash, false⟩

def filled (n : ℕ) : TransactionLog :=
  ⟨(List.range n).map entry, n * fieldsBytes "peer-wallet" [] none⟩

theorem nonzero (b : Bytes) : platform.sha256 b ≠ zeroHash := by
  have : hash ≠ zeroHash := by decide
  exact this

variable {n : ℕ}

theorem filled_room (h : n < 4096) : (filled n).canGuaranteeMaxEntry = true := by
  have hbytes : fieldsBytes "peer-wallet" [] none = 143 := by decide
  simp only [TransactionLog.canGuaranteeMaxEntry, filled, List.length_map, List.length_range, hbytes,
    maxEntries, maxAggregateBytes, maxEntryBytes, Bool.and_eq_true, decide_eq_true_eq]
  omega

theorem filled_head (n : ℕ) : (filled n).head = if n = 0 then zeroHash else hash := by
  cases n with
  | zero => rfl
  | succ n => simp [TransactionLog.head, filled, List.range_succ, entry]

theorem filled_append (h : n < 4096) :
    (filled n).append platform (attested.transferEntry hash) = .ok (filled (n + 1)) := by
  have hadmits : (filled n).Admits (attested.transferEntry hash) :=
    admits_of_canGuaranteeMaxEntry (filled_room h) (Core.transferEntry_recordable (by decide) _)
  rw [hadmits.append nonzero, filled_head]
  simp only [filled, List.length_map, List.length_range, List.range_succ, List.map_append, List.map_cons, List.map_nil,
    Nat.succ_mul]
  rfl

/-- The wallet that waits for a transfer. -/
def waiting (w2wCredential : Option Bytes) (log : TransactionLog) : Core :=
  { resting .awaitingTransfer w2wCredential log with active := .walletTransfer }

theorem offered (w2w : W2w.State) (w2wCredential : Option Bytes) (h : n < 4096) :
    (resting w2w w2wCredential (filled n)).handleEvent platform [] .walletTransferOfferCreated =
      (waiting w2wCredential (filled n), [.publishTransferOffer Expiring.deviceKey]) := by
  have hepoch : 0 ≤ attested.nowEpoch := by decide
  have hcheck : (resting w2w w2wCredential (filled n)).checkAuditEntry
      ((resting w2w w2wCredential (filled n)).transferEntry zeroHash) = .ok () :=
    checkAppend_ok_iff.mpr (admits_of_canGuaranteeMaxEntry (filled_room h) (Core.transferEntry_recordable hepoch _))
  rw [Core.handleEvent_of_room rfl (filled_room h)]
  simp only [Core.dispatch, Core.walletTransferOfferCreated, hcheck]
  rfl

theorem accepted (w2wCredential : Option Bytes) (h : n < 4096) :
    (waiting w2wCredential (filled n)).handleEvent platform []
        (.walletTransferReceived credential [[4]] [5] [6] (List.replicate 32 7) 8) =
      (resting (.accepted credential) (some credential) (filled (n + 1)), [.close]) := by
  have hvalid : attested.receivedCredentialIssuerValid platform credential [[4]] = true := by decide
  have hvalid' : (waiting w2wCredential (filled n)).receivedCredentialIssuerValid platform credential [[4]] = true :=
    hvalid
  have happend : (waiting w2wCredential (filled n)).log.append platform
      ((waiting w2wCredential (filled n)).transferEntry (platform.sha256 credential)) = .ok (filled (n + 1)) :=
    filled_append h
  rw [Core.handleEvent_of_room rfl (filled_room h)]
  exact Core.walletTransferReceived_accepted rfl rfl hvalid' rfl happend

theorem transfers_rest (n : ℕ) (h : n < 4096) :
    (collect (Core.respond platform) attested (List.replicate (n + 1) transfer).flatten).1 =
      resting (.accepted credential) (some credential) (filled (n + 1)) := by
  have honce (w2w : W2w.State) (w2wCredential : Option Bytes) {n : ℕ} (h : n < 4096) :
      (collect (Core.respond platform) (resting w2w w2wCredential (filled n)) transfer).1 =
        resting (.accepted credential) (some credential) (filled (n + 1)) := by
    simp only [transfer, collect_cons, collect_nil, Core.respond, offered w2w w2wCredential h, accepted w2wCredential h]
  induction n with
  | zero => exact honce .idle none h
  | succ n ih =>
    rw [List.replicate_succ', List.flatten_append, List.flatten_singleton, collect_append, ih (by omega)]
    exact honce _ _ h

/-- The payment that was reserved finds the log full. -/
theorem strayed_latched : (Core.run platform (resting (.accepted credential) (some credential) (filled 4095))
    strayed).any (fun k => !k.after.auditLogAvailable) = true := by
  decide +kernel

end Overfull

open Wallet.Core Overfull in
/-- A transfer is recorded. -/
theorem run_auditComplete_transfer : ∃ k : Turn, (run platform attested transfer).getLast? = some k ∧ Completes k ∧
    ∃ entry, k.after.log.entries = k.before.log.entries ++ [entry] := by
  have hawaiting : ((run platform attested transfer).getLast (by rintro ⟨⟩)).before.w2w = .awaitingTransfer := by
    decide
  have haccepted : ((run platform attested transfer).getLast (by rintro ⟨⟩)).after.w2w = .accepted credential := by
    decide
  have hcompletes : Completes ((run platform attested transfer).getLast (by rintro ⟨⟩)) :=
    ⟨.walletTransfer, hawaiting, credential, haccepted⟩
  refine ⟨_, rfl, hcompletes, ?_⟩
  refine (run_auditComplete attested_provisioned nonzero transfer ?_ [_] _ [] rfl).recorded hcompletes
  intro pre k post hrun
  have hk : k ∈ run platform attested transfer := by
    rw [hrun]
    simp
  simp only [run, transfer, calls, List.mem_cons, List.not_mem_nil, or_false] at hk
  rcases hk with rfl | rfl <;> exact id

open Wallet.Core Overfull in
/-- A status list that is not awaited orphans an issuance, whose entry takes the place that a payment had
reserved: the delivered payment is not recorded and the log is no longer available. -/
theorem run_strayed_unavailable : ¬ Always (fun _ k => AuditComplete k)
    (run platform attested ((List.replicate 4095 transfer).flatten ++ strayed)) := by
  intro halways
  rw [run, calls_append, transfers_rest 4094 (by omega)] at halways
  obtain ⟨k, hk, hlatched⟩ := List.any_eq_true.mp strayed_latched
  obtain ⟨pre, post, hrun⟩ := List.append_of_mem hk
  have havailable := (halways.of_append pre k post hrun).available
  rw [havailable] at hlatched
  cases hlatched

end EuWallet.Wallet
