import EuWallet.TxnLog.Restore
import EuWallet.Wallet.Ownership

/-! # What a call writes to the audit log

`Records` lists the four moments at which an entry is written, with the entry; `LogChange` everything a
call can do to the log and to its latch. A call that records nothing keeps both, unless it wipes the
log or redacts an entry. `Writes` says what a call of one flow does: it writes when the flow completes. -/

namespace EuWallet.Protocol

def Payment.State.InProgress : Payment.State → Prop
  | .awaitingConfirmation _ | .awaitingSca _ => True
  | _ => False

def Qes.State.InProgress : Qes.State → Prop
  | .awaitingAuthorization _ | .awaitingSca _ => True
  | _ => False

def Iso18013.State.InProgress : Iso18013.State → Prop
  | .engaged _ | .sessionEstablished _ | .signingResponse _ | .responded => True
  | _ => False

end EuWallet.Protocol

namespace EuWallet.Wallet

open Codec Crypto Formats Lib Presenter Protocol
open Trust

/-- The machine of a flow is neither idle nor at its end. -/
def FlowData.InProgress : FlowData → Prop
  | .none => False
  | .presentation vp _ _ _ => vp.InProgress
  | .payment state _ _ _ => state.InProgress
  | .issuance state _ _ _ _ _ _ => state.InProgress
  | .qes state _ => state.InProgress
  | .walletTransfer state => state = .awaitingTransfer
  | .proximity flow => flow.state.InProgress
  | .dcApi flow => flow.presentation ≠ Option.none

namespace Core

def ledger (c : Core) : TxnLog.TransactionLog × Bool := (c.log, c.auditLogAvailable)

def presentationEntry (c : Core) (s : SessionInfo) : TxnLog.NewEntry where
  epoch := c.nowEpoch
  kind := .presentation
  counterparty := s.rpClientId
  consentHash := s.consentHash
  claimPaths := s.sharedClaims
  outcome := .completed
  payment := none

/-- The entries an event asks for. -/
inductive Records (p : Platform) (c : Core) : Event → TxnLog.NewEntry → Prop
  | presentation {s} (vp : c.vp = .presenting) (session : c.session = some s) :
      Records p c .presentationDelivered (c.presentationEntry s)
  | payment {signature summary} (active : c.active = .payment)
      (payment : c.payment = .authorized signature) (summarised : c.paySummary = some summary) :
      Records p c .paymentAuthorizationDelivered (c.paymentEntry summary c.payConsentHash)
  | issuance {name credential format} (issuance : c.issuance = .requestingCredential format)
      (audit : c.log.checkAppend (c.issuanceEntry (formatName format)) = .ok ()) :
      Records p c (.credentialReceived name credential) (c.issuanceEntry (formatName format))
  | transfer {credential chain key signature hash nonce} (active : c.active = .walletTransfer)
      (w2w : c.w2w = .awaitingTransfer) :
      Records p c (.walletTransferReceived credential chain key signature hash nonce)
        (c.transferEntry (p.sha256 credential))

/-- Everything a call can do to the audit log and its latch. -/
inductive LogChange (p : Platform) (c : Core) (e : Event) (c' : Core) : Prop
  | kept (ledger : c'.ledger = c.ledger)
  | wiped (event : e = .wipeTransactionLog) (ledger : c'.ledger = ({}, true))
  | redacted {seq} (event : e = .redactTransaction seq)
      (ledger : c'.ledger = ((c.log.redact seq).1, c.auditLogAvailable))
  | recorded {entry log} (records : Records p c e entry) (append : c.log.append p entry = .ok log)
      (ledger : c'.ledger = (log, c.auditLogAvailable))
  | failed {entry error} (records : Records p c e entry)
      (append : c.log.append p entry = .error error) (ledger : c'.ledger = (c.log, false))

/-- The moment at which the entry of a flow is due. -/
def CompletesFlow (e : Event) (c c' : Core) : ActiveFlow → Prop
  | .presentation => c.vp ≠ .done ∧ c'.vp = .done
  | .payment => e = .paymentAuthorizationDelivered ∧ c.active = .payment ∧
      ∃ signature, c.payment = .authorized signature
  | .issuance => ∃ format credential, c.issuance = .requestingCredential format ∧
      c'.issuance = .credentialIssued format credential
  | .walletTransfer => c.w2w = .awaitingTransfer ∧ ∃ credential, c'.w2w = .accepted credential
  | .none | .qes | .proximity | .dcApi => False

/-- What a call of the flow `g` does to the log. -/
inductive Writes (p : Platform) (c : Core) (e : Event) (g : ActiveFlow) (c' : Core) : Prop
  | kept (ledger : c'.ledger = c.ledger) (incomplete : ¬ CompletesFlow e c c' g)
  /-- A presentation is delivered of which no session is known. -/
  | unheld (ledger : c'.ledger = c.ledger) (vp : c.vp = .presenting) (session : c.session = none)
  | recorded {entry log} (records : Records p c e entry) (append : c.log.append p entry = .ok log)
      (ledger : c'.ledger = (log, c.auditLogAvailable)) (completes : CompletesFlow e c c' g)
      (closed : ((c.flowData g).InProgress → c.active = g) → c'.active = .none)
  | failed {entry error} (records : Records p c e entry)
      (append : c.log.append p entry = .error error) (ledger : c'.ledger = (c.log, false))

variable {p : Platform} {e : Event}

theorem Writes.logChange {c c' : Core} {g : ActiveFlow} (h : Writes p c e g c') : LogChange p c e c' := by
  cases h with
  | kept hledger | unheld hledger => exact .kept hledger
  | recorded hrecords happend hledger => exact .recorded hrecords happend hledger
  | failed hrecords happend hledger => exact .failed hrecords happend hledger

theorem LogChange.of_ledger {c c₁ c' : Core} (h : LogChange p c e c₁) (hledger : c'.ledger = c₁.ledger)
    : LogChange p c e c' := by
  cases h with
  | kept ledger => exact .kept (hledger.trans ledger)
  | wiped event ledger => exact .wiped event (hledger.trans ledger)
  | redacted event ledger => exact .redacted event (hledger.trans ledger)
  | recorded records append ledger => exact .recorded records append (hledger.trans ledger)
  | failed records append ledger => exact .failed records append (hledger.trans ledger)

theorem LogChange.appended {c c' : Core} {entry : TxnLog.Entry} (h : LogChange p c e c')
    (hgrown : c'.log.entries = c.log.entries ++ [entry]) : ∃ new, Records p c e new ∧
      entry.toNewEntry = { new with claimPaths := new.claimPaths.insertionSort (· ≤ ·) } := by
  have hsame (hlength : c'.log.entries.length = c.log.entries.length) : False := by
    rw [hgrown] at hlength
    simp at hlength
  have hlog {log latch} (hledger : c'.ledger = (log, latch)) : c'.log = log := congrArg Prod.fst hledger
  cases h with
  | kept hledger | failed _ _ hledger => exact (hsame (by rw [hlog hledger])).elim
  | wiped _ hledger =>
    rw [hlog hledger] at hgrown
    simp at hgrown
  | redacted _ hledger => exact (hsame (by rw [hlog hledger, TxnLog.length_redact])).elim
  | @recorded new log hrecords happend hledger =>
    obtain ⟨added, hadded, hcontent⟩ := TxnLog.append_entries happend
    rw [hlog hledger, hadded] at hgrown
    obtain rfl : added = entry := by simpa using hgrown
    exact ⟨new, hrecords, hcontent⟩

/-! ### The life of a flow leaves the ledger alone -/

variable {c c' : Core} {g : ActiveFlow} {entry : TxnLog.NewEntry}

@[simp] theorem ledger_resetFlow : (c.resetFlow g).ledger = c.ledger := by cases g <;> rfl

@[simp] theorem ledger_finishFlow : (c.finishFlow g).ledger = c.ledger := by cases g <;> rfl

@[simp] theorem ledger_markActive : (c.markActive g).ledger = c.ledger := rfl

@[simp] theorem ledger_beginFlow : (c.beginFlow g).ledger = c.ledger := by
  unfold beginFlow
  split <;> simp

@[simp] theorem ledger_terminateAuditedFlow {code message : String} :
    (c.terminateAuditedFlow g code message).1.ledger = c.ledger := by
  unfold terminateAuditedFlow
  split <;> simp

theorem finishFlow_over (h : c.active = g) : (c.finishFlow g).active = .none := by
  rw [active_finishFlow, if_pos h]

theorem ledger_auditLogFaultEffects : (c.auditLogFaultEffects g).1.ledger = (c.log, false) :=
  ledger_terminateAuditedFlow

theorem appendAuditEntry_of_append {log : TxnLog.TransactionLog} (h : c.log.append p entry = .ok log) :
    c.appendAuditEntry p entry = ({ c with log := log }, .ok ()) := by
  simp [appendAuditEntry, h]

theorem appendAuditEntry_ok (h : c.appendAuditEntry p entry = (c', .ok ())) :
    c.log.append p entry = .ok c'.log ∧ c'.ledger = (c'.log, c.auditLogAvailable) := by
  unfold appendAuditEntry at h
  split at h
  · next log hlog =>
    cases h
    exact ⟨hlog, rfl⟩
  · cases h

theorem appendAuditEntry_error {error : TxnLog.LogError} (h : c.appendAuditEntry p entry = (c', .error error)) :
    c.log.append p entry = .error error ∧ (c'.auditLogFaultEffects g).1.ledger = (c.log, false) := by
  unfold appendAuditEntry at h
  split at h
  · cases h
  · next hlog =>
    cases h
    exact ⟨hlog, ledger_auditLogFaultEffects⟩

/-! ### The flows -/

variable {r : Entropy} {out : Core × List Effect}

theorem recordPresentation_cases {result : Except TxnLog.LogError Unit}
    (h : (c.withVp .done).recordPresentation p = (c', result)) :
    (c.session = none ∧ (c.withVp .done, .ok ()) = (c', result)) ∨ ∃ s, c.session = some s ∧
      (c.withVp .done).appendAuditEntry p (c.presentationEntry s) = (c', result) := by
  unfold recordPresentation at h
  split at h
  · next hs => exact .inl ⟨hs, h⟩
  · next s hs => exact .inr ⟨s, hs, h⟩

/-- The driver of presentations writes on delivery only. -/
theorem DriveOutcome.ledger {input : Oid4vp.Input} (h : DriveOutcome p r c input out) : out.1.ledger = c.ledger ∨
    input = .presentationDelivered ∧ (out.1.vp = .done ∨ ∃ s error, c.vp = .presenting ∧ c.session = some s ∧
      c.log.append p (c.presentationEntry s) = .error error ∧ out.1.ledger = (c.log, false)) := by
  cases h with
  | delivered _ hrecorded =>
    obtain ⟨log, latch, rfl⟩ := recordPresentation_eq hrecorded
    exact .inr ⟨rfl, .inl rfl⟩
  | unrecorded hvp hfailed =>
    rcases recordPresentation_cases hfailed with ⟨-, h⟩ | ⟨s, hs, h⟩
    · cases h
    · obtain ⟨happend, hledger⟩ := appendAuditEntry_error h
      exact .inr ⟨rfl, .inr ⟨s, _, hvp, hs, happend, hledger⟩⟩
  | rejected => exact .inl ledger_terminateAuditedFlow
  | untrusted =>
    left
    split <;> rfl
  | unchanged | readmitted | aborted | abortedAtConsent | received | malformed | validated | unbuildable
  | consented | declined | emptyQueue | signed | sent => exact .inl rfl

theorem VpEvent.writes (h : VpEvent p r c e out) : Writes p c e .presentation out.1 := by
  cases h with
  | noted => exact .kept rfl fun h => h.1 h.2
  | aborted | stray => exact .kept rfl fun h => (nomatch h.2)
  | began houtcome =>
    rcases houtcome.ledger with hledger | ⟨hinput, -⟩
    · exact .kept (hledger.trans ledger_beginFlow) fun h =>
        houtcome.not_done (by rintro ⟨⟩) (by rintro ⟨⟩) h.2
    · cases hinput
  | drove hdrives hprogress _ houtcome hundelivered =>
    have hnot := houtcome.not_done hprogress.ne_done hundelivered
    rcases houtcome.ledger with hledger | ⟨rfl, hdone | ⟨s, error, hvp, hs, happend, hledger⟩⟩
    · exact .kept hledger fun h => hnot h.2
    · exact absurd hdone hnot
    · cases hdrives
      exact .failed (.presentation hvp hs) happend hledger
  | declined => exact .kept ledger_resetFlow fun h => (nomatch h.2)
  | delivered hvp hrecorded =>
    rcases recordPresentation_cases hrecorded with ⟨hs, h⟩ | ⟨s, hs, h⟩
    · cases h
      exact .unheld ledger_finishFlow hvp hs
    · obtain ⟨happend, hledger⟩ := appendAuditEntry_ok h
      obtain ⟨log, latch, rfl⟩ := appendAuditEntry_eq h
      have hprogress : c.vp.InProgress := by rw [hvp]; trivial
      exact .recorded (.presentation hvp hs) happend (ledger_finishFlow.trans hledger)
        ⟨by rw [hvp]; rintro ⟨⟩, rfl⟩ fun hown => finishFlow_over (hown hprogress)
  | finished hvp => exact .kept ledger_finishFlow fun h => h.1 hvp

theorem ledger_notePayment : c.notePayment.ledger = c.ledger := by
  unfold notePayment
  repeat' split
  all_goals rfl

theorem PaymentEvent.logChange (h : PaymentEvent p c e out) : LogChange p c e out.1 := by
  cases h with
  | unchanged | authorized => exact .kept ledger_notePayment
  | ignored | approved => exact .kept rfl
  | refused => exact .kept (ledger_resetFlow.trans ledger_beginFlow)
  | rejected => exact .kept (ledger_terminateAuditedFlow.trans ledger_beginFlow)
  | asked => exact .kept (ledger_beginFlow (c := c))
  | declined => exact .kept ledger_resetFlow
  | delivered hactive hpayment hrecorded =>
    refine LogChange.of_ledger ?_ ledger_finishFlow
    unfold recordPayment at hrecorded
    split at hrecorded
    · cases hrecorded
      exact .kept rfl
    · next summary hsummary =>
      obtain ⟨happend, hledger⟩ := appendAuditEntry_ok hrecorded
      exact .recorded (.payment hactive hpayment hsummary) happend hledger
  | unrecorded hactive hpayment hfailed =>
    unfold recordPayment at hfailed
    split at hfailed
    · cases hfailed
    · next summary hsummary =>
      obtain ⟨happend, hledger⟩ := appendAuditEntry_error hfailed
      exact .failed (.payment hactive hpayment hsummary) happend hledger

theorem QesEvent.ledger (h : QesEvent p c e out) : out.1.ledger = c.ledger := by
  cases h with
  | unchanged =>
    unfold noteQes
    split <;> rfl
  | ignored | approved | signed => rfl
  | refused => exact ledger_resetFlow.trans ledger_beginFlow
  | asked => exact ledger_beginFlow (c := c)
  | declined => exact ledger_resetFlow
  | delivered => exact ledger_finishFlow

theorem ProximityEvent.ledger (h : ProximityEvent p r c e out) : out.1.ledger = c.ledger := by
  cases h with
  | engaged => exact ledger_beginFlow (c := c)
  | refused | declined => exact ledger_resetFlow
  | unavailable | noted | established | consented | responded | terminated => rfl

theorem DcApiEvent.ledger (h : DcApiEvent p c e out) : out.1.ledger = c.ledger := by
  cases h with
  | unanswered => exact ledger_resetFlow.trans ledger_beginFlow
  | asked => exact ledger_beginFlow (c := c)
  | consented => rfl
  | unprepared | declined => exact ledger_resetFlow
  | responded | ended => exact ledger_finishFlow

theorem TransferEvent.writes (h : TransferEvent p c e out) : Writes p c e .walletTransfer out.1 := by
  cases h with
  | busy =>
    refine .kept rfl ?_
    rintro ⟨hwaiting, credential, haccepted⟩
    cases hwaiting.symm.trans haccepted
  | rejected => exact .kept ledger_terminateAuditedFlow fun h => (nomatch h.2)
  | offered => exact .kept (ledger_beginFlow (c := c)) fun h => (nomatch h.2)
  | refused =>
    have hreceiving : c.receiving.ledger = c.ledger := by
      unfold receiving
      split <;> simp
    exact .kept (ledger_finishFlow.trans hreceiving) fun h => (nomatch h.2)
  | @accepted credential _ _ _ _ _ _ hactive hw2w _ _ hrecorded =>
    obtain ⟨happend, hledger⟩ := appendAuditEntry_ok hrecorded
    obtain ⟨log, latch, rfl⟩ := appendAuditEntry_eq hrecorded
    exact .recorded (.transfer hactive hw2w) happend (ledger_finishFlow.trans hledger) ⟨hw2w, credential, rfl⟩
      fun _ => finishFlow_over hactive
  | unrecorded hactive hw2w hfailed =>
    obtain ⟨happend, hledger⟩ := appendAuditEntry_error hfailed
    exact .failed (.transfer hactive hw2w) happend hledger

theorem recordIssuance_issued (issuance : Oid4vci.State) (name : String) :
    ((c.judged p).withIssuance issuance).takeVerified.log = c.log ∧
      ((c.judged p).withIssuance issuance).takeVerified.auditLogAvailable = c.auditLogAvailable ∧
      ((c.judged p).withIssuance issuance).takeVerified.issuanceEntry name = c.issuanceEntry name := by
  simp [takeVerified, withIssuance, judged, issuanceEntry]

theorem finishFlow_judged : ((c.judged p).finishFlow .issuance).issuance = c.issuance := by
  have hfinished (c : Core) : (c.finishFlow .issuance).issuance = c.issuance := rfl
  rw [hfinished]
  simp [judged]

theorem auditLogCandidateRejectionEffects_issuance :
    (c.auditLogCandidateRejectionEffects .issuance).1.issuance = .idle := by
  unfold auditLogCandidateRejectionEffects terminateAuditedFlow
  split <;> rfl

/-- The issuance driver writes when a credential is issued, and its entry has just been checked. -/
theorem IssuanceOutcome.ledger {input : Oid4vci.Input} (h : IssuanceOutcome p c input out) :
    (out.1.ledger = c.ledger ∧ ∀ format credential, out.1.issuance = .credentialIssued format credential →
        c.issuance = .credentialIssued format credential) ∨
      ∃ format credential, input = .credentialResponse format credential true ∧
        c.issuance = .requestingCredential format ∧ c.log.checkAppend (c.issuanceEntry (formatName format)) = .ok () ∧
        ((∃ log, c.log.append p (c.issuanceEntry (formatName format)) = .ok log ∧
            out.1.ledger = (log, c.auditLogAvailable) ∧ out.1.issuance = .credentialIssued format credential ∧
            (c.active = .issuance → out.1.active = .none)) ∨
          ∃ error, c.log.append p (c.issuanceEntry (formatName format)) = .error error ∧
            out.1.ledger = (c.log, false)) := by
  have hmoved (next) : ((c.judged p).withIssuance next).ledger = c.ledger := by
    simp [withIssuance, judged, Core.ledger]
  cases h with
  | rejected =>
    refine .inl ⟨ledger_terminateAuditedFlow.trans ?_, fun format credential hissued => ?_⟩
    · exact hmoved _
    · rw [auditLogCandidateRejectionEffects_issuance] at hissued
      cases hissued
  | @moved next _ _ _ hwaiting =>
    refine .inl ⟨by simp [withReview, withIssuance, judged, Core.ledger], fun format credential hissued => ?_⟩
    obtain rfl : next = .credentialIssued format credential := hissued
    rcases hwaiting with hwaiting | hwaiting
    · exact hwaiting.elim
    · cases hwaiting
  | aborted => exact .inl ⟨ledger_finishFlow.trans (hmoved _), fun _ _ hissued => (nomatch hissued)⟩
  | unstored =>
    refine .inl ⟨ledger_finishFlow.trans ?_, fun _ _ hissued => (nomatch hissued)⟩
    simp [rejectIssued, takeVerified, withIssuance, judged, Core.ledger]
  | settled =>
    refine .inl ⟨ledger_finishFlow.trans ?_, fun _ _ hissued => finishFlow_judged.symm.trans hissued⟩
    simp [judged, Core.ledger]
  | @stored format credential verified c' _ hissuance hanswer haudit _ _ hrecorded =>
    obtain ⟨hlog, hlatch, hentry⟩ := recordIssuance_issued (p := p) (c := c)
      (.credentialIssued format credential) (formatName format)
    obtain ⟨happend, hledger⟩ := appendAuditEntry_ok hrecorded
    rw [hlog, hentry] at happend
    rw [hlatch] at hledger
    have hstored : (c'.storeVerifiedCredential verified).ledger = c'.ledger ∧
        (c'.storeVerifiedCredential verified).active = c'.active := by
      unfold storeVerifiedCredential
      split <;> exact ⟨rfl, rfl⟩
    have hissued : (c'.storeVerifiedCredential verified).issuance = c'.issuance :=
      storeVerifiedCredential_issuance verified
    have hkept : c'.issuance = .credentialIssued format credential ∧ c'.active = c.active := by
      obtain ⟨log, latch, rfl⟩ := appendAuditEntry_eq hrecorded
      exact ⟨rfl, rfl⟩
    exact .inr ⟨format, credential, hanswer, hissuance, haudit, .inl ⟨_, happend,
      (ledger_finishFlow.trans hstored.1).trans hledger, hissued.trans hkept.1,
      fun hactive => finishFlow_over ((hstored.2.trans hkept.2).trans hactive)⟩⟩
  | @unrecorded format credential _ _ _ hissuance hanswer haudit _ hfailed =>
    obtain ⟨hlog, -, hentry⟩ := recordIssuance_issued (p := p) (c := c)
      (.credentialIssued format credential) (formatName format)
    obtain ⟨happend, hledger⟩ := appendAuditEntry_error (g := .issuance) hfailed
    rw [hlog, hentry] at happend
    rw [hlog] at hledger
    exact .inr ⟨format, credential, hanswer, hissuance, haudit, .inr ⟨_, happend, hledger⟩⟩

theorem IssuanceEvent.writes (h : IssuanceEvent p c e out) : Writes p c e .issuance out.1 := by
  -- An outcome that writes nothing issues nothing.
  have hsilent {c' : Core} (hissued : ∀ format credential, c'.issuance = .credentialIssued format credential →
      c.issuance = .credentialIssued format credential) : ¬ CompletesFlow e c c' .issuance := by
    rintro ⟨format, credential, hrequesting, hnow⟩
    cases hrequesting.symm.trans (hissued format credential hnow)
  cases h with
  | drove hdrives houtcome =>
    rcases houtcome.ledger with ⟨hledger, hissued⟩ | ⟨format, credential, rfl, -⟩
    · exact .kept hledger (hsilent hissued)
    · cases hdrives
  | @offered _ chain issuerId _ houtcome =>
    rcases houtcome.ledger with ⟨hledger, hissued⟩ | ⟨format, credential, hinput, -⟩
    · have hoffering : (c.offering p chain issuerId).ledger = c.ledger := by
        exact ledger_beginFlow
      refine .kept (hledger.trans hoffering) ?_
      rintro ⟨format, credential, -, hnow⟩
      have hidle : (c.offering p chain issuerId).issuance = .idle := rfl
      cases hidle.symm.trans (hissued format credential hnow)
    · cases hinput
  | @token _ cNonce c' _ houtcome =>
    rcases houtcome.ledger with ⟨hledger, hissued⟩ | ⟨format, credential, hinput, -⟩
    · have hspent : (c'.spendCNonce cNonce).ledger = c'.ledger := by
        unfold spendCNonce
        split <;> rfl
      refine .kept (hspent.trans hledger) (hsilent ?_)
      rw [spendCNonce_issuance]
      exact hissued
    · cases hinput
  | received _ hanswers houtcome =>
    rcases houtcome.ledger with ⟨hledger, hissued⟩ | ⟨format, credential, rfl, hrequesting, haudit, hwritten⟩
    · exact .kept hledger (hsilent hissued)
    · obtain ⟨f, authentic, hinput⟩ := hanswers.resolve_left (by simp)
      rcases hwritten with ⟨log, happend, hledger, hnow, hclosed⟩ | ⟨error, happend, hledger⟩
      · have hprogress : c.issuance.InProgress := by rw [show c.issuance = _ from hrequesting]; trivial
        exact .recorded (.issuance hrequesting haudit) happend hledger ⟨_, _, hrequesting, hnow⟩
          fun hown => hclosed (hown hprogress)
      · exact .failed (.issuance hrequesting haudit) happend hledger
  | unexpected hother =>
    refine .kept ?_ fun ⟨format, credential, hrequesting, _⟩ => hother format hrequesting
    unfold rejectUnexpectedCredentialResponse
    dsimp only
    split_ifs <;> rfl

theorem EventOutcome.logChange (h : EventOutcome p r c e out) : LogChange p c e out.1 := by
  cases h with
  | unavailable _ hlatch =>
    refine .kept (ledger_auditLogFaultEffects.trans ?_)
    rw [ledger, hlatch]
  | full => exact .kept ledger_terminateAuditedFlow
  | dispatched _ houtcome =>
    cases houtcome with
    | presentation event => exact event.writes.logChange
    | payment event => exact event.logChange
    | issuance event => exact event.writes.logChange
    | qes event => exact .kept event.ledger
    | transfer event => exact event.writes.logChange
    | proximity event => exact .kept event.ledger
    | dcApi event => exact .kept event.ledger
    | clock | clockRefused | hybrid | removed => exact .kept rfl
    | redacted => exact .redacted rfl rfl
    | wiped => exact .wiped rfl rfl
    | ended => exact .kept ledger_resetFlow

end Core

end EuWallet.Wallet
