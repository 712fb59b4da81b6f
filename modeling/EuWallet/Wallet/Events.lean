import EuWallet.Wallet.DeviceEvents

/-! # What an event can do

The lists of the seven flows put together: `DispatchOutcome` for the match of `handle_event`,
`EventOutcome` for the whole call with its audit check. They are complete for every core that is
`Steady`. -/

namespace EuWallet.Wallet

open Codec Crypto Formats Lib Presenter Protocol
open Trust

namespace Core

/-- What every call leaves: the presentation machine is owned, the machines whose drivers reset an
aborted flow are not aborted, and an active transfer waits for its credential. -/
structure Steady (c : Core) : Prop where
  vp : c.VpOwned
  payment : ∀ reason, c.payment ≠ .aborted reason
  qes : ∀ reason, c.qes ≠ .aborted reason
  proximity : ∀ reason, c.proximity.state ≠ .aborted reason
  transfer : c.active = .walletTransfer → c.w2w = .awaitingTransfer

/-- Everything the match of `handle_event` can lead to. -/
inductive DispatchOutcome (p : Platform) (r : Entropy) (c : Core) : Event → Core × List Effect → Prop
  | presentation {e out} (event : VpEvent p r c e out) : DispatchOutcome p r c e out
  | payment {e out} (event : PaymentEvent p c e out) (footprint : Footprint .payment c out.1) :
      DispatchOutcome p r c e out
  | issuance {e out} (event : IssuanceEvent p c e out) (footprint : Footprint .issuance c out.1) :
      DispatchOutcome p r c e out
  | qes {e out} (event : QesEvent p c e out) (footprint : Footprint .qes c out.1) :
      DispatchOutcome p r c e out
  | transfer {e out} (event : TransferEvent p c e out) (footprint : Footprint .walletTransfer c out.1) :
      DispatchOutcome p r c e out
  | proximity {e out} (event : ProximityEvent p r c e out) (footprint : Footprint .proximity c out.1) :
      DispatchOutcome p r c e out
  | dcApi {e out} (event : DcApiEvent p c e out) (footprint : Footprint .dcApi c out.1) :
      DispatchOutcome p r c e out
  | clock {epoch} (forward : c.nowEpoch ≤ epoch) :
      DispatchOutcome p r c (.setClock epoch) ({ c with nowEpoch := epoch }, [])
  | clockRefused {epoch} (backward : epoch < c.nowEpoch) (inactive : c.active ≠ .presentation) :
      DispatchOutcome p r c (.setClock epoch)
        (c, errorThenClose "clock_rollback_rejected" "The trusted wallet clock cannot move backwards.")
  | redacted {seq} : DispatchOutcome p r c (.redactTransaction seq) ((c.redactTransaction seq).1, [])
  | wiped : DispatchOutcome p r c .wipeTransactionLog (c.wipeTransactionLog, [])
  /-- A hybrid signature, which no flow of this build asks for. -/
  | hybrid {id profile classical postQuantum} :
      DispatchOutcome p r c (.hybridSignatureProduced id profile classical postQuantum) (c, [])
  | removed {e id} : DispatchOutcome p r c e (c.removeOperation id, [])
  | ended {e id pending failure} (registered : c.pendingOperations.lookup id = some pending) :
      DispatchOutcome p r c e ((c.removeOperation id).operationTerminalEffects p pending failure)

/-- Everything a call of `handle_event` can lead to. -/
inductive EventOutcome (p : Platform) (r : Entropy) (c : Core) : Event → Core × List Effect → Prop
  | unavailable {e flow} (starts : auditedFlowStartedBy e = some flow)
      (latch : c.auditLogAvailable = false) :
      EventOutcome p r c e (c.auditLogFaultEffects flow)
  | full {e flow} (starts : auditedFlowStartedBy e = some flow)
      (capacity : c.log.canGuaranteeMaxEntry = false) :
      EventOutcome p r c e (c.auditLogCapacityEffects flow)
  | dispatched {e out} (admitted : auditedFlowStartedBy e ≠ none →
        c.auditLogAvailable = true ∧ c.log.canGuaranteeMaxEntry = true)
      (outcome : DispatchOutcome p r c e out) : EventOutcome p r c e out

variable {p : Platform} {r : Entropy} {c : Core}

section Flows
variable {e : Event} {out : Core × List Effect}

theorem PaymentEvent.outcome (h : PaymentEvent p c e out) : DispatchOutcome p r c e out := .payment h h.conduct.toFootprint

theorem IssuanceEvent.outcome (h : IssuanceEvent p c e out) : DispatchOutcome p r c e out := .issuance h h.conduct.toFootprint

theorem QesEvent.outcome (h : QesEvent p c e out) : DispatchOutcome p r c e out := .qes h h.conduct.toFootprint

theorem TransferEvent.outcome (h : TransferEvent p c e out) : DispatchOutcome p r c e out := .transfer h h.conduct.toFootprint

theorem ProximityEvent.outcome (h : ProximityEvent p r c e out) : DispatchOutcome p r c e out :=
  .proximity h h.conduct.toFootprint

theorem DcApiEvent.outcome (h : DcApiEvent p c e out) : DispatchOutcome p r c e out := .dcApi h h.conduct.toFootprint

end Flows

theorem setClock_outcome (epoch : ℤ) : DispatchOutcome p r c (.setClock epoch) (c.setClock epoch) := by
  unfold setClock
  split
  · next hbackward =>
    split
    · next hactive =>
      have habort : VpEvent p r c (.setClock epoch)
          ((c.noted c.pendingRpProvenance c.pendingStatusReferences c.statusLists).abortPresentation
            .clockRollback) := vpEvent_of_abort hactive rfl
      exact .presentation habort
    · next hactive => exact .clockRefused hbackward hactive
  · next hforward => exact .clock (not_lt.mp hforward)

theorem userConsented_outcome (hsteady : c.Steady) : DispatchOutcome p r c .userConsented (c.userConsented p r) := by
  by_cases hproximity : c.active = .proximity
  · have heq : c.userConsented p r = c.driveProximity p .consentGranted := by
      simp [userConsented, hproximity]
    rw [heq]
    exact (proximityConsented_event hsteady.proximity hproximity).outcome
  · by_cases hdcapi : c.active = .dcApi
    · have heq : c.userConsented p r = c.dcapiConsentGranted := by
        simp [userConsented, hdcapi]
      rw [heq]
      exact (dcapiConsentGranted_event hdcapi).outcome
    · exact .presentation (userConsented_event hproximity hdcapi)

theorem userDeclined_outcome (hsteady : c.Steady) : DispatchOutcome p r c .userDeclined (c.userDeclined p r) := by
  by_cases hproximity : c.active = .proximity
  · have heq : c.userDeclined p r = c.driveProximity p .consentDeclined := by
      simp [userDeclined, hproximity]
    rw [heq]
    exact (proximityDeclined_event hsteady.proximity hproximity).outcome
  · by_cases hdcapi : c.active = .dcApi
    · have heq : c.userDeclined p r = (c.resetFlow .dcApi, [.close]) := by
        simp [userDeclined, hdcapi]
      rw [heq]
      exact (DcApiEvent.declined hdcapi).outcome
    · exact .presentation (userDeclined_event hsteady.vp hproximity hdcapi)

theorem deviceSignatureProduced_outcome (hsteady : c.Steady) (signature : Bytes) :
    DispatchOutcome p r c (.deviceSignatureProduced signature) (c.deviceSignatureProduced p r signature) := by
  cases hactive : c.active with
  | payment =>
    simp only [deviceSignatureProduced, hactive]
    exact (paymentSignature_event hsteady.payment hactive signature).outcome
  | issuance =>
    simp only [deviceSignatureProduced, hactive]
    exact (issuanceEvent_of_drive .signature).outcome
  | qes =>
    simp only [deviceSignatureProduced, hactive]
    exact (qesSignature_event hsteady.qes hactive signature).outcome
  | proximity =>
    simp only [deviceSignatureProduced, hactive]
    exact (proximitySignature_event hsteady.proximity hactive signature).outcome
  | dcApi =>
    simp only [deviceSignatureProduced, hactive]
    exact (dcapiSignatureProduced_event hactive signature).outcome
  | presentation | walletTransfer | none =>
    exact .presentation (deviceSignatureProduced_event signature (by simp [hactive]))

/-! ### Completeness -/

theorem operationEnded_outcome {e : Event} (id : ℕ) (failure : Option OperationFailure) :
    DispatchOutcome p r c e (c.operationEnded p id failure) := by
  unfold operationEnded
  split
  · next hregistered => exact .ended hregistered
  · exact .removed

theorem dispatch_outcome (hsteady : c.Steady) (e : Event) : DispatchOutcome p r c e (c.dispatch p r e) := by
  cases e with
  | setClock epoch => exact setClock_outcome epoch
  | redactTransaction => exact .redacted
  | wipeTransactionLog => exact .wiped
  | authorizationRequestReceived => exact .presentation (.began (drive_outcome p r _ _))
  | rpCertChainResolved => exact .presentation (rpCertChainResolved_event _ _)
  | userConsented => exact userConsented_outcome hsteady
  | userDeclined => exact userDeclined_outcome hsteady
  | deviceSignatureProduced => exact deviceSignatureProduced_outcome hsteady _
  | hybridSignatureProduced => exact .hybrid
  | presentationDelivered => exact .presentation presentationDelivered_event
  | paymentAuthorizationDelivered => exact paymentDelivered_event.outcome
  | qesAuthorizationDelivered => exact qesDelivered_event.outcome
  | operationSucceeded => exact .removed
  | operationFailed | operationCancelled => exact operationEnded_outcome _ _
  | paymentAuthorizationRequestReceived => exact (paymentRequest_event _).outcome
  | paymentApproved => exact (paymentApproved_event hsteady.payment).outcome
  | paymentDeclined => exact (paymentDeclined_event hsteady.payment).outcome
  | qesSignRequestReceived => exact (qesRequest_event _).outcome
  | qesAuthorized => exact (qesAuthorized_event hsteady.qes).outcome
  | qesDeclined => exact (qesDeclined_event hsteady.qes).outcome
  | credentialOfferReceived => exact (credentialOfferReceived_event _ _ _).outcome
  | credentialOfferAccepted => exact (issuanceEvent_of_drive .accepted).outcome
  | credentialOfferDeclined => exact (issuanceEvent_of_drive .declined).outcome
  | parPushed => exact (issuanceEvent_of_drive .pushed).outcome
  | authorizationCodeReturned => exact (issuanceEvent_of_drive .authorized).outcome
  | transactionCodeEntered => exact (issuanceEvent_of_drive .entered).outcome
  | tokenReceived => exact (tokenReceived_event _ _).outcome
  | credentialReceived => exact (credentialReceived_event _ _).outcome
  | statusListReceived => exact .presentation (statusListReceived_event hsteady.vp _ _ _ _)
  | walletTransferOfferCreated => exact walletTransferOfferCreated_event.outcome
  | walletTransferReceived => exact (walletTransferReceived_event hsteady.transfer _ _ _ _ _ _).outcome
  | proximityEngagementRequested => exact (proximityEngagementRequested_event _).outcome
  | proximityReaderEstablishment => exact (proximityReaderEstablishment_event hsteady.proximity _).outcome
  | proximityReaderTermination => exact proximityReaderTermination_event.outcome
  | dcApiRequestReceived => exact (dcapiRequestReceived_event _ _).outcome

theorem handleEvent_outcome (hsteady : c.Steady) (e : Event) : EventOutcome p r c e (c.handleEvent p r e) := by
  have hdispatch := dispatch_outcome (p := p) (r := r) hsteady e
  unfold handleEvent
  split
  · next flow hstarts =>
    split_ifs with hlatch hcapacity
    · exact .unavailable hstarts (by simpa using hlatch)
    · exact .full hstarts (by simpa using hcapacity)
    · exact .dispatched (fun _ => ⟨by simpa using hlatch, by simpa using hcapacity⟩) hdispatch
  · next hstarts => exact .dispatched (fun h => absurd hstarts h) hdispatch

end Core

end EuWallet.Wallet
