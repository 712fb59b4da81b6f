import EuWallet.Wallet.Events

/-! # Whose event it is

Every event belongs to one flow or to none. `OwnEvent` says which, `Foreign` says what it leaves of
every other flow, and `Effect.flow` which of its effects are whose. From this, every call leaves a
steady core. -/

namespace EuWallet.Wallet

open Codec Crypto Formats Lib Presenter Protocol
open Trust

/-- The flow an effect belongs to. A signature is asked for by several flows, an error or the end of a
flow shown by any. -/
def Effect.flow : Effect → Option ActiveFlow
  | .resolveRpTrust _ | .persistNonce _ | .fetchStatusList _ | .http .openid4vpDirectPost _ _
  | .render (.consent _) => some .presentation
  | .http .paymentAuthorization _ _ | .render (.paymentConfirmation _) => some .payment
  | .http .qesAuthorization _ _ | .render (.signConfirmation _) => some .qes
  | .pushPar | .openAuthBrowser | .promptTxCode | .requestToken | .requestCredential _
  | .render (.issuanceOffer _) | .render (.issuancePreparing _) | .render (.issuanceReady _) =>
    some .issuance
  | .publishTransferOffer _ => some .walletTransfer
  | .emitDeviceEngagement _ | .emitDeviceResponse _ | .render (.proximityConsent _) => some .proximity
  | .emitDcApiResponse _ | .render (.dcApiConsent _ _) => some .dcApi
  | .render _ | .sign _ _ | .hybridSign _ _ _ _ | .close => none

/-- The effect answers a browser. -/
def Effect.isDcApiResponse : Effect → Bool
  | .emitDcApiResponse _ => true
  | _ => false

variable {x : Effect}

theorem Effect.isDcApiResponse_iff : x.isDcApiResponse = true ↔ ∃ response, x = .emitDcApiResponse response := by
  cases x <;> simp [Effect.isDcApiResponse]

def Effect.Ends : Effect → Prop
  | .render (.error _ _) | .render (.issuanceRecovery _) | .close => True
  | _ => False

theorem Effect.Ends.flow_eq_none (h : x.Ends) : x.flow = none := by
  cases x with
  | render screen => cases screen <;> first | rfl | exact h.elim
  | close => rfl
  | _ => exact h.elim

/-- The effect is of the flow, or of none. -/
def Effect.Within (f : ActiveFlow) (x : Effect) : Prop := x.flow = none ∨ x.flow = some f

theorem Effect.Ends.within {f : ActiveFlow} (h : x.Ends) : x.Within f := .inl h.flow_eq_none

theorem Effect.Within.only {f : ActiveFlow} {y : Effect} (h : y.Within f) (hx : x ∈ [y]) : x.Within f :=
  List.mem_singleton.mp hx ▸ h

namespace Core

/-! ### Events of one flow, seen from another -/

def Stray (c : Core) : Event → Prop
  | .statusListReceived _ _ _ _ => ¬ c.NoOtherActive
  | _ => False

inductive Foreign (stray : Prop) (f : ActiveFlow) (c c' : Core) : Prop
  | kept (data : c'.flowData f = c.flowData f) (active : c'.active = f ↔ c.active = f)
      (store : c'.storeData f = c.storeData f)
  | dropped (data : c'.flowData f = emptyFlow f) (active : c'.active ≠ f)
      (store : c'.storeData f = c.storeData f)
  | orphaned (stray : stray) (other : f ≠ .presentation) (data : c'.flowData f = c.flowData f)
      (active : c'.active = .none) (store : c'.storeData f = c.storeData f)

variable {stray : Prop} {f g : ActiveFlow} {c c' : Core}

theorem Foreign.store (h : Foreign stray f c c') : c'.storeData f = c.storeData f := by cases h <;> assumption

theorem Foreign.data (h : Foreign stray f c c') : c'.flowData f = c.flowData f ∨ c'.flowData f = emptyFlow f := by
  cases h with
  | kept data | orphaned _ _ data => exact .inl data
  | dropped data => exact .inr data

/-- A flow that is active after an event of another was active before it, with the same data. -/
theorem Foreign.active (h : Foreign stray f c c') (hactive : c'.active = f) (hn : f ≠ .none) :
    c.active = f ∧ c'.flowData f = c.flowData f := by
  cases h with
  | kept data active => exact ⟨active.mp hactive, data⟩
  | dropped _ inactive => exact absurd hactive inactive
  | orphaned _ _ _ hnone => exact absurd (hactive.symm.trans hnone) hn

theorem Footprint.foreign {stray : Prop} {c c' : Core} (h : Footprint g c c') (hf : f ≠ g) (hn : f ≠ .none)
    : Foreign stray f c c' := by
  cases h.others f hf hn with
  | kept data active => exact .kept data active (h.store f hf)
  | dropped data active => exact .dropped data active (h.store f hf)

def OwnEvent (p : Platform) (r : Entropy) (c : Core) (e : Event) (out : Core × List Effect) : ActiveFlow → Prop
  | .presentation => VpEvent p r c e out
  | .payment => PaymentEvent p c e out
  | .issuance => IssuanceEvent p c e out
  | .qes => QesEvent p c e out
  | .walletTransfer => TransferEvent p c e out
  | .proximity => ProximityEvent p r c e out
  | .dcApi => DcApiEvent p c e out
  | .none => ∀ x ∈ out.2, x.Ends

variable {p : Platform} {r : Entropy} {e : Event} {out : Core × List Effect}

theorem VpEvent.foreign (hown : c.VpOwned) (h : VpEvent p r c e out) (hf : f ≠ .presentation)
    (hn : f ≠ .none) : Foreign (c.Stray e) f c out.1 := by
  by_cases hstray : c.Stray e
  · have hother : ¬ c.NoOtherActive := by
      cases e <;> first | exact hstray | exact hstray.elim
    have hactive : c.active ≠ .presentation := fun hactive => hother (.inl hactive)
    have hidle : ¬ c.vp.InProgress := fun hprogress => hactive (hown.active hprogress)
    cases h with
    | stray =>
      refine .orphaned hstray hf ?_ rfl ?_
      · cases f <;> first | rfl | exact absurd rfl hf
      · cases f <;> rfl
    | noted =>
      refine .kept ?_ .rfl ?_ <;> cases f <;> first | rfl | exact absurd rfl hf
    | aborted hpresentation => exact absurd hpresentation hactive
    | drove _ hprogress => exact absurd hprogress hidle
    | began | declined | delivered | finished => exact hstray.elim
  · refine (h.conduct hown ?_).foreign hf hn
    rintro ⟨uri, httpStatus, token, chain, rfl⟩
    exact not_not.mp hstray

theorem ended_foreign {id : ℕ} (hn : f ≠ .none) : Foreign stray f c ((c.removeOperation id).resetFlow g) := by
  have hfootprint : Conduct .none (c.removeOperation id) ((c.removeOperation id).resetFlow g) := .resetFlow g
  have hdata : (c.removeOperation id).flowData f = c.flowData f := by cases f <;> rfl
  have hstore : (c.removeOperation id).storeData f = c.storeData f := by cases f <;> rfl
  cases hfootprint.others f hn hn with
  | kept data active =>
    exact .kept (data.trans hdata) active ((hfootprint.store f hn).trans hstore)
  | dropped data active => exact .dropped data active ((hfootprint.store f hn).trans hstore)

theorem errorThenClose_ends {code message : String} {x : Effect} (h : x ∈ errorThenClose code message) :
    x.Ends := by
  simp only [errorThenClose, List.mem_cons, List.not_mem_nil, or_false] at h
  rcases h with rfl | rfl <;> trivial

theorem operationTerminalEffects_ends {pending : PendingOperation} {failure : Option OperationFailure}
    {x : Effect} (h : x ∈ (c.operationTerminalEffects p pending failure).2) : x.Ends := by
  simp only [operationTerminalEffects] at h
  split at h
  · simp only [List.mem_cons, List.not_mem_nil, or_false] at h
    rcases h with rfl | rfl <;> trivial
  · exact errorThenClose_ends h

theorem EventOutcome.owner (hsteady : c.Steady) (h : EventOutcome p r c e out) :
    ∃ g, OwnEvent p r c e out g ∧ ∀ f ≠ g, f ≠ .none → Foreign (c.Stray e) f c out.1 := by
  have hnone {c' : Core} {effects : List Effect} (hends : ∀ x ∈ effects, x.Ends)
      (hforeign : ∀ f ≠ .none, Foreign (c.Stray e) f c c') :
      ∃ g, OwnEvent p r c e (c', effects) g ∧ ∀ f ≠ g, f ≠ .none → Foreign (c.Stray e) f c c' :=
    ⟨.none, hends, fun f _ hn => hforeign f hn⟩
  have hsilent : ∀ x ∈ ([] : List Effect), x.Ends := by simp
  cases h with
  | unavailable =>
    exact hnone (fun _ => errorThenClose_ends) fun f hn => Conduct.auditLogFaultEffects.foreign hn hn
  | full =>
    exact hnone (fun _ => errorThenClose_ends) fun f hn =>
      Conduct.auditLogCapacityEffects.foreign hn hn
  | dispatched _ houtcome =>
    cases houtcome with
    | presentation event => exact ⟨.presentation, event, fun f hf hn => event.foreign hsteady.vp hf hn⟩
    | payment event footprint => exact ⟨.payment, event, fun f hf hn => footprint.foreign hf hn⟩
    | issuance event footprint => exact ⟨.issuance, event, fun f hf hn => footprint.foreign hf hn⟩
    | qes event footprint => exact ⟨.qes, event, fun f hf hn => footprint.foreign hf hn⟩
    | transfer event footprint =>
      exact ⟨.walletTransfer, event, fun f hf hn => footprint.foreign hf hn⟩
    | proximity event footprint => exact ⟨.proximity, event, fun f hf hn => footprint.foreign hf hn⟩
    | dcApi event footprint => exact ⟨.dcApi, event, fun f hf hn => footprint.foreign hf hn⟩
    | clock => exact hnone hsilent fun f _ => by cases f <;> exact .kept rfl .rfl rfl
    | clockRefused =>
      exact hnone (fun _ => errorThenClose_ends) fun f hn => (Conduct.refl c).foreign hn hn
    | redacted => exact hnone hsilent fun f _ => by cases f <;> exact .kept rfl .rfl rfl
    | wiped => exact hnone hsilent fun f _ => by cases f <;> exact .kept rfl .rfl rfl
    | hybrid => exact hnone hsilent fun f hn => (Conduct.refl c).foreign hn hn
    | removed => exact hnone hsilent fun f _ => by cases f <;> exact .kept rfl .rfl rfl
    | ended => exact hnone (fun _ => operationTerminalEffects_ends) fun f hn => ended_foreign hn

/-! ### Whose effect it is -/

variable {input : Oid4vci.Input}

theorem presentationErrorEffects_ends {reason : Oid4vp.AbortReason} {errors : List Effect}
    (h : presentationErrorEffects reason = some errors) (hx : x ∈ errors) : x.Ends := by
  cases reason <;> cases h <;> exact errorThenClose_ends hx

theorem DriveOutcome.emits {input : Oid4vp.Input} (h : DriveOutcome p r c input out) (hx : x ∈ out.2) :
    x.Within .presentation := by
  have herrors {reason errors} (hs : presentationErrorEffects reason = some errors) (hx : x ∈ errors) :
      x.Within .presentation :=
    (presentationErrorEffects_ends hs hx).within
  cases h with
  | unchanged | readmitted => cases hx
  | rejected | unrecorded => exact (errorThenClose_ends hx).within
  | aborted _ _ hs | unbuildable _ _ hs | emptyQueue _ _ hs | malformed _ _ hs => exact herrors hs hx
  | abortedAtConsent _ _ hs =>
    rcases List.mem_cons.mp hx with rfl | hx
    · exact .inr rfl
    · exact herrors hs hx
  | untrusted =>
    split at hx
    · next hs => exact herrors hs hx
    · cases hx
  | validated =>
    rcases List.mem_pair.mp hx with rfl | rfl <;> exact .inr rfl
  | received | sent => exact .only (.inr rfl) hx
  | consented | declined | signed | delivered => exact .only (.inl rfl) hx

theorem VpEvent.emits (h : VpEvent p r c e out) (hx : x ∈ out.2) : x.Within .presentation := by
  cases h with
  | noted hfetches =>
    obtain ⟨uri, rfl⟩ := hfetches x hx
    exact .inr rfl
  | aborted _ hs | stray _ hs => exact (presentationErrorEffects_ends hs hx).within
  | began houtcome | drove _ _ _ houtcome => exact houtcome.emits hx
  | declined | delivered => exact .only (.inl rfl) hx
  | finished => cases hx

theorem PaymentEvent.emits (h : PaymentEvent p c e out) (hx : x ∈ out.2) : x.Within .payment := by
  cases h with
  | unchanged | ignored => cases hx
  | refused | rejected | unrecorded => exact (errorThenClose_ends hx).within
  | asked | authorized => exact .only (.inr rfl) hx
  | approved | declined | delivered => exact .only (.inl rfl) hx

theorem QesEvent.emits (h : QesEvent p c e out) (hx : x ∈ out.2) : x.Within .qes := by
  cases h with
  | unchanged | ignored => cases hx
  | refused => exact (errorThenClose_ends hx).within
  | asked | signed => exact .only (.inr rfl) hx
  | approved | declined | delivered => exact .only (.inl rfl) hx

theorem TransferEvent.emits (h : TransferEvent p c e out) (hx : x ∈ out.2) : x.Within .walletTransfer := by
  cases h with
  | busy | accepted => exact .only (.inl rfl) hx
  | rejected | refused => exact (errorThenClose_ends hx).within
  | offered => exact .only (.inr rfl) hx
  | unrecorded =>
    rcases List.mem_append.mp hx with hx | hx
    · exact (errorThenClose_ends hx).within
    · exact .only (.inl rfl) hx

theorem ProximityEvent.emits (h : ProximityEvent p r c e out) (hx : x ∈ out.2) : x.Within .proximity := by
  cases h with
  | noted => cases hx
  | engaged | established => exact .only (.inr rfl) hx
  | unavailable | refused | declined | terminated => exact .only (.inl rfl) hx
  | consented =>
    unfold proximitySign at hx
    split at hx <;> exact .only (.inl rfl) hx
  | responded _ _ _ _ hresponse =>
    rcases hresponse with rfl | ⟨_, _, _, _, _, _, rfl⟩
    · exact .only (.inl rfl) hx
    · exact .only (.inr rfl) hx

theorem DcApiEvent.emits (h : DcApiEvent p c e out) (hx : x ∈ out.2) : x.Within .dcApi := by
  cases h with
  | asked | responded => exact .only (.inr rfl) hx
  | unanswered | consented | unprepared | declined | ended => exact .only (.inl rfl) hx

theorem mem_showPreparing {effects : List Effect} (hx : x ∈ c.showPreparing p input effects) :
    x ∈ effects ∨ ∃ document, x = .render (.issuancePreparing document) := by
  unfold showPreparing at hx
  split at hx
  · exact .inl hx
  · split at hx
    · next document _ => exact (List.mem_cons.mp hx).symm.imp id fun h => ⟨document, h⟩
    · exact .inl hx
  · exact .inl hx

theorem issuanceEffect_flow (o : Oid4vci.Output) : (c.issuanceEffect o).Within .issuance := by
  cases o <;> first | exact .inl rfl | exact .inr rfl

theorem IssuanceOutcome.emits (h : IssuanceOutcome p c input out) (hx : x ∈ out.2) : x.Within .issuance := by
  cases h with
  | rejected | unrecorded | unstored => exact (errorThenClose_ends hx).within
  | moved =>
    obtain hx | ⟨document, rfl⟩ := mem_showPreparing hx
    · obtain ⟨o, -, rfl⟩ := List.mem_map.mp hx
      exact issuanceEffect_flow o
    · exact .inr rfl
  | aborted hends =>
    rcases hends with rfl | rfl | rfl
    · cases hx
    · exact .only (.inl rfl) hx
    · exact (errorThenClose_ends hx).within
  | settled =>
    obtain hx | ⟨document, rfl⟩ := mem_showPreparing hx
    · cases hx
    · exact .inr rfl
  | stored _ _ _ _ _ _ hends =>
    obtain ⟨screens, rfl, hscreens⟩ := hends
    rcases List.mem_append.mp hx with hx | hx
    · obtain ⟨document, rfl⟩ := hscreens x hx
      exact .inr rfl
    · exact .only (.inl rfl) hx

theorem IssuanceEvent.emits (h : IssuanceEvent p c e out) (hx : x ∈ out.2) : x.Within .issuance := by
  cases h with
  | drove _ houtcome | offered houtcome | token houtcome | received _ _ houtcome =>
    exact houtcome.emits hx
  | unexpected =>
    have hmem : x ∈ credentialIssuanceRejectionEffects := by
      simp only [rejectUnexpectedCredentialResponse] at hx
      split at hx
      · exact hx
      · exact List.mem_of_mem_filter hx
    exact (errorThenClose_ends hmem).within

theorem OwnEvent.flow_eq (h : OwnEvent p r c e out g) (hx : x ∈ out.2) (hflow : x.flow = some f) : g = f := by
  have hown : x.Within g := by
    cases g with
    | none => exact (h x hx).within
    | presentation => exact VpEvent.emits h hx
    | payment => exact PaymentEvent.emits h hx
    | issuance => exact IssuanceEvent.emits h hx
    | qes => exact QesEvent.emits h hx
    | walletTransfer => exact TransferEvent.emits h hx
    | proximity => exact ProximityEvent.emits h hx
    | dcApi => exact DcApiEvent.emits h hx
  rw [Effect.Within, hflow] at hown
  simpa [eq_comm] using hown

/-- An event as a flow sees it: its own, or one that says nothing of the flow. -/
theorem EventOutcome.seenFrom (h : EventOutcome p r c e out) (hsteady : c.Steady) (f : ActiveFlow)
    (hn : f ≠ .none) : OwnEvent p r c e out f ∨
      Foreign (c.Stray e) f c out.1 ∧ ∀ x ∈ out.2, x.flow ≠ some f := by
  obtain ⟨g, hevent, hforeign⟩ := h.owner hsteady
  by_cases hg : f = g
  · exact .inl (hg ▸ hevent)
  · exact .inr ⟨hforeign f hg hn, fun x hx hflow => hg (hevent.flow_eq hx hflow).symm⟩

theorem EventOutcome.own (h : EventOutcome p r c e out) (hsteady : c.Steady) (hx : x ∈ out.2)
    (hflow : x.flow = some f) : OwnEvent p r c e out f := by
  obtain ⟨g, hevent, -⟩ := h.owner hsteady
  exact hevent.flow_eq hx hflow ▸ hevent

/-! ### Steady cores stay steady -/

theorem VpOwned.foreign (hown : c.VpOwned) (h : Foreign stray .presentation c c') : c'.VpOwned := by
  cases h with
  | kept data active =>
    replace data := FlowData.presentation.inj data
    obtain ⟨hvp, hsession, -, -⟩ := data
    refine ⟨fun hprogress => ?_, fun hsome => ?_, ?_⟩
    · rw [hvp] at hprogress
      exact active.mpr (hown.active hprogress)
    · rw [hsession] at hsome
      rw [hvp]
      exact hown.session hsome
    · rw [hvp]
      exact hown.settled
  | dropped data =>
    replace data := FlowData.presentation.inj data
    obtain ⟨hvp, hsession, -, -⟩ := data
    exact .of_ended (by rw [hvp]; exact id) hsession (by rw [hvp]; rintro ⟨⟩)
  | orphaned _ hother => exact absurd rfl hother

theorem PaymentEvent.settled (hsettled : ∀ reason, c.payment ≠ .aborted reason)
    (h : PaymentEvent p c e out) : ∀ reason, out.1.payment ≠ .aborted reason := by
  have hnote {c : Core} (h : ∀ reason, c.payment ≠ .aborted reason) :
      ∀ reason, c.notePayment.payment ≠ .aborted reason := by rwa [notePayment_payment]
  cases h with
  | unchanged => exact hnote hsettled
  | ignored => exact hsettled
  | authorized => exact hnote (by rintro reason ⟨⟩)
  | @delivered c' _ _ _ hrecorded =>
    have hpayment : (c.recordPayment p).1.payment = c.payment := by
      unfold recordPayment appendAuditEntry
      repeat' split
      all_goals rfl
    rw [hrecorded] at hpayment
    have hfinished : (c'.finishFlow .payment).payment = c.payment := hpayment
    intro reason
    rw [hfinished]
    exact hsettled reason
  | refused | rejected | asked | approved | declined | unrecorded => rintro reason ⟨⟩

theorem QesEvent.settled (hsettled : ∀ reason, c.qes ≠ .aborted reason) (h : QesEvent p c e out) :
    ∀ reason, out.1.qes ≠ .aborted reason := by
  cases h with
  | unchanged =>
    intro reason
    rw [noteQes_qes]
    exact hsettled reason
  | ignored | delivered => exact hsettled
  | refused | asked | approved | declined | signed => rintro reason ⟨⟩

theorem ProximityEvent.settled (hsettled : ∀ reason, c.proximity.state ≠ .aborted reason)
    (h : ProximityEvent p r c e out) : ∀ reason, out.1.proximity.state ≠ .aborted reason := by
  cases h with
  | unavailable => exact hsettled
  | noted hstate =>
    intro reason
    have hkept : _ = c.proximity.state := hstate
    rw [withProximity, hkept]
    exact hsettled reason
  | established _ hnext | responded _ _ hnext =>
    intro reason h
    rw [withProximity, hnext] at h
    cases h
  | engaged | refused | consented | declined | terminated => rintro reason ⟨⟩

theorem TransferEvent.settled (hwaiting : c.active = .walletTransfer → c.w2w = .awaitingTransfer)
    (h : TransferEvent p c e out) : out.1.active = .walletTransfer → out.1.w2w = .awaitingTransfer := by
  have hfinished {c : Core} : (c.finishFlow .walletTransfer).active ≠ .walletTransfer := by
    rw [active_finishFlow]
    split <;> simp_all
  cases h with
  | busy => exact hwaiting
  | offered => exact fun _ => rfl
  | rejected | unrecorded => simp
  | refused | accepted => exact fun hactive => absurd hactive hfinished

theorem EventOutcome.steady (hsteady : c.Steady) (h : EventOutcome p r c e out) : out.1.Steady where
  vp := by
    rcases h.seenFrom hsteady .presentation nofun with hevent | ⟨hforeign, -⟩
    · exact VpEvent.owned hsteady.vp hevent
    · exact hsteady.vp.foreign hforeign
  payment := by
    rcases h.seenFrom hsteady .payment nofun with hevent | ⟨hforeign, -⟩
    · exact PaymentEvent.settled hsteady.payment hevent
    · rcases hforeign.data with data | data <;> replace data := FlowData.payment.inj data <;>
        rw [data.1]
      · exact hsteady.payment
      · rintro reason ⟨⟩
  qes := by
    rcases h.seenFrom hsteady .qes nofun with hevent | ⟨hforeign, -⟩
    · exact QesEvent.settled hsteady.qes hevent
    · rcases hforeign.data with data | data <;> replace data := FlowData.qes.inj data <;>
        rw [data.1]
      · exact hsteady.qes
      · rintro reason ⟨⟩
  proximity := by
    rcases h.seenFrom hsteady .proximity nofun with hevent | ⟨hforeign, -⟩
    · exact ProximityEvent.settled hsteady.proximity hevent
    · rcases hforeign.data with data | data <;> replace data := FlowData.proximity.inj data <;>
        rw [data]
      · exact hsteady.proximity
      · rintro reason ⟨⟩
  transfer := by
    rcases h.seenFrom hsteady .walletTransfer nofun with hevent | ⟨hforeign, -⟩
    · exact TransferEvent.settled hsteady.transfer hevent
    · intro hactive
      obtain ⟨hbefore, data⟩ := hforeign.active hactive nofun
      replace data := FlowData.walletTransfer.inj data
      rw [data]
      exact hsteady.transfer hbefore

theorem handleEvent_steady (hsteady : c.Steady) (e : Event) : (c.handleEvent p r e).1.Steady :=
  (handleEvent_outcome hsteady e).steady hsteady

end Core

end EuWallet.Wallet
