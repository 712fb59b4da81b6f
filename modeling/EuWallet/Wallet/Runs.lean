import EuWallet.Wallet.Ledger

/-! # Runs of the core

A core is provisioned before the first event: keys, trust lists, status lists and credentials are
loaded and the clock is set. A run is what `handle_event` makes of a list of events from there, call by
call. `run_always` is the induction rule in the terms of the lists of outcomes. -/

namespace EuWallet.Wallet

open Codec Crypto Formats Lib Presenter Protocol
open Trust

namespace Core

/-! ### Provisioning -/

inductive Provisioned (p : Platform) : Core → Prop
  | new (walletClientId deviceKeyRef : String) (random : ℕ) :
      Provisioned p (.new walletClientId deviceKeyRef random)
  | clock {c} (h : Provisioned p c) {epoch} (forward : c.nowEpoch ≤ epoch) :
      Provisioned p { c with nowEpoch := epoch }
  | deviceKey {c} (h : Provisioned p c) (key : Bytes) : Provisioned p (c.loadDeviceKey key)
  | wua {c c'} (h : Provisioned p c) {jwt key} (loaded : c.loadWua p jwt key = .ok c') :
      Provisioned p c'
  | trustList {c c'} (h : Provisioned p c) {list key} (loaded : c.loadTrustList p list key = .ok c') :
      Provisioned p c'
  | statusList {c} (h : Provisioned p c) (uri : String) (token : Bytes) (chain : List Bytes) :
      Provisioned p (c.loadStatusList p uri token chain).1
  | credential {c c'} (h : Provisioned p c) {format credential chain issuerId}
      (ingested : c.ingestCredential p format credential chain issuerId = .ok c') : Provisioned p c'
  | fixture {c} (h : Provisioned p c) (holding : HeldCredential) :
      Provisioned p (c.loadUnverifiedCredentialForTesting holding)
  | mdocFixture {c} (h : Provisioned p c) (holding : MdocHolding) :
      Provisioned p (c.loadUnverifiedMdocForTesting holding)

/-- The core with the supplies of another: its clock, keys, trust, status lists and holdings. -/
def suppliedFrom (c c' : Core) : Core :=
  { c with
    nowEpoch := c'.nowEpoch, devicePublicKey := c'.devicePublicKey, wua := c'.wua
    trustStore := c'.trustStore, statusLists := c'.statusLists, credentials := c'.credentials
    mdocHoldings := c'.mdocHoldings
    lastCredentialIngestionError := c'.lastCredentialIngestionError }

section Provisioned
variable {p : Platform} {c c' : Core}

theorem suppliedFrom_trans {c₀ : Core} (h : c = c₀.suppliedFrom c) (h' : c' = c.suppliedFrom c') :
    c' = c₀.suppliedFrom c' := by
  rw [h'] at *
  rw [h]
  rfl

section
variable (h : Provisioned p c)
include h

/-- A provisioned core is a new one with other supplies, and its clock has only advanced. -/
theorem Provisioned.supplied : (∃ i k n, c = (Core.new i k n).suppliedFrom c) ∧ 0 ≤ c.nowEpoch := by
  have hnext {c c' : Core} (h' : c' = c.suppliedFrom c' ∧ c.nowEpoch ≤ c'.nowEpoch)
      (h : (∃ i k n, c = (Core.new i k n).suppliedFrom c) ∧ 0 ≤ c.nowEpoch) :
      (∃ i k n, c' = (Core.new i k n).suppliedFrom c') ∧ 0 ≤ c'.nowEpoch := by
    obtain ⟨⟨i, k, n, hc⟩, hepoch⟩ := h
    exact ⟨⟨i, k, n, suppliedFrom_trans hc h'.1⟩, hepoch.trans h'.2⟩
  have hsame {c : Core} : c.nowEpoch ≤ c.nowEpoch := le_rfl
  induction h with
  | new walletClientId deviceKeyRef random => exact ⟨⟨walletClientId, deviceKeyRef, random, rfl⟩, le_rfl⟩
  | clock _ hforward ih => exact hnext ⟨rfl, hforward⟩ ih
  | deviceKey _ _ ih => exact hnext ⟨rfl, hsame⟩ ih
  | wua _ hloaded ih =>
    obtain ⟨attestation, -, hloaded⟩ := bind_eq_ok.mp hloaded
    cases pure_eq_ok.mp hloaded
    exact hnext ⟨rfl, hsame⟩ ih
  | trustList _ hloaded ih =>
    obtain ⟨list, -, hloaded⟩ := bind_eq_ok.mp hloaded
    obtain ⟨store, -, hloaded⟩ := bind_eq_ok.mp hloaded
    cases pure_eq_ok.mp hloaded
    exact hnext ⟨rfl, hsame⟩ ih
  | @statusList c _ uri token chain ih =>
    obtain ⟨lists, hlists⟩ := loadStatusList_eq (p := p) (c := c) uri token chain
    rw [hlists]
    exact hnext ⟨rfl, hsame⟩ ih
  | credential _ hingested ih =>
    obtain ⟨format, -, hingested⟩ := bind_eq_ok.mp hingested
    obtain ⟨verified, -, hingested⟩ := bind_eq_ok.mp hingested
    cases pure_eq_ok.mp hingested
    refine hnext ?_ ih
    unfold storeVerifiedCredential
    split <;> exact ⟨rfl, hsame⟩
  | fixture _ _ ih =>
    refine hnext ?_ ih
    unfold loadUnverifiedCredentialForTesting
    split <;> exact ⟨rfl, hsame⟩
  | mdocFixture _ _ ih =>
    refine hnext ?_ ih
    unfold loadUnverifiedMdocForTesting
    split <;> exact ⟨rfl, hsame⟩

theorem Provisioned.eq_suppliedFrom :
    ∃ walletClientId deviceKeyRef random, c = (Core.new walletClientId deviceKeyRef random).suppliedFrom c :=
  h.supplied.1

theorem Provisioned.flowData (f : ActiveFlow) : c.flowData f = emptyFlow f := by
  obtain ⟨i, k, n, hc⟩ := h.eq_suppliedFrom
  rw [hc]
  cases f <;> rfl

theorem Provisioned.active : c.active = .none := by
  obtain ⟨i, k, n, hc⟩ := h.eq_suppliedFrom
  rw [hc]
  rfl

theorem Provisioned.inactive {f : ActiveFlow} (hf : f ≠ .none) : c.active ≠ f := fun hactive =>
  hf (hactive.symm.trans h.active)

theorem Provisioned.steady : c.Steady := by
  obtain ⟨i, k, n, hc⟩ := h.eq_suppliedFrom
  rw [hc]
  exact ⟨.of_ended (by rintro ⟨⟩) rfl (by rintro ⟨⟩), by rintro reason ⟨⟩, by rintro reason ⟨⟩,
    by rintro reason ⟨⟩, by rintro ⟨⟩⟩

end

end Provisioned

/-! ### Runs -/

/-- One call of `handle_event` in a run. -/
abbrev Turn := Call Core (Event × Entropy) Effect

/-- `handle_event` on an event and the randomness it may draw. -/
def respond (p : Platform) (c : Core) (input : Event × Entropy) : Core × List Effect :=
  c.handleEvent p input.2 input.1

def run (p : Platform) (c : Core) (inputs : List (Event × Entropy)) : List Turn :=
  calls (respond p) c inputs

variable {p : Platform}

theorem run_cons {c c' : Core} {e : Event} {r : Entropy} {outputs : List Effect}
    (h : c.handleEvent p r e = (c', outputs)) (inputs : List (Event × Entropy)) :
    run p c ((e, r) :: inputs) = ⟨c, (e, r), outputs, c'⟩ :: run p c' inputs :=
  calls_cons (show respond p c (e, r) = (c', outputs) from h) inputs

structure Taken (p : Platform) (k : Turn) : Prop where
  steady : k.before.Steady
  result : k.before.handleEvent p k.input.2 k.input.1 = (k.after, k.outputs)
  outcome : EventOutcome p k.input.2 k.before k.input.1 (k.after, k.outputs)

theorem Taken.eq {k : Turn} (h : Taken p k) {e : Event} (hevent : k.input.1 = e) :
    k.before.handleEvent p k.input.2 e = (k.after, k.outputs) := hevent ▸ h.result

theorem Taken.granted_dcApi {k : Turn} (h : Taken p k) (hevent : k.input.1 = .userConsented)
    (hactive : k.before.active = .dcApi) : k.before.dcapiConsentGranted = (k.after, k.outputs) := by
  rw [← h.eq hevent]
  change _ = k.before.userConsented p k.input.2
  simp [userConsented, hactive]

variable {c : Core} {Inv : List Turn → Core → Prop} {Cond P : List Turn → Turn → Prop}

theorem taken_respond (hsteady : c.Steady) (input : Event × Entropy) :
    Taken p (callOf (respond p) c input) := ⟨hsteady, rfl, handleEvent_outcome hsteady input.1⟩

variable (Inv Cond) in
/-- An invariant that every admissible call keeps gives its consequence at every call of every
admissible run. -/
theorem run_always (hfresh : Provisioned p c) (start : Inv [] c)
    (keep : ∀ pre k, Taken p k → Inv pre k.before → Cond pre k → Inv (pre ++ [k]) k.after)
    (here : ∀ pre k, Taken p k → Inv pre k.before → Cond pre k → P pre k)
    (inputs : List (Event × Entropy)) (hcond : Always Cond (run p c inputs)) : Always P (run p c inputs) := by
  refine calls_always (fun pre c => c.Steady ∧ Inv pre c) Cond ⟨hfresh.steady, start⟩ ?_ ?_ inputs hcond
  · rintro pre c input ⟨hsteady, hinv⟩ hcond
    exact ⟨handleEvent_steady hsteady _, keep pre _ (taken_respond hsteady input) hinv hcond⟩
  · rintro pre c input ⟨hsteady, hinv⟩ hcond
    exact here pre _ (taken_respond hsteady input) hinv hcond

variable (Inv) in
theorem run_invariant (hfresh : Provisioned p c) (start : Inv [] c)
    (keep : ∀ pre k, Taken p k → Inv pre k.before → Inv (pre ++ [k]) k.after)
    (here : ∀ pre k, Taken p k → Inv pre k.before → P pre k) (inputs : List (Event × Entropy)) :
    Always P (run p c inputs) :=
  run_always Inv (fun _ _ => True) hfresh start (fun pre k htaken hinv _ => keep pre k htaken hinv)
    (fun pre k htaken hinv _ => here pre k htaken hinv) inputs fun _ _ _ _ => trivial

end Core

end EuWallet.Wallet
