import EuWallet.Wallet.Currency

/-! # Transfers that are accepted again

An accepted transfer uses up the offer it answers: the next one is accepted only after another offer. What
the sender signed carries a nonce, but the wallet does not tie it to the offer and does not remember it,
so the same transfer is accepted again under the next offer. A run in which no transfer comes again once a
new offer was made accepts none twice. -/

namespace EuWallet.Wallet

open Codec Crypto Lib Presenter Protocol Trust

structure Authorisation where
  senderPublicKey : Bytes
  senderSignature : Bytes
  nonce : ℕ
  credential : Bytes
deriving DecidableEq

def Event.authorisation : Event → Option Authorisation
  | .walletTransferReceived credential _ key signature _ nonce => some ⟨key, signature, nonce, credential⟩
  | _ => none

namespace Core

/-- The call writes the entry of an accepted transfer. -/
def AcceptsTransfer (k : Turn) : Prop :=
  ∃ entry, k.after.log.entries = k.before.log.entries ++ [entry] ∧ entry.kind = .transfer

def AcceptedOnce (pre : List Turn) (k : Turn) : Prop :=
  AcceptsTransfer k → ∀ earlier ∈ pre, AcceptsTransfer earlier →
    earlier.input.1.authorisation ≠ k.input.1.authorisation

/-- The transfer came before an offer that was made since, and comes again. -/
def Replays (pre : List Turn) (e : Event) : Prop :=
  ∃ older earlier newer, pre = older ++ earlier :: newer ∧ e.authorisation ≠ none ∧
    earlier.input.1.authorisation = e.authorisation ∧
    ∃ offer ∈ newer, offer.input.1 = .walletTransferOfferCreated

/-- Since the last transfer that was accepted an offer was made, if the wallet waits for a transfer. -/
def OfferedSince (pre : List Turn) (c : Core) : Prop :=
  c.w2w = .awaitingTransfer → ∀ older earlier newer, pre = older ++ earlier :: newer →
    AcceptsTransfer earlier → ∃ offer ∈ newer, offer.input.1 = .walletTransferOfferCreated

variable {p : Platform} {pre : List Turn} {k : Turn} {c : Core} {out : Core × List Effect}
  {credential signature : Bytes}
  {chain : List Bytes}

theorem AcceptsTransfer.records (h : AcceptsTransfer k) (htaken : Taken p k) :
    ∃ credential chain key signature hash nonce,
      k.input.1 = .walletTransferReceived credential chain key signature hash nonce ∧
      k.before.w2w = .awaitingTransfer := by
  obtain ⟨entry, hgrown, hkind⟩ := h
  obtain ⟨new, hrecords, hcontent⟩ := htaken.outcome.logChange.appended hgrown
  rw [hcontent] at hkind
  generalize hevent : k.input.1 = event at hrecords
  cases hrecords with
  | transfer _ hw2w => exact ⟨_, _, _, _, _, _, rfl, hw2w⟩
  | presentation | payment | issuance => cases hkind

theorem TransferEvent.log_of_waiting {key hash : Bytes} {nonce : ℕ}
    (h : TransferEvent p c (.walletTransferReceived credential chain key signature hash nonce) out)
    (hwaiting : out.1.w2w = .awaitingTransfer) : out.1.log = c.log := by
  cases h with
  | busy => rfl
  | refused | unrecorded => cases hwaiting
  | accepted _ _ _ _ hrecorded =>
    obtain ⟨log, latch, rfl⟩ := appendAuditEntry_eq hrecorded
    cases hwaiting

theorem handleEvent_log_of_waiting {r : Entropy} (hsteady : c.Steady) {key hash : Bytes} {nonce : ℕ} (hwaiting : (c.handleEvent p r
    (.walletTransferReceived credential chain key signature hash nonce)).1.w2w = .awaitingTransfer) :
    (c.handleEvent p r (.walletTransferReceived credential chain key signature hash nonce)).1.log =
      c.log := by
  simp only [handleEvent, auditedFlowStartedBy] at hwaiting ⊢
  split_ifs at hwaiting ⊢
  · cases hwaiting
  · cases hwaiting
  · exact (walletTransferReceived_event hsteady.transfer credential chain key signature hash
      nonce).log_of_waiting hwaiting

theorem AcceptsTransfer.not_waiting (h : AcceptsTransfer k) (htaken : Taken p k) :
    k.after.w2w ≠ .awaitingTransfer := by
  intro hwaiting
  obtain ⟨credential, chain, key, signature, hash, nonce, hevent, -⟩ := h.records htaken
  obtain ⟨entry, hgrown, -⟩ := h
  have hresult := htaken.eq hevent
  have hlog : k.after.log = k.before.log := by
    have hafter : k.after = (k.before.handleEvent p k.input.2
        (.walletTransferReceived credential chain key signature hash nonce)).1 := by rw [hresult]
    rw [hafter] at hwaiting ⊢
    exact handleEvent_log_of_waiting htaken.steady hwaiting
  rw [hlog] at hgrown
  simp at hgrown

theorem TransferEvent.waiting {e : Event} (h : TransferEvent p c e out) (hwaiting : out.1.w2w = .awaitingTransfer)
    : e = .walletTransferOfferCreated ∨ c.w2w = .awaitingTransfer := by
  cases h with
  | busy => exact .inr hwaiting
  | offered | rejected => exact .inl rfl
  | refused | unrecorded => cases hwaiting
  | accepted _ hw2w => exact .inr hw2w

theorem Taken.waiting (htaken : Taken p k) (hwaiting : k.after.w2w = .awaitingTransfer) :
    k.input.1 = .walletTransferOfferCreated ∨ k.before.w2w = .awaitingTransfer := by
  rcases htaken.outcome.seenFrom htaken.steady .walletTransfer nofun with hevent | ⟨hforeign, -⟩
  · exact TransferEvent.waiting hevent hwaiting
  · rcases hforeign.data with data | data <;> replace data := FlowData.walletTransfer.inj data
    · exact .inr (data ▸ hwaiting)
    · rw [data] at hwaiting
      cases hwaiting

theorem OfferedSince.keep (h : OfferedSince pre k.before) (htaken : Taken p k) :
    OfferedSince (pre ++ [k]) k.after := by
  intro hwaiting older earlier newer hsplit haccepts
  -- the call accepted nothing, so the accepted transfer is one of an earlier call
  rcases snoc_eq_append_cons hsplit with ⟨-, -, rfl⟩ | ⟨mid, rfl, hpre⟩
  · exact absurd hwaiting (haccepts.not_waiting htaken)
  · rcases htaken.waiting hwaiting with hoffer | hbefore
    · exact ⟨k, by simp, hoffer⟩
    · obtain ⟨offer, hmem, hoffer⟩ := h hbefore older earlier mid hpre haccepts
      exact ⟨offer, by simp [hmem], hoffer⟩

theorem OfferedSince.acceptedOnce (h : OfferedSince pre k.before) (htaken : Taken p k)
    (hnew : ¬ Replays pre k.input.1) : AcceptedOnce pre k := by
  intro haccepts earlier hmem hearlier hsame
  obtain ⟨credential, chain, key, signature, hash, nonce, hevent, hwaiting⟩ := haccepts.records htaken
  obtain ⟨older, newer, hsplit⟩ := List.append_of_mem hmem
  refine hnew ⟨older, earlier, newer, hsplit, ?_, hsame, h hwaiting older earlier newer hsplit hearlier⟩
  rw [hevent]
  simp [Event.authorisation]

/-- **No transfer is accepted twice** in a run in which no transfer comes again once a new offer was
made. -/
theorem run_acceptedOnce (hfresh : Provisioned p c) (inputs : List (Event × Entropy))
    (hnew : Always (fun pre k => ¬ Replays pre k.input.1) (run p c inputs)) :
    Always AcceptedOnce (run p c inputs) := by
  refine run_always OfferedSince (fun pre k => ¬ Replays pre k.input.1) hfresh ?_
    (fun _ _ htaken hinv _ => hinv.keep htaken) (fun _ _ htaken hinv => hinv.acceptedOnce htaken) inputs hnew
  intro _ older earlier newer hsplit
  simp at hsplit

end Core

/-! ### A licence transferred twice -/

namespace Transferred

def header : Json := .obj [("alg", .str "ES256"), ("typ", .str "dc+sd-jwt")]

def payload : Json := .obj [("cnf", .obj []), ("iss", .str "https://issuer.example"), ("vct", .str "urn:eudi:mdl:1")]

/-- The issuer of the mobile licence, and three bytes for three documents. -/
def platform : Platform := { Expiring.platform with
  parseJson := fun b => if b = [1] then some header else if b = [2] then some Expiring.trustList
    else if b = [3] then some payload else none }

theorem core_provisioned : Core.Provisioned platform Expiring.trusting :=
  Expiring.trusting_provisioned_of (by decide)

def received : Event := .walletTransferReceived (utf8 "AQ.Aw.AQ~") [[4]] [5] [6] (List.replicate 32 7) 8

def once : List (Event × Entropy) := [(.walletTransferOfferCreated, []), (received, [])]

/-- The transfer comes again under a second offer. -/
def twice : List (Event × Entropy) := once ++ once

/-- The call adds an entry of a transfer. -/
def accepts (k : Core.Turn) : Bool :=
  k.after.log.entries.dropLast == k.before.log.entries &&
    k.after.log.entries.getLast?.any (·.kind == .transfer)

theorem accepts_sound {k : Core.Turn} (h : accepts k = true) : Core.AcceptsTransfer k := by
  simp only [accepts, Bool.and_eq_true, beq_iff_eq, Option.any_eq_true] at h
  obtain ⟨hbefore, entry, hlast, hkind⟩ := h
  refine ⟨entry, ?_, hkind⟩
  rw [← hbefore]
  exact (List.dropLast_append_getLast? entry hlast).symm

end Transferred

open Wallet.Core Transferred

/-- The licence is accepted under the first offer. -/
theorem run_acceptedOnce_once : ∃ pre k post, run platform Expiring.trusting once = pre ++ k :: post ∧
    AcceptsTransfer k ∧ AcceptedOnce pre k := by
  have haccepts : (run platform Expiring.trusting once).any accepts = true := by decide
  obtain ⟨k, hk, haccepts⟩ := List.any_eq_true.mp haccepts
  obtain ⟨pre, post, hrun⟩ := List.append_of_mem hk
  refine ⟨pre, k, post, hrun, accepts_sound haccepts, run_acceptedOnce core_provisioned once ?_ pre k post hrun⟩
  rintro pre k post hsplit ⟨older, earlier, newer, rfl, -, -, offer, hoffer, -⟩
  have hlength := congrArg List.length hsplit
  have hnewer := List.length_pos_of_mem hoffer
  have htwo : (run platform Expiring.trusting once).length = 2 := rfl
  simp only [htwo, List.length_append, List.length_cons] at hlength
  omega

/-- The licence is accepted again under the second offer. -/
theorem run_transfer_acceptedTwice : ¬ Always AcceptedOnce (run platform Expiring.trusting twice) := by
  intro h
  have haccepts : (run platform Expiring.trusting twice).map accepts = [false, true, false, true] := by
    decide
  have hevents : (run platform Expiring.trusting twice).map (·.input.1) = twice.map Prod.fst := rfl
  obtain ⟨k₁, k₂, k₃, k₄, hrun⟩ : ∃ k₁ k₂ k₃ k₄,
      run platform Expiring.trusting twice = [k₁, k₂, k₃] ++ k₄ :: [] := ⟨_, _, _, _, rfl⟩
  have honce := h _ _ _ hrun
  rw [hrun] at haccepts hevents
  simp only [twice, once, List.map_cons, List.map_nil, List.cons_append, List.nil_append, List.cons.injEq,
    and_true] at haccepts hevents
  refine honce (accepts_sound haccepts.2.2.2) k₂ (by simp) (accepts_sound haccepts.2.1) ?_
  rw [hevents.2.1, hevents.2.2.2]

end EuWallet.Wallet
