import EuWallet.Codec.Numbers
import EuWallet.Delivery.Invariant

/-! # The checkpoint of a delivery ledger

A ledger that was reached from a new one is restored from its own parts and its digest. The digest is the
hash of a transcript that leaves out the requests and the results but has their hashes; the transcript can be
read back field by field, so under a hash without collisions among the bytes in question the digest fixes the
whole ledger. -/

namespace EuWallet.Delivery

open Codec Codec.Cbor Crypto Lib

/-! ### The parts of a transcript -/

theorem DeliveryKind.tag_injective : Function.Injective DeliveryKind.tag := by
  intro a b h
  cases a <;> cases b <;> first | rfl | cases h

theorem RecoveryPolicy.tag_injective : Function.Injective RecoveryPolicy.tag := by
  intro a b h
  cases a <;> cases b <;> first | rfl | cases h

theorem DeliveryState.tag_injective : Function.Injective DeliveryState.tag := by
  intro a b h
  cases a <;> cases b <;> first | rfl | cases h

theorem optionalBytes_splits {α : Type} {S : Set α} {f : α → Bytes} (hf : SplitsOn S f) :
    SplitsOn {o | ∀ a ∈ o, a ∈ S} (optionalBytes f) := by
  have hmarked : optionalBytes f = fun o => o.elim [0] fun a => 1 :: f a := by
    funext o
    cases o <;> rfl
  rw [hmarked]
  exact hf.option 0 1 (by decide)

theorem contract_splits : SplitsOn Set.univ fun c : NonZeroU64 => beBytes 8 c.1.toNat :=
  (beBytes_splits 8).comp (fun c _ => c.1.toNat_lt) fun _ _ _ _ h =>
    Subtype.ext (UInt64.toNat_inj.mp h)

theorem ofNat_inj {a b : ℕ} (ha : a ≤ maxDeliveryAttempts) (hb : b ≤ maxDeliveryAttempts)
    (h : UInt8.ofNat a = UInt8.ofNat b) : a = b := by
  have hnat : a % 256 = b % 256 := by simpa using congrArg UInt8.toNat h
  unfold maxDeliveryAttempts at ha hb
  omega

/-- A number of a ledger that is written in eight bytes. -/
theorem lt_of_le_capacity {n : ℕ} (h : n ≤ maxDeliveryBlobBytes) : n < 256 ^ 8 :=
  h.trans_lt (by decide)

section
variable {p : Platform} {space : Hash32}

theorem entry_splits {S : Set DeliveryEntry} (hsound : ∀ e ∈ S, e.Sound p space)
    (hsequence : ∀ e ∈ S, e.sequence < 256 ^ 8)
    (hcollision : Set.InjOn p.sha256 {b | ∃ e ∈ S, e.request = b ∨ e.result = some b}) :
    SplitsOn S DeliveryEntry.transcript := by
  intro a ha b hb s t h
  have hsa := hsound a ha
  have hsb := hsound b hb
  simp only [DeliveryEntry.transcript, List.append_assoc] at h
  obtain ⟨hid, h⟩ := hash_splits _ trivial _ trivial _ _ h
  obtain ⟨hseq, h⟩ := beBytes_splits 8 _ (hsequence a ha) _ (hsequence b hb) _ _ h
  obtain ⟨hkind, h⟩ := List.cons.inj h
  obtain ⟨hpolicy, h⟩ := List.cons.inj h
  obtain ⟨hstate, h⟩ := List.cons.inj h
  obtain ⟨hrequestHash, h⟩ := hash_splits _ trivial _ trivial _ _ h
  obtain ⟨hcapacity, h⟩ :=
    beBytes_splits 8 _ (lt_of_le_capacity hsa.capacity) _ (lt_of_le_capacity hsb.capacity) _ _ h
  obtain ⟨hresultHash, h⟩ := optionalBytes_splits hash_splits _ (fun _ _ => trivial) _ (fun _ _ => trivial) _ _ h
  obtain ⟨hattempt, h⟩ := List.cons.inj h
  obtain ⟨hcontract, h⟩ := optionalBytes_splits contract_splits _ (fun _ _ => trivial) _ (fun _ _ => trivial) _ _ h
  refine ⟨?_, h⟩
  have hrequest : a.request = b.request := by
    refine hcollision ⟨a, ha, .inl rfl⟩ ⟨b, hb, .inl rfl⟩ ?_
    rw [← hsa.requestHash, ← hsb.requestHash, hrequestHash]
  have hresult : a.result = b.result := by
    rw [hsa.resultHash, hsb.resultHash] at hresultHash
    cases hra : a.result <;> cases hrb : b.result <;> rw [hra, hrb] at hresultHash
    · cases hresultHash
    · cases hresultHash
    · exact congrArg some (hcollision ⟨a, ha, .inr hra⟩ ⟨b, hb, .inr hrb⟩ (Option.some.inj hresultHash))
  exact DeliveryEntry.ext hseq (DeliveryKind.tag_injective hkind) (RecoveryPolicy.tag_injective hpolicy)
    hrequestHash hcapacity hid (DeliveryState.tag_injective hstate) hrequest hresult hresultHash
    (ofNat_inj hsa.attempt_le hsb.attempt_le hattempt) hcontract

theorem tombstone_splits {S : Set DeliveryTombstone} (hsound : ∀ t ∈ S, t.Sound p space)
    (hsequence : ∀ t ∈ S, t.sequence < 256 ^ 8) : SplitsOn S DeliveryTombstone.transcript := by
  intro a ha b hb s t h
  have hsa := hsound a ha
  have hsb := hsound b hb
  simp only [DeliveryTombstone.transcript, List.append_assoc] at h
  obtain ⟨hid, h⟩ := hash_splits _ trivial _ trivial _ _ h
  obtain ⟨hseq, h⟩ := beBytes_splits 8 _ (hsequence a ha) _ (hsequence b hb) _ _ h
  obtain ⟨hkind, h⟩ := List.cons.inj h
  obtain ⟨hpolicy, h⟩ := List.cons.inj h
  obtain ⟨hrequestHash, h⟩ := hash_splits _ trivial _ trivial _ _ h
  obtain ⟨hcapacity, h⟩ :=
    beBytes_splits 8 _ (lt_of_le_capacity hsa.capacity) _ (lt_of_le_capacity hsb.capacity) _ _ h
  obtain ⟨hattempt, h⟩ := List.cons.inj h
  obtain ⟨hcontract, h⟩ := contract_splits _ trivial _ trivial _ _ h
  obtain ⟨hresultHash, h⟩ := hash_splits _ trivial _ trivial _ _ h
  obtain ⟨-, h⟩ := List.cons.inj h
  exact ⟨DeliveryTombstone.ext hseq (DeliveryKind.tag_injective hkind) (RecoveryPolicy.tag_injective hpolicy)
    hrequestHash hcapacity hid (ofNat_inj hsa.attempt.2 hsb.attempt.2 hattempt) hcontract hresultHash rfl, h⟩

/-! ### The digest fixes the ledger -/

def DeliveryLedger.hashed (l : DeliveryLedger) : Set Bytes :=
  {b | b = l.transcript ∨ ∃ e ∈ l.live, e.request = b ∨ e.result = some b}

variable {l m : DeliveryLedger}

theorem DeliveryLedger.Sound.sequence_lt (h : l.Sound p) {n : ℕ} (hn : n ∈ l.sequences) : n < 256 ^ 8 := by
  have hroom := h.room
  have hlimit := h.limit
  rw [h.sequences, List.mem_range'_1] at hn
  unfold maxDeliverySequence at hlimit
  omega

theorem transcript_inj (hl : l.Sound p) (hm : m.Sound p) (hcollision : Set.InjOn p.sha256 (l.hashed ∪ m.hashed))
    (h : l.transcript = m.transcript) : l = m := by
  have hsmall {a : DeliveryLedger} (ha : a.Sound p) : a.nextSequence < 256 ^ 8 ∧ a.reservedBytes < 256 ^ 8 ∧
      a.live.length < 256 ^ 8 ∧ a.tombstones.length < 256 ^ 8 :=
    ⟨ha.limit.trans_lt (by decide), ha.budget.trans_lt (by decide), ha.live_le.trans_lt (by decide),
      ha.tombstones_le.trans_lt (by decide)⟩
  obtain ⟨hnext, hreserved, hlive, htombs⟩ := hsmall hl
  obtain ⟨hnext', hreserved', hlive', htombs'⟩ := hsmall hm
  replace h := List.append_cancel_left h
  obtain ⟨espace, h⟩ := hash_splits _ trivial _ trivial _ _ h
  obtain ⟨enext, h⟩ := beBytes_splits 8 _ hnext _ hnext' _ _ h
  obtain ⟨ereserved, h⟩ := beBytes_splits 8 _ hreserved _ hreserved' _ _ h
  obtain ⟨elength, h⟩ := beBytes_splits 8 _ hlive _ hlive' _ _ h
  have hentries : SplitsOn {e | e ∈ l.live ∨ e ∈ m.live} DeliveryEntry.transcript := by
    have hsound : ∀ e ∈ {e | e ∈ l.live ∨ e ∈ m.live}, e.Sound p l.space := by
      rintro e (he | he)
      · exact hl.entries e he
      · rw [espace]
        exact hm.entries e he
    refine entry_splits hsound ?_ (hcollision.mono ?_)
    · rintro e (he | he)
      · exact hl.sequence_lt (List.mem_append_right _ (List.mem_map_of_mem he))
      · exact hm.sequence_lt (List.mem_append_right _ (List.mem_map_of_mem he))
    · rintro b ⟨e, he | he, hb⟩
      · exact .inl (.inr ⟨e, he, hb⟩)
      · exact .inr (.inr ⟨e, he, hb⟩)
  obtain ⟨elive, h⟩ := hentries.flatMap elength (fun e he => .inl he) (fun e he => .inr he) h
  obtain ⟨etombsLength, h⟩ := beBytes_splits 8 _ htombs _ htombs' _ _ h
  have hburied : SplitsOn {t | t ∈ l.tombstones ∨ t ∈ m.tombstones} DeliveryTombstone.transcript := by
    have hsound : ∀ t ∈ {t | t ∈ l.tombstones ∨ t ∈ m.tombstones}, t.Sound p l.space := by
      rintro t (ht | ht)
      · exact hl.tombstones t ht
      · rw [espace]
        exact hm.tombstones t ht
    refine tombstone_splits hsound ?_
    rintro t (ht | ht)
    · exact hl.sequence_lt (List.mem_append_left _ (List.mem_map_of_mem ht))
    · exact hm.sequence_lt (List.mem_append_left _ (List.mem_map_of_mem ht))
  rw [← List.append_nil (l.tombstones.flatMap _), ← List.append_nil (m.tombstones.flatMap _)] at h
  obtain ⟨etombs, -⟩ := hburied.flatMap etombsLength (fun t ht => .inl ht) (fun t ht => .inr ht) h
  cases l
  simp only at espace enext ereserved elive etombs
  rw [espace, enext, ereserved, elive, etombs]

end

def DeliveryLedger.restoreSaved (p : Platform) (l : DeliveryLedger) : Reply DeliveryLedger :=
  DeliveryLedger.restoreChecked p l.space l.nextSequence (l.live.map (·.saved)) (l.tombstones.map (·.saved))
    (l.digest p)

/-- A ledger that was reached from a new one is restored from its parts and its digest, and nothing else is
restored with that digest. -/
theorem restoreChecked_ledgerAfter (p : Platform) (space : Hash32) (ops : List Operation) :
    (ledgerAfter p (.new space) ops).restoreSaved p = .ok (ledgerAfter p (.new space) ops) ∧
      ∀ space' nextSequence live tombstones m, DeliveryLedger.restoreChecked p space' nextSequence live tombstones
            ((ledgerAfter p (.new space) ops).digest p) = .ok m →
          Set.InjOn p.sha256 ((ledgerAfter p (.new space) ops).hashed ∪ m.hashed) →
            m = ledgerAfter p (.new space) ops := by
  have hsound := sound_ledgerAfter ops (DeliveryLedger.sound_new p space)
  generalize ledgerAfter p (.new space) ops = l at hsound
  refine ⟨restoreChecked_eq_ok_iff.mpr ⟨⟨rfl, rfl, rfl, rfl, rfl⟩, hsound⟩, ?_⟩
  intro space' nextSequence live tombstones m hok hcollision
  obtain ⟨⟨-, -, -, -, hdigest⟩, hm⟩ := restoreChecked_eq_ok_iff.mp hok
  have htranscript : l.transcript = m.transcript := hcollision (.inl (.inl rfl)) (.inr (.inl rfl)) hdigest
  exact (transcript_inj hsound hm hcollision htranscript).symm

/-! A ledger with one delivery, and a hash that tells its request from its transcript. -/

namespace Saved

def mark : Hash32 := oneHash

def platform : Platform :=
  { (default : Platform) with sha256 := fun b => if b = [1] then zeroHash else mark }

def prepared : PreparedDelivery := { Sample.prepared with id := mark }

def ledger : DeliveryLedger := ledgerAfter platform (.new zeroHash) [.enqueue prepared]

theorem hashed_injOn : Set.InjOn platform.sha256 (ledger.hashed ∪ ledger.hashed) := by
  have hne : platform.sha256 ledger.transcript ≠ platform.sha256 [1] := by decide
  have hlive : ∀ e ∈ ledger.live, e.request = [1] ∧ e.result = none := by decide
  have hcases : ∀ b ∈ ledger.hashed, b = ledger.transcript ∨ b = [1] := by
    rintro b (hb | ⟨e, he, hb | hb⟩)
    · exact .inl hb
    · exact .inr (hb.symm.trans (hlive e he).1)
    · rw [(hlive e he).2] at hb
      cases hb
  rw [Set.union_self]
  intro a ha b hb h
  rcases hcases a ha with rfl | rfl <;> rcases hcases b hb with rfl | rfl
  · rfl
  · exact absurd h hne
  · exact absurd h.symm hne
  · rfl

end Saved

theorem restoreChecked_ledgerAfter_saved : Saved.ledger.live.length = 1 ∧
      ∃ m, Saved.ledger.restoreSaved Saved.platform = .ok m ∧ m = Saved.ledger :=
  ⟨by decide, Saved.ledger, (restoreChecked_ledgerAfter Saved.platform zeroHash _).1,
    (restoreChecked_ledgerAfter Saved.platform zeroHash [.enqueue Saved.prepared]).2 _ _ _ _ _
      (restoreChecked_ledgerAfter Saved.platform zeroHash _).1 Saved.hashed_injOn⟩

end EuWallet.Delivery
