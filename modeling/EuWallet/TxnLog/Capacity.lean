import EuWallet.TxnLog.Restore

/-! # When an append succeeds

`check_append` asks three things: there is a place left, the entry is recordable, and its bytes fit. An
append asks them again for the entry with sorted paths, whose answers are the same, so after a check it
fails on nothing but a hash of zeros. A log that can take any entry can take a recordable one. -/

namespace EuWallet.TxnLog

open Codec Crypto Lib

structure NewEntry.Recordable (e : NewEntry) : Prop where
  epoch : 0 ≤ e.epoch
  counterparty : validateText e.counterparty .counterparty maxCounterpartyBytes = .ok ()
  count : e.claimPaths.length ≤ maxClaimPathsPerEntry
  paths : ∀ path ∈ e.claimPaths, validateText path .claimPath maxClaimPathBytes = .ok ()
  nodup : e.claimPaths.Nodup
  payment : ∀ seq, validatePayment e.kind e.counterparty e.claimPaths e.payment seq = .ok ()
  bytes : fieldsBytes e.counterparty e.claimPaths e.payment ≤ maxEntryBytes

/-- The log has room for the entry. -/
structure TransactionLog.Admits (l : TransactionLog) (e : NewEntry) : Prop where
  place : l.entries.length < maxEntries
  recordable : e.Recordable
  bytes : l.accountedBytes + fieldsBytes e.counterparty e.claimPaths e.payment ≤ maxAggregateBytes

/-- The entry as it is recorded. -/
def NewEntry.sorted (e : NewEntry) : NewEntry :=
  { e with claimPaths := e.claimPaths.insertionSort (· ≤ ·) }

variable {e : NewEntry} {seq n : ℕ}

variable {paths : List String} {payment : Option PaymentSummary} {counterparty : String}

theorem forM_eq_ok {f : String → Except LogError Unit} (h : ∀ path ∈ paths, f path = .ok ()) :
    paths.forM f = .ok () := by
  induction paths with
  | nil => rfl
  | cons path rest ih =>
    have hfirst : f path = .ok () := h path List.mem_cons_self
    have hrest : rest.forM f = .ok () := ih fun q hq => h q (List.mem_cons_of_mem _ hq)
    exact bind_eq_ok.mpr ⟨(), hfirst, hrest⟩

/-- The place of an entry is only named in errors. -/
theorem validatePayment_place {kind : Kind} (h : validatePayment kind counterparty paths payment seq = .ok ())
    (seq' : ℕ) :
    validatePayment kind counterparty paths payment seq' = .ok () := by
  unfold validatePayment at h ⊢
  split at h
  · obtain ⟨hempty, h⟩ := guard_eq_ok.mp h
    obtain ⟨⟨⟩, hpayee, h⟩ := bind_eq_ok.mp h
    obtain ⟨hsame, h⟩ := guard_eq_ok.mp h
    obtain ⟨hamount, h⟩ := guard_eq_ok.mp h
    obtain ⟨⟨⟩, hcurrency, h⟩ := bind_eq_ok.mp h
    refine guard_eq_ok.mpr ⟨hempty, bind_eq_ok.mpr ⟨(), hpayee, guard_eq_ok.mpr ⟨hsame, ?_⟩⟩⟩
    refine guard_eq_ok.mpr ⟨hamount, bind_eq_ok.mpr ⟨(), hcurrency, ?_⟩⟩
    split_ifs at h with hletters
    rw [if_neg hletters]
    exact h
  · cases h
  · cases h
  · rfl

theorem validateNewEntry_ok_iff : validateNewEntry e seq false = .ok n ↔
    e.Recordable ∧ n = fieldsBytes e.counterparty e.claimPaths e.payment := by
  constructor
  · intro h
    obtain ⟨hbytes, hmax⟩ := validateNewEntry_bytes h
    obtain ⟨hepoch, h⟩ := guard_eq_ok.mp h
    obtain ⟨⟨⟩, hcounterparty, h⟩ := bind_eq_ok.mp h
    obtain ⟨⟨⟩, hpaths, h⟩ := bind_eq_ok.mp h
    obtain ⟨⟨⟩, hpayment, -⟩ := bind_eq_ok.mp h
    obtain ⟨hcount, hpaths⟩ := guard_eq_ok.mp hpaths
    obtain ⟨⟨⟩, htexts, hpaths⟩ := bind_eq_ok.mp hpaths
    obtain ⟨hnodup, -⟩ := guard_eq_ok.mp hpaths
    exact ⟨⟨not_lt.mp hepoch, hcounterparty, not_lt.mp hcount, forM_ok _ htexts, not_not.mp hnodup,
      validatePayment_place hpayment, hbytes ▸ hmax⟩, hbytes⟩
  · rintro ⟨⟨hepoch, hcounterparty, hcount, hpaths, hnodup, hpayment, hbytes⟩, rfl⟩
    refine guard_eq_ok.mpr ⟨not_lt.mpr hepoch, bind_eq_ok.mpr ⟨(), hcounterparty, ?_⟩⟩
    refine bind_eq_ok.mpr ⟨(), ?_, bind_eq_ok.mpr ⟨(), hpayment seq, ?_⟩⟩
    · refine guard_eq_ok.mpr ⟨not_lt.mpr hcount, bind_eq_ok.mpr ⟨(), forM_eq_ok hpaths, ?_⟩⟩
      exact guard_eq_ok.mpr ⟨not_not.mpr hnodup, rfl⟩
    · exact if_neg (not_lt.mpr hbytes)

theorem checkOrder_of_sorted (h : paths.Pairwise (· < ·)) : checkOrder paths = .ok () := by
  induction paths with
  | nil => rfl
  | cons a rest ih =>
    cases rest with
    | nil => rfl
    | cons b rest =>
      obtain ⟨hfirst, hrest⟩ := List.pairwise_cons.mp h
      have hlt : a < b := hfirst b List.mem_cons_self
      rw [checkOrder, if_neg (by rintro rfl; exact String.lt_irrefl _ hlt), if_neg (String.lt_asymm hlt)]
      exact ih hrest

theorem fieldsBytes_perm {paths' : List String} (h : paths.Perm paths') :
    fieldsBytes counterparty paths payment = fieldsBytes counterparty paths' payment := by
  simp [fieldsBytes, (h.map fun path => 8 + path.utf8ByteSize).sum_eq]

theorem NewEntry.Recordable.sorted (h : e.Recordable) : validateNewEntry e.sorted seq true =
    .ok (fieldsBytes e.counterparty e.claimPaths e.payment) := by
  have hperm : (e.claimPaths.insertionSort (· ≤ ·)).Perm e.claimPaths := List.perm_insertionSort _ _
  have hnodup : (e.claimPaths.insertionSort (· ≤ ·)).Nodup := hperm.nodup_iff.mpr h.nodup
  have hstrict : (e.claimPaths.insertionSort (· ≤ ·)).Pairwise (· < ·) := by
    have hsorted := List.pairwise_insertionSort (· ≤ ·) e.claimPaths
    refine (hsorted.and hnodup).imp fun {a b} hle => ?_
    by_contra hlt
    exact hle.2 (String.le_antisymm hle.1 (String.not_lt.mp hlt))
  have hbytes : fieldsBytes e.counterparty (e.claimPaths.insertionSort (· ≤ ·)) e.payment =
      fieldsBytes e.counterparty e.claimPaths e.payment := fieldsBytes_perm hperm
  refine guard_eq_ok.mpr ⟨not_lt.mpr h.epoch, bind_eq_ok.mpr ⟨(), h.counterparty, ?_⟩⟩
  refine bind_eq_ok.mpr ⟨(), ?_, bind_eq_ok.mpr ⟨(), ?_, ?_⟩⟩
  · refine guard_eq_ok.mpr ⟨?_, bind_eq_ok.mpr ⟨(), forM_eq_ok ?_, ?_⟩⟩
    · rw [not_lt]
      exact hperm.length_eq.le.trans h.count
    · exact fun path hpath => h.paths path (hperm.mem_iff.mp hpath)
    · exact guard_eq_ok.mpr ⟨not_not.mpr hnodup, checkOrder_of_sorted hstrict⟩
  · have hempty : (e.claimPaths.insertionSort (· ≤ ·)).isEmpty = e.claimPaths.isEmpty := by
      rw [Bool.eq_iff_iff, List.isEmpty_iff_length_eq_zero, List.isEmpty_iff_length_eq_zero, hperm.length_eq]
    have hpayment := h.payment seq
    unfold validatePayment at hpayment ⊢
    simp only [NewEntry.sorted, hempty]
    exact hpayment
  · simp only [NewEntry.sorted, accountedFieldsBytes, hbytes]
    exact if_neg (not_lt.mpr h.bytes)

variable {p : Platform} {l : TransactionLog}

theorem checkAppend_ok_iff : l.checkAppend e = .ok () ↔ l.Admits e := by
  constructor
  · intro h
    obtain ⟨hplace, h⟩ := guard_eq_ok.mp h
    obtain ⟨n, hvalid, h⟩ := bind_eq_ok.mp h
    obtain ⟨hrecordable, rfl⟩ := validateNewEntry_ok_iff.mp hvalid
    split_ifs at h with hbytes
    exact ⟨not_le.mp hplace, hrecordable, not_lt.mp hbytes⟩
  · rintro ⟨hplace, hrecordable, hbytes⟩
    refine guard_eq_ok.mpr ⟨not_le.mpr hplace, ?_⟩
    refine bind_eq_ok.mpr ⟨_, validateNewEntry_ok_iff.mpr ⟨hrecordable, rfl⟩, ?_⟩
    exact if_neg (not_lt.mpr hbytes)

theorem TransactionLog.Admits.append (h : l.Admits e) (hnonzero : ∀ b, p.sha256 b ≠ zeroHash) :
    l.append p e = .ok ⟨l.entries ++ [⟨e.sorted, l.entries.length, l.head,
        hashEntry p l.entries.length l.head e.sorted, false⟩],
      l.accountedBytes + fieldsBytes e.counterparty e.claimPaths e.payment⟩ := by
  refine bind_eq_ok.mpr ⟨(), checkAppend_ok_iff.mpr h, ?_⟩
  refine bind_eq_ok.mpr ⟨_, h.recordable.sorted, guard_eq_ok.mpr ⟨not_lt.mpr h.bytes, ?_⟩⟩
  exact guard_eq_ok.mpr ⟨hnonzero _, rfl⟩

/-- Erasing the content of an entry makes no log fuller. -/
theorem canGuaranteeMaxEntry_redact (hroom : l.canGuaranteeMaxEntry = true) (seq : ℕ) :
    (l.redact seq).1.canGuaranteeMaxEntry = true := by
  have hbytes : (l.redact seq).1.accountedBytes ≤ l.accountedBytes := by
    unfold TransactionLog.redact
    split
    · exact le_rfl
    · next entry _ =>
      dsimp only
      split_ifs with hredacted hold
      · exact le_rfl
      · exact le_rfl
      · have hge := fieldsBytes_ge entry.counterparty entry.claimPaths entry.payment
        dsimp only
        omega
  simp only [TransactionLog.canGuaranteeMaxEntry, Bool.and_eq_true, decide_eq_true_eq] at hroom ⊢
  exact ⟨by rw [length_redact]; exact hroom.1, by omega⟩

theorem admits_of_canGuaranteeMaxEntry (hroom : l.canGuaranteeMaxEntry = true) (h : e.Recordable) :
    l.Admits e := by
  simp only [TransactionLog.canGuaranteeMaxEntry, Bool.and_eq_true, decide_eq_true_eq] at hroom
  exact ⟨hroom.1, h, (Nat.add_le_add_left h.bytes _).trans hroom.2⟩

end EuWallet.TxnLog
