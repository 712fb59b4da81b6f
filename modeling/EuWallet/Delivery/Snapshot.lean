import EuWallet.Delivery.Ledger
import EuWallet.Lib.Except
import Mathlib.Algebra.BigOperators.Group.List.Basic

/-! # Restoring a delivery ledger

`restore_checked` rebuilds a ledger from decoded checkpoint material and the digest that was anchored for
it. `Consistent` is what holds of the ledger as a whole, `Sound` adds what holds of each delivery in it, and
`restoreChecked_eq_ok_iff` says that exactly the parts of the sound ledgers are accepted, each with the
digest of its ledger. -/

namespace EuWallet.Delivery

open Codec Crypto Lib DeliveryLedger

/-! ### The digest -/

def deliveryLedgerDigestDomain : Bytes := utf8 "euwallet.delivery-ledger.digest.v1\x00"

def optionalBytes {α : Type} (f : α → Bytes) : Option α → Bytes
  | some a => 1 :: f a
  | none => [0]

def DeliveryEntry.transcript (e : DeliveryEntry) : Bytes :=
  e.id.1 ++ (beBytes 8 e.sequence ++ ([e.kind.tag] ++ ([e.recoveryPolicy.tag] ++ ([e.state.tag] ++
    (e.requestHash.1 ++ (beBytes 8 e.resultCapacity ++ (optionalBytes (·.1) e.resultHash ++
      ([UInt8.ofNat e.attempt] ++ optionalBytes (beBytes 8 ·.1.toNat) e.adapterContract))))))))

def DeliveryTombstone.transcript (t : DeliveryTombstone) : Bytes :=
  t.id.1 ++ (beBytes 8 t.sequence ++ ([t.kind.tag] ++ ([t.recoveryPolicy.tag] ++ (t.requestHash.1 ++
    (beBytes 8 t.resultCapacity ++ ([UInt8.ofNat t.attempt] ++ (beBytes 8 t.adapterContract.1.toNat ++
      (t.resultHash.1 ++ [t.disposition.tag]))))))))

def DeliveryLedger.transcript (l : DeliveryLedger) : Bytes :=
  deliveryLedgerDigestDomain ++ (l.space.1 ++ (beBytes 8 l.nextSequence ++ (beBytes 8 l.reservedBytes ++
    (beBytes 8 l.live.length ++ (l.live.flatMap DeliveryEntry.transcript ++
      (beBytes 8 l.tombstones.length ++ l.tombstones.flatMap DeliveryTombstone.transcript))))))

def DeliveryLedger.digest (p : Platform) (l : DeliveryLedger) : Hash32 := p.sha256 l.transcript

/-! ### Decoded material -/

structure RestoredDelivery extends Header where
  id : Hash32
  state : DeliveryState
  request : Bytes
  result : Option Bytes
  resultHash : Option Hash32
  attempt : ℕ
  adapterContract : Option UInt64

structure RestoredTombstone extends Header where
  id : Hash32
  attempt : ℕ
  adapterContract : UInt64
  resultHash : Hash32
  disposition : TombstoneDisposition

/-- All fields of a live entry. -/
def DeliveryEntry.saved (e : DeliveryEntry) : RestoredDelivery :=
  { e.toHeader with
    id := e.id
    state := e.state
    request := e.request
    result := e.result
    resultHash := e.resultHash
    attempt := e.attempt
    adapterContract := e.adapterContract.map (·.1) }

/-- All fields of a tombstone. -/
def DeliveryTombstone.saved (t : DeliveryTombstone) : RestoredTombstone :=
  { t.toHeader with
    id := t.id
    attempt := t.attempt
    adapterContract := t.adapterContract.1
    resultHash := t.resultHash
    disposition := t.disposition }

/-! ### The checks -/

def invalidSnapshot : Fault := .err .invalidSnapshot

/-- One round of the loop over the tombstones; `ids` are the ids seen so far. -/
def restoreTombstone (p : Platform) (space : Hash32) (expectedSequence : ℕ) (ids : List Hash32)
    (restored : RestoredTombstone) : Reply DeliveryTombstone := do
  if restored.sequence ≠ expectedSequence ∨ restored.sequence = 0 ∨
      maxDeliverySequence < restored.sequence ∨
      restored.recoveryPolicy ≠ restored.kind.recoveryPolicy ∨
      maxDeliveryBlobBytes < restored.resultCapacity ∨
      ¬ (1 ≤ restored.attempt ∧ restored.attempt ≤ maxDeliveryAttempts) then
    throw invalidSnapshot
  match nonZero restored.adapterContract with
  | none => throw invalidSnapshot
  | some adapterContract =>
    if restored.id ≠ deriveId p space restored.toHeader ∨ restored.id ∈ ids then throw invalidSnapshot
    return { restored.toHeader with
      id := restored.id
      attempt := restored.attempt
      adapterContract := adapterContract
      resultHash := restored.resultHash
      disposition := restored.disposition }

def restoreTombstones (p : Platform) (space : Hash32) : ℕ → List Hash32 → List RestoredTombstone →
    Reply (List DeliveryTombstone × List Hash32 × ℕ)
  | expectedSequence, ids, [] => .ok ([], ids, expectedSequence)
  | expectedSequence, ids, restored :: rest => do
    let tombstone ← restoreTombstone p space expectedSequence ids restored
    let (tombstones, ids, expectedSequence) ←
      restoreTombstones p space (expectedSequence + 1) (ids ++ [restored.id]) rest
    return (tombstone :: tombstones, ids, expectedSequence)

def DeliveryEntry.validState (e : DeliveryEntry) : Bool :=
  match e.state with
  | .queued =>
    e.result.isNone && e.resultHash.isNone &&
      (e.attempt == 0 && e.adapterContract.isNone ||
        (decide (1 ≤ e.attempt) && decide (e.attempt < maxDeliveryAttempts)) && e.adapterContract.isSome &&
          decide e.recoveryPolicy.Replayable)
  | .dispatching | .ambiguous =>
    (decide (1 ≤ e.attempt) && decide (e.attempt ≤ maxDeliveryAttempts)) && e.adapterContract.isSome &&
      e.result.isNone && e.resultHash.isNone
  | .resultReady =>
    (decide (1 ≤ e.attempt) && decide (e.attempt ≤ maxDeliveryAttempts)) && e.adapterContract.isSome &&
      e.result.isSome && e.resultHash.isSome

/-- A queued entry that was never claimed. -/
def DeliveryEntry.Fresh (e : DeliveryEntry) : Prop :=
  e.state = .queued ∧ e.attempt = 0 ∧ e.adapterContract = none ∧ e.result = none ∧ e.resultHash = none

instance (e : DeliveryEntry) : Decidable e.Fresh := inferInstanceAs (Decidable (_ ∧ _))

def restoreContract : Option UInt64 → Reply (Option NonZeroU64)
  | none => .ok none
  | some value =>
    match nonZero value with
    | none => .error invalidSnapshot
    | some contract => .ok (some contract)

/-- One round of the loop over the live entries. -/
def restoreDelivery (p : Platform) (space : Hash32) (index expectedSequence : ℕ) (ids : List Hash32)
    (reservedBytes : ℕ) (restored : RestoredDelivery) : Reply DeliveryEntry := do
  if restored.sequence ≠ expectedSequence ∨ restored.sequence = 0 ∨
      maxDeliverySequence < restored.sequence ∨
      restored.recoveryPolicy ≠ restored.kind.recoveryPolicy ∨
      maxDeliveryBlobBytes < restored.request.length ∨
      maxDeliveryBlobBytes < restored.resultCapacity then
    throw invalidSnapshot
  let reservation ← reservationSize restored.request.length restored.resultCapacity
  ensureBudget reservedBytes reservation
  if p.sha256 restored.request ≠ restored.requestHash then throw invalidSnapshot
  if restored.id ≠ deriveId p space restored.toHeader ∨ restored.id ∈ ids then throw invalidSnapshot
  let adapterContract ← restoreContract restored.adapterContract
  if restored.result.any (fun value => decide (maxDeliveryBlobBytes < value.length)) = true ∨
      restored.result.any (fun value => decide (restored.resultCapacity < value.length)) = true ∨
      restored.result.isSome ≠ restored.resultHash.isSome then
    throw invalidSnapshot
  if ∃ value ∈ restored.result, ∃ hash ∈ restored.resultHash, p.sha256 value ≠ hash then
    throw invalidSnapshot
  let entry : DeliveryEntry :=
    { restored.toHeader with
      id := restored.id
      state := restored.state
      request := restored.request
      result := restored.result
      resultHash := restored.resultHash
      attempt := restored.attempt
      adapterContract := adapterContract }
  if ¬ (entry.validState = true) ∨ ¬ (index = 0 ∨ entry.Fresh) then throw invalidSnapshot
  return entry

def restoreLive (p : Platform) (space : Hash32) : ℕ → ℕ → List Hash32 → ℕ → List RestoredDelivery →
    Reply (List DeliveryEntry × ℕ × ℕ)
  | _, expectedSequence, _, reservedBytes, [] => .ok ([], expectedSequence, reservedBytes)
  | index, expectedSequence, ids, reservedBytes, restored :: rest => do
    let entry ← restoreDelivery p space index expectedSequence ids reservedBytes restored
    let (live, expectedSequence, reservedBytes) ←
      restoreLive p space (index + 1) (expectedSequence + 1) (ids ++ [restored.id])
        (reservedBytes + (restored.request.length + restored.resultCapacity)) rest
    return (entry :: live, expectedSequence, reservedBytes)

def DeliveryLedger.restoreChecked (p : Platform) (space : Hash32) (nextSequence : ℕ)
    (restoredLive : List RestoredDelivery) (restoredTombstones : List RestoredTombstone)
    (expectedDigest : Hash32) : Reply DeliveryLedger := do
  if maxLiveDeliveries < restoredLive.length ∨ maxDeliveryTombstones < restoredTombstones.length ∨
      nextSequence = 0 ∨ maxDeliverySequence + 1 < nextSequence then
    throw invalidSnapshot
  let retainedCount := restoredLive.length + restoredTombstones.length
  if (retainedCount = 0 ∧ nextSequence ≠ 1) ∨ (retainedCount ≠ 0 ∧ nextSequence ≤ retainedCount) then
    throw invalidSnapshot
  let (tombstones, ids, expectedSequence) ←
    restoreTombstones p space (nextSequence - retainedCount) [] restoredTombstones
  let (live, expectedSequence, reservedBytes) ←
    restoreLive p space 0 expectedSequence ids 0 restoredLive
  if expectedSequence ≠ nextSequence then throw invalidSnapshot
  let ledger : DeliveryLedger := ⟨space, nextSequence, live, tombstones, reservedBytes⟩
  if ledger.digest p ≠ expectedDigest then throw (.err .snapshotDigestMismatch)
  return ledger

/-! ### What a ledger satisfies -/

/-- The bytes that are reserved for a live entry. -/
def DeliveryEntry.reservation (e : DeliveryEntry) : ℕ := e.request.length + e.resultCapacity

/-- The sequences of the tombstones, then those of the live entries. -/
def DeliveryLedger.sequences (l : DeliveryLedger) : List ℕ :=
  l.tombstones.map (·.sequence) ++ l.live.map (·.sequence)

/-- The ids in the same order. -/
def DeliveryLedger.ids (l : DeliveryLedger) : List Hash32 :=
  l.tombstones.map (·.id) ++ l.live.map (·.id)

structure DeliveryLedger.Consistent (l : DeliveryLedger) : Prop where
  room : l.sequences.length < l.nextSequence
  sequences : l.sequences = List.range' (l.nextSequence - l.sequences.length) l.sequences.length
  ids : l.ids.Nodup
  followers : ∀ e ∈ l.live.tail, e.Fresh
  dispatching : l.live.countP (·.state == .dispatching) ≤ 1
  reserved : l.reservedBytes = (l.live.map (·.reservation)).sum
  budget : l.reservedBytes ≤ maxReservedDeliveryBytes
  live_le : l.live.length ≤ maxLiveDeliveries
  tombstones_le : l.tombstones.length ≤ maxDeliveryTombstones

structure DeliveryTombstone.Sound (p : Platform) (space : Hash32) (t : DeliveryTombstone) : Prop where
  policy : t.recoveryPolicy = t.kind.recoveryPolicy
  capacity : t.resultCapacity ≤ maxDeliveryBlobBytes
  attempt : 1 ≤ t.attempt ∧ t.attempt ≤ maxDeliveryAttempts
  id : t.id = deriveId p space t.toHeader

/-- The derived fields of a live entry are what they are derived from, and its state fits the rest. -/
structure DeliveryEntry.Sound (p : Platform) (space : Hash32) (e : DeliveryEntry) : Prop where
  policy : e.recoveryPolicy = e.kind.recoveryPolicy
  request : e.request.length ≤ maxDeliveryBlobBytes
  capacity : e.resultCapacity ≤ maxDeliveryBlobBytes
  requestHash : e.requestHash = p.sha256 e.request
  id : e.id = deriveId p space e.toHeader
  result : ∀ r ∈ e.result, r.length ≤ e.resultCapacity
  resultHash : e.resultHash = e.result.map p.sha256
  state : e.validState = true

structure DeliveryLedger.Sound (p : Platform) (l : DeliveryLedger) : Prop extends l.Consistent where
  limit : l.nextSequence ≤ maxDeliverySequence + 1
  empty : l.sequences = [] → l.nextSequence = 1
  tombstones : ∀ t ∈ l.tombstones, t.Sound p l.space
  entries : ∀ e ∈ l.live, e.Sound p l.space

/-! ### What is accepted -/

variable {p : Platform} {space : Hash32} {ids : List Hash32} {expected expected' : ℕ} {es : List DeliveryEntry}
  {l : DeliveryLedger}

theorem nonZero_eq_some {c : UInt64} {contract : NonZeroU64} : nonZero c = some contract ↔ c = contract.1 := by
  unfold nonZero
  split_ifs with h
  · simp [Subtype.ext_iff]
  · push Not at h
    simp only [false_iff, h]
    exact fun h0 => contract.2 h0.symm

theorem restoreContract_eq_ok {value : Option UInt64} {contract : Option NonZeroU64} :
    restoreContract value = .ok contract ↔ value = contract.map (·.1) := by
  unfold restoreContract
  cases value with
  | none => cases contract <;> simp
  | some c =>
    cases hc : nonZero c with
    | none =>
      have hzero : ∀ d : NonZeroU64, c ≠ d.1 := fun d h => by simp [nonZero_eq_some.mpr h] at hc
      cases contract <;> simp [hc, hzero]
    | some d =>
      obtain rfl : c = d.1 := nonZero_eq_some.mp hc
      cases contract <;> simp [hc, Subtype.ext_iff]

theorem restoreTombstone_eq_ok {r : RestoredTombstone} {t : DeliveryTombstone} :
    restoreTombstone p space expected ids r = .ok t ↔
      r = t.saved ∧ (t.sequence = expected ∧ t.sequence ≠ 0 ∧ t.sequence ≤ maxDeliverySequence) ∧
        t.Sound p space ∧ t.id ∉ ids := by
  unfold restoreTombstone
  rw [guard_eq_ok]
  constructor
  · rintro ⟨hchecks, h⟩
    cases hc : nonZero r.adapterContract with
    | none =>
      rw [hc] at h
      cases h
    | some contract =>
      rw [hc] at h
      simp only [guard_eq_ok, pure_eq_ok] at h
      obtain ⟨hid, rfl⟩ := h
      push Not at hchecks hid
      obtain ⟨hseq, hzero, hmax, hpolicy, hcapacity, hattempt⟩ := hchecks
      refine ⟨?_, ⟨hseq, hzero, hmax⟩, ⟨hpolicy, hcapacity, hattempt, hid.1⟩, hid.2⟩
      simp [DeliveryTombstone.saved, ← nonZero_eq_some.mp hc]
  · rintro ⟨rfl, ⟨hseq, hzero, hmax⟩, ht, hfresh⟩
    have hcontract : nonZero t.saved.adapterContract = some t.adapterContract := nonZero_eq_some.mpr rfl
    rw [hcontract]
    simp only [guard_eq_ok, pure_eq_ok]
    push Not
    exact ⟨⟨hseq, hzero, hmax, ht.policy, ht.capacity, ht.attempt⟩, ⟨ht.id, hfresh⟩, rfl⟩

theorem restoreTombstones_eq_ok {rs : List RestoredTombstone} {ids' : List Hash32} {ts : List DeliveryTombstone}
    : restoreTombstones p space expected ids rs = .ok (ts, ids', expected') ↔
      rs = ts.map (·.saved) ∧ expected' = expected + ts.length ∧ ids' = ids ++ ts.map (·.id) ∧
        ts.map (·.sequence) = List.range' expected ts.length ∧
        (∀ t ∈ ts, t.Sound p space ∧ t.sequence ≠ 0 ∧ t.sequence ≤ maxDeliverySequence) ∧
        (ts.map (·.id)).Nodup ∧ ids.Disjoint (ts.map (·.id)) := by
  induction rs generalizing expected ids expected' ids' ts with
  | nil =>
    cases ts <;> simp [restoreTombstones, eq_comm (b := ids'), eq_comm (b := expected'), and_comm]
  | cons r rs ih =>
    simp only [restoreTombstones, bind_eq_ok, pure_eq_ok, restoreTombstone_eq_ok, Prod.exists, ih, Prod.mk.injEq]
    cases ts with
    | nil => simp
    | cons t ts =>
      simp only [List.map_cons, List.cons.injEq, List.length_cons, List.range'_succ, List.nodup_cons, List.forall_mem_cons,
        List.disjoint_append_left, List.singleton_disjoint, List.disjoint_cons_right]
      constructor
      · rintro ⟨_, ⟨rfl, hcounted, ht, hnew⟩, _, _, _, ⟨rfl, rfl, rfl, hsequences, hall, hnodup, hfresh⟩, ⟨rfl, rfl⟩, rfl, rfl⟩
        exact ⟨⟨rfl, rfl⟩, by omega, by simp [DeliveryTombstone.saved], ⟨hcounted.1, hsequences⟩,
          ⟨⟨ht, hcounted.2⟩, hall⟩, ⟨hfresh.2, hnodup⟩, hnew, hfresh.1⟩
      · rintro ⟨⟨rfl, rfl⟩, rfl, rfl, hsequences, hall, hnodup, hfresh⟩
        exact ⟨t, ⟨rfl, ⟨hsequences.1, hall.1.2⟩, hall.1.1, hfresh.1⟩, ts, _, _,
          ⟨rfl, rfl, rfl, hsequences.2, hall.2, hnodup.2, hfresh.2, hnodup.1⟩, ⟨rfl, rfl⟩,
          by simp [DeliveryTombstone.saved], by omega⟩

theorem reservationSize_eq_ok {a b n : ℕ} : reservationSize a b = .ok n ↔ a + b < 2 ^ 64 ∧ n = a + b := by
  unfold reservationSize fail
  split_ifs with h
  · exact ⟨fun hn => ⟨h, (Except.ok.inj hn).symm⟩, fun hn => congrArg Except.ok hn.2.symm⟩
  · exact ⟨fun hn => (nomatch hn), fun hn => absurd hn.1 h⟩

theorem ensureBudget_eq_ok {a b : ℕ} : ensureBudget a b = .ok () ↔ a + b ≤ maxReservedDeliveryBytes := by
  unfold ensureBudget fail maxReservedDeliveryBytes
  split_ifs <;> simp <;> omega

theorem result_checks {result : Option Bytes} {hash : Option Hash32} {capacity : ℕ}
    (hcapacity : capacity ≤ maxDeliveryBlobBytes) :
    (¬ (result.any (fun value => decide (maxDeliveryBlobBytes < value.length)) = true ∨
        result.any (fun value => decide (capacity < value.length)) = true ∨ result.isSome ≠ hash.isSome) ∧
      ¬ ∃ value ∈ result, ∃ h ∈ hash, p.sha256 value ≠ h) ↔
    (∀ r ∈ result, r.length ≤ capacity) ∧ hash = result.map p.sha256 := by
  cases result with
  | none => cases hash <;> simp
  | some value =>
    cases hash with
    | none => simp
    | some h =>
      simp only [Option.any_some, decide_eq_true_eq, Option.isSome_some, ne_eq, not_true_eq_false, or_false,
        not_or, not_lt, Option.mem_some_iff, exists_eq_left', not_not, forall_eq', Option.map_some, Option.some.injEq]
      constructor
      · exact fun ⟨⟨_, hle⟩, hhash⟩ => ⟨hle, hhash.symm⟩
      · exact fun ⟨hle, hhash⟩ => ⟨⟨hle.trans hcapacity, hle⟩, hhash.symm⟩

theorem restoreDelivery_eq_ok {index reserved : ℕ} {r : RestoredDelivery} {e : DeliveryEntry}
    : restoreDelivery p space index expected ids reserved r = .ok e ↔
      r = e.saved ∧ (e.sequence = expected ∧ e.sequence ≠ 0 ∧ e.sequence ≤ maxDeliverySequence) ∧
        e.Sound p space ∧ e.id ∉ ids ∧ reserved + e.reservation ≤ maxReservedDeliveryBytes ∧
        (index = 0 ∨ e.Fresh) := by
  unfold restoreDelivery
  simp only [guard_eq_ok, bind_eq_ok, pure_eq_ok, reservationSize_eq_ok, restoreContract_eq_ok]
  constructor
  · rintro ⟨hchecks, _, ⟨-, rfl⟩, ⟨⟩, hbudget, hrequest, hid, contract, hcontract, hresult, hhash,
      hstate, rfl⟩
    push Not at hchecks hrequest hid hstate
    obtain ⟨hseq, hzero, hmax, hpolicy, hlength, hcapacity⟩ := hchecks
    obtain ⟨hle, hhash⟩ := (result_checks hcapacity).mp ⟨hresult, hhash⟩
    refine ⟨?_, ⟨hseq, hzero, hmax⟩, ⟨hpolicy, hlength, hcapacity, hrequest.symm, hid.1, hle, hhash, hstate.1⟩,
      hid.2, ensureBudget_eq_ok.mp hbudget, hstate.2⟩
    simp [DeliveryEntry.saved, ← hcontract]
  · rintro ⟨rfl, ⟨hseq, hzero, hmax⟩, he, hfresh, hbudget, hfollower⟩
    obtain ⟨hresult, hhash⟩ := (result_checks (p := p) he.capacity).mpr ⟨he.result, he.resultHash⟩
    have hsize : e.request.length + e.resultCapacity < 2 ^ 64 := by
      have := he.request
      have := he.capacity
      unfold maxDeliveryBlobBytes at *
      omega
    refine ⟨?_, _, ⟨hsize, rfl⟩, ⟨⟩, ensureBudget_eq_ok.mpr hbudget, ?_, ?_, e.adapterContract, rfl,
      hresult, hhash, ?_, rfl⟩
    · push Not
      exact ⟨hseq, hzero, hmax, he.policy, he.request, he.capacity⟩
    · exact not_not.mpr he.requestHash.symm
    · push Not
      exact ⟨he.id, hfresh⟩
    · push Not
      exact ⟨he.state, hfollower⟩

theorem restoreLive_eq_ok {rs : List RestoredDelivery} {index reserved reserved' : ℕ} (hreserved : reserved ≤ maxReservedDeliveryBytes) :
    restoreLive p space index expected ids reserved rs = .ok (es, expected', reserved') ↔
      rs = es.map (·.saved) ∧ expected' = expected + es.length ∧
        reserved' = reserved + (es.map (·.reservation)).sum ∧ reserved' ≤ maxReservedDeliveryBytes ∧
        es.map (·.sequence) = List.range' expected es.length ∧
        (∀ e ∈ es, e.Sound p space ∧ e.sequence ≠ 0 ∧ e.sequence ≤ maxDeliverySequence) ∧
        ((es.map (·.id)).Nodup ∧ ids.Disjoint (es.map (·.id))) ∧ ∀ e ∈ (if index = 0 then es.tail else es), e.Fresh := by
  induction rs generalizing index expected ids reserved es with
  | nil =>
    simp only [restoreLive, Except.ok.injEq, Prod.mk.injEq]
    cases es with
    | nil => 
      constructor
      · rintro ⟨-, rfl, rfl⟩
        simpa using hreserved
      · rintro ⟨-, rfl, rfl, -⟩
        simp
    | cons => simp
  | cons r rs ih =>
    simp only [restoreLive, bind_eq_ok, pure_eq_ok, restoreDelivery_eq_ok, Prod.exists, Prod.mk.injEq]
    cases es with
    | nil => simp
    | cons e es =>
      simp only [List.map_cons, List.cons.injEq, List.length_cons, List.range'_succ, List.nodup_cons, List.forall_mem_cons,
        List.disjoint_cons_right, List.sum_cons, List.tail_cons]
      have hfollowers : (∀ f ∈ if index = 0 then es else e :: es, f.Fresh) ↔ (index = 0 ∨ e.Fresh) ∧ ∀ f ∈ es, f.Fresh := by
        split_ifs with hindex <;> simp [hindex]
      rw [hfollowers]
      constructor
      · rintro ⟨_, ⟨rfl, hcounted, he, hnew, hbudget, hfollower⟩, _, _, _, hrest, ⟨rfl, rfl⟩, rfl, rfl⟩
        obtain ⟨rfl, rfl, rfl, hle, hsequences, hall, hids, hfresh⟩ := (ih hbudget).mp hrest
        simp only [List.disjoint_append_left, List.singleton_disjoint] at hids
        exact ⟨⟨rfl, rfl⟩, by omega, Nat.add_assoc _ _ _, hle, ⟨hcounted.1, hsequences⟩, ⟨⟨he, hcounted.2⟩, hall⟩,
          ⟨⟨hids.2.2, hids.1⟩, hnew, hids.2.1⟩, hfollower, by simpa using hfresh⟩
      · rintro ⟨⟨rfl, rfl⟩, rfl, rfl, hle, hsequences, hall, hids, hfresh⟩
        have hbudget : reserved + e.reservation ≤ maxReservedDeliveryBytes := by omega
        refine ⟨e, ⟨rfl, ⟨hsequences.1, hall.1.2⟩, hall.1.1, hids.2.1, hbudget, hfresh.1⟩, es, _, _,
          (ih hbudget).mpr ⟨rfl, by omega, (Nat.add_assoc _ _ _).symm, hle, hsequences.2, hall.2, ?_, by simpa using hfresh.2⟩, ⟨rfl, rfl⟩, rfl, rfl⟩
        simp only [List.disjoint_append_left, List.singleton_disjoint]
        exact ⟨hids.1.2, hids.2.2, hids.1.1⟩

/-- A run of consecutive numbers in two parts. -/
theorem append_eq_range' {a b : List ℕ} {first : ℕ} : a ++ b = List.range' first (a ++ b).length ↔
      a = List.range' first a.length ∧ b = List.range' (first + a.length) b.length := by
  rw [List.length_append, ← List.range'_append_1]
  constructor
  · exact fun h => List.append_inj h (by simp)
  · rintro ⟨ha, hb⟩
    rw [← ha, ← hb]

theorem DeliveryLedger.length_sequences (l : DeliveryLedger) :
    l.sequences.length = l.live.length + l.tombstones.length := by
  simp [sequences, Nat.add_comm]

theorem sequences_eq_range'_iff (hroom : l.sequences.length < l.nextSequence) :
    l.sequences = List.range' (l.nextSequence - l.sequences.length) l.sequences.length ↔
      l.tombstones.map (·.sequence) =
          List.range' (l.nextSequence - (l.live.length + l.tombstones.length)) l.tombstones.length ∧
        l.live.map (·.sequence) = List.range' (l.nextSequence - l.live.length) l.live.length := by
  have hlength := l.length_sequences
  have hfirst : l.nextSequence - (l.live.length + l.tombstones.length) + l.tombstones.length =
      l.nextSequence - l.live.length := by omega
  unfold sequences
  rw [append_eq_range', List.length_append, List.length_map, List.length_map,
    Nat.add_comm l.tombstones.length, hfirst]

theorem countP_dispatching_le (h : ∀ e ∈ es.tail, e.Fresh) : es.countP (·.state == .dispatching) ≤ 1 := by
  cases es with
  | nil => simp
  | cons e es =>
    have hrest : es.countP (·.state == .dispatching) = 0 := by
      rw [List.countP_eq_zero]
      intro f hf
      simp [(h f hf).1]
    rw [List.countP_cons, hrest]
    split_ifs <;> simp

theorem restoreChecked_eq_ok_iff {nextSequence : ℕ} {live : List RestoredDelivery}
    {tombstones : List RestoredTombstone} {digest : Hash32} :
    restoreChecked p space nextSequence live tombstones digest = .ok l ↔
      (space = l.space ∧ nextSequence = l.nextSequence ∧ live = l.live.map (·.saved) ∧
        tombstones = l.tombstones.map (·.saved) ∧ digest = l.digest p) ∧ l.Sound p := by
  unfold restoreChecked
  simp only [guard_eq_ok, bind_eq_ok, pure_eq_ok]
  constructor
  · rintro ⟨hbounds, hcount, ⟨ts, ids, expected⟩, hts, ⟨es, expected', reserved⟩, hes, hexpected, hdigest,
      rfl⟩
    obtain ⟨rfl, rfl, rfl, htseq, htall, hids, -⟩ := restoreTombstones_eq_ok.mp hts
    obtain ⟨rfl, rfl, rfl, hbudget, heseq, heall, hids', hfollowers⟩ := (restoreLive_eq_ok (Nat.zero_le _)).mp hes
    simp only [List.length_map] at hbounds hcount htseq heseq hexpected
    push Not at hbounds hcount hexpected hdigest
    obtain ⟨hlive, htombs, hpos, hlimit⟩ := hbounds
    have hroom : ts.length + es.length < nextSequence := by
      by_cases hzero : es.length + ts.length = 0
      · omega
      · have := hcount.2 hzero
        omega
    refine ⟨⟨rfl, rfl, rfl, rfl, hdigest.symm⟩,
      { room := ?_
        sequences := ?_
        ids := ?_
        followers := hfollowers
        dispatching := countP_dispatching_le hfollowers
        reserved := ?_
        budget := hbudget
        live_le := hlive
        tombstones_le := htombs
        limit := hlimit
        empty := ?_
        tombstones := fun t ht => (htall t ht).1
        entries := fun e he => (heall e he).1 }⟩
    · simpa [sequences] using hroom
    · rw [sequences_eq_range'_iff (by simpa [sequences] using hroom)]
      refine ⟨htseq, ?_⟩
      have hfirst : nextSequence - (es.length + ts.length) + ts.length = nextSequence - es.length := by omega
      rw [heseq, hfirst]
    · exact List.nodup_append'.mpr ⟨hids, hids'⟩
    · simp
    · intro hempty
      simp only [sequences, List.append_eq_nil_iff, List.map_eq_nil_iff] at hempty
      obtain ⟨rfl, rfl⟩ := hempty
      exact hcount.1 rfl
  · rintro ⟨⟨rfl, rfl, rfl, rfl, rfl⟩, hl⟩
    have hroom := hl.room
    have hlength := l.length_sequences
    obtain ⟨htseq, heseq⟩ := (sequences_eq_range'_iff hroom).mp hl.sequences
    have hbound : ∀ n ∈ l.sequences, n ≠ 0 ∧ n ≤ maxDeliverySequence := by
      intro n hn
      rw [hl.sequences, List.mem_range'_1] at hn
      have := hl.limit
      omega
    obtain ⟨hids, hids'⟩ := List.nodup_append'.mp hl.ids
    refine ⟨?_, ?_, (l.tombstones, l.tombstones.map (·.id), l.nextSequence - l.live.length), ?_,
      (l.live, l.nextSequence, l.reservedBytes), ?_, by simp, by simp, rfl⟩
    · push Not
      simpa using ⟨hl.live_le, hl.tombstones_le, by omega, hl.limit⟩
    · push Not
      simp only [List.length_map]
      refine ⟨fun hzero => hl.empty (List.eq_nil_of_length_eq_zero (by omega)), fun _ => by omega⟩
    · rw [restoreTombstones_eq_ok]
      refine ⟨rfl, ?_, rfl, by simpa using htseq, fun t ht => ⟨hl.tombstones t ht, ?_⟩, hids, List.disjoint_nil_left _⟩
      · rw [List.length_map, List.length_map]
        omega
      · exact hbound _ (List.mem_append_left _ (List.mem_map_of_mem ht))
    · rw [restoreLive_eq_ok (Nat.zero_le _)]
      refine ⟨rfl, (Nat.sub_add_cancel (by omega)).symm, by simpa using hl.reserved, hl.budget, heseq,
        fun e he => ⟨hl.entries e he, ?_⟩, hids', hl.followers⟩
      exact hbound _ (List.mem_append_right _ (List.mem_map_of_mem he))

end EuWallet.Delivery
