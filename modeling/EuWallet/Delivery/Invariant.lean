import EuWallet.Delivery.Snapshot

/-! # The invariant of the delivery ledger

Only the delivery at the head of the queue was ever claimed, so every correlation of a live delivery leads
to the head, and each method that answers with a value makes one of the few moves listed in `Move`. The
moves keep a ledger sound; a ledger starts sound, new or restored; so it stays sound under all calls, none
of which panics. -/

namespace EuWallet.Delivery

open Codec Crypto Lib DeliveryLedger DeliveryEntry

/-! ### The moves -/

/-- The entry that `enqueue` makes. -/
def PreparedDelivery.entry (prepared : PreparedDelivery) : DeliveryEntry :=
  { prepared.toHeader with
    id := prepared.id
    state := .queued
    request := prepared.request
    result := none
    resultHash := none
    attempt := 0
    adapterContract := none }

def DeliveryEntry.claim (e : DeliveryEntry) (contract : NonZeroU64) : DeliveryEntry :=
  { e with adapterContract := some contract, attempt := e.attempt + 1, state := .dispatching }

def DeliveryEntry.handed (e : DeliveryEntry) (contract : NonZeroU64) : ClaimedDelivery where
  correlation := ⟨e.id, e.requestHash, e.attempt, contract⟩
  sequence := e.sequence
  kind := e.kind
  recoveryPolicy := e.recoveryPolicy
  request := e.request
  resultCapacity := e.resultCapacity

def DeliveryEntry.record (p : Platform) (e : DeliveryEntry) (result : Bytes) : DeliveryEntry :=
  { e with result := some result, resultHash := some (p.sha256 result), state := .resultReady }

/-- What remains of a consumed entry. -/
def DeliveryEntry.bury (e : DeliveryEntry) (contract : NonZeroU64) (resultHash : Hash32) : DeliveryTombstone :=
  { e.toHeader with
    id := e.id
    attempt := e.attempt
    adapterContract := contract
    resultHash := resultHash
    disposition := .resultConsumed }

def DeliveryTombstone.correlation (t : DeliveryTombstone) : DeliveryCorrelation :=
  ⟨t.id, t.requestHash, t.attempt, t.adapterContract⟩

/-- The tombstones that stay when one more is buried. -/
def DeliveryLedger.kept (l : DeliveryLedger) : List DeliveryTombstone :=
  if l.tombstones.length = maxDeliveryTombstones then l.tombstones.tail else l.tombstones

/-- `enqueue` with all its checks passed. -/
structure Pushes (p : Platform) (prepared : PreparedDelivery) (l l' : DeliveryLedger) : Prop where
  fresh : prepared.id ∉ l.ids
  space : prepared.space = l.space
  sequence : prepared.sequence = l.nextSequence
  room : l.live.length < maxLiveDeliveries
  budget : l.reservedBytes + prepared.entry.reservation ≤ maxReservedDeliveryBytes
  limit : prepared.sequence ≤ maxDeliverySequence
  requestHash : prepared.requestHash = p.sha256 prepared.request
  id : prepared.id = deriveId p l.space prepared.toHeader
  after : l' =
    { l with
      live := l.live ++ [prepared.entry]
      reservedBytes := l.reservedBytes + prepared.entry.reservation
      nextSequence := l.nextSequence + 1 }

/-- What a call does: a method, the ledger it leaves behind, its reply. -/
inductive Move (p : Platform) (l : DeliveryLedger) : Operation → DeliveryLedger → Reply Value → Prop
  | refuses (op : Operation) (e : DeliveryLedgerError) : Move p l op l (fail e)
  | prepares (kind : DeliveryKind) (request : Bytes) (capacity : ℕ) (prepared : PreparedDelivery) :
      Move p l (.prepare kind request capacity) l (.ok (.prepared prepared))
  | preparesBatch (specs : List DeliverySpec) (batch : List PreparedDelivery) :
      Move p l (.prepareBatch specs) l (.ok (.preparedBatch batch))
  | enqueues {prepared : PreparedDelivery} {l' : DeliveryLedger} (h : Pushes p prepared l l') :
      Move p l (.enqueue prepared) l' (.ok (.enqueued prepared.id))
  | enqueuesBatch {batch : List PreparedDelivery} {l' : DeliveryLedger} (ids : List Hash32)
      (h : Relation.ReflTransGen (fun a b => ∃ prepared, Pushes p prepared a b) l l') :
      Move p l (.enqueueBatch batch) l' (.ok (.enqueuedBatch ids))
  | claims {e : DeliveryEntry} {rest : List DeliveryEntry} {c : UInt64} {contract : NonZeroU64}
      (hlive : l.live = e :: rest) (hstate : e.state = .queued) (hattempt : e.attempt < maxDeliveryAttempts)
      (hcontract : nonZero c = some contract) (hsame : ∀ d ∈ e.adapterContract, d = contract) :
      Move p l (.claimOldest c) { l with live := e.claim contract :: rest }
        (.ok (.claimed ((e.claim contract).handed contract)))
  | records {e : DeliveryEntry} {rest : List DeliveryEntry} {c : DeliveryCorrelation} {result : Bytes}
      (hlive : l.live = e :: rest) (hc : e.correlation = some c)
      (hstate : e.state = .dispatching ∨ e.state = .ambiguous) (hsize : result.length ≤ e.resultCapacity) :
      Move p l (.recordResult c result) { l with live := e.record p result :: rest }
        (.ok (.recorded .recorded))
  | repeats (c : DeliveryCorrelation) (result : Bytes) :
      Move p l (.recordResult c result) l (.ok (.recorded .alreadyRecorded))
  | marks {e : DeliveryEntry} {rest : List DeliveryEntry} {c : DeliveryCorrelation}
      (hlive : l.live = e :: rest) (hc : e.correlation = some c) (hstate : e.state = .dispatching) :
      Move p l (.markAmbiguous c) { l with live := { e with state := .ambiguous } :: rest } (.ok .done)
  | requeues {e : DeliveryEntry} {rest : List DeliveryEntry} {c : DeliveryCorrelation}
      (hlive : l.live = e :: rest) (hc : e.correlation = some c) (hstate : e.state = .ambiguous)
      (hpolicy : e.recoveryPolicy.Replayable) (hattempt : e.attempt < maxDeliveryAttempts) :
      Move p l (.resolveNotPerformed c) { l with live := { e with state := .queued } :: rest } (.ok .done)
  | reads {e : DeliveryEntry} {rest : List DeliveryEntry} {c : DeliveryCorrelation} {bytes : Bytes}
      (hlive : l.live = e :: rest) (hc : e.correlation = some c) (hstate : e.state = .resultReady)
      (hresult : e.result = some bytes) : Move p l (.readyResult c) l (.ok (.result bytes))
  | consumes {e : DeliveryEntry} {rest : List DeliveryEntry} {c : DeliveryCorrelation}
      {contract : NonZeroU64} {resultHash : Hash32} (rotatedOut : Option Hash32)
      (hlive : l.live = e :: rest) (hc : e.correlation = some c) (hstate : e.state = .resultReady)
      (hcontract : e.adapterContract = some contract) (hhash : e.resultHash = some resultHash) :
      Move p l (.consumeReady c)
        { l with
          live := rest
          tombstones := l.kept ++ [e.bury contract resultHash]
          reservedBytes := l.reservedBytes - e.reservation } (.ok (.consumed rotatedOut))

/-! ### Where a correlation leads -/

section
variable {p : Platform} {l : DeliveryLedger} {e : DeliveryEntry} {rest : List DeliveryEntry}
  {c : DeliveryCorrelation}

theorem validateCorrelation_cases (c : DeliveryCorrelation) (requestHash : Hash32) (attempt : ℕ)
    (contract : Option NonZeroU64) : (validateCorrelation c requestHash attempt contract = .ok () ∧
        c.requestHash = requestHash ∧ some c.adapterContract = contract ∧ c.attempt = attempt) ∨
      ∃ e, validateCorrelation c requestHash attempt contract = fail e := by
  unfold validateCorrelation
  split_ifs with hhash hcontract hattempt
  any_goals exact .inr ⟨_, rfl⟩
  push Not at hhash hcontract hattempt
  exact .inl ⟨rfl, hhash, hcontract, hattempt⟩

theorem correlation_eq_some : e.correlation = some c ↔ c.id = e.id ∧ c.requestHash = e.requestHash ∧
    some c.adapterContract = e.adapterContract ∧ c.attempt = e.attempt := by
  obtain ⟨id, requestHash, attempt, contract⟩ := c
  unfold correlation
  cases e.adapterContract with
  | none => simp
  | some d =>
    simp only [Option.map_some, Option.some.injEq, DeliveryCorrelation.mk.injEq]
    exact and_congr eq_comm (and_congr eq_comm ⟨fun ⟨ha, hd⟩ => ⟨hd.symm, ha.symm⟩, fun ⟨hd, ha⟩ => ⟨ha.symm, hd.symm⟩⟩)

theorem correlatedLocation_cases (l : DeliveryLedger) (c : DeliveryCorrelation) :
    (∃ i e, l.correlatedLocation c = .ok (.live i) ∧ l.live[i]? = some e ∧ e.correlation = some c) ∨
      (∃ i t, l.correlatedLocation c = .ok (.tombstone i) ∧ l.tombstones[i]? = some t ∧ t.correlation = c) ∨
      ∃ e, l.correlatedLocation c = fail e := by
  unfold correlatedLocation
  cases hlive : l.live.findIdx? (·.id == c.id) with
  | some i =>
    obtain ⟨hi, hid, -⟩ := List.findIdx?_eq_some_iff_getElem.mp hlive
    simp only [List.getElem?_eq_getElem hi]
    rcases validateCorrelation_cases c l.live[i].requestHash l.live[i].attempt l.live[i].adapterContract
      with ⟨hok, hhash, hcontract, hattempt⟩ | ⟨e, herr⟩
    · rw [hok]
      refine .inl ⟨i, l.live[i], rfl, List.getElem?_eq_getElem hi,
        correlation_eq_some.mpr ⟨?_, hhash, hcontract, hattempt⟩⟩
      exact (beq_iff_eq.mp hid).symm
    · rw [herr]
      exact .inr (.inr ⟨e, rfl⟩)
  | none =>
    cases htomb : l.tombstones.findIdx? (·.id == c.id) with
    | some i =>
      obtain ⟨hi, hid, -⟩ := List.findIdx?_eq_some_iff_getElem.mp htomb
      simp only [List.getElem?_eq_getElem hi]
      rcases validateCorrelation_cases c l.tombstones[i].requestHash l.tombstones[i].attempt
        (some l.tombstones[i].adapterContract) with ⟨hok, hhash, hcontract, hattempt⟩ | ⟨e, herr⟩
      · rw [hok]
        refine .inr (.inl ⟨i, l.tombstones[i], rfl, List.getElem?_eq_getElem hi, ?_⟩)
        obtain ⟨id, requestHash, attempt, contract⟩ := c
        simp only [Option.some.injEq] at hcontract
        simp only [DeliveryTombstone.correlation, DeliveryCorrelation.mk.injEq]
        exact ⟨beq_iff_eq.mp hid, hhash.symm, hattempt.symm, hcontract.symm⟩
      · rw [herr]
        exact .inr (.inr ⟨e, rfl⟩)
    | none => exact .inr (.inr ⟨_, rfl⟩)

theorem DeliveryLedger.Consistent.head_of_claimed (h : l.Consistent) {i : ℕ} (hi : l.live[i]? = some e)
    (hclaimed : e.adapterContract ≠ none) : i = 0 ∧ ∃ rest, l.live = e :: rest := by
  have hfollowers := h.followers
  cases hlive : l.live with
  | nil => simp [hlive] at hi
  | cons f rest =>
    rw [hlive] at hi hfollowers
    cases i with
    | zero => exact ⟨rfl, rest, by simpa using hi⟩
    | succ i =>
      have hmem : e ∈ rest := List.mem_of_getElem? (by simpa using hi)
      exact absurd (hfollowers e hmem).2.2.1 hclaimed

theorem contract_ne_none (hc : e.correlation = some c) : e.adapterContract ≠ none := by
  rw [← (correlation_eq_some.mp hc).2.2.1]
  simp

theorem DeliveryLedger.Consistent.liveLocation_cases (h : l.Consistent) (c : DeliveryCorrelation) :
    (∃ e rest, l.liveLocation c = .ok 0 ∧ l.live = e :: rest ∧ e.correlation = some c) ∨
      ∃ e, l.liveLocation c = fail e := by
  unfold liveLocation
  rcases correlatedLocation_cases l c with ⟨i, e, hloc, hi, hc⟩ | ⟨i, t, hloc, -⟩ | ⟨e, hloc⟩
  · obtain ⟨rfl, rest, hlive⟩ := h.head_of_claimed hi (contract_ne_none hc)
    rw [hloc]
    exact .inl ⟨e, rest, rfl, hlive, hc⟩
  · rw [hloc]
    exact .inr ⟨_, rfl⟩
  · rw [hloc]
    exact .inr ⟨e, rfl⟩

theorem DeliveryLedger.Consistent.oldest (h : l.Consistent) (hlive : l.live = e :: rest) :
    l.live.zipIdx.argmin (·.1.sequence) = some (e, 0) := by
  have hseq := ((sequences_eq_range'_iff h.room).mp h.sequences).2
  have hzip : l.live.zipIdx = (e, 0) :: rest.zipIdx 1 := by rw [hlive, List.zipIdx_cons]
  have hfirst : e.sequence = l.nextSequence - l.live.length := by
    rw [hlive, List.map_cons, List.length_cons, List.range'_succ, List.cons.injEq] at hseq
    rw [hlive, List.length_cons]
    exact hseq.1
  rw [List.argmin_eq_some_iff]
  refine ⟨by simp [hzip], ?_, ?_⟩
  · rintro ⟨f, i⟩ hf
    have hmem : f.sequence ∈ l.live.map (·.sequence) := List.mem_map_of_mem (List.fst_mem_of_mem_zipIdx hf)
    rw [hseq, List.mem_range'_1] at hmem
    rw [hfirst]
    exact hmem.1
  · intro a _ _
    simp [hzip]

/-! ### Every call is a move -/

theorem containsId_eq_true {id : Hash32} : l.containsId id = true ↔ id ∈ l.ids := by
  simp only [containsId, ids, Bool.or_eq_true, List.any_eq_true, beq_iff_eq,
    List.mem_append, List.mem_map]
  exact Or.comm

theorem reservationSize_cases (a b : ℕ) :
    (a + b < 2 ^ 64 ∧ reservationSize a b = .ok (a + b)) ∨ ∃ e, reservationSize a b = fail e := by
  unfold reservationSize
  split_ifs with h
  · exact .inl ⟨h, rfl⟩
  · exact .inr ⟨_, rfl⟩

theorem ensureBudget_cases (a b : ℕ) :
    (a + b ≤ maxReservedDeliveryBytes ∧ ensureBudget a b = .ok ()) ∨ ∃ e, ensureBudget a b = fail e := by
  by_cases h : a + b ≤ maxReservedDeliveryBytes
  · exact .inl ⟨h, ensureBudget_eq_ok.mpr h⟩
  · right
    unfold ensureBudget
    rw [if_pos (Nat.lt_of_not_le h), ite_self]
    exact ⟨_, rfl⟩

theorem prepareSensitive_cases (p : Platform) (l : DeliveryLedger) (kind : DeliveryKind) (request : Bytes)
    (capacity : ℕ) : (∃ prepared, l.prepareSensitive p kind request capacity = .ok prepared) ∨
      ∃ e, l.prepareSensitive p kind request capacity = fail e := by
  unfold prepareSensitive
  rcases reservationSize_cases request.length capacity with ⟨-, hsize⟩ | ⟨e, hsize⟩
  · rcases ensureBudget_cases l.reservedBytes (request.length + capacity) with ⟨-, hbudget⟩ | ⟨e, hbudget⟩
    · simp only [hsize, hbudget, Except.bind, bind]
      split_ifs
      any_goals exact .inr ⟨_, rfl⟩
      exact .inl ⟨_, rfl⟩
    · simp only [hsize, hbudget, Except.bind, bind, fail]
      split_ifs <;> exact .inr ⟨_, rfl⟩
  · simp only [hsize, Except.bind, bind, fail]
    split_ifs <;> exact .inr ⟨_, rfl⟩

theorem enqueue_cases (p : Platform) (l : DeliveryLedger) (prepared : PreparedDelivery) :
    (∃ l', Pushes p prepared l l' ∧ l.enqueue p prepared = (l', .ok prepared.id)) ∨
      ∃ e, l.enqueue p prepared = (l, fail e) := by
  unfold enqueue
  rcases reservationSize_cases prepared.request.length prepared.resultCapacity with ⟨-, hsize⟩ | ⟨e, hsize⟩
  · rcases ensureBudget_cases l.reservedBytes (prepared.request.length + prepared.resultCapacity)
      with ⟨hbudget, hok⟩ | ⟨e, herr⟩
    · simp only [hsize, hok]
      split_ifs with hid hstale hfull hlimit hhash
      any_goals exact .inr ⟨_, rfl⟩
      push Not at hstale hfull hlimit hhash
      refine .inl ⟨_, ⟨?_, hstale.1, hstale.2, hfull, hbudget, hlimit.2, hhash.1.symm, ?_, rfl⟩, rfl⟩
      · exact fun hmem => hid (containsId_eq_true.mpr hmem)
      · have hheader : ({ prepared.toHeader with requestHash := p.sha256 prepared.request } : Header) =
            prepared.toHeader := by
          rw [hhash.1]
        rw [← hheader]
        exact hhash.2.symm
    · simp only [hsize, herr, fail]
      split_ifs <;> exact .inr ⟨_, rfl⟩
  · simp only [hsize, fail]
    split_ifs <;> exact .inr ⟨_, rfl⟩

theorem prepareEntries_cases (p : Platform) : ∀ (specs : List DeliverySpec) (l : DeliveryLedger),
    (∃ batch, l.prepareEntries p specs = .ok batch) ∨ ∃ e, l.prepareEntries p specs = fail e
  | [], _ => .inl ⟨[], rfl⟩
  | spec :: specs, l => by
    unfold prepareEntries
    rcases prepareSensitive_cases p l spec.kind spec.request spec.resultCapacity
      with ⟨prepared, hprepared⟩ | ⟨e, hprepared⟩
    · rcases enqueue_cases p l prepared with ⟨l', -, henqueue⟩ | ⟨e, henqueue⟩
      · rcases prepareEntries_cases p specs l' with ⟨batch, hbatch⟩ | ⟨e, hbatch⟩
        · simp only [hprepared, henqueue, hbatch, bind, Except.bind]
          exact .inl ⟨_, rfl⟩
        · simp only [hprepared, henqueue, hbatch, bind, Except.bind]
          exact .inr ⟨e, rfl⟩
      · simp only [hprepared, henqueue, bind, Except.bind]
        exact .inr ⟨e, rfl⟩
    · simp only [hprepared, bind, Except.bind]
      exact .inr ⟨e, rfl⟩

theorem enqueueEntries_cases (p : Platform) : ∀ (batch : List PreparedDelivery) (l : DeliveryLedger),
    (∃ l' ids, Relation.ReflTransGen (fun a b => ∃ prepared, Pushes p prepared a b) l l' ∧
        l.enqueueEntries p batch = .ok (l', ids)) ∨ ∃ e, l.enqueueEntries p batch = fail e
  | [], l => .inl ⟨l, [], .refl, rfl⟩
  | prepared :: batch, l => by
    unfold enqueueEntries
    rcases enqueue_cases p l prepared with ⟨l', hpush, henqueue⟩ | ⟨e, henqueue⟩
    · rcases enqueueEntries_cases p batch l' with ⟨l'', ids, hpushes, hbatch⟩ | ⟨e, hbatch⟩
      · simp only [henqueue, hbatch, bind, Except.bind]
        exact .inl ⟨l'', _, .head ⟨prepared, hpush⟩ hpushes, rfl⟩
      · simp only [henqueue, hbatch, bind, Except.bind]
        exact .inr ⟨e, rfl⟩
    · simp only [henqueue, bind, Except.bind]
      exact .inr ⟨e, rfl⟩

/-- Claiming takes the head of the queue. -/
theorem claimOldest_move (h : l.Consistent) (c : UInt64) :
    Move p l (.claimOldest c) (l.claimOldest c).1 ((l.claimOldest c).2.map .claimed) := by
  unfold claimOldest
  cases hcontract : nonZero c with
  | none => exact .refuses _ _
  | some contract =>
    by_cases hbusy : l.live.any (·.state == .dispatching) = true
    · simp only [hbusy, if_true]
      exact .refuses _ _
    · simp only [hbusy]
      cases hlive : l.live with
      | nil => exact .refuses _ _
      | cons e rest =>
        have holdest := h.oldest hlive
        rw [hlive] at holdest
        simp only [Bool.false_eq_true, if_false, holdest, List.getElem?_cons_zero]
        split_ifs with hstate hsame hattempt
        any_goals exact .refuses _ _
        push Not at hstate hattempt
        have hall : ∀ d ∈ e.adapterContract, d = contract := by
          intro d hd
          rw [hd] at hsame
          simpa using hsame
        have hgetD : e.adapterContract.getD contract = contract := by
          cases hd : e.adapterContract with
          | none => rfl
          | some d => exact hall d hd
        rw [hgetD]
        exact .claims hlive hstate hattempt hcontract hall

section
variable (h : l.Consistent) (c : DeliveryCorrelation)
include h

theorem recordResult_move (result : Bytes) : Move p l (.recordResult c result) (l.recordResult p c result).1
      ((l.recordResult p c result).2.map .recorded) := by
  unfold recordResult
  split_ifs with hblob
  · exact .refuses _ _
  rcases correlatedLocation_cases l c with ⟨i, e, hloc, hi, hc⟩ | ⟨i, t, hloc, hi, -⟩ | ⟨e, hloc⟩
  · obtain ⟨rfl, rest, hlive⟩ := h.head_of_claimed hi (contract_ne_none hc)
    cases hstate : e.state with
    | dispatching | ambiguous =>
      simp only [hloc, hlive, List.getElem?_cons_zero, hstate, List.set_cons_zero]
      split_ifs with hsize
      · exact .refuses _ _
      · exact .records hlive hc (by simp [hstate]) (Nat.le_of_not_lt hsize)
    | resultReady | queued =>
      simp only [hloc, hi, hstate]
      split_ifs <;> first | exact .refuses _ _ | exact .repeats _ _
  · simp only [hloc, hi]
    split_ifs <;> first | exact .refuses _ _ | exact .repeats _ _
  · rw [hloc]
    exact .refuses _ _

theorem markAmbiguous_move :
    Move p l (.markAmbiguous c) (l.markAmbiguous c).1 ((l.markAmbiguous c).2.map fun _ => .done) := by
  unfold markAmbiguous
  rcases h.liveLocation_cases c with ⟨e, rest, hloc, hlive, hc⟩ | ⟨e, hloc⟩
  · simp only [hloc, hlive, List.getElem?_cons_zero, List.set_cons_zero]
    split_ifs with hstate
    · exact .marks hlive hc hstate
    · exact .refuses _ _
  · rw [hloc]
    exact .refuses _ _

theorem resolveNotPerformed_move : Move p l (.resolveNotPerformed c) (l.resolveNotPerformed c).1
      ((l.resolveNotPerformed c).2.map fun _ => .done) := by
  unfold resolveNotPerformed
  rcases h.liveLocation_cases c with ⟨e, rest, hloc, hlive, hc⟩ | ⟨e, hloc⟩
  · simp only [hloc, hlive, List.getElem?_cons_zero, List.set_cons_zero]
    split_ifs with hstate hpolicy hattempt
    any_goals exact .refuses _ _
    exact .requeues hlive hc (not_not.mp hstate) hpolicy (Nat.lt_of_not_le hattempt)
  · rw [hloc]
    exact .refuses _ _

end

variable {space : Hash32}

section
variable (he : e.Sound p space)
include he

theorem DeliveryEntry.Sound.claimed (hstate : e.state ≠ .queued) :
    (1 ≤ e.attempt ∧ e.attempt ≤ maxDeliveryAttempts) ∧ e.adapterContract.isSome = true := by
  have hvalid := he.state
  unfold validState at hvalid
  cases h : e.state with
  | queued => exact absurd h hstate
  | dispatching | ambiguous | resultReady =>
    simp only [h, Bool.and_eq_true, decide_eq_true_eq] at hvalid
    exact hvalid.1.1

theorem DeliveryEntry.Sound.queued (hstate : e.state = .queued) : (e.attempt = 0 ∧ e.adapterContract = none) ∨
      (e.attempt < maxDeliveryAttempts ∧ e.recoveryPolicy.Replayable ∧ e.adapterContract.isSome = true) := by
  have hvalid := he.state
  simp only [validState, hstate, Bool.and_eq_true, Bool.or_eq_true, beq_iff_eq,
    decide_eq_true_eq, Option.isNone_iff_eq_none] at hvalid
  exact hvalid.2.imp_right fun h => ⟨h.1.1.2, h.2, h.1.2⟩

theorem DeliveryEntry.Sound.attempt_le : e.attempt ≤ maxDeliveryAttempts := by
  by_cases hstate : e.state = .queued
  · rcases he.queued hstate with ⟨hzero, -⟩ | ⟨hlt, -⟩
    · rw [hzero]
      exact Nat.zero_le _
    · exact hlt.le
  · exact (he.claimed hstate).1.2

theorem DeliveryEntry.Sound.no_result (hstate : e.state ≠ .resultReady) : e.result = none ∧ e.resultHash = none := by
  have hvalid := he.state
  unfold validState at hvalid
  cases h : e.state with
  | resultReady => exact absurd h hstate
  | queued =>
    simp only [h, Bool.and_eq_true, Option.isNone_iff_eq_none] at hvalid
    exact hvalid.1
  | dispatching | ambiguous =>
    simp only [h, Bool.and_eq_true, Option.isNone_iff_eq_none] at hvalid
    exact ⟨hvalid.1.2, hvalid.2⟩

theorem DeliveryEntry.Sound.ready (hstate : e.state = .resultReady) :
    ∃ result contract, e.result = some result ∧ e.resultHash = some (p.sha256 result) ∧
      e.adapterContract = some contract := by
  have hvalid := he.state
  simp only [validState, hstate, Bool.and_eq_true, Option.isSome_iff_exists] at hvalid
  obtain ⟨⟨⟨-, contract, hcontract⟩, result, hresult⟩, -⟩ := hvalid
  exact ⟨result, contract, hresult, by rw [he.resultHash, hresult, Option.map_some], hcontract⟩

end

theorem readyResult_move (h : l.Sound p) (c : DeliveryCorrelation) :
    Move p l (.readyResult c) l ((l.readyResult c).map .result) := by
  unfold readyResult
  rcases h.liveLocation_cases c with ⟨e, rest, hloc, hlive, hc⟩ | ⟨e, hloc⟩
  · simp only [hloc, hlive, List.getElem?_cons_zero]
    by_cases hstate : e.state = .resultReady
    · have he := h.entries e (by simp [hlive])
      obtain ⟨result, -, hresult, -⟩ := he.ready hstate
      simp only [hstate, hresult, ne_eq, not_true_eq_false, if_false]
      exact .reads hlive hc hstate hresult
    · simp only [hstate, ne_eq, not_false_eq_true, if_true]
      exact .refuses _ _
  · rw [hloc]
    exact .refuses _ _

theorem consumeReady_move (h : l.Sound p) (c : DeliveryCorrelation) :
    Move p l (.consumeReady c) (l.consumeReady c).1 ((l.consumeReady c).2.map .consumed) := by
  unfold consumeReady
  rcases h.liveLocation_cases c with ⟨e, rest, hloc, hlive, hc⟩ | ⟨e, hloc⟩
  · simp only [hloc, hlive, List.getElem?_cons_zero]
    by_cases hstate : e.state = .resultReady
    · have he := h.entries e (by simp [hlive])
      obtain ⟨result, contract, -, hhash, hcontract⟩ := he.ready hstate
      have hsize : reservationSize e.request.length e.resultCapacity = .ok e.reservation := by
        have hrequest := he.request
        have hcapacity := he.capacity
        unfold maxDeliveryBlobBytes at hrequest hcapacity
        exact reservationSize_eq_ok.mpr ⟨by omega, rfl⟩
      have hreserved : ¬ l.reservedBytes < e.reservation := by
        rw [h.reserved, hlive, List.map_cons, List.sum_cons]
        omega
      simp only [hstate, hsize, hreserved, hcontract, hhash, ne_eq, not_true_eq_false, if_false]
      exact .consumes _ hlive hc hstate hcontract hhash
    · simp only [hstate, ne_eq, not_false_eq_true, if_true]
      exact .refuses _ _
  · rw [hloc]
    exact .refuses _ _

theorem respond_move (h : l.Sound p) (op : Operation) : Move p l op (respond p l op).1 (respond p l op).2 := by
  cases op with
  | prepare kind request capacity =>
    simp only [respond, prepare]
    rcases prepareSensitive_cases p l kind request capacity with ⟨prepared, hok⟩ | ⟨e, herr⟩
    · rw [hok]
      exact .prepares _ _ _ prepared
    · rw [herr]
      exact .refuses _ e
  | prepareBatch specs =>
    simp only [respond, prepareBatch]
    rcases prepareEntries_cases p specs l with ⟨batch, hok⟩ | ⟨e, herr⟩
    · rw [hok]
      split_ifs
      any_goals exact .refuses _ _
      exact .preparesBatch _ batch
    · rw [herr]
      split_ifs <;> exact .refuses _ _
  | enqueue prepared =>
    simp only [respond]
    rcases enqueue_cases p l prepared with ⟨l', hpush, hok⟩ | ⟨e, herr⟩
    · rw [hok]
      exact .enqueues hpush
    · rw [herr]
      exact .refuses _ e
  | enqueueBatch batch =>
    simp only [respond, enqueueBatch]
    rcases enqueueEntries_cases p batch l with ⟨l', ids, hpushes, hok⟩ | ⟨e, herr⟩
    · simp only [hok]
      split_ifs
      · exact .refuses _ _
      · exact .enqueuesBatch ids hpushes
    · simp only [herr, fail]
      split_ifs <;> exact .refuses _ _
  | claimOldest c => exact claimOldest_move h.toConsistent c
  | recordResult c result => exact recordResult_move h.toConsistent c result
  | markAmbiguous c => exact markAmbiguous_move h.toConsistent c
  | resolveNotPerformed c => exact resolveNotPerformed_move h.toConsistent c
  | readyResult c => exact readyResult_move h c
  | consumeReady c => exact consumeReady_move h c

end

/-! ### The moves keep a ledger sound -/

section Keep
variable {p : Platform} {l l' : DeliveryLedger} {e e' : DeliveryEntry} {rest : List DeliveryEntry}
  {reply : Reply Value}

theorem PreparedDelivery.fresh_entry (prepared : PreparedDelivery) : prepared.entry.Fresh :=
  ⟨rfl, rfl, rfl, rfl, rfl⟩

/-- A fresh entry at the end of the queue. -/
theorem DeliveryLedger.Sound.push (h : l.Sound p) {prepared : PreparedDelivery}
    (hpush : Pushes p prepared l l') : l'.Sound p := by
  have hroom := h.room
  have hseq : l'.sequences = l.sequences ++ [l.nextSequence] := by
    rw [hpush.after]
    simp [sequences, PreparedDelivery.entry, hpush.sequence]
  have hids : l'.ids = l.ids ++ [prepared.id] := by
    rw [hpush.after]
    simp [ids, PreparedDelivery.entry]
  have hfollowers : ∀ e ∈ (l.live ++ [prepared.entry]).tail, e.Fresh := by
    intro e he
    cases hlive : l.live with
    | nil => simp [hlive] at he
    | cons f rest =>
      rw [hlive, List.cons_append, List.tail_cons, List.mem_append, List.mem_singleton] at he
      rcases he with he | rfl
      · exact h.followers e (by simpa [hlive] using he)
      · exact prepared.fresh_entry
  have hnew : prepared.entry.Sound p l.space :=
    { policy := prepared.policy_kind
      request := prepared.request_length
      capacity := prepared.capacity_le
      requestHash := hpush.requestHash
      id := hpush.id
      result := by simp [PreparedDelivery.entry]
      resultHash := rfl
      state := rfl }
  have hlimit := hpush.limit
  have hseqLimit := hpush.sequence
  have hnext : l'.nextSequence = l.nextSequence + 1 := by rw [hpush.after]
  exact
    { room := by
        rw [hseq, hnext, List.length_append, List.length_singleton]
        omega
      sequences := by
        rw [hseq, hnext, List.length_append, List.length_singleton, List.range'_concat, Nat.one_mul,
          Nat.add_sub_add_right]
        nth_rewrite 1 [h.sequences]
        rw [Nat.sub_add_cancel hroom.le]
      ids := by
        rw [hids, List.nodup_append]
        refine ⟨h.ids, List.nodup_singleton _, ?_⟩
        rintro a ha b hb rfl
        exact hpush.fresh (List.mem_singleton.mp hb ▸ ha)
      followers := hpush.after ▸ hfollowers
      dispatching := hpush.after ▸ countP_dispatching_le hfollowers
      reserved := by simp [hpush.after, h.reserved]
      budget := hpush.after ▸ hpush.budget
      live_le := by simpa [hpush.after] using Nat.succ_le_of_lt hpush.room
      tombstones_le := hpush.after ▸ h.tombstones_le
      limit := by omega
      empty := fun hempty => by simp [hseq] at hempty
      tombstones := hpush.after ▸ h.tombstones
      entries := by
        rw [hpush.after]
        intro e he
        rcases List.mem_append.mp he with he | he
        · exact h.entries e he
        · rw [List.mem_singleton.mp he]
          exact hnew }

theorem DeliveryLedger.Sound.pushes (h : l.Sound p)
    (hpushes : Relation.ReflTransGen (fun a b => ∃ prepared, Pushes p prepared a b) l l') : l'.Sound p := by
  induction hpushes with
  | refl => exact h
  | tail _ hpush ih =>
    obtain ⟨prepared, hpush⟩ := hpush
    exact ih.push hpush

theorem DeliveryLedger.Sound.setHead (h : l.Sound p) (hlive : l.live = e :: rest)
    (hheader : e'.toHeader = e.toHeader) (hid : e'.id = e.id) (hrequest : e'.request = e.request)
    (hresult : ∀ r ∈ e'.result, r.length ≤ e.resultCapacity) (hhash : e'.resultHash = e'.result.map p.sha256)
    (hstate : e'.validState = true) : { l with live := e' :: rest }.Sound p := by
  have he := h.entries e (by simp [hlive])
  have hseq : { l with live := e' :: rest }.sequences = l.sequences := by
    simp [sequences, hlive, hheader]
  have hids : { l with live := e' :: rest }.ids = l.ids := by
    simp [ids, hlive, hid]
  have hfollowers : ∀ f ∈ rest, f.Fresh := by simpa [hlive] using h.followers
  have hsame : e'.reservation = e.reservation := by simp [reservation, hrequest, hheader]
  exact
    { room := hseq ▸ h.room
      sequences := hseq ▸ h.sequences
      ids := hids ▸ h.ids
      followers := hfollowers
      dispatching := countP_dispatching_le hfollowers
      reserved := by simp [h.reserved, hlive, hsame]
      budget := h.budget
      live_le := by simpa [hlive] using h.live_le
      tombstones_le := h.tombstones_le
      limit := h.limit
      empty := hseq ▸ h.empty
      tombstones := h.tombstones
      entries := by
        intro f hf
        rcases List.mem_cons.mp hf with rfl | hf
        · rw [← hheader] at hresult
          exact ⟨hheader ▸ he.policy, hrequest ▸ he.request, hheader ▸ he.capacity, by rw [hheader, hrequest, he.requestHash],
            by rw [hheader, hid, he.id], hresult, hhash, hstate⟩
        · exact h.entries f (by simp [hlive, hf]) }

/-- Of the tombstones a first part leaves, and there is room for one more. -/
theorem DeliveryLedger.kept_eq_drop (l : DeliveryLedger) (hle : l.tombstones.length ≤ maxDeliveryTombstones) :
    ∃ d ≤ l.tombstones.length, l.kept = l.tombstones.drop d ∧ l.kept.length < maxDeliveryTombstones := by
  unfold kept
  split_ifs with hfull
  · refine ⟨1, ?_, by rw [List.drop_one], ?_⟩
    · rw [hfull]
      decide
    · rw [List.length_tail, hfull]
      decide
  · exact ⟨0, Nat.zero_le _, rfl, by omega⟩

/-- The head of the queue becomes the last tombstone. -/
theorem DeliveryLedger.Sound.consume (h : l.Sound p) (hlive : l.live = e :: rest)
    (hstate : e.state = .resultReady) {contract : NonZeroU64} {resultHash : Hash32} : { l with
      live := rest
      tombstones := l.kept ++ [e.bury contract resultHash]
      reservedBytes := l.reservedBytes - e.reservation }.Sound p := by
  obtain ⟨d, hd, hkept, hlength⟩ := l.kept_eq_drop h.tombstones_le
  have hroom := h.room
  have hcount := l.length_sequences
  have he := h.entries e (by simp [hlive])
  have hfollowers : ∀ f ∈ rest, f.Fresh := by simpa [hlive] using h.followers
  have hseq : l.kept.map (·.sequence) ++ e.sequence :: rest.map (·.sequence) = l.sequences.drop d := by
    rw [sequences, hkept, hlive, List.drop_append_of_le_length (by simpa using hd),
      List.map_drop, List.map_cons]
  have hids : l.kept.map (·.id) ++ e.id :: rest.map (·.id) = l.ids.drop d := by
    rw [ids, hkept, hlive, List.drop_append_of_le_length (by simpa using hd), List.map_drop,
      List.map_cons]
  generalize hl' : { l with
    live := rest
    tombstones := l.kept ++ [e.bury contract resultHash]
    reservedBytes := l.reservedBytes - e.reservation } = l'
  have hseq' : l'.sequences = l.sequences.drop d := by
    rw [← hseq, ← hl']
    simp [sequences, bury]
  have hids' : l'.ids = l.ids.drop d := by
    rw [← hids, ← hl']
    simp [ids, bury]
  have hnext : l'.nextSequence = l.nextSequence := by rw [← hl']
  have hsum : l.reservedBytes = e.reservation + (rest.map (·.reservation)).sum := by
    rw [h.reserved, hlive, List.map_cons, List.sum_cons]
  have hnonempty : d < l.sequences.length := by
    rw [hcount, hlive, List.length_cons]
    omega
  have hattempt := (he.claimed (by rw [hstate]; decide)).1
  exact
    { room := by
        rw [hseq', hnext, List.length_drop]
        omega
      sequences := by
        rw [hseq', hnext, List.length_drop]
        nth_rewrite 1 [h.sequences]
        rw [List.drop_range', Nat.mul_one]
        congr 1
        omega
      ids := hids' ▸ h.ids.sublist (List.drop_sublist d _)
      followers := hl' ▸ fun f hf => hfollowers f (List.mem_of_mem_tail hf)
      dispatching := hl' ▸ countP_dispatching_le fun f hf => hfollowers f (List.mem_of_mem_tail hf)
      reserved := by
        rw [← hl']
        simp only
        omega
      budget := hl' ▸ (Nat.sub_le _ _).trans h.budget
      live_le := by
        have hle := h.live_le
        rw [hlive, List.length_cons] at hle
        exact hl' ▸ Nat.le_of_succ_le hle
      tombstones_le := by simpa [← hl'] using Nat.succ_le_of_lt hlength
      limit := hnext ▸ h.limit
      empty := by
        intro hempty
        rw [hseq', List.drop_eq_nil_iff] at hempty
        omega
      tombstones := by
        rw [← hl']
        intro t ht
        rcases List.mem_append.mp ht with ht | ht
        · rw [hkept] at ht
          exact h.tombstones t (List.mem_of_mem_drop ht)
        · rw [List.mem_singleton.mp ht]
          exact ⟨he.policy, he.capacity, hattempt, he.id⟩
      entries := hl' ▸ fun f hf => h.entries f (by simp [hlive, hf]) }

theorem Move.sound {op : Operation} (m : Move p l op l' reply) (h : l.Sound p) : l'.Sound p := by
  cases m with
  | refuses | prepares | preparesBatch | repeats | reads => exact h
  | enqueues hpush => exact h.push hpush
  | enqueuesBatch _ hpushes => exact h.pushes hpushes
  | @claims e rest _ contract hlive hstate hattempt hcontract hsame =>
    have he := h.entries e (by simp [hlive])
    obtain ⟨hnone, hhash⟩ := he.no_result (by rw [hstate]; decide)
    refine h.setHead hlive rfl rfl rfl he.result he.resultHash ?_
    simp only [validState, claim, hnone, hhash]
    simpa using Nat.succ_le_of_lt hattempt
  | @records e rest c result hlive hc hstate hsize =>
    have he := h.entries e (by simp [hlive])
    refine h.setHead hlive rfl rfl rfl (by simpa [record] using hsize) rfl ?_
    have hqueued : e.state ≠ .queued := by rcases hstate with h | h <;> rw [h] <;> decide
    obtain ⟨⟨hone, hthree⟩, hcontract⟩ := he.claimed hqueued
    simp [validState, record, hone, hthree, hcontract]
  | @marks e rest c hlive hc hstate =>
    have he := h.entries e (by simp [hlive])
    refine h.setHead hlive rfl rfl rfl he.result he.resultHash ?_
    simpa [validState, hstate] using he.state
  | @requeues e rest c hlive hc hstate hpolicy hattempt =>
    have he := h.entries e (by simp [hlive])
    obtain ⟨⟨hone, -⟩, hcontract⟩ := he.claimed (by rw [hstate]; decide)
    obtain ⟨hnone, hhash⟩ := he.no_result (by rw [hstate]; decide)
    refine h.setHead hlive rfl rfl rfl he.result he.resultHash ?_
    simp [validState, hone, hattempt, hcontract, hnone, hhash, hpolicy]
  | @consumes e rest c contract resultHash _ hlive hc hstate _ _ => exact h.consume hlive hstate

theorem Move.unchanged {op : Operation} (m : Move p l op l' reply) {fault : Fault} (hfault : reply = .error fault)
    : l' = l ∧ ∃ e, fault = .err e := by
  cases m with
  | refuses _ e =>
    cases hfault
    exact ⟨rfl, e, rfl⟩
  | _ => cases hfault

end Keep

/-! ### Runs -/

/-- A ledger that `new` or `restore_checked` returns. -/
def DeliveryLedger.Origin (p : Platform) (l : DeliveryLedger) : Prop :=
  (∃ space, l = .new space) ∨
    ∃ space nextSequence live tombstones digest,
      DeliveryLedger.restoreChecked p space nextSequence live tombstones digest = .ok l

theorem DeliveryLedger.sound_new (p : Platform) (space : Hash32) : (DeliveryLedger.new space).Sound p where
  room := Nat.one_pos
  sequences := rfl
  ids := List.nodup_nil
  followers := by simp [DeliveryLedger.new]
  dispatching := Nat.zero_le _
  reserved := rfl
  budget := Nat.zero_le _
  live_le := Nat.zero_le _
  tombstones_le := Nat.zero_le _
  limit := Nat.le_add_left _ _
  empty := fun _ => rfl
  tombstones := by simp [DeliveryLedger.new]
  entries := by simp [DeliveryLedger.new]

theorem DeliveryLedger.Origin.sound {p : Platform} {l : DeliveryLedger} (h : l.Origin p) : l.Sound p := by
  rcases h with ⟨space, rfl⟩ | ⟨space, nextSequence, live, tombstones, digest, hok⟩
  · exact sound_new p space
  · exact (restoreChecked_eq_ok_iff.mp hok).2

theorem sound_ledgerAfter {p : Platform} (ops : List Operation) : ∀ {l : DeliveryLedger}, l.Sound p →
    (ledgerAfter p l ops).Sound p := by
  induction ops with
  | nil => exact fun h => h
  | cons op ops ih => exact fun h => ih ((respond_move h op).sound h)

/-- Every ledger that is reached from a new or a restored one is consistent, and a further call does not
panic and changes nothing if it returns an error. -/
theorem ledgerAfter_consistent (p : Platform) (start : DeliveryLedger) (hstart : start.Origin p)
    (ops : List Operation) : (ledgerAfter p start ops).Consistent ∧
      ∀ op, (respond p (ledgerAfter p start ops) op).2 ≠ .error .panics ∧
        ∀ e, (respond p (ledgerAfter p start ops) op).2 = .error (.err e) →
          (respond p (ledgerAfter p start ops) op).1 = ledgerAfter p start ops := by
  have hsound := sound_ledgerAfter ops hstart.sound
  refine ⟨hsound.toConsistent, fun op => ⟨fun hpanic => ?_, fun e he => ?_⟩⟩
  · obtain ⟨-, e, he⟩ := (respond_move hsound op).unchanged hpanic
    cases he
  · exact ((respond_move hsound op).unchanged he).1

/-! A delivery that is claimed twice, answered and consumed. Every hash is the zero hash. -/

namespace Sample

def prepared : PreparedDelivery where
  sequence := 1
  kind := .http
  recoveryPolicy := .reconcileBeforeRetry
  requestHash := zeroHash
  resultCapacity := 8
  space := zeroHash
  id := zeroHash
  request := [1]
  policy_kind := rfl
  request_length := by decide
  capacity_le := by decide

def correlation (attempt : ℕ) : DeliveryCorrelation := ⟨zeroHash, zeroHash, attempt, ⟨7, by decide⟩⟩

def ops : List Operation :=
  [.enqueue prepared, .claimOldest 7, .markAmbiguous (correlation 1), .resolveNotPerformed (correlation 1),
    .claimOldest 7, .recordResult (correlation 2) [5], .consumeReady (correlation 2)]

end Sample

theorem ledgerAfter_consistent_sample : (DeliveryLedger.new zeroHash).Origin default ∧
    (ledgerAfter default (.new zeroHash) Sample.ops).tombstones.length = 1 ∧
    (ledgerAfter default (.new zeroHash) Sample.ops).Consistent :=
  ⟨.inl ⟨_, rfl⟩, by decide, (ledgerAfter_consistent _ _ (.inl ⟨_, rfl⟩) _).1⟩

end EuWallet.Delivery
