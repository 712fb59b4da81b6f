import EuWallet.Delivery.Invariant

/-! # Batches of deliveries

A batch is prepared on a copy of the ledger and committed as a whole. Committed at once, it is what its
deliveries are one after the other; committed later, it is stale as soon as anything was enqueued, since every
enqueued entry moves the next sequence number on. -/

namespace EuWallet.Delivery

open Codec Crypto Lib DeliveryLedger

namespace DeliveryLedger

/-- `prepareBatch`, and at once `enqueueBatch`. -/
def deliverBatch (p : Platform) (l : DeliveryLedger) (specs : List DeliverySpec) :
    DeliveryLedger × Reply (List Hash32) :=
  match l.prepareBatch p specs with
  | .ok batch => l.enqueueBatch p batch
  | .error e => (l, .error e)

/-- `prepare` and `enqueue` of one delivery after the other. -/
def deliverEach (p : Platform) : DeliveryLedger → List DeliverySpec → Reply (DeliveryLedger × List Hash32)
  | l, [] => .ok (l, [])
  | l, spec :: specs => do
    let prepared ← l.prepare p spec.kind spec.request spec.resultCapacity
    let id ← (l.enqueue p prepared).2
    let (l, ids) ← deliverEach p (l.enqueue p prepared).1 specs
    return (l, id :: ids)

end DeliveryLedger

/-- The call put something into the queue. -/
def Exchange.enqueues (k : Exchange) : Bool :=
  match k.input, k.outputs with
  | .enqueue _, [.ok _] | .enqueueBatch _, [.ok _] => true
  | _, _ => false

section Batch
variable {p : Platform} {l l' : DeliveryLedger} {prepared : PreparedDelivery} {batch : List PreparedDelivery}
  {specs : List DeliverySpec} {id : Hash32} {ids : List Hash32}

theorem pushes_of_enqueue (h : (l.enqueue p prepared).2 = .ok id) : Pushes p prepared l (l.enqueue p prepared).1 := by
  rcases enqueue_cases p l prepared with ⟨l', hpush, hok⟩ | ⟨e, herr⟩
  · rw [hok]
    exact hpush
  · rw [herr] at h
    cases h

theorem enqueueBatch_eq_ok :
    l.enqueueBatch p batch = (l', .ok ids) ↔ batch ≠ [] ∧ l.enqueueEntries p batch = .ok (l', ids) := by
  unfold enqueueBatch
  by_cases hbatch : batch = []
  · simp [hbatch, fail]
  · cases l.enqueueEntries p batch <;> simp [hbatch, Prod.ext_iff]

theorem enqueueBatch_failed {e : Fault} (h : l.enqueueBatch p batch = (l', .error e)) : l' = l := by
  unfold enqueueBatch at h
  split_ifs at h
  · exact (Prod.mk.inj h).1.symm
  · split at h <;> cases h
    rfl

/-! ### Committed at once -/

/-- Entry by entry, the staged ledger on which the batch was prepared is the one on which it is enqueued. -/
theorem deliverEach_eq_ok {r : DeliveryLedger × List Hash32} : l.deliverEach p specs = .ok r ↔
    ∃ batch, l.prepareEntries p specs = .ok batch ∧ l.enqueueEntries p batch = .ok r := by
  induction specs generalizing l r with
  | nil => simp [deliverEach, prepareEntries, enqueueEntries]
  | cons spec specs ih =>
    simp only [deliverEach, prepareEntries, prepare, bind_eq_ok,
      pure_eq_ok, ih]
    constructor
    · rintro ⟨prepared, hprepared, id, hid, r', ⟨batch, hbatch, hentries⟩, heq⟩
      refine ⟨_, ⟨prepared, hprepared, id, hid, batch, hbatch, rfl⟩, ?_⟩
      exact bind_eq_ok.mpr ⟨id, hid, bind_eq_ok.mpr ⟨r', hentries, pure_eq_ok.mpr heq⟩⟩
    · rintro ⟨_, ⟨prepared, hprepared, -, -, batch, hbatch, rfl⟩, hentries⟩
      obtain ⟨id, hid, hrest⟩ := bind_eq_ok.mp hentries
      obtain ⟨r', hentries', heq⟩ := bind_eq_ok.mp hrest
      exact ⟨prepared, hprepared, id, hid, r', ⟨batch, hbatch, hentries'⟩, pure_eq_ok.mp heq⟩

/-- What can be prepared entry by entry has passed the check of the capacity made up front. -/
theorem prepareEntries_room (h : l.prepareEntries p specs = .ok batch) :
    batch.length = specs.length ∧ specs.length ≤ maxLiveDeliveries - l.live.length := by
  induction specs generalizing l batch with
  | nil =>
    rw [← Except.ok.inj h]
    exact ⟨rfl, Nat.zero_le _⟩
  | cons spec specs ih =>
    simp only [prepareEntries, bind_eq_ok, pure_eq_ok] at h
    obtain ⟨prepared, -, id, hid, rest, hrest, rfl⟩ := h
    have hpush := pushes_of_enqueue hid
    have hroom := hpush.room
    obtain ⟨hlength, hle⟩ := ih hrest
    rw [hpush.after, List.length_append, List.length_singleton] at hle
    rw [List.length_cons, List.length_cons]
    omega

theorem prepareBatch_eq_ok (hspecs : specs ≠ []) :
    l.prepareBatch p specs = .ok batch ↔ l.prepareEntries p specs = .ok batch := by
  unfold prepareBatch
  by_cases hroom : specs.length ≤ maxLiveDeliveries - l.live.length
  · have hpos := List.length_pos_iff.mpr hspecs
    rw [if_neg hspecs, if_neg (by omega), if_neg (by omega)]
  · refine iff_of_false ?_ fun h => hroom (prepareEntries_room h).2
    split_ifs <;> first | omega | exact fun h => by cases h

theorem deliverBatch_eq_ok (hspecs : specs ≠ []) :
    l.deliverBatch p specs = (l', .ok ids) ↔ l.deliverEach p specs = .ok (l', ids) := by
  rw [deliverEach_eq_ok]
  simp only [← prepareBatch_eq_ok hspecs]
  unfold deliverBatch
  cases h : l.prepareBatch p specs with
  | error e => simp
  | ok batch =>
    have hlength := (prepareEntries_room ((prepareBatch_eq_ok hspecs).mp h)).1
    have hbatch : batch ≠ [] := by
      rintro rfl
      exact hspecs (List.length_eq_zero_iff.mp hlength.symm)
    simp [enqueueBatch_eq_ok, hbatch]

theorem deliverBatch_failed {e : Fault} (h : l.deliverBatch p specs = (l', .error e)) : l' = l := by
  unfold deliverBatch at h
  split at h
  · exact enqueueBatch_failed h
  · exact (Prod.mk.inj h).1.symm

/-! ### Committed later -/

theorem enqueueEntries_sequence (h : l.enqueueEntries p batch = .ok (l', ids)) :
    l'.nextSequence = l.nextSequence + batch.length ∧ ∀ prepared ∈ batch.head?, prepared.sequence = l.nextSequence := by
  induction batch generalizing l ids with
  | nil =>
    cases h
    exact ⟨rfl, nofun⟩
  | cons prepared batch ih =>
    simp only [enqueueEntries, bind_eq_ok, Prod.exists, pure_eq_ok, Prod.mk.injEq] at h
    obtain ⟨id, hid, _, ids', hentries, rfl, -⟩ := h
    have hpush := pushes_of_enqueue hid
    rw [(ih hentries).1, hpush.after, List.length_cons]
    exact ⟨Nat.add_right_comm _ 1 _, fun _ hmem => Option.some.inj hmem ▸ hpush.sequence⟩

/-- Every call that puts something into the queue moves the next sequence number on; none moves it back. -/
theorem respond_sequence (p : Platform) (l : DeliveryLedger) (op : Operation) :
    l.nextSequence + [callOf (step p) l op].countP Exchange.enqueues ≤ (respond p l op).1.nextSequence := by
  have hone : [callOf (step p) l op].countP Exchange.enqueues ≤ 1 := List.countP_le_length
  cases op with
  | prepare | prepareBatch | readyResult => exact le_rfl
  | enqueue prepared =>
    rcases enqueue_cases p l prepared with ⟨l', hpush, hok⟩ | ⟨e, herr⟩
    · rw [respond, hok, hpush.after]
      exact Nat.add_le_add_left hone _
    · simp [Exchange.enqueues, step, respond, herr, fail, Except.map]
  | enqueueBatch batch =>
    rcases h : l.enqueueBatch p batch with ⟨l', e | ids⟩
    · simp [Exchange.enqueues, step, respond, h, enqueueBatch_failed h, Except.map]
    · obtain ⟨hbatch, hentries⟩ := enqueueBatch_eq_ok.mp h
      have hpos := List.length_pos_iff.mpr hbatch
      have hnext := (enqueueEntries_sequence hentries).1
      simp only [respond, h]
      omega
  | claimOldest | recordResult | markAmbiguous | resolveNotPerformed | consumeReady =>
    -- these methods do not write the field
    simp only [respond, claimOldest, recordResult, markAmbiguous,
      resolveNotPerformed, consumeReady]
    repeat' split
    all_goals exact le_rfl

theorem ledgerAfter_sequence (p : Platform) (l : DeliveryLedger) (ops : List Operation) :
    l.nextSequence + (exchanges p l ops).countP Exchange.enqueues ≤ (ledgerAfter p l ops).nextSequence := by
  refine calls_invariant (fun cs l' => l.nextSequence + cs.countP Exchange.enqueues ≤ l'.nextSequence) le_rfl ?_ ops
  intro cs l' op h
  have hstep := respond_sequence p l' op
  rw [List.countP_append, ← Nat.add_assoc]
  exact (Nat.add_le_add_right h _).trans hstep

theorem not_enqueues_of_enqueueBatch {ops : List Operation} (hspecs : specs ≠ [])
    (hprepare : l.prepareBatch p specs = .ok batch) (henqueue : ((ledgerAfter p l ops).enqueueBatch p batch).2 = .ok ids) :
    ∀ k ∈ exchanges p l ops, k.enqueues = false := by
  obtain ⟨spec, specs, rfl⟩ := List.exists_cons_of_ne_nil hspecs
  have hentries := (prepareBatch_eq_ok hspecs).mp hprepare
  simp only [prepareEntries, bind_eq_ok, pure_eq_ok] at hentries
  obtain ⟨prepared, -, id, hid, rest, -, rfl⟩ := hentries
  have hbefore := (pushes_of_enqueue hid).sequence
  have hafter := (enqueueEntries_sequence (enqueueBatch_eq_ok.mp (Prod.ext rfl henqueue)).2).2 prepared rfl
  have hle := ledgerAfter_sequence p l ops
  have hzero : (exchanges p l ops).countP Exchange.enqueues = 0 := by omega
  simpa using List.countP_eq_zero.mp hzero

end Batch

/-- A batch is the atomic form of its deliveries. -/
theorem deliverBatch_atomic (p : Platform) (l : DeliveryLedger) (specs : List DeliverySpec) (hspecs : specs ≠ []) :
    (∀ l' ids, l.deliverBatch p specs = (l', .ok ids) ↔ l.deliverEach p specs = .ok (l', ids)) ∧
      (∀ l' e, l.deliverBatch p specs = (l', .error e) → l' = l) ∧
      ∀ batch ops ids, l.prepareBatch p specs = .ok batch →
        ((ledgerAfter p l ops).enqueueBatch p batch).2 = .ok ids → ∀ k ∈ exchanges p l ops, k.enqueues = false :=
  ⟨fun _ _ => deliverBatch_eq_ok hspecs, fun _ _ => deliverBatch_failed,
    fun _ _ _ => not_enqueues_of_enqueueBatch hspecs⟩

theorem deliverBatch_atomic_close : ∃ batch,
    (DeliveryLedger.new zeroHash).prepareBatch default [⟨.close, [7], 0⟩] = .ok batch ∧
      ((ledgerAfter default (.new zeroHash) [.claimOldest 1]).enqueueBatch default batch).2 = .ok [zeroHash] ∧
      ∀ k ∈ exchanges default (.new zeroHash) [.claimOldest 1], k.enqueues = false :=
  have henqueue := by decide
  ⟨_, rfl, henqueue, (deliverBatch_atomic _ _ [⟨.close, [7], 0⟩] (by simp)).2.2 _ _ _ rfl henqueue⟩

end EuWallet.Delivery
