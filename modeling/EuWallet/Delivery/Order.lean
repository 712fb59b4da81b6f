import EuWallet.Delivery.Invariant

/-! # Deliveries are performed in order

What a run did is read off its calls: which deliveries were claimed, which results were recorded and
returned, which deliveries were consumed. `Journal` gives all of it in closed form. The deliveries of a ledger
that was new are, in order, those that were consumed, `past`, and those that are live; the claims of the run
are the attempts at each of them, one delivery after the other. -/

namespace EuWallet.Delivery

open Codec Crypto Lib DeliveryEntry DeliveryLedger

/-! ### What a run did -/

def DeliveryLedger.sequenceOf (l : DeliveryLedger) (id : Hash32) : Option ℕ :=
  (l.live.find? (·.id == id)).map (·.sequence)

def Exchange.claim (k : Exchange) : Option ClaimedDelivery :=
  match k.input, k.outputs with
  | .claimOldest _, [.ok (.claimed delivery)] => some delivery
  | _, _ => none

/-- The delivery a call records a result of, and the result. -/
def Exchange.recording (k : Exchange) : Option (ℕ × Bytes) :=
  match k.input, k.outputs with
  | .recordResult c result, [.ok (.recorded .recorded)] =>
    (k.before.sequenceOf c.id).map fun n => (n, result)
  | _, _ => none

/-- The delivery a call returns the result of, and the result. -/
def Exchange.reading (k : Exchange) : Option (ℕ × Bytes) :=
  match k.input, k.outputs with
  | .readyResult c, [.ok (.result bytes)] => (k.before.sequenceOf c.id).map fun n => (n, bytes)
  | _, _ => none

/-- The delivery a call consumes. -/
def Exchange.consumption (k : Exchange) : Option ℕ :=
  match k.input, k.outputs with
  | .consumeReady c, [.ok (.consumed _)] => k.before.sequenceOf c.id
  | _, _ => none

def claims (cs : List Exchange) : List ClaimedDelivery := cs.filterMap Exchange.claim

def recordings (cs : List Exchange) : List (ℕ × Bytes) := cs.filterMap Exchange.recording

def readings (cs : List Exchange) : List (ℕ × Bytes) := cs.filterMap Exchange.reading

def consumptions (cs : List Exchange) : List ℕ := cs.filterMap Exchange.consumption

def claimsOf (n : ℕ) (cs : List Exchange) : List ClaimedDelivery := (claims cs).filter (·.sequence = n)

/-! ### The journal -/

/-- What the adapters were handed for an entry so far. -/
def DeliveryEntry.history (e : DeliveryEntry) : List ClaimedDelivery :=
  match e.adapterContract with
  | none => []
  | some contract => (List.range' 1 e.attempt).map fun a => { e with attempt := a }.handed contract

def DeliveryEntry.results (e : DeliveryEntry) : List (ℕ × Bytes) :=
  e.result.toList.map fun r => (e.sequence, r)

def Remains (p : Platform) (e : DeliveryEntry) (t : DeliveryTombstone) : Prop :=
  ∃ contract result, e.adapterContract = some contract ∧ e.result = some result ∧
    t = e.bury contract (p.sha256 result)

structure Journal (p : Platform) (cs : List Exchange) (l : DeliveryLedger) (past : List DeliveryEntry) :
    Prop where
  sound : l.Sound p
  numbered : (past ++ l.live).map (·.sequence) = List.range' 1 (past ++ l.live).length
  next : l.nextSequence = (past ++ l.live).length + 1
  past_sound : ∀ e ∈ past, e.Sound p l.space ∧ e.state = .resultReady
  single : ∀ e ∈ past ++ l.live, ¬ e.recoveryPolicy.Replayable → e.attempt ≤ 1
  tombstones : ∀ t ∈ l.tombstones, ∃ e ∈ past, Remains p e t
  claimed : claims cs = (past ++ l.live).flatMap (·.history)
  recorded : recordings cs = (past ++ l.live).flatMap (·.results)
  consumed : consumptions cs = past.map (·.sequence)
  read : ∀ x ∈ readings cs, x ∈ recordings cs

section Step
variable {p : Platform} {l l' : DeliveryLedger} {e : DeliveryEntry} {rest past : List DeliveryEntry}
  {cs : List Exchange} {op : Operation} {reply : Reply Value}

theorem sequenceOf_head {c : DeliveryCorrelation} (hlive : l.live = e :: rest)
    (hc : e.correlation = some c) : l.sequenceOf c.id = some e.sequence := by
  have hid : e.id = c.id := (correlation_eq_some.mp hc).1.symm
  simp [sequenceOf, hlive, hid]

theorem flatMap_eq_nil_of_fresh {es : List DeliveryEntry} (h : ∀ e ∈ es, e.Fresh) :
    es.flatMap (·.history) = [] ∧ es.flatMap (·.results) = [] :=
  ⟨List.flatMap_eq_nil_iff.mpr fun e he => by simp [history, (h e he).2.2.1],
    List.flatMap_eq_nil_iff.mpr fun e he => by simp [results, (h e he).2.2.2.1]⟩

/-- What one more call adds to what a run did. -/
theorem filterMap_concat {α : Type} (f : Exchange → Option α) (cs : List Exchange) (k : Exchange) :
    (cs ++ [k]).filterMap f = cs.filterMap f ++ (f k).toList := by
  cases h : f k <;> simp [h]

theorem history_claim {space : Hash32} {contract : NonZeroU64} (he : e.Sound p space)
    (hstate : e.state = .queued) (hsame : ∀ d ∈ e.adapterContract, d = contract) :
    (e.claim contract).history = e.history ++ [(e.claim contract).handed contract] := by
  have hrange : List.range' 1 (e.attempt + 1) = List.range' 1 e.attempt ++ [e.attempt + 1] := by
    rw [List.range'_concat, Nat.one_mul, Nat.add_comm 1]
  cases hcontract : e.adapterContract with
  | none =>
    have hzero : e.attempt = 0 := by
      rcases he.queued hstate with ⟨hzero, -⟩ | ⟨-, -, hclaimed⟩
      · exact hzero
      · simp [hcontract] at hclaimed
    simp [history, hcontract, claim, hzero, handed]
  | some d =>
    obtain rfl := hsame d hcontract
    simp [history, hcontract, claim, hrange, handed]

section
variable (j : Journal p cs l past)
include j

variable {k : Exchange}

/-- A call that leaves the ledger as it was. -/
theorem Journal.stay (hclaim : Exchange.claim k = none) (hrecording : Exchange.recording k = none)
    (hconsumption : Exchange.consumption k = none)
    (hreading : ∀ x ∈ Exchange.reading k, x ∈ recordings cs) : Journal p (cs ++ [k]) l past := by
  have hsame {α : Type} {f : Exchange → Option α} (hf : f k = none) : (cs ++ [k]).filterMap f = cs.filterMap f := by
    simp [hf]
  exact { j with
    claimed := (hsame hclaim).trans j.claimed
    recorded := (hsame hrecording).trans j.recorded
    consumed := (hsame hconsumption).trans j.consumed
    read := by
      intro x hx
      rw [recordings, hsame hrecording]
      rw [readings, List.filterMap_append, List.mem_append] at hx
      exact hx.elim (j.read x) fun hx => hreading x (by simpa using hx) }

/-- A call that changes the head of the queue: the claim and the result it adds are those of the call. -/
theorem Journal.setHead {e' : DeliveryEntry} (hlive : l.live = e :: rest)
    (hsound : { l with live := e' :: rest }.Sound p)
    (hsequence : e'.sequence = e.sequence) (hsingle : ¬ e'.recoveryPolicy.Replayable → e'.attempt ≤ 1)
    (hhistory : e'.history = e.history ++ (Exchange.claim k).toList)
    (hresults : e'.results = e.results ++ (Exchange.recording k).toList)
    (hconsumption : Exchange.consumption k = none) (hreading : Exchange.reading k = none) :
    Journal p (cs ++ [k]) { l with live := e' :: rest } past := by
  have hnumbered := j.numbered
  have hnext := j.next
  have hfollowers : ∀ f ∈ rest, f.Fresh := by simpa [hlive] using j.sound.followers
  obtain ⟨hquiet, hsilent⟩ := flatMap_eq_nil_of_fresh hfollowers
  rw [hlive] at hnumbered hnext
  exact
    { sound := hsound
      numbered := by simpa [hsequence] using hnumbered
      next := by simpa using hnext
      past_sound := j.past_sound
      single := by
        intro f hf
        rcases List.mem_append.mp hf with hf | hf
        · exact j.single f (List.mem_append_left _ hf)
        · rcases List.mem_cons.mp hf with rfl | hf
          · exact hsingle
          · exact j.single f (by simp [hlive, hf])
      tombstones := j.tombstones
      claimed := by
        rw [claims, filterMap_concat, ← claims, j.claimed, hlive]
        simp [hhistory, hquiet]
      recorded := by
        rw [recordings, filterMap_concat, ← recordings, j.recorded, hlive]
        simp [hresults, hsilent]
      consumed := by simp [consumptions, hconsumption, ← j.consumed]
      read := by
        intro x hx
        rw [recordings, filterMap_concat]
        exact List.mem_append_left _ (j.read x (by simpa [readings, hreading] using hx)) }

/-- Deliveries that are enqueued have no history yet. -/
theorem Journal.push {prepared : PreparedDelivery} (hpush : Pushes p prepared l l') : Journal p cs l' past := by
  have hfresh : ∀ f ∈ [prepared.entry], f.Fresh := by simpa using prepared.fresh_entry
  obtain ⟨hquiet, hsilent⟩ := flatMap_eq_nil_of_fresh hfresh
  have hlive : past ++ l'.live = (past ++ l.live) ++ [prepared.entry] := by
    rw [hpush.after, List.append_assoc]
  have hlength : (past ++ l'.live).length = (past ++ l.live).length + 1 := by
    rw [hlive]
    simp only [List.length_append, List.length_singleton]
  have hnext : l'.nextSequence = l.nextSequence + 1 := by rw [hpush.after]
  have hsequence : prepared.entry.sequence = (past ++ l.live).length + 1 := hpush.sequence.trans j.next
  exact
    { sound := j.sound.push hpush
      numbered := by
        rw [hlength, List.range'_concat, hlive, List.map_append, j.numbered, List.map_singleton, hsequence,
          Nat.one_mul, Nat.add_comm 1]
      next := by rw [hnext, hlength, j.next]
      past_sound := hpush.after ▸ j.past_sound
      single := by
        intro f hf
        rw [hlive] at hf
        rcases List.mem_append.mp hf with hf | hf
        · exact j.single f hf
        · rw [List.mem_singleton.mp hf]
          exact fun _ => Nat.zero_le 1
      tombstones := hpush.after ▸ j.tombstones
      claimed := by rw [hlive, List.flatMap_append, hquiet, List.append_nil, j.claimed]
      recorded := by rw [hlive, List.flatMap_append, hsilent, List.append_nil, j.recorded]
      consumed := j.consumed
      read := j.read }

theorem Journal.pushes
    (hpushes : Relation.ReflTransGen (fun a b => ∃ prepared, Pushes p prepared a b) l l') : Journal p cs l' past := by
  induction hpushes with
  | refl => exact j
  | tail _ hpush ih =>
    obtain ⟨prepared, hpush⟩ := hpush
    exact ih.push hpush

/-- The head of the queue joins the past. -/
theorem Journal.consume {contract : NonZeroU64} {result : Bytes} (hlive : l.live = e :: rest)
    (hstate : e.state = .resultReady)
    (hcontract : e.adapterContract = some contract) (hresult : e.result = some result)
    (hclaim : Exchange.claim k = none) (hrecording : Exchange.recording k = none)
    (hconsumption : Exchange.consumption k = some e.sequence) (hreading : Exchange.reading k = none) :
    Journal p (cs ++ [k]) { l with
        live := rest
        tombstones := l.kept ++ [e.bury contract (p.sha256 result)]
        reservedBytes := l.reservedBytes - e.reservation } (past ++ [e]) := by
  have hsplit : (past ++ [e]) ++ rest = past ++ l.live := by rw [hlive]; simp
  have hrecordings : recordings (cs ++ [k]) = recordings cs := by simp [recordings, hrecording]
  exact
    { sound := j.sound.consume hlive hstate
      numbered := hsplit ▸ j.numbered
      next := hsplit ▸ j.next
      past_sound := by
        intro f hf
        rcases List.mem_append.mp hf with hf | hf
        · exact j.past_sound f hf
        · rw [List.mem_singleton.mp hf]
          exact ⟨j.sound.entries e (by simp [hlive]), hstate⟩
      single := hsplit ▸ j.single
      tombstones := by
        intro t ht
        rcases List.mem_append.mp ht with ht | ht
        · obtain ⟨d, -, hkept, -⟩ := l.kept_eq_drop j.sound.tombstones_le
          rw [hkept] at ht
          obtain ⟨f, hf, hremains⟩ := j.tombstones t (List.mem_of_mem_drop ht)
          exact ⟨f, List.mem_append_left _ hf, hremains⟩
        · exact ⟨e, by simp, contract, result, hcontract, hresult, List.mem_singleton.mp ht⟩
      claimed := by
        rw [hsplit, ← j.claimed]
        simp [claims, hclaim]
      recorded := by rw [hsplit, hrecordings, j.recorded]
      consumed := by
        rw [List.map_append, ← j.consumed]
        simp [consumptions, hconsumption]
      read := by
        intro x hx
        rw [hrecordings]
        exact j.read x (by simpa [readings, hreading] using hx) }

/-- The journal after one more call. -/
theorem Journal.move (m : Move p l op l' reply) : ∃ past', Journal p (cs ++ [⟨l, op, [reply], l'⟩]) l' past' := by
  have hsound := m.sound j.sound
  cases m with
  | refuses _ e => exact ⟨past, j.stay (by cases op <;> rfl) (by cases op <;> rfl) (by cases op <;> rfl)
      (by cases op <;> nofun)⟩
  | prepares | preparesBatch | repeats => exact ⟨past, j.stay rfl rfl rfl nofun⟩
  | enqueues hpush => exact ⟨past, (j.push hpush).stay rfl rfl rfl nofun⟩
  | enqueuesBatch _ hpushes => exact ⟨past, (j.pushes hpushes).stay rfl rfl rfl nofun⟩
  | @claims e rest _ contract hlive hstate hattempt hcontract hsame =>
    have he := j.sound.entries e (by simp [hlive])
    refine ⟨past, j.setHead hlive hsound rfl ?_ (history_claim he hstate hsame) (List.append_nil _).symm
      rfl rfl⟩
    -- a queued entry that was claimed before is one that may be replayed
    intro hpolicy
    rcases he.queued hstate with ⟨hzero, -⟩ | ⟨-, hreplayable, -⟩
    · exact Nat.succ_le_succ hzero.le
    · exact absurd hreplayable hpolicy
  | @records e rest c result hlive hc hstate hsize =>
    have he := j.sound.entries e (by simp [hlive])
    obtain ⟨hnone, -⟩ := he.no_result (by rcases hstate with h | h <;> rw [h] <;> decide)
    refine ⟨past, j.setHead hlive hsound rfl (j.single e (by simp [hlive])) (List.append_nil _).symm ?_
      rfl rfl⟩
    simp [Exchange.recording, sequenceOf_head hlive hc, results, record, hnone]
  | @marks e rest c hlive hc hstate | @requeues e rest c hlive hc hstate hpolicy hattempt =>
    exact ⟨past, j.setHead hlive hsound rfl (j.single e (by simp [hlive])) (List.append_nil _).symm
      (List.append_nil _).symm rfl rfl⟩
  | @reads e rest c bytes hlive hc hstate hresult =>
    refine ⟨past, j.stay rfl rfl rfl ?_⟩
    intro x hx
    simp only [Exchange.reading, sequenceOf_head hlive hc, Option.map_some, Option.mem_some_iff] at hx
    rw [j.recorded, hlive, ← hx]
    simp [results, hresult]
  | @consumes e rest c contract resultHash _ hlive hc hstate hcontract hhash =>
    have he := j.sound.entries e (by simp [hlive])
    obtain ⟨result, -, hresult, hresultHash, -⟩ := he.ready hstate
    obtain rfl : resultHash = p.sha256 result := Option.some.inj (hhash.symm.trans hresultHash)
    exact ⟨past ++ [e], j.consume hlive hstate hcontract hresult rfl rfl (sequenceOf_head hlive hc) rfl⟩

end

end Step

theorem journal_new (p : Platform) (space : Hash32) : Journal p [] (.new space) [] where
  sound := sound_new p space
  numbered := rfl
  next := rfl
  past_sound := by simp
  single := by simp [DeliveryLedger.new]
  tombstones := by simp [DeliveryLedger.new]
  claimed := rfl
  recorded := rfl
  consumed := rfl
  read := by simp [readings]

theorem journal_callOf (p : Platform) (cs : List Exchange) (l : DeliveryLedger) (op : Operation)
    (h : ∃ past, Journal p cs l past) : ∃ past, Journal p (cs ++ [callOf (step p) l op]) (step p l op).1 past := by
  obtain ⟨past, j⟩ := h
  exact j.move (respond_move j.sound op)

theorem exists_journal (p : Platform) (space : Hash32) (ops : List Operation) :
    ∃ past, Journal p (exchanges p (.new space) ops) (ledgerAfter p (.new space) ops) past := by
  exact calls_invariant (fun cs l => ∃ past, Journal p cs l past) ⟨[], journal_new p space⟩
    (journal_callOf p) ops

theorem exists_journal_before (p : Platform) (space : Hash32) (ops : List Operation) :
    Always (fun pre k => (∃ past, Journal p pre k.before past) ∧
      k = callOf (step p) k.before k.input) (exchanges p (.new space) ops) := by
  exact calls_always (fun cs l => ∃ past, Journal p cs l past) (fun _ _ => True)
    ⟨[], journal_new p space⟩ (fun cs l op h _ => journal_callOf p cs l op h) (fun _ _ _ h _ => ⟨h, rfl⟩) ops
    fun _ _ _ _ => trivial

/-! ### What the journal says -/

section Read
variable {p : Platform} {l : DeliveryLedger} {e f : DeliveryEntry} {past : List DeliveryEntry}
  {cs : List Exchange} {n : ℕ}

theorem sequence_of_mem_history {d : ClaimedDelivery} (h : d ∈ e.history) : d.sequence = e.sequence := by
  unfold history at h
  split at h
  · simp at h
  · obtain ⟨a, -, rfl⟩ := List.mem_map.mp h
    rfl

theorem Journal.nodup (j : Journal p cs l past) : ((past ++ l.live).map (·.sequence)).Nodup := by
  rw [j.numbered]
  exact List.nodup_range'

/-- Deliveries are told apart by their sequences. -/
theorem Journal.inj (j : Journal p cs l past) (he : e ∈ past ++ l.live) (hf : f ∈ past ++ l.live)
    (h : e.sequence = f.sequence) : e = f :=
  List.inj_on_of_nodup_map j.nodup he hf h

theorem filter_histories_eq_nil {es : List DeliveryEntry} (h : ∀ e ∈ es, e.sequence ≠ n) :
    (es.flatMap (·.history)).filter (·.sequence = n) = [] := by
  rw [List.filter_eq_nil_iff]
  intro d hd
  obtain ⟨e, he, hd⟩ := List.mem_flatMap.mp hd
  simpa [sequence_of_mem_history hd] using h e he

section
variable (j : Journal p cs l past)
include j

/-- The past comes first, in order. -/
theorem Journal.past_numbered : past.map (·.sequence) = List.range' 1 past.length ∧
      l.live.map (·.sequence) = List.range' (1 + past.length) l.live.length := by
  have hnumbered : past.map (·.sequence) ++ l.live.map (·.sequence) =
      List.range' 1 (past.map (·.sequence) ++ l.live.map (·.sequence)).length := by
    rw [← List.map_append, List.length_map]
    exact j.numbered
  simpa using append_eq_range'.mp hnumbered

theorem Journal.claimsOf_eq (he : e ∈ past ++ l.live) : claimsOf e.sequence cs = e.history := by
  obtain ⟨before, after, hsplit⟩ := List.append_of_mem he
  have hnodup := j.nodup
  rw [hsplit, List.map_append, List.map_cons, List.nodup_append] at hnodup
  obtain ⟨-, hafter, hbefore⟩ := hnodup
  have hself : e.history.filter (·.sequence = e.sequence) = e.history :=
    List.filter_eq_self.mpr fun d hd => by simpa using sequence_of_mem_history hd
  rw [claimsOf, j.claimed, hsplit, List.flatMap_append, List.flatMap_cons, List.filter_append,
    List.filter_append, hself, filter_histories_eq_nil, filter_histories_eq_nil, List.nil_append, List.append_nil]
  · intro f hf hsame
    exact (List.nodup_cons.mp hafter).1 (hsame ▸ List.mem_map_of_mem hf)
  · intro f hf
    exact hbefore _ (List.mem_map_of_mem hf) _ List.mem_cons_self

theorem Journal.claimsOf_eq_nil (h : ∀ e ∈ past ++ l.live, e.sequence ≠ n) : claimsOf n cs = [] := by
  rw [claimsOf, j.claimed, filter_histories_eq_nil h]

theorem Journal.exists_of_recorded {x : ℕ × Bytes} (h : x ∈ recordings cs) :
    ∃ e ∈ past ++ l.live, e.sequence = x.1 ∧ e.result = some x.2 := by
  rw [j.recorded] at h
  obtain ⟨e, he, hx⟩ := List.mem_flatMap.mp h
  obtain ⟨r, hr, rfl⟩ := List.mem_map.mp hx
  exact ⟨e, he, rfl, by simpa using hr⟩

theorem Journal.entry_sound (he : e ∈ past ++ l.live) : e.Sound p l.space := by
  rcases List.mem_append.mp he with he | he
  · exact (j.past_sound e he).1
  · exact j.sound.entries e he

end

end Read

/-! ### Late results -/

section
variable {p : Platform} {l : DeliveryLedger} {e : DeliveryEntry} {rest : List DeliveryEntry}
  {c : DeliveryCorrelation} {t : DeliveryTombstone}

theorem validateCorrelation_of_eq (c : DeliveryCorrelation) :
    validateCorrelation c c.requestHash c.attempt (some c.adapterContract) = .ok () := by
  simp [validateCorrelation]

theorem correlatedLocation_head (hlive : l.live = e :: rest) (hc : e.correlation = some c) :
    l.correlatedLocation c = .ok (.live 0) := by
  obtain ⟨hid, hhash, hcontract, hattempt⟩ := correlation_eq_some.mp hc
  have hfind : l.live.findIdx? (·.id == c.id) = some 0 := by
    simp [hlive, List.findIdx?_cons, hid]
  have hentry : l.live[0]? = some e := by rw [hlive]; rfl
  simp only [correlatedLocation, hfind, hentry, ← hhash, ← hcontract, ← hattempt,
    validateCorrelation_of_eq]
  rfl

theorem correlatedLocation_tombstone (hids : l.ids.Nodup) (ht : t ∈ l.tombstones) :
    ∃ i, l.correlatedLocation t.correlation = .ok (.tombstone i) ∧ l.tombstones[i]? = some t := by
  obtain ⟨htombs, -, hdisjoint⟩ := List.nodup_append.mp hids
  have hlive : l.live.findIdx? (·.id == t.correlation.id) = none := by
    rw [List.findIdx?_eq_none_iff]
    intro f hf
    rw [beq_eq_false_iff_ne]
    exact (hdisjoint _ (List.mem_map_of_mem ht) _ (List.mem_map_of_mem hf)).symm
  cases hfind : l.tombstones.findIdx? (·.id == t.correlation.id) with
  | none =>
    have hmiss := List.findIdx?_eq_none_iff.mp hfind t ht
    simp [DeliveryTombstone.correlation] at hmiss
  | some i =>
    obtain ⟨hi, hid, -⟩ := List.findIdx?_eq_some_iff_getElem.mp hfind
    have hsame : l.tombstones[i] = t :=
      List.inj_on_of_nodup_map htombs (List.getElem_mem hi) ht (beq_iff_eq.mp hid)
    have htomb : l.tombstones[i]? = some t := by rw [List.getElem?_eq_getElem hi, hsame]
    have hvalid : validateCorrelation t.correlation t.requestHash t.attempt (some t.adapterContract) = .ok () :=
      validateCorrelation_of_eq t.correlation
    refine ⟨i, ?_, htomb⟩
    simp only [correlatedLocation, hlive, hfind, htomb, hvalid]
    rfl

def lateReply (r b : Bytes) (capacity : ℕ) : Reply RecordResultOutcome :=
  if b = r then .ok .alreadyRecorded
  else if b.length ≤ capacity then fail .conflictingResult
  else fail .resultTooLarge

/-- What is replied once a result is there. -/
theorem reply_eq_late {r b : Bytes} {capacity : ℕ} {same : Prop} [Decidable same]
    (hcapacity : capacity ≤ maxDeliveryBlobBytes) (hlength : r.length ≤ capacity) (hsame : same ↔ b = r) :
    (if maxDeliveryBlobBytes < b.length then (l, fail .resultTooLarge)
      else if capacity < b.length then (l, fail .resultTooLarge)
      else if same then (l, .ok .alreadyRecorded) else (l, fail .conflictingResult)) = (l, lateReply r b capacity) := by
  unfold lateReply
  rw [if_congr hsame rfl rfl]
  by_cases hfits : b.length ≤ capacity
  · rw [if_neg (by omega), if_neg (by omega), if_pos hfits]
    split_ifs <;> rfl
  · have hne : b ≠ r := fun h => hfits (h ▸ hlength)
    rw [if_neg hne, if_neg hne, if_neg hfits, if_pos (Nat.lt_of_not_le hfits), ite_self]

theorem recordResult_head (he : e.Sound p l.space) (hlive : l.live = e :: rest) (hc : e.correlation = some c)
    {r b : Bytes} (hresult : e.result = some r) : l.recordResult p c b = (l, lateReply r b e.resultCapacity) := by
  have hstate : e.state = .resultReady := by
    by_contra hstate
    rw [(he.no_result hstate).1] at hresult
    cases hresult
  have hentry : l.live[0]? = some e := by rw [hlive]; rfl
  have hhash : e.resultHash = some (p.sha256 r) := by rw [he.resultHash, hresult, Option.map_some]
  simp only [recordResult, correlatedLocation_head hlive hc, hentry, hstate, hresult, hhash,
    Option.some.injEq]
  exact reply_eq_late he.capacity (he.result r hresult) ⟨fun h => h.1.symm, fun h => ⟨h.symm, by rw [h]⟩⟩

theorem recordResult_tombstone (hids : l.ids.Nodup) (hmem : t ∈ l.tombstones)
    (hcapacity : t.resultCapacity ≤ maxDeliveryBlobBytes) {r b : Bytes} (hhash : t.resultHash = p.sha256 r)
    (hlength : r.length ≤ t.resultCapacity) (hcollision : p.sha256 r = p.sha256 b → r = b) :
    l.recordResult p t.correlation b = (l, lateReply r b t.resultCapacity) := by
  obtain ⟨i, hloc, htomb⟩ := correlatedLocation_tombstone hids hmem
  simp only [recordResult, hloc, htomb, hhash]
  exact reply_eq_late hcapacity hlength ⟨fun h => (hcollision h).symm, fun h => by rw [h]⟩

/-! ### The order -/

/-- A late result of the latest attempt at a delivery that is still retained is answered by what was recorded
for the delivery. -/
def AnswersLate (pre : List Exchange) (k : Exchange) : Prop :=
  ∀ c b n d r, k.input = .recordResult c b → (claimsOf n pre).getLast? = some d → d.correlation = c →
    (n, r) ∈ recordings pre → n ∈ k.before.sequences →
      k.outputs = [(lateReply r b d.resultCapacity).map .recorded]

structure InOrder (cs : List Exchange) : Prop where
  sorted : ((claims cs).map (·.sequence)).Pairwise (· ≤ ·)
  earlier_consumed : Always (fun pre k => ∀ d ∈ Exchange.claim k, ∀ m, 1 ≤ m → m < d.sequence →
    m ∈ consumptions pre) cs
  consumed_once : (consumptions cs).Nodup
  result_fixed : ∀ x ∈ recordings cs ++ readings cs, ∀ y ∈ recordings cs ++ readings cs, x.1 = y.1 → x.2 = y.2
  answers_late : Always AnswersLate cs
  attempts : ∀ n, (claimsOf n cs).map (·.correlation.attempt) = List.range' 1 (claimsOf n cs).length
  attempts_le : ∀ n, (claimsOf n cs).length ≤ 3
  once : ∀ n, ∀ d ∈ claimsOf n cs, d.recoveryPolicy = .neverReplay ∨ d.recoveryPolicy = .awaitCallback →
    (claimsOf n cs).length ≤ 1
  one_contract : ∀ n, ∀ d ∈ claimsOf n cs, ∀ d' ∈ claimsOf n cs,
    d.correlation.adapterContract = d'.correlation.adapterContract

variable {past : List DeliveryEntry} {cs : List Exchange}

theorem Journal.sorted (j : Journal p cs l past) : ((claims cs).map (·.sequence)).Pairwise (· ≤ ·) := by
  rw [List.pairwise_map, j.claimed, List.pairwise_flatMap]
  constructor
  · intro e _
    refine List.pairwise_of_forall_mem_list fun d hd d' hd' => ?_
    rw [sequence_of_mem_history hd, sequence_of_mem_history hd']
  · have hsorted : ((past ++ l.live).map (·.sequence)).Pairwise (· < ·) := by
      rw [j.numbered]
      exact List.pairwise_lt_range'
    refine (List.pairwise_map.mp hsorted).imp fun {a b} hlt d hd d' hd' => ?_
    rw [sequence_of_mem_history hd, sequence_of_mem_history hd']
    exact hlt.le

theorem Journal.claimsOf_cases (j : Journal p cs l past) (n : ℕ) :
    claimsOf n cs = [] ∨ ∃ e ∈ past ++ l.live, claimsOf n cs = e.history := by
  by_cases h : ∃ e ∈ past ++ l.live, e.sequence = n
  · obtain ⟨e, he, rfl⟩ := h
    exact .inr ⟨e, he, j.claimsOf_eq he⟩
  · push Not at h
    exact .inl (j.claimsOf_eq_nil h)

theorem attempts_history (e : DeliveryEntry) :
    e.history.map (·.correlation.attempt) = List.range' 1 e.history.length := by
  unfold history
  split
  · rfl
  · simp [handed, Function.comp_def]

theorem length_history_le (e : DeliveryEntry) : e.history.length ≤ e.attempt := by
  unfold history
  split <;> simp

variable {d : ClaimedDelivery}

theorem contract_of_mem_history (h : d ∈ e.history) :
    e.adapterContract = some d.correlation.adapterContract ∧ d.recoveryPolicy = e.recoveryPolicy := by
  unfold history at h
  split at h
  · simp at h
  · next contract hcontract =>
    obtain ⟨a, -, rfl⟩ := List.mem_map.mp h
    exact ⟨hcontract, rfl⟩

theorem getLast?_history (h : e.history.getLast? = some d) :
    e.correlation = some d.correlation ∧ d.resultCapacity = e.resultCapacity := by
  unfold history at h
  split at h
  · simp at h
  · next contract hcontract =>
    rw [List.getLast?_map, List.getLast?_range'] at h
    by_cases hzero : e.attempt = 0
    · simp [hzero] at h
    · have hlast : 1 + e.attempt - 1 = e.attempt := Nat.add_sub_cancel_left _ _
      simp only [hzero, if_false, hlast, Option.map_some, Option.some.injEq] at h
      rw [← h]
      exact ⟨correlation_eq_some.mpr ⟨rfl, rfl, hcontract.symm, rfl⟩, rfl⟩

theorem Journal.earlier_consumed (j : Journal p cs l past) {op : Operation}
    (hd : Exchange.claim (callOf (step p) l op) = some d) {m : ℕ} (hone : 1 ≤ m) (hm : m < d.sequence) :
    m ∈ consumptions cs := by
  have hmove := respond_move j.sound op
  obtain ⟨hpast, hlive⟩ := j.past_numbered
  rw [j.consumed, hpast, List.mem_range'_1]
  generalize hr : respond p l op = r at hmove
  obtain ⟨l', reply⟩ := r
  have hcall : Exchange.claim (⟨l, op, [reply], l'⟩ : Exchange) = some d := by
    rw [← hd]
    simp [callOf, step, hr]
  cases hmove with
  | @claims e rest c contract hhead hstate hattempt hcontract hsame =>
    obtain rfl : (e.claim contract).handed contract = d := Option.some.inj hcall
    rw [hhead, List.map_cons, List.length_cons, List.range'_succ, List.cons.injEq] at hlive
    have hfirst : ((e.claim contract).handed contract).sequence = 1 + past.length := hlive.1
    omega
  | refuses => cases op <;> cases hcall
  | _ => cases hcall

theorem Journal.answers_late (j : Journal p cs l past) {op : Operation}
    (hcollision : ∀ c b n r, op = .recordResult c b → (n, r) ∈ recordings cs → p.sha256 r = p.sha256 b → r = b) :
    AnswersLate cs (callOf (step p) l op) := by
  rintro c b n d r rfl hlast rfl hrecorded hretained
  obtain ⟨e, he, rfl, hresult⟩ := j.exists_of_recorded hrecorded
  rw [j.claimsOf_eq he] at hlast
  obtain ⟨hcorrelation, hcapacity⟩ := getLast?_history hlast
  have hsound := j.entry_sound he
  have hreply : l.recordResult p d.correlation b = (l, lateReply r b e.resultCapacity) := by
    rcases List.mem_append.mp he with hpast | hlive
    · -- a consumed delivery whose sequence is retained is the one of a tombstone
      have htomb : e.sequence ∈ l.tombstones.map (·.sequence) := by
        rcases List.mem_append.mp hretained with h | h
        · exact h
        · obtain ⟨hpastSeq, hliveSeq⟩ := j.past_numbered
          have hbefore : e.sequence ∈ past.map (·.sequence) := List.mem_map_of_mem hpast
          have hafter : e.sequence ∈ l.live.map (·.sequence) := h
          rw [hpastSeq, List.mem_range'_1] at hbefore
          rw [hliveSeq, List.mem_range'_1] at hafter
          omega
      obtain ⟨t, ht, hsequence⟩ := List.mem_map.mp htomb
      obtain ⟨f, hf, contract, result, hcontract, hfresult, rfl⟩ := j.tombstones t ht
      obtain rfl : f = e := j.inj (List.mem_append_left _ hf) he hsequence
      obtain rfl : result = r := Option.some.inj (hfresult.symm.trans hresult)
      have hc : (f.bury contract (p.sha256 result)).correlation = d.correlation := by
        obtain ⟨hid, hhash, hcontract', hattempt⟩ := correlation_eq_some.mp hcorrelation
        obtain rfl : contract = d.correlation.adapterContract :=
          Option.some.inj (hcontract.symm.trans hcontract'.symm)
        simp [DeliveryTombstone.correlation, bury, ← hid, ← hhash, ← hattempt]
      rw [← hc]
      exact recordResult_tombstone j.sound.ids ht hsound.capacity rfl (hsound.result _ hresult)
        (hcollision _ _ _ _ rfl hrecorded)
    · obtain ⟨i, hi⟩ := List.getElem?_of_mem hlive
      obtain ⟨-, rest, hhead⟩ := j.sound.head_of_claimed hi (contract_ne_none hcorrelation)
      exact recordResult_head hsound hhead hcorrelation hresult
  simp [callOf, step, respond, hreply, hcapacity]

theorem Journal.result_fixed (j : Journal p cs l past) {x y : ℕ × Bytes}
    (hx : x ∈ recordings cs ++ readings cs) (hy : y ∈ recordings cs ++ readings cs) (h : x.1 = y.1) : x.2 = y.2 := by
  have hrecorded : ∀ z ∈ recordings cs ++ readings cs, z ∈ recordings cs := by
    intro z hz
    rcases List.mem_append.mp hz with hz | hz
    · exact hz
    · exact j.read z hz
  obtain ⟨e, he, hesequence, heresult⟩ := j.exists_of_recorded (hrecorded x hx)
  obtain ⟨f, hf, hfsequence, hfresult⟩ := j.exists_of_recorded (hrecorded y hy)
  obtain rfl : e = f := j.inj he hf (by rw [hesequence, hfsequence, h])
  exact Option.some.inj (heresult.symm.trans hfresult)

theorem exists_input_of_recorded {x : ℕ × Bytes} (h : x ∈ recordings cs) :
    ∃ k ∈ cs, ∃ c, k.input = .recordResult c x.2 := by
  obtain ⟨k, hk, hx⟩ := List.mem_filterMap.mp h
  refine ⟨k, hk, ?_⟩
  unfold Exchange.recording at hx
  split at hx
  · next c result hinput _ =>
    obtain ⟨n, -, rfl⟩ := Option.map_eq_some_iff.mp hx
    exact ⟨c, hinput⟩
  · cases hx

end

/-- Every run from a new ledger performs its deliveries in order. -/
theorem exchanges_inOrder (p : Platform) (space : Hash32) (ops : List Operation)
    (hcollision : Set.InjOn p.sha256 {b | ∃ c, Operation.recordResult c b ∈ ops}) :
    InOrder (exchanges p (.new space) ops) := by
  obtain ⟨past, j⟩ := exists_journal p space ops
  have hbefore := exists_journal_before p space ops
  exact
    { sorted := j.sorted
      earlier_consumed := by
        intro pre k post hcs d hd m hone hm
        obtain ⟨⟨past', j'⟩, hk⟩ := hbefore pre k post hcs
        rw [hk] at hd
        exact j'.earlier_consumed hd hone hm
      consumed_once := by
        rw [j.consumed, j.past_numbered.1]
        exact List.nodup_range'
      result_fixed := fun x hx y hy h => j.result_fixed hx hy h
      answers_late := by
        intro pre k post hcs
        obtain ⟨⟨past', j'⟩, hk⟩ := hbefore pre k post hcs
        have hinputs : ∀ k' ∈ pre ++ k :: post, k'.input ∈ ops := by
          intro k' hk'
          rw [← hcs, exchanges] at hk'
          exact input_mem_of_mem_calls hk'
        rw [hk]
        refine j'.answers_late fun c b n r hop hr hhash => ?_
        obtain ⟨k', hk', c', hinput⟩ := exists_input_of_recorded hr
        refine hcollision ⟨c', ?_⟩ ⟨c, ?_⟩ hhash
        · exact hinput ▸ hinputs k' (List.mem_append_left _ hk')
        · exact hop ▸ hinputs k (List.mem_append_right _ List.mem_cons_self)
      attempts := by
        intro n
        rcases j.claimsOf_cases n with h | ⟨e, he, h⟩ <;> rw [h]
        · rfl
        · exact attempts_history e
      attempts_le := by
        intro n
        rcases j.claimsOf_cases n with h | ⟨e, he, h⟩ <;> rw [h]
        · exact Nat.zero_le _
        · exact (length_history_le e).trans (j.entry_sound he).attempt_le
      once := by
        intro n d hd hpolicy
        rcases j.claimsOf_cases n with h | ⟨e, he, h⟩ <;> rw [h] at hd ⊢
        · cases hd
        · refine (length_history_le e).trans (j.single e he ?_)
          rw [← (contract_of_mem_history hd).2]
          rcases hpolicy with h | h <;> rw [h] <;> decide
      one_contract := by
        intro n d hd d' hd'
        rcases j.claimsOf_cases n with h | ⟨e, he, h⟩ <;> rw [h] at hd hd'
        · cases hd
        · exact Option.some.inj ((contract_of_mem_history hd).1.symm.trans (contract_of_mem_history hd').1) }

theorem exchanges_inOrder_sample :
    (claims (exchanges default (.new zeroHash) Sample.ops)).map (·.correlation.attempt) = [1, 2] ∧
      InOrder (exchanges default (.new zeroHash) Sample.ops) := by
  refine ⟨by decide, exchanges_inOrder _ _ _ ?_⟩
  have hresults : ∀ b c, Operation.recordResult c b ∈ Sample.ops → b = [5] := by
    intro b c h
    simp only [Sample.ops, List.mem_cons, reduceCtorEq, Operation.recordResult.injEq, List.not_mem_nil,
      or_false, false_or] at h
    exact h.2
  rintro b ⟨c, hb⟩ b' ⟨c', hb'⟩ -
  rw [hresults b c hb, hresults b' c' hb']

/-! A late result that differs is not always answered as conflicting: here it does not fit into the
capacity of the delivery. -/

namespace Oversized

def late : Bytes := List.replicate 9 0

def platform : Platform :=
  { (default : Platform) with
    sha256 := fun b => if b = late then oneHash else zeroHash }

def cs : List Exchange := exchanges platform (.new zeroHash) Sample.ops

def ledger : DeliveryLedger := ledgerAfter platform (.new zeroHash) Sample.ops

end Oversized

theorem recordResult_oversized : Set.InjOn Oversized.platform.sha256 {[5], Oversized.late} ∧
      (claimsOf 1 Oversized.cs).getLast?.map (·.correlation) = some (Sample.correlation 2) ∧
      recordings Oversized.cs = [(1, [5])] ∧ 1 ∈ Oversized.ledger.sequences ∧ Oversized.late ≠ [5] ∧
      (respond Oversized.platform Oversized.ledger (.recordResult (Sample.correlation 2) Oversized.late)).2 =
        fail .resultTooLarge := by
  refine ⟨?_, by decide, by decide, by decide, by decide, by decide⟩
  have hne : Oversized.platform.sha256 [5] ≠ Oversized.platform.sha256 Oversized.late := by decide
  rintro a (rfl | rfl) b (rfl | rfl) h
  · rfl
  · exact absurd h hne
  · exact absurd h.symm hne
  · rfl

end EuWallet.Delivery
