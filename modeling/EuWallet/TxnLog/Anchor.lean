import EuWallet.Codec.Numbers
import EuWallet.TxnLog.Restore

/-! # What the anchored head fixes

The bytes that are hashed for an entry determine its content, its number and its predecessor's hash. So
the head of a chain without tombstones fixes the chain. A tombstone keeps a hash that nobody can
recompute: nothing binds its number and its predecessor to it, and two stored chains with one head agree
exactly when they agree about that at their tombstones. -/

namespace EuWallet.TxnLog

open Codec Codec.Cbor Crypto Lib

/-! ### The hashed bytes -/

/-- The values of an entry lie in the types of its fields, an `i64` and a `u64`. -/
structure NewEntry.Typed (e : NewEntry) : Prop where
  epoch : -2 ^ 63 ≤ e.epoch ∧ e.epoch < 2 ^ 63
  amount : ∀ q ∈ e.payment, q.amountMinor < 2 ^ 64

/-- Every number and every length of an entry fits in eight bytes. -/
structure NewEntry.Bounded (e : NewEntry) : Prop where
  epoch : 0 ≤ e.epoch ∧ e.epoch < 2 ^ 63
  counterparty : e.counterparty.utf8ByteSize < 256 ^ 8
  paths : e.claimPaths.length < 256 ^ 8
  path : ∀ path ∈ e.claimPaths, path.utf8ByteSize < 256 ^ 8
  payment : ∀ q ∈ e.payment, q.payee.utf8ByteSize < 256 ^ 8 ∧ q.amountMinor < 256 ^ 8 ∧
    q.currency.utf8ByteSize < 256 ^ 8

theorem leBytes_splits : SplitsOn {n | n < 256 ^ 8} (leBytes 8) := by
  refine .of_width 8 (fun n _ => by simp [leBytes]) fun a ha b hb h => ?_
  exact beBytes_injOn 8 ha hb (List.reverse_injective h)

theorem text_splits : SplitsOn {s | s.utf8ByteSize < 256 ^ 8} fun s => putBytes (utf8 s) :=
  sizedText_splits leBytes_splits

theorem wrap64_of_nonneg {n : ℤ} (h : 0 ≤ n ∧ n < 2 ^ 63) : (wrap64 n : ℤ) = n ∧ wrap64 n < 256 ^ 8 := by
  unfold wrap64
  omega

theorem Kind.tag_injective : Function.Injective Kind.tag := by
  intro a b h
  cases a <;> cases b <;> first | rfl | cases h

theorem Outcome.tag_injective : Function.Injective Outcome.tag := by
  intro a b h
  cases a <;> cases b <;> first | rfl | cases h

def paymentBytes : Option PaymentSummary → Bytes
  | none => [0]
  | some q => 1 :: (putBytes (utf8 q.payee) ++ (leBytes 8 q.amountMinor ++ putBytes (utf8 q.currency)))

theorem paymentBytes_inj {q q' : Option PaymentSummary}
    (hq : ∀ x ∈ q, x.payee.utf8ByteSize < 256 ^ 8 ∧ x.amountMinor < 256 ^ 8 ∧ x.currency.utf8ByteSize < 256 ^ 8)
    (hq' : ∀ x ∈ q', x.payee.utf8ByteSize < 256 ^ 8 ∧ x.amountMinor < 256 ^ 8 ∧ x.currency.utf8ByteSize < 256 ^ 8)
    (h : paymentBytes q = paymentBytes q') : q = q' := by
  have hfields := (text_splits.prod (leBytes_splits.prod text_splits)).comp
    (g := fun x : PaymentSummary => (x.payee, x.amountMinor, x.currency)) (Set.mapsTo_preimage _ _)
    fun a _ b _ h => by cases a; cases b; simpa using h
  refine (hfields.option 0 1 (by decide)).injOn hq hq' ?_
  cases q <;> cases q' <;> exact h

theorem entryPreimage_inj {seq seq' : ℕ} {prev prev' : Hash32} {e e' : NewEntry} (he : e.Bounded)
    (he' : e'.Bounded) (hseq : seq < 256 ^ 8) (hseq' : seq' < 256 ^ 8)
    (h : entryPreimage seq prev e = entryPreimage seq' prev' e') : seq = seq' ∧ prev = prev' ∧ e = e' := by
  simp only [entryPreimage, List.append_assoc] at h
  have hrest := List.append_cancel_left h
  obtain ⟨eprev, hrest⟩ := hash_splits _ trivial _ trivial _ _ hrest
  obtain ⟨eseq, hrest⟩ := leBytes_splits _ hseq _ hseq' _ _ hrest
  obtain ⟨eepoch, hrest⟩ := leBytes_splits _ (wrap64_of_nonneg he.epoch).2 _
    (wrap64_of_nonneg he'.epoch).2 _ _ hrest
  obtain ⟨ekind, hrest⟩ := List.cons.inj hrest
  obtain ⟨eoutcome, hrest⟩ := List.cons.inj hrest
  obtain ⟨ecounterparty, hrest⟩ := text_splits _ he.counterparty _ he'.counterparty _ _ hrest
  obtain ⟨econsent, hrest⟩ := hash_splits _ trivial _ trivial _ _ hrest
  obtain ⟨elength, hrest⟩ := leBytes_splits _ he.paths _ he'.paths _ _ hrest
  obtain ⟨epaths, hrest⟩ := text_splits.flatMap elength he.path he'.path hrest
  have epayment := paymentBytes_inj he.payment he'.payment hrest
  have eepoch : e.epoch = e'.epoch := by
    rw [← (wrap64_of_nonneg he.epoch).1, ← (wrap64_of_nonneg he'.epoch).1, eepoch]
  refine ⟨eseq, eprev, ?_⟩
  cases e
  cases e'
  simp only [NewEntry.mk.injEq]
  exact ⟨eepoch, Kind.tag_injective ekind, ecounterparty, econsent, epaths, Outcome.tag_injective eoutcome, epayment⟩

/-! ### Validated entries are bounded -/

theorem validateText_ok {value : String} {field : TextField} {max : ℕ}
    (h : validateText value field max = .ok ()) : value.utf8ByteSize ≤ max := by
  unfold validateText at h
  split_ifs at h
  omega

theorem validateNewEntry_bounded {e : NewEntry} {seq n : ℕ} {canonical : Bool} (htyped : e.Typed)
    (h : validateNewEntry e seq canonical = .ok n) : e.Bounded := by
  obtain ⟨hepoch, h⟩ := guard_eq_ok.mp h
  obtain ⟨⟨⟩, hcounterparty, h⟩ := bind_eq_ok.mp h
  obtain ⟨⟨⟩, hpaths, h⟩ := bind_eq_ok.mp h
  obtain ⟨⟨⟩, hpayment, -⟩ := bind_eq_ok.mp h
  obtain ⟨hcount, hpaths⟩ := guard_eq_ok.mp hpaths
  obtain ⟨⟨⟩, htexts, -⟩ := bind_eq_ok.mp hpaths
  refine ⟨⟨not_lt.mp hepoch, htyped.epoch.2⟩, ?_, ?_, ?_, ?_⟩
  · have := validateText_ok hcounterparty
    unfold maxCounterpartyBytes at this
    omega
  · unfold maxClaimPathsPerEntry at hcount
    omega
  · intro path hpath
    have := validateText_ok (forM_ok _ htexts path hpath)
    unfold maxClaimPathBytes at this
    omega
  · intro q hq
    have hamount := htyped.amount q hq
    rw [hq] at hpayment
    unfold validatePayment at hpayment
    split at hpayment
    · next q' _ heq =>
      obtain rfl : q = q' := by simpa using heq
      obtain ⟨-, hpayment⟩ := guard_eq_ok.mp hpayment
      obtain ⟨⟨⟩, hpayee, hpayment⟩ := bind_eq_ok.mp hpayment
      obtain ⟨-, hpayment⟩ := guard_eq_ok.mp hpayment
      obtain ⟨-, hpayment⟩ := guard_eq_ok.mp hpayment
      obtain ⟨⟨⟩, hcurrency, -⟩ := bind_eq_ok.mp hpayment
      have hpayee := validateText_ok hpayee
      have hcurrency := validateText_ok hcurrency
      unfold maxPaymentPayeeBytes at hpayee
      refine ⟨?_, ?_, ?_⟩ <;> omega
    · cases hpayment
    · cases hpayment
    · next heq _ => cases heq

/-! ### Two chains with one head -/

def hashedBytes (entries : List Entry) : Set Bytes :=
  {b | ∃ e ∈ entries, e.redacted = false ∧ b = entryPreimage e.seq e.prevHash e.toNewEntry}

structure SamePlace (x y : Entry) : Prop where
  seq : x.seq = y.seq
  prevHash : x.prevHash = y.prevHash
  entryHash : x.entryHash = y.entryHash
  content : x.redacted = false → y.redacted = false → x.toNewEntry = y.toNewEntry

/-- Two stored chains are of one length and the same place by place. -/
def Agree (a b : List Entry) : Prop :=
  a.length = b.length ∧ ∀ (i : Nat) (x y : Entry), a[i]? = some x → b[i]? = some y → SamePlace x y

/-- Counted back from the head, wherever one of the chains has a tombstone the two carry the same number
and the same predecessor hash. -/
def TombstonesBound (a b : List Entry) : Prop :=
  ∀ (i : Nat) (x y : Entry), a.reverse[i]? = some x → b.reverse[i]? = some y → x.redacted = true ∨ y.redacted = true →
    x.seq = y.seq ∧ x.prevHash = y.prevHash

theorem agree_iff_forall₂ {a b : List Entry} : Agree a b ↔ List.Forall₂ SamePlace a b := by
  rw [List.forall₂_iff_get, Agree]
  refine and_congr_right fun hlength => ?_
  constructor
  · intro h i hi hi'
    exact h i _ _ (List.getElem?_eq_getElem hi) (List.getElem?_eq_getElem hi')
  · intro h i x y hx hy
    obtain ⟨hi, rfl⟩ := List.getElem?_eq_some_iff.mp hx
    obtain ⟨hi', rfl⟩ := List.getElem?_eq_some_iff.mp hy
    exact h i hi hi'

section Heads
variable {p : Platform}

theorem samePlace_of_live {x y : Entry} (hx : x.redacted = false) (hy : y.redacted = false)
    (hsx : x.Sound p) (hsy : y.Sound p) (htx : x.toNewEntry.Typed) (hty : y.toNewEntry.Typed)
    (hqx : x.seq < 256 ^ 8) (hqy : y.seq < 256 ^ 8) (hhash : x.entryHash = y.entryHash)
    (hinj : p.sha256 (entryPreimage x.seq x.prevHash x.toNewEntry) =
        p.sha256 (entryPreimage y.seq y.prevHash y.toNewEntry) →
      entryPreimage x.seq x.prevHash x.toNewEntry = entryPreimage y.seq y.prevHash y.toNewEntry) :
    SamePlace x y := by
  simp only [Entry.Sound, hx, Bool.false_eq_true, if_false] at hsx
  simp only [Entry.Sound, hy, Bool.false_eq_true, if_false] at hsy
  obtain ⟨⟨n, hn⟩, hsx⟩ := hsx
  obtain ⟨⟨m, hm⟩, hsy⟩ := hsy
  have hbytes := hinj (hsx.trans (hhash.trans hsy.symm))
  obtain ⟨hseq, hprev, hcontent⟩ := entryPreimage_inj (validateNewEntry_bounded htx hn)
    (validateNewEntry_bounded hty hm) hqx hqy hbytes
  exact ⟨hseq, hprev, hhash, fun _ _ => hcontent⟩

theorem lastHash_ne_zero {e : Entry} {init : List Entry} (h : Chained p 0 zeroHash (init ++ [e])) :
    lastHash zeroHash (init ++ [e]) ≠ zeroHash := by
  rw [lastHash_concat]
  exact (chained_concat.mp h).2.2.2.1

theorem forall₂_of_bound : ∀ {a b : List Entry}, Chained p 0 zeroHash a.reverse →
    Chained p 0 zeroHash b.reverse → a.length < 256 ^ 8 → b.length < 256 ^ 8 →
    lastHash zeroHash a.reverse = lastHash zeroHash b.reverse →
    (∀ e ∈ a, e.toNewEntry.Typed) → (∀ e ∈ b, e.toNewEntry.Typed) → Set.InjOn p.sha256 (hashedBytes (a ++ b)) →
    (∀ (i : Nat) (x y : Entry), a[i]? = some x → b[i]? = some y → x.redacted = true ∨ y.redacted = true →
      x.seq = y.seq ∧ x.prevHash = y.prevHash) → List.Forall₂ SamePlace a b
  | [], [], _, _, _, _, _, _, _, _, _ => .nil
  | [], y :: b, _, hb, _, _, hhead, _, _, _, _ => by
    rw [List.reverse_cons] at hb hhead
    exact absurd hhead.symm (lastHash_ne_zero hb)
  | x :: a, [], ha, _, _, _, hhead, _, _, _, _ => by
    rw [List.reverse_cons] at ha hhead
    exact absurd hhead (lastHash_ne_zero ha)
  | x :: a, y :: b, ha, hb, hla, hlb, hhead, hta, htb, hinj, hbound => by
    rw [List.reverse_cons] at ha hb hhead
    rw [List.reverse_cons, lastHash_concat, lastHash_concat] at hhead
    rw [List.length_cons] at hla hlb
    obtain ⟨ha, hxseq, hxprev, -, hxsound⟩ := chained_concat.mp ha
    obtain ⟨hb, hyseq, hyprev, -, hysound⟩ := chained_concat.mp hb
    rw [List.length_reverse, Nat.zero_add] at hxseq hyseq
    have hsame : SamePlace x y := by
      by_cases htomb : x.redacted = true ∨ y.redacted = true
      · obtain ⟨hseq, hprev⟩ := hbound 0 x y rfl rfl htomb
        refine ⟨hseq, hprev, hhead, fun hx hy => ?_⟩
        simp [hx, hy] at htomb
      · rw [not_or, Bool.not_eq_true, Bool.not_eq_true] at htomb
        refine samePlace_of_live htomb.1 htomb.2 hxsound hysound (hta x List.mem_cons_self)
          (htb y List.mem_cons_self) (by omega) (by omega) hhead fun hhash => ?_
        exact hinj ⟨x, by simp, htomb.1, rfl⟩ ⟨y, by simp, htomb.2, rfl⟩ hhash
    refine .cons hsame (forall₂_of_bound ha hb (by omega) (by omega) ?_ ?_ ?_ ?_ ?_)
    · rw [← hxprev, ← hyprev]
      exact hsame.prevHash
    · exact fun e he => hta e (List.mem_cons_of_mem _ he)
    · exact fun e he => htb e (List.mem_cons_of_mem _ he)
    · refine hinj.mono ?_
      rintro bytes ⟨e, he, hlive, rfl⟩
      refine ⟨e, ?_, hlive, rfl⟩
      rcases List.mem_append.mp he with he | he <;> simp [he]
    · exact fun i x' y' hx' hy' => hbound (i + 1) x' y' (by simpa using hx') (by simpa using hy')

end Heads

/-- Two chains that are restored with one head agree exactly when they agree about the links of their
tombstones. -/
theorem restoreChecked_agree_iff (p : Platform) (a b : List Entry) (head : Hash32)
    (la lb : TransactionLog) (ha : TransactionLog.restoreChecked p a head = .ok la)
    (hb : TransactionLog.restoreChecked p b head = .ok lb) (htyped : ∀ e ∈ a ++ b, e.toNewEntry.Typed)
    (hcollision : Set.InjOn p.sha256 (hashedBytes (a ++ b))) : Agree a b ↔ TombstonesBound a b := by
  obtain ⟨hva, hha, -⟩ := restoreChecked_ok_iff.mp ha
  obtain ⟨hvb, hhb, -⟩ := restoreChecked_ok_iff.mp hb
  rw [agree_iff_forall₂, ← List.forall₂_reverse_iff]
  constructor
  · intro h i x y hx hy _
    obtain ⟨hi, rfl⟩ := List.getElem?_eq_some_iff.mp hx
    obtain ⟨hi', rfl⟩ := List.getElem?_eq_some_iff.mp hy
    have hsame := (List.forall₂_iff_get.mp h).2 i hi hi'
    exact ⟨hsame.seq, hsame.prevHash⟩
  · intro h
    have hla := hva.length
    have hlb := hvb.length
    unfold maxEntries at hla hlb
    refine forall₂_of_bound (by simpa using hva.chained) (by simpa using hvb.chained) ?_ ?_ ?_ ?_ ?_ ?_ h
    · rw [List.length_reverse]
      omega
    · rw [List.length_reverse]
      omega
    · rw [List.reverse_reverse, List.reverse_reverse, ← hha, ← hhb]
    · exact fun e he => htyped e (List.mem_append_left _ (List.mem_reverse.mp he))
    · exact fun e he => htyped e (List.mem_append_right _ (List.mem_reverse.mp he))
    · refine hcollision.mono ?_
      rintro bytes ⟨e, he, hlive, rfl⟩
      exact ⟨e, by simpa using he, hlive, rfl⟩

/-! ### A chain with an invented past

Every hash is `mark`, so that the entry `live` is accepted on its own. A tombstone is not hashed again:
two of them with `mark` as the last hash are accepted with the same head. -/

namespace Invented

def mark : Hash32 := oneHash

def platform : Platform := { (default : Platform) with sha256 := fun _ => mark }

def live : Entry where
  epoch := 1
  kind := .presentation
  counterparty := "rp"
  consentHash := zeroHash
  claimPaths := []
  outcome := .completed
  payment := none
  seq := 0
  prevHash := zeroHash
  entryHash := mark
  redacted := false

/-- A tombstone at position 1 after the tombstone of `live`. -/
def late : Entry := { live.tombstone with seq := 1, prevHash := mark }

theorem hashedBytes_subsingleton {entries : List Entry} (h : ∀ e ∈ entries, e.redacted = false → e = live) :
    Set.InjOn platform.sha256 (hashedBytes entries) := by
  rintro _ ⟨e, he, hlive, rfl⟩ _ ⟨e', he', hlive', rfl⟩ _
  rw [h e he hlive, h e' he' hlive']

theorem typed {e : Entry} (h : e.toNewEntry = live.toNewEntry ∨ e.toNewEntry = TransactionLog.blank) :
    e.toNewEntry.Typed := by
  rcases h with h | h <;> rw [h] <;> exact ⟨by decide, by simp [live, TransactionLog.blank]⟩

end Invented

open Invented

/-- One live entry, or two tombstones: both are restored with one head, and their lengths differ. -/
theorem restoreChecked_invented_tombstone : (∃ l, TransactionLog.restoreChecked platform [live] mark = .ok l) ∧
    (∃ l, TransactionLog.restoreChecked platform [live.tombstone, late] mark = .ok l) ∧
    mark ≠ zeroHash ∧ (∀ e ∈ [live] ++ [live.tombstone, late], e.toNewEntry.Typed) ∧
    Set.InjOn platform.sha256 (hashedBytes ([live] ++ [live.tombstone, late])) ∧
    ¬ Agree [live] [live.tombstone, late] := by
  refine ⟨⟨⟨[live], 134⟩, by decide⟩, ⟨⟨[live.tombstone, late], 264⟩, by decide⟩,
    by decide, ?_, hashedBytes_subsingleton ?_, fun h => absurd h.1 (by decide)⟩
  · exact fun e he => typed (by revert e; decide)
  · decide

/-- A live entry and its own tombstone agree. -/
theorem restoreChecked_agree_iff_tombstone : TransactionLog.restoreChecked platform [live] mark = .ok ⟨[live], 134⟩ ∧
    TransactionLog.restoreChecked platform [live.tombstone] mark = .ok ⟨[live.tombstone], 132⟩ ∧
    (Agree [live] [live.tombstone] ↔ TombstonesBound [live] [live.tombstone]) := by
  have hlive : TransactionLog.restoreChecked platform [live] mark = .ok ⟨[live], 134⟩ := by decide
  have htomb : TransactionLog.restoreChecked platform [live.tombstone] mark = .ok ⟨[live.tombstone], 132⟩ := by decide
  refine ⟨hlive, htomb, restoreChecked_agree_iff platform _ _ mark _ _ hlive htomb ?_ ?_⟩
  · exact fun e he => typed (by revert e; decide)
  · exact hashedBytes_subsingleton (by decide)

end EuWallet.TxnLog
