import EuWallet.Lib.Except
import EuWallet.TxnLog.Log
import Mathlib.Algebra.BigOperators.Group.List.Basic

/-! # Restoring a log

`validate_entries` checks a stored chain against the head it was anchored with. `Chained` says what it
checks, entry by entry: `validateEntries_ok_iff`. Every log that the operations of the module can make
passes the check with its own head. -/

namespace EuWallet.TxnLog

open Codec Crypto Lib

/-! ### The checks -/

def redactedEntryIsCanonical (entry : Entry) : Bool := entry.toNewEntry == TransactionLog.blank

/-- One round of `validate_entries`: the bytes the entry accounts for. -/
def validateEntry (p : Platform) (expectedSeq : ℕ) (previousHash : Hash32) (entry : Entry) :
    Except LogError ℕ := do
  if entry.seq ≠ expectedSeq then throw (.sequenceMismatch expectedSeq entry.seq)
  if entry.prevHash ≠ previousHash then throw (.previousHashMismatch entry.seq)
  if entry.entryHash = zeroHash then throw (.zeroEntryHash entry.seq)
  if entry.redacted then
    if !redactedEntryIsCanonical entry then throw (.redactedEntryNotCanonical entry.seq)
    accountedFieldsBytes entry.counterparty entry.claimPaths entry.payment
  else
    let bytes ← validateNewEntry entry.toNewEntry entry.seq true
    if hashEntry p entry.seq entry.prevHash entry.toNewEntry ≠ entry.entryHash then
      throw (.entryHashMismatch entry.seq)
    return bytes

def validateFrom (p : Platform) : ℕ → Hash32 → ℕ → List Entry → Except LogError (Hash32 × ℕ)
  | _, previousHash, aggregate, [] => .ok (previousHash, aggregate)
  | index, previousHash, aggregate, entry :: rest => do
    let bytes ← validateEntry p index previousHash entry
    if maxAggregateBytes < aggregate + bytes then
      throw (.aggregateByteLimitExceeded maxAggregateBytes (aggregate + bytes))
    validateFrom p (index + 1) entry.entryHash (aggregate + bytes) rest

def validateEntries (p : Platform) (entries : List Entry) (expectedAnchoredHead : Hash32) :
    Except LogError ℕ := do
  if maxEntries < entries.length then throw (.entryLimitExceeded maxEntries)
  let (last, bytes) ← validateFrom p 0 zeroHash 0 entries
  if last ≠ expectedAnchoredHead then throw (.anchoredHeadMismatch expectedAnchoredHead last)
  return bytes

namespace TransactionLog

def verifyIntegrity (p : Platform) (l : TransactionLog) : Bool :=
  match validateEntries p l.entries l.head with
  | .ok bytes => bytes == l.accountedBytes
  | .error _ => false

def restoreChecked (p : Platform) (entries : List Entry) (expectedAnchoredHead : Hash32) :
    Except LogError TransactionLog := do
  let accountedBytes ← validateEntries p entries expectedAnchoredHead
  return { entries, accountedBytes }

def replaceChecked (p : Platform) (l : TransactionLog) (entries : List Entry)
    (expectedAnchoredHead : Hash32) : TransactionLog × Except LogError Unit :=
  match restoreChecked p entries expectedAnchoredHead with
  | .ok restored => (restored, .ok ())
  | .error e => (l, .error e)

end TransactionLog

/-! ### What they mean -/

def Entry.bytes (e : Entry) : ℕ := fieldsBytes e.counterparty e.claimPaths e.payment

/-- A tombstone is blank; the content of any other entry is valid and has the hash of the entry. -/
def Entry.Sound (p : Platform) (e : Entry) : Prop :=
  if e.redacted then e.toNewEntry = TransactionLog.blank
  else (∃ bytes, validateNewEntry e.toNewEntry e.seq true = .ok bytes) ∧
    hashEntry p e.seq e.prevHash e.toNewEntry = e.entryHash

def Chained (p : Platform) : ℕ → Hash32 → List Entry → Prop
  | _, _, [] => True
  | index, previous, e :: rest =>
    e.seq = index ∧ e.prevHash = previous ∧ e.entryHash ≠ zeroHash ∧ e.Sound p ∧
      Chained p (index + 1) e.entryHash rest

def lastHash (previous : Hash32) (entries : List Entry) : Hash32 :=
  (entries.getLast?.map (·.entryHash)).getD previous

def totalBytes (entries : List Entry) : ℕ := (entries.map Entry.bytes).sum

@[simp] theorem lastHash_nil (previous : Hash32) : lastHash previous [] = previous := rfl

@[simp] theorem lastHash_cons (previous : Hash32) (e : Entry) (rest : List Entry) :
    lastHash previous (e :: rest) = lastHash e.entryHash rest := by
  cases rest <;> simp [lastHash, List.getLast?_cons]

@[simp] theorem lastHash_concat (previous : Hash32) (e : Entry) (init : List Entry) :
    lastHash previous (init ++ [e]) = e.entryHash := by simp [lastHash]

@[simp] theorem totalBytes_nil : totalBytes [] = 0 := rfl

@[simp] theorem totalBytes_cons (e : Entry) (rest : List Entry) :
    totalBytes (e :: rest) = e.bytes + totalBytes rest := by simp [totalBytes]

@[simp] theorem totalBytes_append (xs ys : List Entry) :
    totalBytes (xs ++ ys) = totalBytes xs + totalBytes ys := by simp [totalBytes]

section
variable {p : Platform} {n seq : ℕ} {e : Entry} {entries : List Entry} {head : Hash32}

theorem validateNewEntry_bytes {e : NewEntry} {canonical : Bool} (h : validateNewEntry e seq canonical = .ok n) :
    n = fieldsBytes e.counterparty e.claimPaths e.payment ∧ n ≤ maxEntryBytes := by
  obtain ⟨-, h⟩ := guard_eq_ok.mp h
  obtain ⟨_, -, h⟩ := bind_eq_ok.mp h
  obtain ⟨_, -, h⟩ := bind_eq_ok.mp h
  obtain ⟨_, -, h⟩ := bind_eq_ok.mp h
  unfold accountedFieldsBytes at h
  dsimp only at h
  split_ifs at h with hmax
  cases h
  exact ⟨rfl, not_lt.mp hmax⟩

theorem Entry.Sound.bytes_le (h : e.Sound p) : e.bytes ≤ maxEntryBytes := by
  unfold Entry.Sound at h
  split at h
  · have hcontent : e.counterparty = "" ∧ e.claimPaths = [] ∧ e.payment = none := by
      rw [h]
      exact ⟨rfl, rfl, rfl⟩
    rw [Entry.bytes, hcontent.1, hcontent.2.1, hcontent.2.2]
    decide
  · obtain ⟨⟨n, hn⟩, -⟩ := h
    obtain ⟨hbytes, hmax⟩ := validateNewEntry_bytes hn
    rw [Entry.bytes, ← hbytes]
    exact hmax

theorem accountedFieldsBytes_blank (h : e.toNewEntry = TransactionLog.blank) :
    accountedFieldsBytes e.counterparty e.claimPaths e.payment = .ok e.bytes := by
  have hcontent : e.counterparty = "" ∧ e.claimPaths = [] ∧ e.payment = none := by
    rw [h]
    exact ⟨rfl, rfl, rfl⟩
  rw [Entry.bytes, hcontent.1, hcontent.2.1, hcontent.2.2]
  rfl

theorem validateContent_ok_iff : (if e.redacted then
    (if !redactedEntryIsCanonical e then throw (.redactedEntryNotCanonical e.seq)
        else accountedFieldsBytes e.counterparty e.claimPaths e.payment)
      else (do
        let bytes ← validateNewEntry e.toNewEntry e.seq true
        if hashEntry p e.seq e.prevHash e.toNewEntry ≠ e.entryHash then
          throw (.entryHashMismatch e.seq)
        return bytes) : Except LogError ℕ) = .ok n ↔ e.Sound p ∧ n = e.bytes := by
  unfold Entry.Sound redactedEntryIsCanonical
  split
  · by_cases hblank : e.toNewEntry = TransactionLog.blank
    · rw [accountedFieldsBytes_blank hblank]
      simp [hblank, eq_comm]
    · simp [hblank, throw_ne_ok]
  · constructor
    · intro h
      obtain ⟨bytes, hbytes, h⟩ := bind_eq_ok.mp h
      obtain ⟨hhash, h⟩ := guard_eq_ok.mp h
      obtain rfl := pure_eq_ok.mp h
      exact ⟨⟨⟨bytes, hbytes⟩, not_not.mp hhash⟩, (validateNewEntry_bytes hbytes).1⟩
    · rintro ⟨⟨⟨bytes, hbytes⟩, hhash⟩, rfl⟩
      refine bind_eq_ok.mpr ⟨bytes, hbytes, guard_eq_ok.mpr ⟨not_not.mpr hhash, ?_⟩⟩
      exact pure_eq_ok.mpr (validateNewEntry_bytes hbytes).1

theorem validateEntry_ok_iff {index : ℕ} {previous : Hash32} : validateEntry p index previous e = .ok n ↔
    (e.seq = index ∧ e.prevHash = previous ∧ e.entryHash ≠ zeroHash ∧ e.Sound p) ∧ n = e.bytes := by
  constructor
  · intro h
    obtain ⟨hseq, h⟩ := guard_eq_ok.mp h
    obtain ⟨hprev, h⟩ := guard_eq_ok.mp h
    obtain ⟨hzero, h⟩ := guard_eq_ok.mp h
    obtain ⟨hsound, hn⟩ := validateContent_ok_iff.mp h
    exact ⟨⟨not_not.mp hseq, not_not.mp hprev, hzero, hsound⟩, hn⟩
  · rintro ⟨⟨hseq, hprev, hzero, hsound⟩, hn⟩
    refine guard_eq_ok.mpr ⟨not_not.mpr hseq, guard_eq_ok.mpr ⟨not_not.mpr hprev, ?_⟩⟩
    exact guard_eq_ok.mpr ⟨hzero, validateContent_ok_iff.mpr ⟨hsound, hn⟩⟩

theorem validateFrom_ok_iff {h : Hash32} : ∀ {entries : List Entry} {index aggregate : ℕ} {previous : Hash32}
    , aggregate ≤ maxAggregateBytes →
      (validateFrom p index previous aggregate entries = .ok (h, n) ↔
        Chained p index previous entries ∧ h = lastHash previous entries ∧
          n = aggregate + totalBytes entries ∧ n ≤ maxAggregateBytes)
  | [], index, aggregate, previous, hagg => by
    simp only [validateFrom, Chained, lastHash_nil, Except.ok.injEq, Prod.mk.injEq, true_and]
    constructor
    · rintro ⟨rfl, rfl⟩
      exact ⟨rfl, by simp, hagg⟩
    · rintro ⟨rfl, rfl, -⟩
      exact ⟨rfl, by simp⟩
  | e :: rest, index, aggregate, previous, hagg => by
    rw [Chained, lastHash_cons, totalBytes_cons, validateFrom]
    constructor
    · intro hok
      obtain ⟨bytes, hbytes, hok⟩ := bind_eq_ok.mp hok
      obtain ⟨hfits, hok⟩ := guard_eq_ok.mp hok
      obtain ⟨⟨hseq, hprev, hzero, hsound⟩, rfl⟩ := validateEntry_ok_iff.mp hbytes
      obtain ⟨hchain, hlast, hn, hmax⟩ := (validateFrom_ok_iff (not_lt.mp hfits)).mp hok
      exact ⟨⟨hseq, hprev, hzero, hsound, hchain⟩, hlast, by omega, hmax⟩
    · rintro ⟨⟨hseq, hprev, hzero, hsound, hchain⟩, hlast, hn, hmax⟩
      have hfits : aggregate + e.bytes ≤ maxAggregateBytes := by omega
      refine bind_eq_ok.mpr ⟨e.bytes, validateEntry_ok_iff.mpr ⟨⟨hseq, hprev, hzero, hsound⟩, rfl⟩, ?_⟩
      refine guard_eq_ok.mpr ⟨not_lt.mpr hfits, (validateFrom_ok_iff hfits).mpr ?_⟩
      exact ⟨hchain, hlast, by omega, hmax⟩

structure Valid (p : Platform) (entries : List Entry) : Prop where
  chained : Chained p 0 zeroHash entries
  length : entries.length ≤ maxEntries
  bytes : totalBytes entries ≤ maxAggregateBytes

theorem validateEntries_ok_iff : validateEntries p entries head = .ok n ↔
    Valid p entries ∧ head = lastHash zeroHash entries ∧ n = totalBytes entries := by
  constructor
  · intro h
    obtain ⟨hlength, h⟩ := guard_eq_ok.mp h
    obtain ⟨⟨last, bytes⟩, hfrom, h⟩ := bind_eq_ok.mp h
    obtain ⟨hhead, h⟩ := guard_eq_ok.mp h
    cases pure_eq_ok.mp h
    obtain ⟨hchain, hlast, hbytes, hmax⟩ := (validateFrom_ok_iff (Nat.zero_le _)).mp hfrom
    rw [Nat.zero_add] at hbytes
    exact ⟨⟨hchain, not_lt.mp hlength, hbytes ▸ hmax⟩, (not_not.mp hhead).symm.trans hlast, hbytes⟩
  · rintro ⟨⟨hchain, hlength, hmax⟩, hhead, hn⟩
    refine guard_eq_ok.mpr ⟨not_lt.mpr hlength, bind_eq_ok.mpr ⟨(head, n), ?_, ?_⟩⟩
    · refine (validateFrom_ok_iff (Nat.zero_le _)).mpr ⟨hchain, hhead, ?_, ?_⟩
      · rw [hn, Nat.zero_add]
      · rw [hn]
        exact hmax
    · exact guard_eq_ok.mpr ⟨not_not.mpr rfl, pure_eq_ok.mpr rfl⟩

theorem restoreChecked_ok_iff {l : TransactionLog} : TransactionLog.restoreChecked p entries head = .ok l ↔
      Valid p entries ∧ head = lastHash zeroHash entries ∧ l = ⟨entries, totalBytes entries⟩ := by
  constructor
  · intro h
    obtain ⟨bytes, hbytes, h⟩ := bind_eq_ok.mp h
    obtain ⟨hvalid, hhead, rfl⟩ := validateEntries_ok_iff.mp hbytes
    exact ⟨hvalid, hhead, (pure_eq_ok.mp h).symm⟩
  · rintro ⟨hvalid, hhead, rfl⟩
    exact bind_eq_ok.mpr ⟨_, validateEntries_ok_iff.mpr ⟨hvalid, hhead, rfl⟩, pure_eq_ok.mpr rfl⟩

/-! ### Chains grow at their end and keep their links -/

theorem chained_concat : ∀ {init : List Entry} {index : ℕ} {previous : Hash32},
    Chained p index previous (init ++ [e]) ↔ Chained p index previous init ∧ e.seq = index + init.length ∧
        e.prevHash = lastHash previous init ∧ e.entryHash ≠ zeroHash ∧ e.Sound p
  | [], index, previous => by simp [Chained]
  | x :: init, index, previous => by
    simp only [List.cons_append, Chained, lastHash_cons, List.length_cons, chained_concat]
    have hindex : index + 1 + init.length = index + (init.length + 1) := by omega
    rw [hindex]
    simp [and_assoc]

def Entry.tombstone (e : Entry) : Entry := { e with toNewEntry := TransactionLog.blank, redacted := true }

theorem Entry.tombstone_sound (e : Entry) : e.tombstone.Sound p := by simp [Entry.Sound, tombstone]

theorem lastHash_set : ∀ {entries : List Entry} {previous : Hash32} {i : ℕ},
    entries[i]? = some e → lastHash previous (entries.set i e.tombstone) = lastHash previous entries
  | [], _, _, h => by simp at h
  | x :: rest, previous, 0, h => by
    obtain rfl : x = e := by simpa using h
    simp [Entry.tombstone]
  | x :: rest, previous, i + 1, h => by
    rw [List.set_cons_succ, lastHash_cons, lastHash_cons]
    exact lastHash_set (by simpa using h)

theorem chained_set : ∀ {entries : List Entry} {index i : ℕ} {previous : Hash32},
    entries[i]? = some e → Chained p index previous entries → Chained p index previous (entries.set i e.tombstone)
  | [], _, _, _, h, _ => by simp at h
  | x :: rest, index, 0, previous, h, hchain => by
    obtain rfl : x = e := by simpa using h
    obtain ⟨hseq, hprev, hzero, -, hrest⟩ := hchain
    exact ⟨hseq, hprev, hzero, x.tombstone_sound, hrest⟩
  | x :: rest, index, i + 1, previous, h, hchain => by
    obtain ⟨hseq, hprev, hzero, hsound, hrest⟩ := hchain
    exact ⟨hseq, hprev, hzero, hsound, chained_set (by simpa using h) hrest⟩

theorem totalBytes_set : ∀ {entries : List Entry} {i : ℕ}, entries[i]? = some e →
    totalBytes (entries.set i e.tombstone) + e.bytes = totalBytes entries + fieldsBytes "" [] none
  | [], _, h => by simp at h
  | x :: rest, 0, h => by
    obtain rfl : x = e := by simpa using h
    have htombstone : x.tombstone.bytes = fieldsBytes "" [] none := rfl
    rw [List.set_cons_zero, totalBytes_cons, totalBytes_cons, htombstone]
    omega
  | x :: rest, i + 1, h => by
    have hrest : rest[i]? = some e := by simpa using h
    have ih := totalBytes_set hrest
    rw [List.set_cons_succ, totalBytes_cons, totalBytes_cons]
    omega

theorem bytes_le_totalBytes (h : e ∈ entries) : e.bytes ≤ totalBytes entries := by
  obtain ⟨front, back, rfl⟩ := List.append_of_mem h
  rw [totalBytes_append, totalBytes_cons]
  omega

theorem fieldsBytes_ge (counterparty : String) (claimPaths : List String) (payment : Option PaymentSummary) :
    fieldsBytes "" [] none ≤ fieldsBytes counterparty claimPaths payment := by
  simp only [fieldsBytes]
  simp
  omega

theorem Chained.sound : ∀ {entries : List Entry} {index : ℕ} {previous : Hash32},
    Chained p index previous entries → e ∈ entries → e.Sound p
  | x :: rest, _, _, hchain, he => by
    rcases List.mem_cons.mp he with rfl | he
    · exact hchain.2.2.2.1
    · exact hchain.2.2.2.2.sound he

/-! ### The operations -/

inductive Operation where
  | append (e : NewEntry)
  | redact (seq : ℕ)
  | wipe
  | replaceChecked (entries : List Entry) (expectedAnchoredHead : Hash32)

/-- What such a call returns. -/
inductive Answer where
  | done
  | failed (e : LogError)
  | redacted (existed : Bool)
deriving DecidableEq

/-- The log after a call, and its answer. -/
def Operation.perform (p : Platform) (l : TransactionLog) : Operation → TransactionLog × Answer
  | .append e => match l.append p e with
    | .ok l' => (l', .done)
    | .error error => (l, .failed error)
  | .redact seq => ((l.redact seq).1, .redacted (l.redact seq).2)
  | .wipe => (l.wipe, .done)
  | .replaceChecked entries head => match l.replaceChecked p entries head with
    | (l', .ok _) => (l', .done)
    | (l', .error error) => (l', .failed error)

/-- The log after a sequence of calls from the empty log. -/
def reached (p : Platform) (operations : List Operation) : TransactionLog :=
  operations.foldl (fun l op => (op.perform p l).1) {}

structure Accounted (p : Platform) (l : TransactionLog) : Prop where
  valid : Valid p l.entries
  bytes : l.accountedBytes = totalBytes l.entries

variable {l l' : TransactionLog} {e : NewEntry}

theorem append_entries (h : l.append p e = .ok l') : ∃ entry, l'.entries = l.entries ++ [entry] ∧
    entry.toNewEntry = { e with claimPaths := e.claimPaths.insertionSort (· ≤ ·) } := by
  obtain ⟨⟨⟩, -, h⟩ := bind_eq_ok.mp h
  obtain ⟨bytes, -, h⟩ := bind_eq_ok.mp h
  obtain ⟨-, h⟩ := guard_eq_ok.mp h
  obtain ⟨-, h⟩ := guard_eq_ok.mp h
  obtain rfl := pure_eq_ok.mp h
  exact ⟨_, rfl, rfl⟩

theorem length_redact (l : TransactionLog) (seq : ℕ) : (l.redact seq).1.entries.length = l.entries.length := by
  unfold TransactionLog.redact
  split
  · rfl
  · split
    · rfl
    · dsimp only
      split
      · rfl
      · simp

theorem append_ok (h : l.append p e = .ok l') :
    ∃ entry, l'.entries = l.entries ++ [entry] ∧ entry.seq = l.entries.length ∧
      entry.prevHash = l.head ∧ entry.entryHash ≠ zeroHash ∧ entry.Sound p ∧
      l'.accountedBytes = l.accountedBytes + entry.bytes ∧ l'.accountedBytes ≤ maxAggregateBytes ∧
      l.entries.length < maxEntries := by
  obtain ⟨⟨⟩, hcheck, h⟩ := bind_eq_ok.mp h
  obtain ⟨bytes, hbytes, h⟩ := bind_eq_ok.mp h
  obtain ⟨hfits, h⟩ := guard_eq_ok.mp h
  obtain ⟨hzero, h⟩ := guard_eq_ok.mp h
  obtain ⟨hroom, -⟩ := guard_eq_ok.mp hcheck
  obtain ⟨hn, -⟩ := validateNewEntry_bytes hbytes
  obtain rfl := pure_eq_ok.mp h
  refine ⟨_, rfl, rfl, rfl, hzero, ?_, ?_, ?_, not_le.mp hroom⟩
  · simp only [Entry.Sound, Bool.false_eq_true, if_false]
    exact ⟨⟨bytes, hbytes⟩, trivial⟩
  · rw [hn]
    rfl
  · exact not_lt.mp hfits

theorem Accounted.append (hl : Accounted p l) (h : l.append p e = .ok l') : Accounted p l' := by
  obtain ⟨entry, hentries, hseq, hprev, hzero, hsound, hbytes, hfits, hroom⟩ := append_ok h
  have htotal : l'.accountedBytes = totalBytes l'.entries := by
    rw [hbytes, hentries, totalBytes_append, hl.bytes]
    simp [totalBytes]
  refine ⟨⟨?_, ?_, htotal ▸ hfits⟩, htotal⟩
  · rw [hentries]
    exact chained_concat.mpr ⟨hl.valid.chained, by rw [hseq, Nat.zero_add], hprev, hzero, hsound⟩
  · rw [hentries, List.length_append, List.length_singleton]
    exact hroom

/-- In an accounted log the redaction of a position never fails. -/
theorem Accounted.redact_eq (hl : Accounted p l) : l.redact seq = match l.entries[seq]? with
      | none => (l, false)
      | some entry =>
        if entry.redacted then (l, true)
        else (⟨l.entries.set seq entry.tombstone,
          l.accountedBytes - entry.bytes + fieldsBytes "" [] none⟩, true) := by
  unfold TransactionLog.redact
  cases hentry : l.entries[seq]? with
  | none => rfl
  | some entry =>
    have hmem : entry ∈ l.entries := List.mem_of_getElem? hentry
    have hmax : entry.bytes ≤ maxEntryBytes := (hl.valid.chained.sound hmem).bytes_le
    have htotal : entry.bytes ≤ l.accountedBytes := hl.bytes ▸ bytes_le_totalBytes hmem
    have hfits : ¬ (maxEntryBytes < entry.bytes ∨ l.accountedBytes < entry.bytes) := by omega
    dsimp only
    split
    · rfl
    · exact if_neg hfits

theorem Accounted.redact (hl : Accounted p l) : Accounted p (l.redact seq).1 := by
  rw [hl.redact_eq]
  split
  · exact hl
  · next entry hentry =>
    split
    · exact hl
    · have hset := totalBytes_set hentry
      have hmem : entry ∈ l.entries := List.mem_of_getElem? hentry
      have hle := bytes_le_totalBytes hmem
      have hge : fieldsBytes "" [] none ≤ entry.bytes := fieldsBytes_ge _ _ _
      have hbytes := hl.bytes
      have hfits := hl.valid.bytes
      refine ⟨⟨chained_set hentry hl.valid.chained, ?_, ?_⟩, ?_⟩
      · simpa using hl.valid.length
      · dsimp only
        omega
      · dsimp only
        omega

theorem Accounted.replaceChecked (hl : Accounted p l) : Accounted p (l.replaceChecked p entries head).1 := by
  unfold TransactionLog.replaceChecked
  split
  · next restored h =>
    obtain ⟨hvalid, -, rfl⟩ := restoreChecked_ok_iff.mp h
    exact ⟨hvalid, rfl⟩
  · exact hl

theorem accounted_empty : Accounted p {} := ⟨⟨trivial, Nat.zero_le _, Nat.zero_le _⟩, rfl⟩

theorem Accounted.perform (hl : Accounted p l) (op : Operation) : Accounted p (op.perform p l).1 := by
  cases op with
  | append e =>
    simp only [Operation.perform]
    split
    · next h => exact hl.append h
    · exact hl
  | redact seq => exact hl.redact
  | wipe => exact accounted_empty
  | replaceChecked entries head =>
    have h : Accounted p (l.replaceChecked p entries head).1 := hl.replaceChecked
    simp only [Operation.perform]
    split
    · next heq => rwa [heq] at h
    · next heq => rwa [heq] at h

theorem accounted_reached (p : Platform) (operations : List Operation) : Accounted p (reached p operations) := by
  have hempty : Accounted p {} := accounted_empty
  unfold reached
  generalize ({} : TransactionLog) = l at hempty
  induction operations generalizing l with
  | nil => exact hempty
  | cons op rest ih => exact ih _ (hempty.perform op)

theorem Accounted.restoreChecked (hl : Accounted p l) : TransactionLog.restoreChecked p l.entries l.head = .ok l := by
  refine restoreChecked_ok_iff.mpr ⟨hl.valid, rfl, ?_⟩
  rw [← hl.bytes]

theorem Accounted.verifyIntegrity (hl : Accounted p l) : l.verifyIntegrity p = true := by
  have hvalid : validateEntries p l.entries l.head = .ok (totalBytes l.entries) :=
    validateEntries_ok_iff.mpr ⟨hl.valid, rfl, rfl⟩
  simp only [TransactionLog.verifyIntegrity, hvalid, hl.bytes, beq_self_eq_true]

theorem Operation.perform_failed {op : Operation} {error : LogError}
    (h : (op.perform p l).2 = .failed error) : (op.perform p l).1 = l := by
  cases op with
  | append e =>
    simp only [Operation.perform] at h ⊢
    split at h
    · cases h
    · rfl
  | redact | wipe => cases h
  | replaceChecked entries head =>
    simp only [Operation.perform, TransactionLog.replaceChecked] at h ⊢
    cases hrestore : TransactionLog.restoreChecked p entries head with
    | ok restored =>
      rw [hrestore] at h
      cases h
    | error e => rfl

/-- Redaction keeps the head and the length, and fails outside the log only. -/
theorem Accounted.redact_frame (hl : Accounted p l) (seq : ℕ) :
    (l.redact seq).1.head = l.head ∧ (l.redact seq).1.entries.length = l.entries.length ∧
      ((l.redact seq).2 = false ↔ l.entries.length ≤ seq) := by
  rw [hl.redact_eq]
  cases hentry : l.entries[seq]? with
  | none => exact ⟨rfl, rfl, by simpa using List.getElem?_eq_none_iff.mp hentry⟩
  | some entry =>
    have hseq : seq < l.entries.length := (List.getElem?_eq_some_iff.mp hentry).1
    dsimp only
    split
    · exact ⟨rfl, rfl, by simpa using hseq⟩
    · have hhead : lastHash zeroHash (l.entries.set seq entry.tombstone) = lastHash zeroHash l.entries :=
        lastHash_set hentry
      exact ⟨hhead, by simp, by simpa using hseq⟩

end

/-- Every log the operations can make, and every operation on it. -/
theorem reached_log_sound (p : Platform) (operations : List Operation) :
    (reached p operations).verifyIntegrity p = true ∧
    (reached p operations).accountedBytes = totalBytes (reached p operations).entries ∧
    (reached p operations).accountedBytes ≤ maxAggregateBytes ∧ (reached p operations).entries.length ≤ maxEntries ∧
    (∀ e ∈ (reached p operations).entries, e.bytes ≤ maxEntryBytes) ∧
    TransactionLog.restoreChecked p (reached p operations).entries (reached p operations).head =
      .ok (reached p operations) ∧
    (∀ (op : Operation) (error : LogError), (op.perform p (reached p operations)).2 = .failed error →
      (op.perform p (reached p operations)).1 = reached p operations) ∧
    (∀ seq, ((reached p operations).redact seq).1.head = (reached p operations).head ∧
      ((reached p operations).redact seq).1.entries.length = (reached p operations).entries.length ∧
      (((reached p operations).redact seq).2 = false ↔ (reached p operations).entries.length ≤ seq)) ∧
    (∀ e l', (reached p operations).append p e = .ok l' →
      ∃ entry, l'.entries = (reached p operations).entries ++ [entry]) := by
  have hl := accounted_reached p operations
  refine ⟨hl.verifyIntegrity, hl.bytes, ?_, hl.valid.length, ?_, hl.restoreChecked, ?_, ?_, ?_⟩
  · rw [hl.bytes]
    exact hl.valid.bytes
  · exact fun e he => (hl.valid.chained.sound he).bytes_le
  · exact fun op error h => Operation.perform_failed h
  · exact hl.redact_frame
  · intro e l' h
    obtain ⟨entry, hentries, -⟩ := append_ok h
    exact ⟨entry, hentries⟩

end EuWallet.TxnLog
