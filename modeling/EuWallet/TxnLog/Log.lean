import EuWallet.Crypto.Platform
import Mathlib.Data.List.Sort

/-! # The transaction log

The audit log of the wallet: an append-only chain in which every entry commits to its predecessor's
hash. The log is bounded in the number of its entries and in the bytes they account for; an append
checks every field and both bounds before it changes anything. -/

namespace EuWallet.TxnLog

open Codec Crypto

def maxEntries : ℕ := 4096
def maxCounterpartyBytes : ℕ := 4096
def maxClaimPathsPerEntry : ℕ := 128
def maxClaimPathBytes : ℕ := 1024
def maxPaymentPayeeBytes : ℕ := 4096
def maxEntryBytes : ℕ := 64 * 1024
def maxAggregateBytes : ℕ := 4 * 1024 * 1024

def accountedEntryFixedBytes : ℕ := 8 + 8 + 1 + 1 + 32 + 32 + 32 + 1 + 8 + 8 + 1

inductive TextField where
  | counterparty
  | claimPath
  | paymentPayee
  | paymentCurrency
deriving DecidableEq

inductive LogError where
  | entryLimitExceeded (max : ℕ)
  | fieldEmpty (field : TextField)
  | fieldTooLong (field : TextField) (max actual : ℕ)
  | nonCanonicalText (field : TextField)
  | tooManyClaimPaths (max actual : ℕ)
  | duplicateClaimPath
  | claimPathsNotCanonical
  | invalidEpoch (seq : ℕ)
  | paymentKindMismatch (seq : ℕ)
  | paymentCounterpartyMismatch (seq : ℕ)
  | invalidPaymentAmount (seq : ℕ)
  | invalidPaymentCurrency (seq : ℕ)
  | entryByteLimitExceeded (max actual : ℕ)
  | aggregateByteLimitExceeded (max actual : ℕ)
  | sequenceMismatch (expected actual : ℕ)
  | previousHashMismatch (seq : ℕ)
  | zeroEntryHash (seq : ℕ)
  | entryHashMismatch (seq : ℕ)
  | redactedEntryNotCanonical (seq : ℕ)
  | anchoredHeadMismatch (expected actual : Hash32)
deriving DecidableEq

inductive Kind where
  | presentation
  | issuance
  | payment
  | transfer
deriving DecidableEq

def Kind.tag : Kind → UInt8
  | presentation => 1
  | issuance => 2
  | payment => 3
  | transfer => 4

inductive Outcome where
  | completed
  | declined
  | aborted
deriving DecidableEq

def Outcome.tag : Outcome → UInt8
  | completed => 1
  | declined => 2
  | aborted => 3

structure PaymentSummary where
  payee : String
  amountMinor : ℕ
  currency : String
deriving DecidableEq

structure NewEntry where
  epoch : ℤ
  kind : Kind
  counterparty : String
  consentHash : Hash32
  claimPaths : List String
  outcome : Outcome
  payment : Option PaymentSummary
deriving DecidableEq

/-- `Entry`: a recorded interaction, its position and its place in the chain. -/
structure Entry extends NewEntry where
  seq : ℕ
  prevHash : Hash32
  entryHash : Hash32
  redacted : Bool
deriving DecidableEq

structure TransactionLog where
  entries : List Entry := []
  accountedBytes : ℕ := 0
deriving DecidableEq

/-! ### Validation of one entry -/

def validateText (value : String) (field : TextField) (max : ℕ) : Except LogError Unit :=
  if value.isEmpty then .error (.fieldEmpty field)
  else if max < value.utf8ByteSize then .error (.fieldTooLong field max value.utf8ByteSize)
  else if trim value ≠ value ∨ value.toList.any isControl then .error (.nonCanonicalText field)
  else .ok ()

/-- Are the paths strictly increasing? -/
def checkOrder : List String → Except LogError Unit
  | a :: b :: rest =>
    if a = b then .error .duplicateClaimPath
    else if b < a then .error .claimPathsNotCanonical
    else checkOrder (b :: rest)
  | _ => .ok ()

def validateClaimPaths (paths : List String) (requireCanonicalOrder : Bool) :
    Except LogError Unit := do
  if maxClaimPathsPerEntry < paths.length then
    throw (.tooManyClaimPaths maxClaimPathsPerEntry paths.length)
  paths.forM fun path => validateText path .claimPath maxClaimPathBytes
  if ¬ paths.Nodup then throw .duplicateClaimPath
  if requireCanonicalOrder then checkOrder paths

/-- The bytes an entry accounts for. -/
def fieldsBytes (counterparty : String) (claimPaths : List String) (payment : Option PaymentSummary) : ℕ :=
  accountedEntryFixedBytes + counterparty.utf8ByteSize
    + (claimPaths.map fun path => 8 + path.utf8ByteSize).sum
    + (payment.map fun q => 8 + q.payee.utf8ByteSize + 8 + 8 + q.currency.utf8ByteSize).getD 0

def accountedFieldsBytes (counterparty : String) (claimPaths : List String)
    (payment : Option PaymentSummary) : Except LogError ℕ :=
  let bytes := fieldsBytes counterparty claimPaths payment
  if maxEntryBytes < bytes then .error (.entryByteLimitExceeded maxEntryBytes bytes) else .ok bytes

def validatePayment (kind : Kind) (counterparty : String) (claimPaths : List String)
    (payment : Option PaymentSummary) (seq : ℕ) : Except LogError Unit :=
  match kind, payment with
  | .payment, some q => do
    if !claimPaths.isEmpty then throw (.paymentKindMismatch seq)
    validateText q.payee .paymentPayee maxPaymentPayeeBytes
    if q.payee ≠ counterparty then throw (.paymentCounterpartyMismatch seq)
    if q.amountMinor = 0 then throw (.invalidPaymentAmount seq)
    validateText q.currency .paymentCurrency 3
    if q.currency.utf8ByteSize ≠ 3 || !(utf8 q.currency).all isAsciiUpper then
      throw (.invalidPaymentCurrency seq)
  | .payment, none => .error (.paymentKindMismatch seq)
  | _, some _ => .error (.paymentKindMismatch seq)
  | _, none => .ok ()

def validateNewEntry (e : NewEntry) (seq : ℕ) (pathsAreCanonical : Bool) : Except LogError ℕ := do
  if e.epoch < 0 then throw (.invalidEpoch seq)
  validateText e.counterparty .counterparty maxCounterpartyBytes
  validateClaimPaths e.claimPaths pathsAreCanonical
  validatePayment e.kind e.counterparty e.claimPaths e.payment seq
  accountedFieldsBytes e.counterparty e.claimPaths e.payment

/-! ### The chain hash -/

/-- Little-endian bytes. -/
def leBytes (k n : ℕ) : Bytes := (beBytes k n).reverse

def putBytes (b : Bytes) : Bytes := leBytes 8 b.length ++ b

def entryPreimage (seq : ℕ) (prevHash : Hash32) (e : NewEntry) : Bytes :=
  utf8 "eudi-txnlog-v1" ++ prevHash.1 ++ leBytes 8 seq ++ leBytes 8 (wrap64 e.epoch)
    ++ [e.kind.tag, e.outcome.tag] ++ putBytes (utf8 e.counterparty) ++ e.consentHash.1
    ++ leBytes 8 e.claimPaths.length ++ e.claimPaths.flatMap (fun path => putBytes (utf8 path))
    ++ match e.payment with
      | none => [0]
      | some q => 1 :: (putBytes (utf8 q.payee) ++ leBytes 8 q.amountMinor ++ putBytes (utf8 q.currency))

def hashEntry (p : Platform) (seq : ℕ) (prevHash : Hash32) (e : NewEntry) : Hash32 :=
  p.sha256 (entryPreimage seq prevHash e)

/-! ### Operations -/

namespace TransactionLog

def canGuaranteeMaxEntry (l : TransactionLog) : Bool :=
  l.entries.length < maxEntries && l.accountedBytes + maxEntryBytes ≤ maxAggregateBytes

def checkAppend (l : TransactionLog) (e : NewEntry) : Except LogError Unit := do
  if maxEntries ≤ l.entries.length then throw (.entryLimitExceeded maxEntries)
  let entryBytes ← validateNewEntry e l.entries.length false
  if maxAggregateBytes < l.accountedBytes + entryBytes then
    throw (.aggregateByteLimitExceeded maxAggregateBytes (l.accountedBytes + entryBytes))

def head (l : TransactionLog) : Hash32 := (l.entries.getLast?.map (·.entryHash)).getD zeroHash

/-- `append`: the claim paths are recorded in sorted order. -/
def append (p : Platform) (l : TransactionLog) (e : NewEntry) : Except LogError TransactionLog := do
  l.checkAppend e
  let e := { e with claimPaths := e.claimPaths.insertionSort (· ≤ ·) }
  let seq := l.entries.length
  let entryBytes ← validateNewEntry e seq true
  if maxAggregateBytes < l.accountedBytes + entryBytes then
    throw (.aggregateByteLimitExceeded maxAggregateBytes (l.accountedBytes + entryBytes))
  let prevHash := l.head
  let entryHash := hashEntry p seq prevHash e
  if entryHash = zeroHash then throw (.zeroEntryHash seq)
  return {
    entries := l.entries ++ [{ toNewEntry := e, seq, prevHash, entryHash, redacted := false }]
    accountedBytes := l.accountedBytes + entryBytes }

/-- The canonical content of a tombstone. -/
def blank : NewEntry := ⟨0, .presentation, "", zeroHash, [], .aborted, none⟩

/-- `redact`: the content of an entry is erased, its place in the chain stays. -/
def redact (l : TransactionLog) (seq : ℕ) : TransactionLog × Bool :=
  match l.entries[seq]? with
  | none => (l, false)
  | some entry =>
    if entry.redacted then (l, true)
    else
      let old := fieldsBytes entry.counterparty entry.claimPaths entry.payment
      if maxEntryBytes < old ∨ l.accountedBytes < old then (l, false)
      else ({
        entries := l.entries.set seq { entry with toNewEntry := blank, redacted := true }
        accountedBytes := l.accountedBytes - old + fieldsBytes "" [] none }, true)

def wipe (_ : TransactionLog) : TransactionLog := {}

end TransactionLog

end EuWallet.TxnLog
