import EuWallet.Codec.Cbor
import EuWallet.Crypto.Platform
import EuWallet.Lib.Run
import Mathlib.Data.List.MinMax

/-! # The delivery ledger

The bounded queue of work that crosses the boundary of the core. A delivery is prepared, enqueued,
claimed by an adapter, answered with a result and consumed; consumed deliveries leave a tombstone by which
a late duplicate of their result is recognised.

A method that takes `&mut self` returns the ledger it leaves behind together with its reply. A reply is a
value, an error of the ledger, or a panic: an `expect` that fails, an index out of range, a subtraction
below zero. The `namespace` of the source is `space` here. -/

namespace EuWallet.Delivery

open Codec Crypto Lib

def maxLiveDeliveries : ℕ := 32
def maxReservedDeliveryBytes : ℕ := 4 * 1024 * 1024
def maxDeliveryBlobBytes : ℕ := 2 * 1024 * 1024
def maxDeliveryTombstones : ℕ := 64
def maxDeliverySequence : ℕ := 2 ^ 63 - 1
def maxDeliveryAttempts : ℕ := 3

def deliveryIdDomain : Bytes := utf8 "euwallet.delivery-ledger.id.v1\x00"

/-! ### Kinds, policies, states -/

inductive RecoveryPolicy
  | replaySafe | reconcileBeforeRetry | neverReplay | awaitCallback
deriving DecidableEq

inductive DeliveryKind
  | resolveRpTrust | persistNonce | render | sign | http | pushPar | openAuthBrowser | promptTxCode
  | requestToken | requestCredential | fetchStatusList | publishTransferOffer | close
deriving DecidableEq

inductive DeliveryState
  | queued | dispatching | resultReady | ambiguous
deriving DecidableEq

inductive TombstoneDisposition
  | resultConsumed
deriving DecidableEq

def RecoveryPolicy.tag : RecoveryPolicy → UInt8
  | .replaySafe => 1
  | .reconcileBeforeRetry => 2
  | .neverReplay => 3
  | .awaitCallback => 4

def DeliveryKind.tag : DeliveryKind → UInt8
  | .resolveRpTrust => 1
  | .persistNonce => 2
  | .render => 3
  | .sign => 4
  | .http => 5
  | .pushPar => 6
  | .openAuthBrowser => 7
  | .promptTxCode => 8
  | .requestToken => 9
  | .requestCredential => 10
  | .fetchStatusList => 11
  | .publishTransferOffer => 12
  | .close => 13

def DeliveryState.tag : DeliveryState → UInt8
  | .queued => 1
  | .dispatching => 2
  | .resultReady => 3
  | .ambiguous => 4

def TombstoneDisposition.tag : TombstoneDisposition → UInt8
  | .resultConsumed => 1

def DeliveryKind.recoveryPolicy : DeliveryKind → RecoveryPolicy
  | .persistNonce | .render | .fetchStatusList | .close => .replaySafe
  | .openAuthBrowser | .promptTxCode => .awaitCallback
  | .sign | .requestCredential => .neverReplay
  | .resolveRpTrust | .http | .pushPar | .requestToken | .publishTransferOffer => .reconcileBeforeRetry

/-- The policies under which a delivery that was not performed may be claimed again. -/
def RecoveryPolicy.Replayable (policy : RecoveryPolicy) : Prop :=
  policy = .replaySafe ∨ policy = .reconcileBeforeRetry

instance (policy : RecoveryPolicy) : Decidable policy.Replayable :=
  inferInstanceAs (Decidable (_ ∨ _))

/-! ### Errors -/

inductive DeliveryLedgerError
  | liveCapacity | byteCapacity | sequenceExhausted | attemptsExhausted | duplicateId | stalePreparation
  | emptyBatch | invalidAdapterContract | adapterContractMismatch | staleAttempt | dispatchInProgress
  | noQueuedDelivery
  | headOfLineBlocked (state : DeliveryState)
  | unknownDelivery | resultConsumed | correlationMismatch
  | invalidTransition (source : DeliveryState) (operation : String)
  | recoveryPolicyDenied (policy : RecoveryPolicy)
  | resultTooLarge | conflictingResult | invalidSnapshot | snapshotDigestMismatch
deriving DecidableEq

/-- Why a method returns no value: it answers with an error, or it panics. -/
inductive Fault
  | err (e : DeliveryLedgerError)
  | panics
deriving DecidableEq

abbrev Reply := Except Fault

def fail {α : Type} (e : DeliveryLedgerError) : Reply α := .error (.err e)

def panicked {α : Type} : Reply α := .error .panics

/-! ### Records -/

abbrev NonZeroU64 := { c : UInt64 // c ≠ 0 }

/-- `NonZeroU64::new`. -/
def nonZero (c : UInt64) : Option NonZeroU64 := if h : c ≠ 0 then some ⟨c, h⟩ else none

structure Header where
  sequence : ℕ
  kind : DeliveryKind
  recoveryPolicy : RecoveryPolicy
  requestHash : Hash32
  resultCapacity : ℕ
deriving DecidableEq

structure DeliverySpec where
  kind : DeliveryKind
  request : Bytes
  resultCapacity : ℕ

/-- Only `prepare` makes one, so it holds what `prepare` has checked and `enqueue` does not check again. -/
structure PreparedDelivery extends Header where
  space : Hash32
  id : Hash32
  request : Bytes
  policy_kind : recoveryPolicy = kind.recoveryPolicy
  request_length : request.length ≤ maxDeliveryBlobBytes
  capacity_le : resultCapacity ≤ maxDeliveryBlobBytes
deriving DecidableEq

structure DeliveryCorrelation where
  id : Hash32
  requestHash : Hash32
  attempt : ℕ
  adapterContract : NonZeroU64
deriving DecidableEq

@[ext]
structure DeliveryEntry extends Header where
  id : Hash32
  state : DeliveryState
  request : Bytes
  result : Option Bytes
  resultHash : Option Hash32
  attempt : ℕ
  adapterContract : Option NonZeroU64
deriving DecidableEq

structure ClaimedDelivery where
  correlation : DeliveryCorrelation
  sequence : ℕ
  kind : DeliveryKind
  recoveryPolicy : RecoveryPolicy
  request : Bytes
  resultCapacity : ℕ
deriving DecidableEq

@[ext]
structure DeliveryTombstone extends Header where
  id : Hash32
  attempt : ℕ
  adapterContract : NonZeroU64
  resultHash : Hash32
  disposition : TombstoneDisposition
deriving DecidableEq

inductive RecordResultOutcome
  | recorded | alreadyRecorded
deriving DecidableEq

structure DeliveryLedger where
  space : Hash32
  nextSequence : ℕ
  live : List DeliveryEntry
  tombstones : List DeliveryTombstone
  reservedBytes : ℕ
deriving DecidableEq

def DeliveryEntry.correlation (e : DeliveryEntry) : Option DeliveryCorrelation :=
  e.adapterContract.map fun contract => ⟨e.id, e.requestHash, e.attempt, contract⟩

/-! ### Sizes and ids -/

/-- The additions of `usize` are checked. -/
def reservationSize (requestLen resultCapacity : ℕ) : Reply ℕ :=
  if requestLen + resultCapacity < 2 ^ 64 then .ok (requestLen + resultCapacity) else fail .byteCapacity

def ensureBudget (current additional : ℕ) : Reply Unit :=
  if 2 ^ 64 ≤ current + additional then fail .byteCapacity
  else if maxReservedDeliveryBytes < current + additional then fail .byteCapacity
  else .ok ()

def deriveId (p : Platform) (space : Hash32) (h : Header) : Hash32 :=
  p.sha256 (deliveryIdDomain ++ space.1 ++ beBytes 8 h.sequence ++ [h.kind.tag] ++ [h.recoveryPolicy.tag] ++
    h.requestHash.1 ++ beBytes 8 h.resultCapacity)

def validateCorrelation (correlation : DeliveryCorrelation) (requestHash : Hash32) (attempt : ℕ)
    (adapterContract : Option NonZeroU64) : Reply Unit :=
  if correlation.requestHash ≠ requestHash then fail .correlationMismatch
  else if some correlation.adapterContract ≠ adapterContract then fail .adapterContractMismatch
  else if correlation.attempt ≠ attempt then fail .staleAttempt
  else .ok ()

/-- Where the delivery of a correlation is kept. -/
inductive CorrelatedLocation
  | live (index : ℕ)
  | tombstone (index : ℕ)
deriving DecidableEq

namespace DeliveryLedger

/-! ### Looking up -/

/-- `with_random`: `space` are the random bytes. -/
def new (space : Hash32) : DeliveryLedger where
  space := space
  nextSequence := 1
  live := []
  tombstones := []
  reservedBytes := 0

def containsId (l : DeliveryLedger) (id : Hash32) : Bool :=
  l.live.any (·.id == id) || l.tombstones.any (·.id == id)

def correlatedLocation (l : DeliveryLedger) (correlation : DeliveryCorrelation) : Reply CorrelatedLocation :=
  match l.live.findIdx? (·.id == correlation.id) with
  | some index =>
    match l.live[index]? with
    | none => panicked
    | some entry => do
      validateCorrelation correlation entry.requestHash entry.attempt entry.adapterContract
      return .live index
  | none =>
    match l.tombstones.findIdx? (·.id == correlation.id) with
    | some index =>
      match l.tombstones[index]? with
      | none => panicked
      | some tombstone => do
        validateCorrelation correlation tombstone.requestHash tombstone.attempt
          (some tombstone.adapterContract)
        return .tombstone index
    | none => fail .unknownDelivery

def liveLocation (l : DeliveryLedger) (correlation : DeliveryCorrelation) : Reply ℕ :=
  match l.correlatedLocation correlation with
  | .ok (.live index) => .ok index
  | .ok (.tombstone _) => fail .resultConsumed
  | .error e => .error e

/-! ### Preparing and enqueuing -/

def prepareSensitive (p : Platform) (l : DeliveryLedger) (kind : DeliveryKind) (request : Bytes)
    (resultCapacity : ℕ) : Reply PreparedDelivery :=
  if h : maxDeliveryBlobBytes < request.length ∨ maxDeliveryBlobBytes < resultCapacity then
    fail .byteCapacity
  else if maxLiveDeliveries ≤ l.live.length then fail .liveCapacity
  else do
    let reservation ← reservationSize request.length resultCapacity
    ensureBudget l.reservedBytes reservation
    if l.nextSequence = 0 ∨ maxDeliverySequence < l.nextSequence then fail .sequenceExhausted
    else
      let header : Header :=
        { sequence := l.nextSequence
          kind := kind
          recoveryPolicy := kind.recoveryPolicy
          requestHash := p.sha256 request
          resultCapacity := resultCapacity }
      let id := deriveId p l.space header
      if l.containsId id then fail .duplicateId
      else
        return { header with
          space := l.space
          id := id
          request := request
          policy_kind := rfl
          request_length := Nat.le_of_not_lt fun hlt => h (.inl hlt)
          capacity_le := Nat.le_of_not_lt fun hlt => h (.inr hlt) }

def prepare (p : Platform) (l : DeliveryLedger) (kind : DeliveryKind) (request : Bytes)
    (resultCapacity : ℕ) : Reply PreparedDelivery :=
  l.prepareSensitive p kind request resultCapacity

def enqueue (p : Platform) (l : DeliveryLedger) (prepared : PreparedDelivery) : DeliveryLedger × Reply Hash32 :=
  if l.containsId prepared.id then (l, fail .duplicateId)
  else if prepared.space ≠ l.space ∨ prepared.sequence ≠ l.nextSequence then (l, fail .stalePreparation)
  else if maxLiveDeliveries ≤ l.live.length then (l, fail .liveCapacity)
  else
    match reservationSize prepared.request.length prepared.resultCapacity with
    | .error e => (l, .error e)
    | .ok reservation =>
      match ensureBudget l.reservedBytes reservation with
      | .error e => (l, .error e)
      | .ok () =>
        if prepared.sequence = 0 ∨ maxDeliverySequence < prepared.sequence then
          (l, fail .sequenceExhausted)
        else
          let requestHash := p.sha256 prepared.request
          let expectedId := deriveId p l.space { prepared.toHeader with requestHash := requestHash }
          if requestHash ≠ prepared.requestHash ∨ expectedId ≠ prepared.id then
            (l, fail .correlationMismatch)
          else
            let entry : DeliveryEntry :=
              { prepared.toHeader with
                id := prepared.id
                state := .queued
                request := prepared.request
                result := none
                resultHash := none
                attempt := 0
                adapterContract := none }
            ({ l with
                live := l.live ++ [entry]
                reservedBytes := l.reservedBytes + reservation
                nextSequence := l.nextSequence + 1 }, .ok prepared.id)

def prepareEntries (p : Platform) : DeliveryLedger → List DeliverySpec → Reply (List PreparedDelivery)
  | _, [] => .ok []
  | staged, spec :: specs => do
    let prepared ← staged.prepareSensitive p spec.kind spec.request spec.resultCapacity
    let _ ← (staged.enqueue p prepared).2
    let rest ← prepareEntries p (staged.enqueue p prepared).1 specs
    return prepared :: rest

def prepareBatch (p : Platform) (l : DeliveryLedger) (specs : List DeliverySpec) : Reply (List PreparedDelivery) :=
  if specs = [] then fail .emptyBatch
  -- `checked_sub`
  else if maxLiveDeliveries < l.live.length then fail .liveCapacity
  else if maxLiveDeliveries - l.live.length < specs.length then fail .liveCapacity
  else prepareEntries p l specs

def enqueueEntries (p : Platform) : DeliveryLedger → List PreparedDelivery → Reply (DeliveryLedger × List Hash32)
  | staged, [] => .ok (staged, [])
  | staged, prepared :: batch => do
    let id ← (staged.enqueue p prepared).2
    let (staged, ids) ← enqueueEntries p (staged.enqueue p prepared).1 batch
    return (staged, id :: ids)

def enqueueBatch (p : Platform) (l : DeliveryLedger) (batch : List PreparedDelivery) :
    DeliveryLedger × Reply (List Hash32) :=
  if batch = [] then (l, fail .emptyBatch)
  else
    match enqueueEntries p l batch with
    | .ok (staged, ids) => (staged, .ok ids)
    | .error e => (l, .error e)

/-! ### Performing -/

def claimOldest (l : DeliveryLedger) (adapterContract : UInt64) : DeliveryLedger × Reply ClaimedDelivery :=
  match nonZero adapterContract with
  | none => (l, fail .invalidAdapterContract)
  | some contract =>
    if l.live.any (·.state == .dispatching) then (l, fail .dispatchInProgress)
    else
      match l.live.zipIdx.argmin (·.1.sequence) with
      | none => (l, fail .noQueuedDelivery)
      | some (oldest, index) =>
        if oldest.state ≠ .queued then (l, fail (.headOfLineBlocked oldest.state))
        else
          match l.live[index]? with
          | none => (l, panicked)
          | some entry =>
            if entry.adapterContract.any (· ≠ contract) then (l, fail .adapterContractMismatch)
            else if maxDeliveryAttempts ≤ entry.attempt then (l, fail .attemptsExhausted)
            else
              let claimed : DeliveryEntry :=
                { entry with
                  adapterContract := some (entry.adapterContract.getD contract)
                  attempt := entry.attempt + 1
                  state := .dispatching }
              let l' := { l with live := l.live.set index claimed }
              match claimed.correlation with
              | none => (l', panicked)
              | some correlation =>
                (l', .ok
                  { correlation := correlation
                    sequence := claimed.sequence
                    kind := claimed.kind
                    recoveryPolicy := claimed.recoveryPolicy
                    request := claimed.request
                    resultCapacity := claimed.resultCapacity })

def recordResult (p : Platform) (l : DeliveryLedger) (correlation : DeliveryCorrelation) (result : Bytes) :
    DeliveryLedger × Reply RecordResultOutcome :=
  if maxDeliveryBlobBytes < result.length then (l, fail .resultTooLarge)
  else
    match l.correlatedLocation correlation with
    | .error e => (l, .error e)
    | .ok (.tombstone index) =>
      match l.tombstones[index]? with
      | none => (l, panicked)
      | some tombstone =>
        if tombstone.resultCapacity < result.length then (l, fail .resultTooLarge)
        else if tombstone.resultHash = p.sha256 result then (l, .ok .alreadyRecorded)
        else (l, fail .conflictingResult)
    | .ok (.live index) =>
      match l.live[index]? with
      | none => (l, panicked)
      | some entry =>
        if entry.resultCapacity < result.length then (l, fail .resultTooLarge)
        else
          let recorded : DeliveryEntry :=
            { entry with
              result := some result
              resultHash := some (p.sha256 result)
              state := .resultReady }
          match entry.state with
          | .dispatching | .ambiguous => ({ l with live := l.live.set index recorded }, .ok .recorded)
          | .resultReady =>
            if entry.result = some result ∧ entry.resultHash = some (p.sha256 result) then
              (l, .ok .alreadyRecorded)
            else (l, fail .conflictingResult)
          | .queued => (l, fail (.invalidTransition .queued "recordResult"))

def markAmbiguous (l : DeliveryLedger) (correlation : DeliveryCorrelation) : DeliveryLedger × Reply Unit :=
  match l.liveLocation correlation with
  | .error e => (l, .error e)
  | .ok index =>
    match l.live[index]? with
    | none => (l, panicked)
    | some entry =>
      if entry.state = .dispatching then
        ({ l with live := l.live.set index { entry with state := .ambiguous } }, .ok ())
      else (l, fail (.invalidTransition entry.state "markAmbiguous"))

def resolveNotPerformed (l : DeliveryLedger) (correlation : DeliveryCorrelation) : DeliveryLedger × Reply Unit :=
  match l.liveLocation correlation with
  | .error e => (l, .error e)
  | .ok index =>
    match l.live[index]? with
    | none => (l, panicked)
    | some entry =>
      if entry.state ≠ .ambiguous then
        (l, fail (.invalidTransition entry.state "resolveNotPerformed"))
      else if ¬ entry.recoveryPolicy.Replayable then
        (l, fail (.recoveryPolicyDenied entry.recoveryPolicy))
      else if maxDeliveryAttempts ≤ entry.attempt then (l, fail .attemptsExhausted)
      else ({ l with live := l.live.set index { entry with state := .queued } }, .ok ())

def readyResult (l : DeliveryLedger) (correlation : DeliveryCorrelation) : Reply Bytes :=
  match l.liveLocation correlation with
  | .error e => .error e
  | .ok index =>
    match l.live[index]? with
    | none => panicked
    | some entry =>
      if entry.state ≠ .resultReady then fail (.invalidTransition entry.state "readyResult")
      else
        match entry.result with
        | none => panicked
        | some result => .ok result

/-- The reply is the id of the tombstone that was rotated out. -/
def consumeReady (l : DeliveryLedger) (correlation : DeliveryCorrelation) : DeliveryLedger × Reply (Option Hash32) :=
  match l.liveLocation correlation with
  | .error e => (l, .error e)
  | .ok index =>
    match l.live[index]? with
    | none => (l, panicked)
    | some entry =>
      if entry.state ≠ .resultReady then (l, fail (.invalidTransition entry.state "consumeReady"))
      else
        let removed := { l with live := l.live.eraseIdx index }
        match reservationSize entry.request.length entry.resultCapacity with
        | .error _ => (removed, panicked)
        | .ok reservation =>
          if removed.reservedBytes < reservation then (removed, panicked)
          else
            let full := removed.tombstones.length = maxDeliveryTombstones
            let rotatedOut := if full then removed.tombstones.head?.map (·.id) else none
            let rotated :=
              { removed with
                reservedBytes := removed.reservedBytes - reservation
                tombstones := if full then removed.tombstones.tail else removed.tombstones }
            match entry.adapterContract, entry.resultHash with
            | some contract, some resultHash =>
              let tombstone : DeliveryTombstone :=
                { entry.toHeader with
                  id := entry.id
                  attempt := entry.attempt
                  adapterContract := contract
                  resultHash := resultHash
                  disposition := .resultConsumed }
              ({ rotated with tombstones := rotated.tombstones ++ [tombstone] }, .ok rotatedOut)
            | _, _ => (rotated, panicked)

end DeliveryLedger

/-! ### One call -/

inductive Operation
  | prepare (kind : DeliveryKind) (request : Bytes) (resultCapacity : ℕ)
  | prepareBatch (specs : List DeliverySpec)
  | enqueue (prepared : PreparedDelivery)
  | enqueueBatch (batch : List PreparedDelivery)
  | claimOldest (adapterContract : UInt64)
  | recordResult (correlation : DeliveryCorrelation) (result : Bytes)
  | markAmbiguous (correlation : DeliveryCorrelation)
  | resolveNotPerformed (correlation : DeliveryCorrelation)
  | readyResult (correlation : DeliveryCorrelation)
  | consumeReady (correlation : DeliveryCorrelation)

/-- The value a method returns. -/
inductive Value
  | prepared (prepared : PreparedDelivery)
  | preparedBatch (batch : List PreparedDelivery)
  | enqueued (id : Hash32)
  | enqueuedBatch (ids : List Hash32)
  | claimed (delivery : ClaimedDelivery)
  | recorded (outcome : RecordResultOutcome)
  | done
  | result (bytes : Bytes)
  | consumed (rotatedOut : Option Hash32)
deriving DecidableEq

/-- The ledger after a call, and the reply to it. -/
def respond (p : Platform) (l : DeliveryLedger) : Operation → DeliveryLedger × Reply Value
  | .prepare kind request resultCapacity => (l, (l.prepare p kind request resultCapacity).map .prepared)
  | .prepareBatch specs => (l, (l.prepareBatch p specs).map .preparedBatch)
  | .enqueue prepared => ((l.enqueue p prepared).1, (l.enqueue p prepared).2.map .enqueued)
  | .enqueueBatch batch => ((l.enqueueBatch p batch).1, (l.enqueueBatch p batch).2.map .enqueuedBatch)
  | .claimOldest contract => ((l.claimOldest contract).1, (l.claimOldest contract).2.map .claimed)
  | .recordResult c result => ((l.recordResult p c result).1, (l.recordResult p c result).2.map .recorded)
  | .markAmbiguous c => ((l.markAmbiguous c).1, (l.markAmbiguous c).2.map fun _ => .done)
  | .resolveNotPerformed c => ((l.resolveNotPerformed c).1, (l.resolveNotPerformed c).2.map fun _ => .done)
  | .readyResult c => (l, (l.readyResult c).map .result)
  | .consumeReady c => ((l.consumeReady c).1, (l.consumeReady c).2.map .consumed)

/-- One call as a step that emits its reply. -/
def step (p : Platform) (l : DeliveryLedger) (op : Operation) : DeliveryLedger × List (Reply Value) :=
  ((respond p l op).1, [(respond p l op).2])

/-- A call of a run: the ledger before it, the method, its reply, the ledger after it. -/
abbrev Exchange := Call DeliveryLedger Operation (Reply Value)

/-- The calls of a run. -/
def exchanges (p : Platform) (l : DeliveryLedger) (ops : List Operation) : List Exchange :=
  calls (step p) l ops

def ledgerAfter (p : Platform) (l : DeliveryLedger) (ops : List Operation) : DeliveryLedger :=
  (collect (step p) l ops).1

end EuWallet.Delivery
