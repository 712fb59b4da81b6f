import EuWallet.Codec.Numbers
import EuWallet.Crypto.Platform
import Mathlib.Data.Finset.Basic

/-! # The receipts of an agent

`wallet-core::agent`: an agent acts under a mandate and leaves a receipt for every action in a hash chain. The head of
a chain that verifies fixes every receipt but for one thing: a mandate identifier that is absent is hashed as an empty
one (`Receipt.told`). So the head fixes the whole log exactly when every receipt names an identifier. -/

namespace EuWallet.Wallet

open Codec Codec.Cbor Crypto Lib

inductive KeyProtection where
  | software
  | kms
  | attestedTee
  | secureElement
deriving DecidableEq

inductive AssuranceTier where
  | t0
  | t1
  | t2
  | t3
deriving DecidableEq

/-- The derived order of the tiers. -/
def AssuranceTier.level : AssuranceTier → ℕ
  | t0 => 0
  | t1 => 1
  | t2 => 2
  | t3 => 3

structure AgentUnitAttestation where
  protection : KeyProtection
  remotelyAttested : Bool
deriving DecidableEq

def AgentUnitAttestation.assuranceCeiling (a : AgentUnitAttestation) : AssuranceTier :=
  match a.protection with
  | .software => .t0
  | .kms => .t1
  | .attestedTee => if a.remotelyAttested then .t3 else .t1
  | .secureElement => .t3

structure HappEvidence where
  fresh : Bool
  tier : AssuranceTier
deriving DecidableEq

structure DelegationPlan where
  mandator : String
  exercisedScope : Finset String
  mandateJti : Option String

structure ActionRequest where
  requiredPowers : Finset String
  requiredTier : AssuranceTier
  payload : Bytes

def ActionRequest.requiresHapp (r : ActionRequest) : Bool := r.requiredTier matches .t2 | .t3

inductive AgentError where
  | scopeExceeded
  | insufficientAssurance
  | approvalRequired
deriving DecidableEq

structure Receipt where
  seq : UInt64
  mandateJti : Option String
  onBehalfOf : String
  actionHash : Hash32
  prevHash : Hash32
  chainHash : Hash32
deriving DecidableEq

structure ReceiptLog where
  head : Hash32 := zeroHash
  nextSeq : UInt64 := 0
  entries : List Receipt := []
deriving DecidableEq

namespace ReceiptLog

/-- The bytes that `link` hashes. -/
def linkBytes (prevHash : Hash32) (seq : UInt64) (actionHash : Hash32) (mandateJti : Option String)
    (onBehalfOf : String) : Bytes :=
  let jti := utf8 (mandateJti.getD "")
  prevHash.1 ++ (actionHash.1 ++ (beBytes 8 seq.toNat ++ ((beBytes 8 jti.length ++ jti) ++
    (beBytes 8 (utf8 onBehalfOf).length ++ utf8 onBehalfOf))))

def link (p : Platform) (prevHash : Hash32) (seq : UInt64) (actionHash : Hash32) (mandateJti : Option String)
    (onBehalfOf : String) : Hash32 := p.sha256 (linkBytes prevHash seq actionHash mandateJti onBehalfOf)

/-- The sequence number wraps, as in a release build. -/
def append (p : Platform) (log : ReceiptLog) (actionHash : Hash32) (mandateJti : Option String) (onBehalfOf : String) :
    ReceiptLog × Receipt :=
  let receipt : Receipt :=
    { seq := log.nextSeq, mandateJti, onBehalfOf, actionHash, prevHash := log.head,
      chainHash := link p log.head log.nextSeq actionHash mandateJti onBehalfOf }
  (⟨receipt.chainHash, log.nextSeq + 1, log.entries ++ [receipt]⟩, receipt)

/-- The loop of `verify`: the hash after the last receipt. -/
def verifyFrom (p : Platform) : Hash32 → ℕ → List Receipt → Option Hash32
  | prev, _, [] => some prev
  | prev, index, r :: rest =>
    if r.seq ≠ UInt64.ofNat index ∨ r.prevHash ≠ prev then none
    else if link p r.prevHash r.seq r.actionHash r.mandateJti r.onBehalfOf ≠ r.chainHash then none
    else verifyFrom p r.chainHash (index + 1) rest

def verify (p : Platform) (log : ReceiptLog) : Bool := verifyFrom p zeroHash 0 log.entries == some log.head

end ReceiptLog

/-- `AttestedSigner`: what the keystore answers to one call. -/
structure AttestedSigner where
  attestation : AgentUnitAttestation
  sign : Bytes → Bytes

structure AgentAction where
  signature : Bytes
  receipt : Receipt

structure AgentCall where
  signer : AttestedSigner
  plan : DelegationPlan
  request : ActionRequest
  happ : Option HappEvidence

/-- The three checks of `act`, in its order. -/
def AgentCall.check (c : AgentCall) : Except AgentError Unit :=
  if ¬ c.request.requiredPowers ⊆ c.plan.exercisedScope then .error .scopeExceeded
  else if c.signer.attestation.assuranceCeiling.level < c.request.requiredTier.level then .error .insufficientAssurance
  else if c.request.requiresHapp ∧ ¬ c.happ.any fun e => e.fresh && c.request.requiredTier.level ≤ e.tier.level then
    .error .approvalRequired
  else .ok ()

def act (p : Platform) (log : ReceiptLog) (c : AgentCall) : ReceiptLog × Except AgentError AgentAction :=
  match c.check with
  | .error e => (log, .error e)
  | .ok () =>
    let signature := c.signer.sign c.request.payload
    let (log, receipt) := log.append p (p.sha256 c.request.payload) c.plan.mandateJti c.plan.mandator
    (log, .ok ⟨signature, receipt⟩)

/-- A session: the log after some calls, and what they returned. -/
def actAll (p : Platform) (log : ReceiptLog) : List AgentCall → ReceiptLog × List (Except AgentError AgentAction)
  | [] => (log, [])
  | c :: calls =>
    let (log, out) := act p log c
    let (log, outs) := actAll p log calls
    (log, out :: outs)

/-! ### What the head fixes -/

/-- The receipt as its hash tells it. -/
def Receipt.told (r : Receipt) : Receipt := { r with mandateJti := some (r.mandateJti.getD "") }

/-- The receipt with an absent identifier for an empty one and an empty one for an absent one. -/
def Receipt.twin (r : Receipt) : Receipt :=
  { r with mandateJti := if r.mandateJti = none then some "" else if r.mandateJti = some "" then none else r.mandateJti }

def Receipt.bytes (r : Receipt) : Bytes :=
  ReceiptLog.linkBytes r.prevHash r.seq r.actionHash r.mandateJti r.onBehalfOf

/-- The lengths of the texts of a receipt are machine numbers. -/
structure Receipt.Fits (r : Receipt) : Prop where
  mandateJti : (r.mandateJti.getD "").utf8ByteSize < 256 ^ 8
  onBehalfOf : r.onBehalfOf.utf8ByteSize < 256 ^ 8

def hashedBytes (entries : List Receipt) : Set Bytes := {b | ∃ r ∈ entries, b = r.bytes}

theorem told_eq_of_bytes {r s : Receipt} (hr : r.Fits) (hs : s.Fits) (hchain : r.chainHash = s.chainHash)
    (h : r.bytes = s.bytes) : r.told = s.told := by
  have htext := sizedText_splits (beBytes_splits 8)
  have hseq : SplitsOn Set.univ fun n : UInt64 => beBytes 8 n.toNat :=
    (beBytes_splits 8).comp (fun n _ => n.toNat_lt) fun _ _ _ _ => UInt64.toNat_inj.mp
  have hread := hash_splits.prod (hash_splits.prod (hseq.prod (htext.prod htext)))
  have hsame := (hread (r.prevHash, r.actionHash, r.seq, r.mandateJti.getD "", r.onBehalfOf)
    ⟨trivial, trivial, trivial, hr.mandateJti, hr.onBehalfOf⟩
    (s.prevHash, s.actionHash, s.seq, s.mandateJti.getD "", s.onBehalfOf)
    ⟨trivial, trivial, trivial, hs.mandateJti, hs.onBehalfOf⟩ [] [] (congrArg (· ++ []) h)).1
  simp only [Prod.mk.injEq] at hsame
  obtain ⟨hprev, haction, hnumber, hjti, hbehalf⟩ := hsame
  simp [Receipt.told, hprev, haction, hnumber, hjti, hbehalf, hchain]

theorem map_told_cancel {xs ys : List Receipt} (hnamed : ∀ s ∈ ys, ∃ jti, s.mandateJti = some jti ∧ jti ≠ "")
    (h : xs.map Receipt.told = ys.map Receipt.told) : xs = ys := by
  induction ys generalizing xs with
  | nil => simpa using h
  | cons s ys ih =>
    obtain ⟨r, rest, rfl, hfirst, hrest⟩ := List.map_eq_cons_iff.mp h
    obtain ⟨jti, hjti, hne⟩ := hnamed s List.mem_cons_self
    obtain rfl : r = s := by cases r with | mk _ found => cases found <;> cases s <;> simp_all [Receipt.told]
    rw [ih (fun t ht => hnamed t (List.mem_cons_of_mem _ ht)) hrest]

theorem twin_eq_self_iff {r : Receipt} : r.twin = r ↔ ∃ jti, r.mandateJti = some jti ∧ jti ≠ "" := by
  cases r with | mk _ found => cases found <;> simp [Receipt.twin]

theorem getD_twin (r : Receipt) : r.twin.mandateJti.getD "" = r.mandateJti.getD "" := by
  rcases hjti : r.mandateJti with _ | jti
  · simp [Receipt.twin, hjti]
  · by_cases hempty : jti = "" <;> simp [Receipt.twin, hjti, hempty]

theorem bytes_twin (r : Receipt) : r.twin.bytes = r.bytes := by
  simp only [Receipt.bytes, ReceiptLog.linkBytes, getD_twin]
  rfl

section
variable {p : Platform} {xs : List Receipt}

/-- The last receipt of a chain that verifies. -/
theorem verifyFrom_concat {prev h : Hash32} {i : ℕ} {r : Receipt} :
    ReceiptLog.verifyFrom p prev i (xs ++ [r]) = some h ↔ ReceiptLog.verifyFrom p prev i xs = some r.prevHash ∧
      r.seq = UInt64.ofNat (i + xs.length) ∧ p.sha256 r.bytes = r.chainHash ∧ r.chainHash = h := by
  induction xs generalizing prev i with
  | nil => simp [ReceiptLog.verifyFrom, Receipt.bytes, ReceiptLog.link]; grind
  | cons x xs ih => simp [ReceiptLog.verifyFrom, ih]; grind

theorem eq_nil_of_zero (hzero : ∀ b, p.sha256 b ≠ zeroHash)
    (h : ReceiptLog.verifyFrom p zeroHash 0 xs = some zeroHash) : xs = [] := by
  induction xs using List.reverseRecOn with
  | nil => rfl
  | append_singleton xs r =>
    obtain ⟨-, -, hlink, hlast⟩ := verifyFrom_concat.mp h
    exact absurd (hlink.trans hlast) (hzero _)

/-- Two chains with one head tell the same, by induction from their ends. -/
theorem told_eq_of_head (hzero : ∀ b, p.sha256 b ≠ zeroHash) {ys : List Receipt} {h : Hash32}
    (hfitsx : ∀ r ∈ xs, r.Fits) (hfitsy : ∀ r ∈ ys, r.Fits)
    (hcollision : Set.InjOn p.sha256 (hashedBytes xs ∪ hashedBytes ys))
    (hx : ReceiptLog.verifyFrom p zeroHash 0 xs = some h) (hy : ReceiptLog.verifyFrom p zeroHash 0 ys = some h) :
    xs.map Receipt.told = ys.map Receipt.told := by
  induction xs using List.reverseRecOn generalizing ys h with
  | nil =>
    obtain rfl : zeroHash = h := by simpa [ReceiptLog.verifyFrom] using hx
    rw [eq_nil_of_zero hzero hy]
  | append_singleton xs r ih =>
    cases ys using List.reverseRecOn with
    | nil =>
      obtain rfl : zeroHash = h := by simpa [ReceiptLog.verifyFrom] using hy
      rw [eq_nil_of_zero hzero hx]
    | append_singleton ys s =>
      obtain ⟨hx, -, hlinkr, hlastr⟩ := verifyFrom_concat.mp hx
      obtain ⟨hy, -, hlinks, hlasts⟩ := verifyFrom_concat.mp hy
      have hbytes : r.bytes = s.bytes := hcollision (.inl ⟨r, by simp, rfl⟩) (.inr ⟨s, by simp, rfl⟩)
        (by rw [hlinkr, hlinks, hlastr, hlasts])
      have hlast := told_eq_of_bytes (hfitsx r (by simp)) (hfitsy s (by simp)) (hlastr.trans hlasts.symm) hbytes
      have hprev : r.told.prevHash = s.told.prevHash := by rw [hlast]
      have hmono : ∀ {zs : List Receipt} {t : Receipt}, hashedBytes zs ⊆ hashedBytes (zs ++ [t]) := by
        rintro zs t b ⟨r, hr, hb⟩
        exact ⟨r, List.mem_append_left _ hr, hb⟩
      have hrest := ih (fun t ht => hfitsx t (List.mem_append_left _ ht))
        (fun t ht => hfitsy t (List.mem_append_left _ ht))
        (hcollision.mono (Set.union_subset_union hmono hmono)) hx (hy.trans (congrArg some hprev.symm))
      rw [List.map_append, List.map_append, hrest, List.map_singleton, List.map_singleton, hlast]

theorem verifyFrom_map_twin (prev : Hash32) (i : ℕ) (xs : List Receipt) :
    ReceiptLog.verifyFrom p prev i (xs.map Receipt.twin) = ReceiptLog.verifyFrom p prev i xs := by
  induction xs generalizing prev i with
  | nil => rfl
  | cons r xs ih =>
    have hlink : ReceiptLog.link p r.twin.prevHash r.twin.seq r.twin.actionHash r.twin.mandateJti r.twin.onBehalfOf =
      ReceiptLog.link p r.prevHash r.seq r.actionHash r.mandateJti r.onBehalfOf := congrArg p.sha256 (bytes_twin r)
    rw [List.map_cons, ReceiptLog.verifyFrom, ReceiptLog.verifyFrom, ih, hlink]
    rfl

/-- The head of a log fixes its entries exactly if each of them names an identifier. -/
theorem head_fixes_iff (hzero : ∀ b, p.sha256 b ≠ zeroHash) {L : ReceiptLog} (hverify : L.verify p = true)
    (hfits : ∀ r ∈ L.entries, r.Fits) (hcollision : Set.InjOn p.sha256 (hashedBytes L.entries)) :
    (∀ M : ReceiptLog, M.verify p = true → (∀ r ∈ M.entries, r.Fits) →
        Set.InjOn p.sha256 (hashedBytes M.entries ∪ hashedBytes L.entries) → M.head = L.head → M.entries = L.entries) ↔
      ∀ r ∈ L.entries, ∃ jti, r.mandateJti = some jti ∧ jti ≠ "" := by
  constructor
  · intro hfixes r hr
    have htwins := hfixes { L with entries := L.entries.map Receipt.twin } ?_ ?_ ?_ rfl
    · rw [← twin_eq_self_iff]
      exact List.map_inj_left.mp (htwins.trans (List.map_id _).symm) r hr
    · rw [ReceiptLog.verify, verifyFrom_map_twin]
      exact hverify
    · intro t ht
      obtain ⟨s, hs, rfl⟩ := List.mem_map.mp ht
      exact ⟨(getD_twin s).symm ▸ (hfits s hs).mandateJti, (hfits s hs).onBehalfOf⟩
    · refine hcollision.mono (Set.union_subset ?_ subset_rfl)
      rintro b ⟨t, ht, rfl⟩
      obtain ⟨s, hs, rfl⟩ := List.mem_map.mp ht
      exact ⟨s, hs, bytes_twin s⟩
  · intro hnamed M hM hfitsM hcollisionM hhead
    have hL := beq_iff_eq.mp hverify
    rw [← hhead] at hL
    exact map_told_cancel hnamed (told_eq_of_head hzero hfitsM hfits hcollisionM (beq_iff_eq.mp hM) hL)

/-! ### Sessions -/

variable {log : ReceiptLog}

/-- A log that verifies and numbers its next receipt by its length. -/
def ReceiptLog.Sound (p : Platform) (log : ReceiptLog) : Prop :=
  log.verify p = true ∧ log.nextSeq = UInt64.ofNat log.entries.length

/-- `act` refuses and leaves the log, or appends one receipt for the call. -/
theorem act_cases (p : Platform) (log : ReceiptLog) (c : AgentCall) : (∃ e, act p log c = (log, .error e)) ∨
    ∃ signature, let (log', r) := log.append p (p.sha256 c.request.payload) c.plan.mandateJti c.plan.mandator
      act p log c = (log', .ok ⟨signature, r⟩) := by
  unfold act
  cases c.check with
  | error e => exact .inl ⟨e, rfl⟩
  | ok _ => exact .inr ⟨_, rfl⟩

theorem ReceiptLog.Sound.append (h : log.Sound p) (action : Hash32) (jti : Option String) (behalf : String)
    : (log.append p action jti behalf).1.Sound p := by
  refine ⟨beq_iff_eq.mpr (verifyFrom_concat.mpr ⟨beq_iff_eq.mp h.1, ?_, rfl, rfl⟩), ?_⟩
  · simp [h.2]
  · simp [ReceiptLog.append, h.2]

def Receipt.Records (p : Platform) (r : Receipt) (c : AgentCall) : Prop :=
  r.actionHash = p.sha256 c.request.payload ∧ r.mandateJti = c.plan.mandateJti ∧ r.onBehalfOf = c.plan.mandator

/-- The receipts of the calls that succeeded. -/
def issued (outs : List (Except AgentError AgentAction)) : List Receipt :=
  outs.filterMap fun out => out.toOption.map AgentAction.receipt

theorem actAll_sound (hlog : log.Sound p) (calls : List AgentCall) :
    (actAll p log calls).1.Sound p ∧ (actAll p log calls).1.entries = log.entries ++ issued (actAll p log calls).2 ∧
      List.Forall₂ (fun c out => ∀ a, out = .ok a → a.receipt.Records p c) calls (actAll p log calls).2 := by
  induction calls generalizing log with
  | nil => exact ⟨hlog, (List.append_nil _).symm, .nil⟩
  | cons c calls ih =>
    rcases act_cases p log c with ⟨e, hact⟩ | ⟨signature, hact⟩
    · obtain ⟨hsound, hentries, hrecords⟩ := ih hlog
      simp only [actAll, hact]
      exact ⟨hsound, hentries, .cons (fun _ => nofun) hrecords⟩
    · obtain ⟨hsound, hentries, hrecords⟩ := ih (hlog.append _ _ _)
      simp only [actAll, hact]
      refine ⟨hsound, hentries.trans ?_, .cons ?_ hrecords⟩
      · simp [issued, ReceiptLog.append, Except.toOption]
      · rintro a ⟨⟩
        exact ⟨rfl, rfl, rfl⟩

end

/-- **What the chain of receipts commits to.** The head fixes the entries exactly if each of them names an identifier.
A session verifies and has one receipt for each call that succeeded, in their order; a refused call leaves the log. -/
theorem receipts_commit_iff (p : Platform) (hzero : ∀ b, p.sha256 b ≠ zeroHash) :
    (∀ L : ReceiptLog, L.verify p = true → (∀ r ∈ L.entries, r.Fits) → Set.InjOn p.sha256 (hashedBytes L.entries) →
      ((∀ M : ReceiptLog, M.verify p = true → (∀ r ∈ M.entries, r.Fits) →
        Set.InjOn p.sha256 (hashedBytes M.entries ∪ hashedBytes L.entries) → M.head = L.head → M.entries = L.entries) ↔
      ∀ r ∈ L.entries, ∃ jti, r.mandateJti = some jti ∧ jti ≠ "")) ∧
    (∀ calls, let (log, outs) := actAll p {} calls
      log.verify p = true ∧ log.entries = issued outs ∧
        List.Forall₂ (fun c out => ∀ a, out = .ok a → a.receipt.Records p c) calls outs) ∧
    ∀ log c e, (act p log c).2 = .error e → (act p log c).1 = log := by
  refine ⟨fun L => head_fixes_iff hzero, fun calls => ?_, fun log c e hrefused => ?_⟩
  · have hnew : ReceiptLog.Sound p {} := ⟨beq_iff_eq.mpr rfl, rfl⟩
    obtain ⟨⟨hverify, -⟩, hentries⟩ := actAll_sound hnew calls
    exact ⟨hverify, hentries⟩
  · rcases act_cases p log c with ⟨e', hact⟩ | ⟨signature, hact⟩
    · rw [hact]
    · rw [hact] at hrefused
      cases hrefused

/-! One action under a mandate with and without an identifier. -/

namespace OneAction

def platform : Platform := { (default : Platform) with sha256 := fun _ => oneHash }

def call (jti : Option String) : AgentCall :=
  ⟨⟨⟨.software, false⟩, id⟩, ⟨"mandator", ∅, jti⟩, ⟨∅, .t0, []⟩, none⟩

def log (jti : Option String) : ReceiptLog := (actAll platform {} [call jti]).1

theorem fits : ∀ jti ∈ [none, some "", some "m"], ∀ r ∈ (log jti).entries, r.Fits := by
  have hsizes : ∀ jti ∈ [none, some "", some "m"], ∀ r ∈ (log jti).entries,
      (r.mandateJti.getD "").utf8ByteSize < 256 ^ 8 ∧ r.onBehalfOf.utf8ByteSize < 256 ^ 8 := by decide
  exact fun jti hjti r hr => ⟨(hsizes jti hjti r hr).1, (hsizes jti hjti r hr).2⟩

theorem hashed {jti : Option String} {b : Bytes} (h : b ∈ hashedBytes (log jti).entries) :
    b = ReceiptLog.linkBytes zeroHash 0 (platform.sha256 []) jti "mandator" := by
  obtain ⟨r, hr, rfl⟩ := h
  obtain rfl := List.mem_singleton.mp hr
  rfl

end OneAction

open OneAction

theorem receipts_absent_identifier : (log none).verify platform = true ∧ (log (some "")).verify platform = true ∧
    (log none).head = (log (some "")).head ∧ (log none).entries ≠ (log (some "")).entries ∧
    (∀ r ∈ (log none).entries ++ (log (some "")).entries, r.Fits) ∧
    Set.InjOn platform.sha256 (hashedBytes (log (some "")).entries ∪ hashedBytes (log none).entries) := by
  refine ⟨by decide, by decide, by decide, by decide, ?_, ?_⟩
  · intro r hr
    rcases List.mem_append.mp hr with hr | hr <;> exact fits _ (by simp) r hr
  · rintro a (ha | ha) b (hb | hb) - <;> exact (hashed ha).trans (hashed hb).symm

theorem receipts_commit_named : (log (some "m")).entries.length = 1 ∧ ∀ M : ReceiptLog, M.verify platform = true →
    (∀ r ∈ M.entries, r.Fits) → Set.InjOn platform.sha256 (hashedBytes M.entries ∪ hashedBytes (log (some "m")).entries) →
      M.head = (log (some "m")).head → M.entries = (log (some "m")).entries :=
  ⟨rfl, ((receipts_commit_iff platform fun _ => (by decide : platform.sha256 [] ≠ zeroHash)).1 (log (some "m")) (by decide) (fits _ (by simp))
    fun _ ha _ hb _ => (hashed ha).trans (hashed hb).symm).mpr (by decide)⟩

end EuWallet.Wallet
