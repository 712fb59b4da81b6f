import EuWallet.TxnLog.Anchor
import EuWallet.Wallet.Types

/-! # The export of a wallet

`wallet-core::export`: a credential and the activity log as a portable bundle under a hash of their canonical bytes.
The canonical bytes can be read back field by field (`canonical_splits`), so the hash commits to the whole bundle. The
JSON of the bundle is printed and parsed by serde, which `print` and `parse` stand for. -/

namespace EuWallet.TxnLog

def Kind.name : Kind → String
  | presentation => "presentation"
  | issuance => "issuance"
  | payment => "payment"
  | transfer => "transfer"

def Outcome.name : Outcome → String
  | completed => "completed"
  | declined => "declined"
  | aborted => "aborted"

end EuWallet.TxnLog

namespace EuWallet.Wallet

open Codec Codec.Cbor Crypto Lib TxnLog

structure ExportCredential where
  issuerJwt : String
  disclosures : List (String × String)
  status : Option StatusReference
deriving DecidableEq

structure ExportPayment where
  payee : String
  amountMinor : ℕ
  currency : String
deriving DecidableEq

structure ExportEntry where
  seq : ℕ
  epoch : ℤ
  kind : String
  counterparty : String
  consentHash : String
  claimPaths : List String
  outcome : String
  payment : Option ExportPayment
  redacted : Bool
deriving DecidableEq

structure ExportData where
  version : ℕ
  epoch : ℤ
  credential : Option ExportCredential
  transactionLog : List ExportEntry
deriving DecidableEq

structure Export where
  data : ExportData
  integrityHash : String
deriving DecidableEq

def exportVersion : ℕ := 2

def exportEntry (e : Entry) : ExportEntry where
  seq := e.seq
  epoch := e.epoch
  kind := e.kind.name
  counterparty := e.counterparty
  consentHash := hexBytes e.consentHash.1
  claimPaths := e.claimPaths
  outcome := e.outcome.name
  payment := e.payment.map fun q => ⟨q.payee, q.amountMinor, q.currency⟩
  redacted := e.redacted

def buildData (epoch : ℤ) (credential : Option HeldCredential) (log : TransactionLog) : ExportData where
  version := exportVersion
  epoch := epoch
  credential := credential.map fun c => ⟨c.issuerJwt, c.disclosuresByClaim, c.status⟩
  transactionLog := log.entries.map exportEntry

/-- `put` of a text. -/
def putText (s : String) : Bytes := putBytes (utf8 s)

def putOption {α : Type} (put : α → Bytes) (o : Option α) : Bytes := o.elim [0] fun a => 1 :: put a

def StatusReference.canonical (r : StatusReference) : Bytes := putText r.uri ++ leBytes 8 r.index

def ExportCredential.canonical (c : ExportCredential) : Bytes :=
  putText c.issuerJwt ++ (leBytes 8 c.disclosures.length ++ c.disclosures.flatMap fun kv => putText kv.1 ++ putText kv.2)
    ++ putOption StatusReference.canonical c.status

def ExportPayment.canonical (q : ExportPayment) : Bytes :=
  putText q.payee ++ leBytes 8 q.amountMinor ++ putText q.currency

def ExportEntry.canonical (e : ExportEntry) : Bytes :=
  leBytes 8 e.seq ++ leBytes 8 (wrap64 e.epoch) ++ putText e.kind ++ putText e.counterparty ++ putText e.consentHash
    ++ putText e.outcome ++ [if e.redacted then 1 else 0]
    ++ (leBytes 8 e.claimPaths.length ++ e.claimPaths.flatMap putText) ++ putOption ExportPayment.canonical e.payment

def ExportData.canonical (d : ExportData) : Bytes :=
  utf8 "eudi-wallet-export-v1" ++ leBytes 8 d.version ++ leBytes 8 (wrap64 d.epoch)
    ++ putOption ExportCredential.canonical d.credential
    ++ (leBytes 8 d.transactionLog.length ++ d.transactionLog.flatMap ExportEntry.canonical)

def ExportData.integrityHash (p : Platform) (d : ExportData) : String := hexBytes (p.sha256 d.canonical).1

def exportJson (p : Platform) (print : Export → String) (epoch : ℤ) (credential : Option HeldCredential)
    (log : TransactionLog) : String :=
  let data := buildData epoch credential log
  print ⟨data, data.integrityHash p⟩

def verifyExport (p : Platform) (parse : String → Option Export) (json : String) : Bool :=
  match parse json with
  | none => false
  | some e => e.data.integrityHash p == e.integrityHash

/-! ### Reading the canonical bytes back -/

/-- The texts Rust can hold. -/
abbrev Texts : Set String := {s | s.utf8ByteSize < 256 ^ 8}

abbrev Words : Set ℕ := {n | n < 256 ^ 8}

abbrev Integers : Set ℤ := {n | -2 ^ 63 ≤ n ∧ n < 2 ^ 63}

/-- Lists of elements of a set that Rust can hold. -/
abbrev Lists {α : Type} (S : Set α) : Set (List α) := {l | l.length ∈ Words ∧ ∀ a ∈ l, a ∈ S}

abbrev Options {α : Type} (S : Set α) : Set (Option α) := {o | ∀ a ∈ o, a ∈ S}

theorem putText_splits : SplitsOn Texts putText := text_splits

theorem epoch_splits : SplitsOn Integers fun n => leBytes 8 (wrap64 n) := by
  refine leBytes_splits.comp (fun n hn => ?_) fun a ha b hb h => ?_
  · simp only [Set.mem_ofPred_eq, wrap64] at hn ⊢
    omega
  · simp only [Set.mem_ofPred_eq, wrap64] at ha hb h
    omega

theorem flag_splits : SplitsOn Set.univ fun b : Bool => [if b then (1 : UInt8) else 0] :=
  .of_width 1 (fun _ _ => rfl) fun a _ b _ h => by revert a b; decide

theorem putOption_splits {α : Type} {S : Set α} {put : α → Bytes} (h : SplitsOn S put) :
    SplitsOn (Options S) (putOption put) := h.option 0 1 (by decide)

/-- The values the source's types can hold. -/
def References : Set StatusReference := {r | (r.uri, r.index) ∈ Texts ×ˢ Words}

def Credentials : Set ExportCredential :=
  {c | (c.issuerJwt, c.disclosures, c.status) ∈ Texts ×ˢ Lists (Texts ×ˢ Texts) ×ˢ Options References}

def Payments : Set ExportPayment := {q | (q.payee, q.amountMinor, q.currency) ∈ Texts ×ˢ Words ×ˢ Texts}

def ExportEntry.fields (e : ExportEntry) :=
  (e.seq, e.epoch, e.kind, e.counterparty, e.consentHash, e.outcome, e.redacted, e.claimPaths, e.payment)

def Entries : Set ExportEntry := {e | e.fields ∈
  Words ×ˢ Integers ×ˢ Texts ×ˢ Texts ×ˢ Texts ×ˢ Texts ×ˢ Set.univ ×ˢ Lists Texts ×ˢ Options Payments}

def ExportData.Typed (d : ExportData) : Prop := (d.version, d.epoch, d.credential, d.transactionLog) ∈
  Words ×ˢ Integers ×ˢ Options Credentials ×ˢ Lists Entries

theorem reference_splits : SplitsOn References StatusReference.canonical :=
  (putText_splits.prod leBytes_splits).comp (g := fun r : StatusReference => (r.uri, r.index)) (fun _ h => h)
    fun a _ b _ h => by cases a; cases b; simpa using h

theorem credential_splits : SplitsOn Credentials ExportCredential.canonical := by
  have hfields := putText_splits.prod
    ((leBytes_splits.counted (putText_splits.prod putText_splits)).prod (putOption_splits reference_splits))
  have hview := hfields.comp (g := fun c : ExportCredential => (c.issuerJwt, c.disclosures, c.status))
    (T := Credentials) (fun _ h => h) fun a _ b _ h => by cases a; cases b; simpa using h
  simpa only [SplitsOn, ExportCredential.canonical, List.append_assoc] using hview

theorem payment_splits : SplitsOn Payments ExportPayment.canonical := by
  have hfields := putText_splits.prod (leBytes_splits.prod putText_splits)
  have hview := hfields.comp (g := fun q : ExportPayment => (q.payee, q.amountMinor, q.currency))
    (T := Payments) (fun _ h => h) fun a _ b _ h => by cases a; cases b; simpa using h
  simpa only [SplitsOn, ExportPayment.canonical, List.append_assoc] using hview

theorem entry_splits : SplitsOn Entries ExportEntry.canonical := by
  have hfields := leBytes_splits.prod (epoch_splits.prod (putText_splits.prod (putText_splits.prod (putText_splits.prod
    (putText_splits.prod (flag_splits.prod ((leBytes_splits.counted putText_splits).prod
      (putOption_splits payment_splits))))))))
  have hview := hfields.comp (g := ExportEntry.fields) (T := Entries) (fun _ h => h)
    fun a _ b _ h => by cases a; cases b; simpa [ExportEntry.fields, and_assoc, and_comm, and_left_comm] using h
  simp only [SplitsOn, ExportEntry.canonical, ExportEntry.fields, List.append_assoc] at hview ⊢
  exact hview

theorem canonical_injective {d e : ExportData} (hd : d.Typed) (he : e.Typed) (h : d.canonical = e.canonical) :
    d = e := by
  have hfields := leBytes_splits.prod (epoch_splits.prod ((putOption_splits credential_splits).prod
    (leBytes_splits.counted entry_splits)))
  simp only [ExportData.canonical, List.append_assoc] at h
  have hsame := hfields.injOn hd he (List.append_cancel_left h)
  cases d
  cases e
  simpa using hsame

theorem hexBytes_hash_injective {a b : Hash32} (h : hexBytes a.1 = hexBytes b.1) : a = b := by
  have hdigit : ∀ m < 16, ∀ n < 16, hexDigit m = hexDigit n → m = n := by decide
  have hbyte : SplitsOn Set.univ fun x : UInt8 => [hexDigit (x.toNat / 16), hexDigit (x.toNat % 16)] := by
    refine .of_width 2 (fun _ _ => rfl) fun x _ y _ hxy => UInt8.toNat_inj.mp ?_
    have hx := x.toNat_lt
    have hy := y.toNat_lt
    simp only [List.cons.injEq, and_true] at hxy
    have hhigh := hdigit _ (by omega) _ (by omega) hxy.1
    have hlow := hdigit _ (by omega) _ (by omega) hxy.2
    omega
  have hchars := String.ofList_injective h
  exact Subtype.ext (hbyte.flatMap (s := []) (t := []) (a.2.trans b.2.symm) (by simp) (by simp) (by rw [hchars])).1

/-- **The export hash is a faithful commitment.** The canonical bytes fix the data; what was exported is accepted if
serde reads it back; and nothing else is accepted under its hash, unless SHA-256 collides on the two. -/
theorem verifyExport_faithful (p : Platform) (print : Export → String) (parse : String → Option Export) :
    (∀ d e : ExportData, d.Typed → e.Typed → d.canonical = e.canonical → d = e) ∧
      ∀ epoch credential log, let data := buildData epoch credential log
        parse (print ⟨data, data.integrityHash p⟩) = some ⟨data, data.integrityHash p⟩ →
          verifyExport p parse (exportJson p print epoch credential log) = true ∧
            ∀ json other, parse json = some other → verifyExport p parse json = true →
              other.integrityHash = data.integrityHash p → other.data.Typed → data.Typed →
                Set.InjOn p.sha256 {data.canonical, other.data.canonical} → other.data = data := by
  refine ⟨fun d e => canonical_injective, ?_⟩
  intro epoch credential log data hread
  refine ⟨by simp [verifyExport, exportJson, hread, data], ?_⟩
  intro json other hparsed haccepted hhash hother hdata hcollision
  simp only [verifyExport, hparsed, beq_iff_eq] at haccepted
  have hsame := hexBytes_hash_injective (haccepted.trans hhash)
  exact canonical_injective hother hdata (hcollision (.inr rfl) (.inl rfl) hsame)

namespace Exported

def credential : HeldCredential := ⟨"jwt", [("name", "disclosure")], some ⟨"list", 3⟩⟩

def data : ExportData := buildData 0 (some credential) {}

def bundle : Export := ⟨data, data.integrityHash default⟩

theorem typed : data.Typed := by
  simp [ExportData.Typed, Credentials, References, data, buildData, credential, exportVersion]
  decide

end Exported

theorem verifyExport_faithful_exported : Exported.data.Typed ∧
    verifyExport default (fun _ => some Exported.bundle) (exportJson default (fun _ => "") 0 Exported.credential {}) ∧
      Exported.bundle.data = Exported.data := by
  have h := (verifyExport_faithful default (fun _ => "") fun _ => some Exported.bundle).2 0 Exported.credential {} rfl
  exact ⟨Exported.typed, h.1, h.2 "" Exported.bundle rfl h.1 rfl Exported.typed Exported.typed
    (Set.injOn_pair.mpr fun _ => rfl)⟩

end EuWallet.Wallet
