import EuWallet.Codec.Base64
import EuWallet.Codec.Numbers
import EuWallet.Lib.Except
import EuWallet.Lib.KeySort

/-! # Canonical CBOR is a bijection

`to_canonical` and `from_canonical_slice` are inverse to each other between byte strings and *normal*
values, those whose maps have their pairs in the order of the encoded keys and no key twice. A head is
written and read in one way only (`readHead_writeHead`, `writeHead_readHead`); from that follow the two
directions by induction over values (`decodeValue_toCanonical`) and over the levels of the decoder
(`toCanonical_decodeValue`). -/

namespace EuWallet.Codec.Cbor

open Lib Lib.KeySort Value

/-! ### Heads -/

theorem toNat_ofNat_of_lt {n : ℕ} (h : n < 256) : (UInt8.ofNat n).toNat = n := by
  exact Nat.mod_eq_of_lt h

variable {arg : ℕ} {b rest : Bytes} {v : Value} {pairs : List (Value × Value)}

theorem readArg_beBytes {k low : ℕ} (hlow : low ≤ arg) (harg : arg < 256 ^ k) (rest : Bytes) :
    readArg k low (beBytes k arg ++ rest) = .ok (arg, rest) := by
  have hlength : (beBytes k arg).length = k := length_beBytes k arg
  have hvalue : beNat ((beBytes k arg ++ rest).take k) = arg := by
    rw [List.take_left' hlength, beNat_beBytes, Nat.mod_eq_of_lt harg]
  rw [readArg, if_neg (by rw [List.length_append]; omega), hvalue, if_neg (by omega), List.drop_left' hlength]

theorem readArg_eq_ok {k low : ℕ} (h : readArg k low b = .ok (arg, rest)) :
    b = beBytes k arg ++ rest ∧ low ≤ arg ∧ arg < 256 ^ k := by
  unfold readArg at h
  split_ifs at h with hlength hlow
  obtain ⟨rfl, rfl⟩ := Prod.mk.inj (Except.ok.inj h)
  have htake : (b.take k).length = k := by rw [List.length_take]; omega
  have hbytes := beBytes_beNat (b.take k)
  have hlt := beNat_lt (b.take k)
  rw [htake] at hbytes hlt
  exact ⟨by rw [hbytes, List.take_append_drop], by omega, hlt⟩

/-- The long forms of a head: additional information, bytes of the argument, least argument. -/
def headForms : List (ℕ × ℕ × ℕ) := [(24, 1, 24), (25, 2, 2 ^ 8), (26, 4, 2 ^ 16), (27, 8, 2 ^ 32)]

section Forms
variable {info k low major : ℕ} (hform : (info, k, low) ∈ headForms)
include hform

theorem readHead_long {first : UInt8} {tail : Bytes} (hinfo : first.toNat % 32 = info) : readHead (first :: tail) =
      (readArg k low tail).map fun x => (first.toNat / 32, x.1, x.2) := by
  simp only [headForms, List.mem_cons, Prod.mk.injEq, List.not_mem_nil, or_false] at hform
  rcases hform with ⟨rfl, rfl, rfl⟩ | ⟨rfl, rfl, rfl⟩ | ⟨rfl, rfl, rfl⟩ | ⟨rfl, rfl, rfl⟩ <;>
    simp [readHead, hinfo]

theorem writeHead_long (hlow : low ≤ arg) (harg : arg < 256 ^ k) :
    writeHead major arg = UInt8.ofNat (major * 32 + info) :: beBytes k arg := by
  simp only [headForms, List.mem_cons, Prod.mk.injEq, List.not_mem_nil, or_false] at hform
  rcases hform with ⟨rfl, rfl, rfl⟩ | ⟨rfl, rfl, rfl⟩ | ⟨rfl, rfl, rfl⟩ | ⟨rfl, rfl, rfl⟩ <;>
  · simp only [writeHead]
    split_ifs
    all_goals first
      | rfl
      | omega

theorem info_lt : info < 32 := by
  simp only [headForms, List.mem_cons, Prod.mk.injEq, List.not_mem_nil, or_false] at hform
  omega

theorem arg_lt (harg : arg < 256 ^ k) : arg < 2 ^ 64 := by
  simp only [headForms, List.mem_cons, Prod.mk.injEq, List.not_mem_nil, or_false] at hform
  rcases hform with ⟨-, rfl, -⟩ | ⟨-, rfl, -⟩ | ⟨-, rfl, -⟩ | ⟨-, rfl, -⟩ <;> omega

end Forms

/-- Every argument that does not fit into the initial byte has a long form. -/
theorem exists_form (h : ¬ arg ≤ 23) (harg : arg < 2 ^ 64) :
    ∃ info k low, (info, k, low) ∈ headForms ∧ low ≤ arg ∧ arg < 256 ^ k := by
  by_cases h₁ : arg < 2 ^ 8
  · exact ⟨24, 1, 24, by simp [headForms], by omega, by omega⟩
  by_cases h₂ : arg < 2 ^ 16
  · exact ⟨25, 2, 2 ^ 8, by simp [headForms], by omega, by omega⟩
  by_cases h₃ : arg < 2 ^ 32
  · exact ⟨26, 4, 2 ^ 16, by simp [headForms], by omega, by omega⟩
  · exact ⟨27, 8, 2 ^ 32, by simp [headForms], by omega, by omega⟩

variable {major : ℕ}

theorem readHead_writeHead (hmajor : major < 8) (harg : arg < 2 ^ 64) (rest : Bytes) :
    readHead (writeHead major arg ++ rest) = .ok (major, arg, rest) := by
  by_cases hshort : arg ≤ 23
  · have hbyte := toNat_ofNat_of_lt (n := major * 32 + arg) (by omega)
    have hinfo : (major * 32 + arg) % 32 = arg := by omega
    have htype : (major * 32 + arg) / 32 = major := by omega
    simp only [writeHead, if_pos hshort, List.cons_append, List.nil_append, readHead, hbyte, hinfo, htype, Except.map]
  · obtain ⟨info, k, low, hform, hlow, hlt⟩ := exists_form hshort harg
    have hinfo := info_lt hform
    have hbyte := toNat_ofNat_of_lt (n := major * 32 + info) (by omega)
    rw [writeHead_long hform hlow hlt, List.cons_append, readHead_long hform (by omega),
      readArg_beBytes hlow hlt, hbyte, show (major * 32 + info) / 32 = major by omega]
    rfl

/-- A byte is made of its major type and its additional information. -/
theorem ofNat_major_info (first : UInt8) : UInt8.ofNat (first.toNat / 32 * 32 + first.toNat % 32) = first := by
  rw [Nat.div_add_mod' first.toNat 32]
  exact UInt8.ofNat_toNat

theorem writeHead_readHead {first : UInt8} {tail : Bytes} (h : readHead (first :: tail) = .ok (major, arg, rest)) :
    first :: tail = writeHead major arg ++ rest ∧ major = first.toNat / 32 ∧ arg < 2 ^ 64 := by
  have hlong : ∀ k low : ℕ, (first.toNat % 32, k, low) ∈ headForms →
      first :: tail = writeHead major arg ++ rest ∧ major = first.toNat / 32 ∧ arg < 2 ^ 64 := by
    intro k low hform
    rw [readHead_long hform rfl] at h
    cases hread : readArg k low tail with
    | error e =>
      rw [hread] at h
      cases h
    | ok x =>
      obtain ⟨arg', rest'⟩ := x
      rw [hread] at h
      obtain ⟨rfl, rfl, rfl⟩ : first.toNat / 32 = major ∧ arg' = arg ∧ rest' = rest := by
        simpa [Except.map] using h
      obtain ⟨rfl, hlow, hlt⟩ := readArg_eq_ok hread
      refine ⟨?_, rfl, arg_lt hform hlt⟩
      rw [writeHead_long hform hlow hlt, ofNat_major_info, List.cons_append]
  by_cases hshort : first.toNat % 32 ≤ 23
  · simp only [readHead, if_pos hshort, Except.map, Except.ok.injEq, Prod.mk.injEq] at h
    obtain ⟨rfl, rfl, rfl⟩ := h
    refine ⟨?_, rfl, by omega⟩
    rw [writeHead, if_pos hshort, ofNat_major_info, List.cons_append, List.nil_append]
  · have hcases : first.toNat % 32 = 24 ∨ first.toNat % 32 = 25 ∨ first.toNat % 32 = 26 ∨
        first.toNat % 32 = 27 ∨ 28 ≤ first.toNat % 32 := by omega
    rcases hcases with hinfo | hinfo | hinfo | hinfo | hinfo
    · exact hlong 1 24 (by rw [hinfo]; simp [headForms])
    · exact hlong 2 (2 ^ 8) (by rw [hinfo]; simp [headForms])
    · exact hlong 4 (2 ^ 16) (by rw [hinfo]; simp [headForms])
    · exact hlong 8 (2 ^ 32) (by rw [hinfo]; simp [headForms])
    · simp only [readHead] at h
      split_ifs at h
      all_goals first
        | omega
        | simp [Except.map] at h

/-! ### Normal values -/

def keyBytes (pair : Value × Value) : Bytes := pair.1.toCanonical

mutual

def Value.normalise : Value → Value
  | .array items => .array (Value.normaliseItems items)
  | .map pairs => .map (sortBy keyBytes (keepFirst keyBytes (Value.normalisePairs pairs)))
  | .tag t inner => .tag t inner.normalise
  | v => v

def Value.normaliseItems : List Value → List Value
  | [] => []
  | v :: vs => v.normalise :: Value.normaliseItems vs

def Value.normalisePairs : List (Value × Value) → List (Value × Value)
  | [] => []
  | (k, v) :: kvs => (k.normalise, v.normalise) :: Value.normalisePairs kvs

end

mutual

/-- How many levels a value is nested below its top. -/
def Value.depth : Value → ℕ
  | .array items => Value.depthItems items
  | .map pairs => Value.depthPairs pairs
  | .tag _ inner => inner.depth + 1
  | _ => 0

def Value.depthItems : List Value → ℕ
  | [] => 0
  | v :: vs => max (v.depth + 1) (Value.depthItems vs)

def Value.depthPairs : List (Value × Value) → ℕ
  | [] => 0
  | (k, v) :: kvs => max (max (k.depth + 1) (v.depth + 1)) (Value.depthPairs kvs)

end

mutual

/-- A value as the source's type has it: numbers are `u64` and no length is larger. -/
def Value.Fits : Value → Prop
  | .uint n | .nint n => n < 2 ^ 64
  | .bytes b => b.length < 2 ^ 64
  | .text s => s.utf8ByteSize < 2 ^ 64
  | .array items => items.length < 2 ^ 64 ∧ Value.FitsItems items
  | .map pairs => pairs.length < 2 ^ 64 ∧ Value.FitsPairs pairs
  | .tag t inner => t < 2 ^ 64 ∧ inner.Fits
  | .bool _ | .null => True

def Value.FitsItems : List Value → Prop
  | [] => True
  | v :: vs => v.Fits ∧ Value.FitsItems vs

def Value.FitsPairs : List (Value × Value) → Prop
  | [] => True
  | (k, v) :: kvs => k.Fits ∧ v.Fits ∧ Value.FitsPairs kvs

end

/-! The list functions of the three families, over all elements at once. -/

theorem encodeItems_eq (items : List Value) : encodeItems items = items.flatMap toCanonical := by
  induction items with
  | nil => rfl
  | cons v vs ih => rw [encodeItems, ih, List.flatMap_cons]

def encodePair (pair : Value × Value) : Bytes × Bytes := (pair.1.toCanonical, pair.2.toCanonical)

theorem encodePairs_eq (pairs : List (Value × Value)) : encodePairs pairs = pairs.map encodePair := by
  induction pairs with
  | nil => rfl
  | cons kv kvs ih => rw [encodePairs, ih, List.map_cons]; rfl

theorem normaliseItems_eq (items : List Value) : normaliseItems items = items.map normalise := by
  induction items with
  | nil => rfl
  | cons v vs ih => rw [normaliseItems, ih, List.map_cons]

theorem normalisePairs_eq (pairs : List (Value × Value)) :
    normalisePairs pairs = pairs.map (Prod.map normalise normalise) := by
  induction pairs with
  | nil => rfl
  | cons kv kvs ih => rw [normalisePairs, ih, List.map_cons]; rfl

variable {items : List Value}

theorem depth_lt_of_mem_items (h : v ∈ items) : v.depth < depthItems items := by
  induction items with
  | nil => cases h
  | cons w items ih =>
    rw [depthItems]
    rcases List.mem_cons.mp h with rfl | h
    · omega
    · have := ih h
      omega

theorem depth_lt_of_mem_pairs {kv : Value × Value} (h : kv ∈ pairs) :
    kv.1.depth < depthPairs pairs ∧ kv.2.depth < depthPairs pairs := by
  induction pairs with
  | nil => cases h
  | cons w pairs ih =>
    rw [depthPairs]
    rcases List.mem_cons.mp h with rfl | h
    · omega
    · have := ih h
      omega

theorem fitsItems_iff : Value.FitsItems items ↔ ∀ v ∈ items, v.Fits := by
  induction items with
  | nil => simp [Value.FitsItems]
  | cons v vs ih => simp [Value.FitsItems, ih]

theorem fitsPairs_iff : Value.FitsPairs pairs ↔ ∀ kv ∈ pairs, kv.1.Fits ∧ kv.2.Fits := by
  induction pairs with
  | nil => simp [Value.FitsPairs]
  | cons kv kvs ih => simp [Value.FitsPairs, ih, and_assoc]

theorem Value.induction {P : Value → Prop} (uint : ∀ n, P (.uint n)) (nint : ∀ n, P (.nint n))
    (bytes : ∀ b, P (.bytes b)) (text : ∀ s, P (.text s)) (array : ∀ items, (∀ v ∈ items, P v) → P (.array items))
    (map : ∀ pairs, (∀ kv ∈ pairs, P kv.1 ∧ P kv.2) → P (.map pairs))
    (tag : ∀ t inner, P inner → P (.tag t inner)) (bool : ∀ b, P (.bool b)) (null : P .null) : ∀ v, P v := by
  intro v
  refine @Value.rec P (fun items => ∀ v ∈ items, P v) (fun pairs => ∀ kv ∈ pairs, P kv.1 ∧ P kv.2)
    (fun kv => P kv.1 ∧ P kv.2) uint nint bytes text array map tag bool null (by simp) ?_ (by simp)
    ?_ ?_ v
  · intro v vs hv hvs
    exact List.forall_mem_cons.mpr ⟨hv, hvs⟩
  · intro kv kvs hkv hkvs
    exact List.forall_mem_cons.mpr ⟨hkv, hkvs⟩
  · exact fun _ _ hk hv => ⟨hk, hv⟩

/-! ### The entries of a map -/

theorem dedupKeys_eq (last : Option Bytes) (entries : List (Bytes × Bytes)) :
    dedupKeys last entries = dropRepeats Prod.fst last entries := by
  induction entries generalizing last with
  | nil => rfl
  | cons kv rest ih =>
    rw [dedupKeys, dropRepeats, ih, ih]

theorem canonicalEntries_encodePairs (pairs : List (Value × Value)) : canonicalEntries (encodePairs pairs) =
      (sortBy keyBytes (keepFirst keyBytes pairs)).map encodePair := by
  have hsort : canonicalEntries (pairs.map encodePair) =
      dropRepeats Prod.fst none (sortBy Prod.fst (pairs.map encodePair)) := dedupKeys_eq none _
  rw [encodePairs_eq, hsort, dropRepeats_sortBy, keepFirst_map, sortBy_map]
  rfl

theorem toCanonical_normalise (v : Value) : v.normalise.toCanonical = v.toCanonical := by
  induction v using induction with
  | array items ih =>
    have hitems : (items.map normalise).flatMap toCanonical = items.flatMap toCanonical := by
      rw [List.flatMap_map]
      exact List.flatMap_congr fun v hv => ih v hv
    simp [normalise, toCanonical, encodeItems_eq, normaliseItems_eq, hitems]
  | map pairs ih =>
    have hpairs : encodePairs (normalisePairs pairs) = encodePairs pairs := by
      rw [encodePairs_eq, encodePairs_eq, normalisePairs_eq, List.map_map]
      refine List.map_congr_left fun kv hkv => ?_
      obtain ⟨hk, hv⟩ := ih kv hkv
      simp [encodePair, Prod.map_fst, Prod.map_snd, hk, hv]
    have hnormal : canonicalEntries (encodePairs
          (sortBy keyBytes (keepFirst keyBytes (normalisePairs pairs)))) =
        canonicalEntries (encodePairs pairs) := by
      rw [← hpairs, canonicalEntries_encodePairs, canonicalEntries_encodePairs,
        sortBy_keepFirst_eq_self (pairwise_lt_sortBy keyBytes _)]
    simp [normalise, toCanonical, hnormal]
  | tag t inner ih => simp [normalise, toCanonical, ih]
  | _ => rfl

/-! ### Decoding after the head -/

/-- What the decoder does once the head of an item with a head is read. -/
def decodeBody (levels major arg : ℕ) (rest : Bytes) : Except CborError (Value × Bytes) :=
  match major with
  | 0 => pure (.uint arg, rest)
  | 1 => pure (.nint arg, rest)
  | 2 => do
    let (body, rest) ← takeBody arg rest
    pure (.bytes body, rest)
  | 3 => do
    let (body, rest) ← takeBody arg rest
    match fromUtf8 body with
    | some s => pure (.text s, rest)
    | none => throw .invalidUtf8
  | 4 => do
    let (items, rest) ← decodeItems (decodeValue levels) arg rest
    pure (.array items, rest)
  | 5 => do
    let (pairs, rest) ← decodePairs (decodeValue levels) arg none rest
    pure (.map pairs, rest)
  | 6 => do
    let (inner, rest) ← decodeValue levels rest
    pure (.tag arg inner, rest)
  | _ => throw .unsupportedSimple

variable {levels : ℕ}

theorem decodeValue_of_readHead {first : UInt8} {tail : Bytes} (hmajor : major < 7)
    (h : readHead (first :: tail) = .ok (major, arg, rest)) :
    decodeValue (levels + 1) (first :: tail) = decodeBody levels major arg rest := by
  obtain ⟨-, hfirst, -⟩ := writeHead_readHead h
  have hcases : major = 0 ∨ major = 1 ∨ major = 2 ∨ major = 3 ∨ major = 4 ∨ major = 5 ∨ major = 6 := by
    omega
  rcases hcases with rfl | rfl | rfl | rfl | rfl | rfl | rfl <;>
    simp only [decodeValue, ← hfirst, h, decodeBody] <;> rfl

theorem decodeValue_writeHead (hmajor : major < 7) (harg : arg < 2 ^ 64) (rest : Bytes) :
    decodeValue (levels + 1) (writeHead major arg ++ rest) = decodeBody levels major arg rest := by
  have hread := readHead_writeHead (by omega : major < 8) harg rest
  cases hbytes : writeHead major arg ++ rest with
  | nil =>
    rw [hbytes] at hread
    cases hread
  | cons first tail =>
    rw [hbytes] at hread
    exact decodeValue_of_readHead hmajor hread

inductive Simple : Value → UInt8 → Prop
  | no : Simple (.bool false) 0xf4
  | yes : Simple (.bool true) 0xf5
  | null : Simple .null 0xf6

theorem Simple.toCanonical {b : UInt8} (h : Simple v b) : v.toCanonical = [b] := by
  cases h <;> rfl

theorem decodeValue_eq_ok (h : decodeValue (levels + 1) b = .ok (v, rest)) :
    (∃ major arg rest', major < 7 ∧ arg < 2 ^ 64 ∧ b = writeHead major arg ++ rest' ∧
      decodeBody levels major arg rest' = .ok (v, rest)) ∨ ∃ first, Simple v first ∧ b = first :: rest := by
  cases b with
  | nil => cases h
  | cons first tail =>
    by_cases hmajor : first.toNat / 32 < 7
    · cases hread : readHead (first :: tail) with
      | error e =>
        -- every case of the decoder below major type seven reads the head first
        exfalso
        generalize hm : first.toNat / 32 = major at hmajor
        have hcases : major = 0 ∨ major = 1 ∨ major = 2 ∨ major = 3 ∨ major = 4 ∨ major = 5 ∨ major = 6 := by omega
        rcases hcases with rfl | rfl | rfl | rfl | rfl | rfl | rfl <;>
          simp [decodeValue, hm, hread, bind, Except.bind] at h
      | ok x =>
        obtain ⟨major, arg, rest'⟩ := x
        obtain ⟨hbytes, hfirst, harg⟩ := writeHead_readHead hread
        have hlt : major < 7 := hfirst ▸ hmajor
        rw [decodeValue_of_readHead hlt hread] at h
        exact .inl ⟨major, arg, rest', hlt, harg, hbytes, h⟩
    · have hseven : first.toNat / 32 = 7 := by
        have := first.toNat_lt
        omega
      simp only [decodeValue, hseven] at h
      split_ifs at h with h₁ h₂ h₃
      · obtain ⟨rfl, rfl⟩ := Prod.mk.inj (pure_eq_ok.mp h)
        exact .inr ⟨first, h₁ ▸ .no, rfl⟩
      · obtain ⟨rfl, rfl⟩ := Prod.mk.inj (pure_eq_ok.mp h)
        exact .inr ⟨first, h₂ ▸ .yes, rfl⟩
      · obtain ⟨rfl, rfl⟩ := Prod.mk.inj (pure_eq_ok.mp h)
        exact .inr ⟨first, h₃ ▸ .null, rfl⟩

theorem takeBody_append (body rest : Bytes) : takeBody body.length (body ++ rest) = .ok (body, rest) := by
  rw [takeBody, if_neg (by rw [List.length_append]; omega), List.take_left' rfl, List.drop_left' rfl]

theorem takeBody_eq_ok {len : ℕ} {body : Bytes} (h : takeBody len b = .ok (body, rest)) :
    b = body ++ rest ∧ body.length = len := by
  unfold takeBody at h
  split_ifs at h with hlength
  obtain ⟨rfl, rfl⟩ := Prod.mk.inj (Except.ok.inj h)
  exact ⟨(List.take_append_drop len b).symm, by rw [List.length_take]; omega⟩

/-! ### Encoded values are decoded -/

/-- A decoder reads an encoded value, with any bytes after it, as its normal form. -/
def Decodes (decode : Bytes → Except CborError (Value × Bytes)) (v : Value) : Prop :=
  ∀ rest, decode (v.toCanonical ++ rest) = .ok (v.normalise, rest)

section
variable {decode : Bytes → Except CborError (Value × Bytes)} {prev : Option Bytes} {len : ℕ}

theorem decodeItems_flatMap (h : ∀ v ∈ items, Decodes decode v) (rest : Bytes) :
    decodeItems decode items.length (items.flatMap toCanonical ++ rest) =
      .ok (items.map normalise, rest) := by
  induction items with
  | nil => rfl
  | cons v items ih =>
    obtain ⟨hv, hitems⟩ := List.forall_mem_cons.mp h
    simp only [List.length_cons, List.flatMap_cons, List.append_assoc, decodeItems, hv _, bind,
      Except.bind, ih hitems]
    rfl

theorem decodePairs_flatMap (h : ∀ kv ∈ pairs, Decodes decode kv.1 ∧ Decodes decode kv.2)
    (hprev : ∀ b, prev = some b → ∀ kv ∈ pairs, b < keyBytes kv)
    (hsorted : pairs.Pairwise fun kv kv' => keyBytes kv < keyBytes kv') (rest : Bytes) :
    decodePairs decode pairs.length prev ((pairs.map encodePair).flatMap (fun kv => kv.1 ++ kv.2) ++ rest) =
      .ok (pairs.map (Prod.map normalise normalise), rest) := by
  induction pairs generalizing prev with
  | nil => rfl
  | cons kv pairs ih =>
    obtain ⟨⟨hkey, hval⟩, hpairs⟩ := List.forall_mem_cons.mp h
    obtain ⟨hfirst, hrest⟩ := List.pairwise_cons.mp hsorted
    have hnext : ∀ b, some (keyBytes kv) = some b → ∀ kv' ∈ pairs, b < keyBytes kv' := by
      rintro b ⟨⟩
      exact hfirst
    have htail := ih hpairs hnext hrest
    simp only [keyBytes] at htail
    simp only [List.map_cons, List.flatMap_cons, List.length_cons, encodePair, List.append_assoc,
      decodePairs, hkey _, hval _, bind, Except.bind, toCanonical_normalise]
    cases prev with
    | none =>
      simp only [htail]
      rfl
    | some b =>
      have hlt : b < keyBytes kv := hprev b rfl kv List.mem_cons_self
      have hnot : ¬ kv.1.toCanonical < b := fun h => Std.lt_irrefl (Std.lt_trans h hlt)
      have hne : ¬ kv.1.toCanonical = b := fun h => Std.lt_irrefl (h ▸ hlt)
      simp only [if_neg hnot, if_neg hne, htail]
      rfl

theorem normalise_map (pairs : List (Value × Value)) : (Value.map pairs).normalise =
      .map ((sortBy keyBytes (keepFirst keyBytes pairs)).map (Prod.map normalise normalise)) := by
  have hkey : keyBytes ∘ Prod.map normalise normalise = keyBytes :=
    funext fun kv => toCanonical_normalise kv.1
  rw [normalise, normalisePairs_eq, keepFirst_map, sortBy_map, hkey]

/-- **Encoded values are decoded.** A value nested no deeper than the decoder goes is read back as its
normal form. -/
theorem decodeValue_toCanonical (v : Value) :
    ∀ {levels : ℕ}, v.depth ≤ levels → v.Fits → Decodes (decodeValue (levels + 1)) v := by
  induction v using induction with
  | uint n | nint n => exact fun _ hfits rest => decodeValue_writeHead (by omega) hfits rest
  | bytes b =>
    intro levels _ hfits rest
    rw [toCanonical, List.append_assoc, decodeValue_writeHead (by omega) hfits]
    simp only [decodeBody, takeBody_append]
    rfl
  | text s =>
    intro levels _ hfits rest
    rw [toCanonical, List.append_assoc, decodeValue_writeHead (by omega) (by rwa [length_utf8])]
    simp only [decodeBody, takeBody_append, bind, Except.bind, fromUtf8_utf8]
    rfl
  | array items ih =>
    intro levels hdepth hfits rest
    rw [depth] at hdepth
    obtain ⟨hlength, hitems⟩ := hfits
    have hdecodes : ∀ v ∈ items, Decodes (decodeValue levels) v := by
      intro v hv
      have hv' := depth_lt_of_mem_items hv
      obtain ⟨below, rfl⟩ : ∃ below, levels = below + 1 := ⟨levels - 1, by omega⟩
      exact ih v hv (by omega) (fitsItems_iff.mp hitems v hv)
    rw [toCanonical, List.append_assoc, decodeValue_writeHead (by omega) hlength, encodeItems_eq]
    simp only [decodeBody, decodeItems_flatMap hdecodes, normalise, normaliseItems_eq]
    rfl
  | map pairs ih =>
    intro levels hdepth hfits rest
    rw [depth] at hdepth
    obtain ⟨hlength, hpairs⟩ := hfits
    -- the encoder writes the first pair of each key, in key order
    generalize hkept : sortBy keyBytes (keepFirst keyBytes pairs) = kept
    have hmem : ∀ kv ∈ kept, kv ∈ pairs := fun kv hkv =>
      mem_of_mem_keepFirst (mem_sortBy.mp (hkept ▸ hkv))
    have hsorted : kept.Pairwise fun kv kv' => keyBytes kv < keyBytes kv' :=
      hkept ▸ pairwise_lt_sortBy keyBytes pairs
    have hcount : kept.length < 2 ^ 64 := by
      have := length_keepFirst_le keyBytes pairs
      rw [← hkept, length_sortBy]
      omega
    have hdecodes : ∀ kv ∈ kept, Decodes (decodeValue levels) kv.1 ∧ Decodes (decodeValue levels) kv.2 := by
      intro kv hkv
      have hkv' := depth_lt_of_mem_pairs (hmem kv hkv)
      obtain ⟨below, rfl⟩ : ∃ below, levels = below + 1 := ⟨levels - 1, by omega⟩
      obtain ⟨hk, hv⟩ := fitsPairs_iff.mp hpairs kv (hmem kv hkv)
      exact ⟨(ih kv (hmem kv hkv)).1 (by omega) hk, (ih kv (hmem kv hkv)).2 (by omega) hv⟩
    have hstart : ∀ b, (none : Option Bytes) = some b → ∀ kv ∈ kept, b < keyBytes kv := nofun
    simp only [toCanonical, canonicalEntries_encodePairs, hkept, List.length_map, List.append_assoc]
    rw [decodeValue_writeHead (by omega) hcount, normalise_map, hkept]
    simp only [decodeBody, decodePairs_flatMap hdecodes hstart hsorted]
    rfl
  | tag t inner ih =>
    intro levels hdepth hfits rest
    rw [depth] at hdepth
    obtain ⟨ht, hinner⟩ := hfits
    obtain ⟨below, rfl⟩ : ∃ below, levels = below + 1 := ⟨levels - 1, by omega⟩
    rw [toCanonical, List.append_assoc, decodeValue_writeHead (by omega) ht]
    simp only [decodeBody, ih (by omega : inner.depth ≤ below) hinner _]
    rfl
  | bool b =>
    intro levels _ _ rest
    cases b <;> rfl
  | null => exact fun _ _ _ => rfl

/-! ### Decoded bytes are encoded -/

/-- One round of the loop over the pairs of a map. -/
theorem decodePairs_succ_eq_ok {decode : Bytes → Except CborError (Value × Bytes)} (h : decodePairs decode (len + 1) prev b = .ok (pairs, rest)) :
    ∃ k v pairs' rest₁ rest₂, decode b = .ok (k, rest₁) ∧ decode rest₁ = .ok (v, rest₂) ∧
      (∀ p, prev = some p → p < k.toCanonical) ∧
      decodePairs decode len (some k.toCanonical) rest₂ = .ok (pairs', rest) ∧ pairs = (k, v) :: pairs' := by
  simp only [decodePairs, bind_eq_ok, Prod.exists] at h
  obtain ⟨k, rest₁, hk, h⟩ := h
  have htail : ∀ {x : Except CborError (List (Value × Value) × Bytes)}, x = .ok (pairs, rest) → (x = do
        let (val, rest) ← decode rest₁
        let (pairs, rest) ← decodePairs decode len (some k.toCanonical) rest
        pure ((k, val) :: pairs, rest)) →
      ∃ v pairs' rest₂, decode rest₁ = .ok (v, rest₂) ∧
        decodePairs decode len (some k.toCanonical) rest₂ = .ok (pairs', rest) ∧
        pairs = (k, v) :: pairs' := by
    rintro _ h rfl
    simp only [bind_eq_ok, pure_eq_ok, Prod.exists, Prod.mk.injEq] at h
    obtain ⟨v, rest₂, hv, pairs', _, hpairs, rfl, rfl⟩ := h
    exact ⟨v, pairs', rest₂, hv, hpairs, rfl⟩
  cases prev with
  | none =>
    obtain ⟨v, pairs', rest₂, hv, hpairs, rfl⟩ := htail h rfl
    exact ⟨k, v, pairs', rest₁, rest₂, hk, hv, by simp, hpairs, rfl⟩
  | some p =>
    simp only [guard_eq_ok] at h
    obtain ⟨hnot, hne, h⟩ := h
    obtain ⟨v, pairs', rest₂, hv, hpairs, rfl⟩ := htail h rfl
    refine ⟨k, v, pairs', rest₁, rest₂, hk, hv, ?_, hpairs, rfl⟩
    rintro _ ⟨⟩
    exact Std.lt_of_le_of_ne (List.not_lt.mp hnot) (Ne.symm hne)

def Reads (decode : Bytes → Except CborError (Value × Bytes)) : Prop :=
  ∀ {b rest : Bytes} {v : Value}, decode b = .ok (v, rest) → b = v.toCanonical ++ rest

variable (hreads : Reads decode)
include hreads

theorem flatMap_decodeItems {b rest : Bytes} (h : decodeItems decode len b = .ok (items, rest)) :
    b = items.flatMap toCanonical ++ rest ∧ items.length = len := by
  induction len generalizing b items with
  | zero =>
    obtain ⟨rfl, rfl⟩ := Prod.mk.inj (Except.ok.inj h)
    exact ⟨rfl, rfl⟩
  | succ len ih =>
    simp only [decodeItems, bind_eq_ok, pure_eq_ok, Prod.mk.injEq, Prod.exists] at h
    obtain ⟨v, rest₁, hv, items', rest₂, hitems, rfl, rfl⟩ := h
    obtain ⟨hrest, hlength⟩ := ih hitems
    refine ⟨?_, by rw [List.length_cons, hlength]⟩
    rw [hreads hv, hrest, List.flatMap_cons, List.append_assoc]

theorem flatMap_decodePairs {b rest : Bytes} (h : decodePairs decode len prev b = .ok (pairs, rest)) :
    b = (pairs.map encodePair).flatMap (fun kv => kv.1 ++ kv.2) ++ rest ∧ pairs.length = len ∧
      (∀ k, prev = some k → ∀ kv ∈ pairs, k < keyBytes kv) ∧
      pairs.Pairwise fun kv kv' => keyBytes kv < keyBytes kv' := by
  induction len generalizing b prev pairs with
  | zero =>
    obtain ⟨rfl, rfl⟩ := Prod.mk.inj (Except.ok.inj h)
    exact ⟨rfl, rfl, by simp, .nil⟩
  | succ len ih =>
    obtain ⟨k, v, pairs', rest₁, rest₂, hk, hv, hprev, hpairs, rfl⟩ := decodePairs_succ_eq_ok h
    obtain ⟨hrest, hlength, habove, hsorted⟩ := ih hpairs
    have hfirst : ∀ kv ∈ pairs', k.toCanonical < keyBytes kv := habove _ rfl
    refine ⟨?_, by rw [List.length_cons, hlength], ?_, List.pairwise_cons.mpr ⟨hfirst, hsorted⟩⟩
    · rw [hreads hk, hreads hv, hrest]
      simp [encodePair]
    · intro p hp
      have hlt : p < k.toCanonical := hprev p hp
      exact List.forall_mem_cons.mpr ⟨hlt, fun kv hkv => Std.lt_trans hlt (hfirst kv hkv)⟩

end

theorem utf8_of_fromUtf8 {s : String} (h : fromUtf8 b = some s) : utf8 s = b := by
  unfold fromUtf8 String.fromUTF8? at h
  split_ifs at h with hvalid
  obtain rfl := Option.some.inj h
  rfl

theorem toCanonical_decodeValue (levels : ℕ) : Reads (decodeValue levels) := by
  induction levels with
  | zero => exact fun h => by cases h
  | succ levels ih =>
    intro b rest v h
    rcases decodeValue_eq_ok h with ⟨major, arg, rest', hmajor, harg, rfl, hbody⟩ | ⟨first, hsimple, rfl⟩
    · have hcases : major = 0 ∨ major = 1 ∨ major = 2 ∨ major = 3 ∨ major = 4 ∨ major = 5 ∨
          major = 6 := by omega
      rcases hcases with rfl | rfl | rfl | rfl | rfl | rfl | rfl
      · obtain ⟨rfl, rfl⟩ := Prod.mk.inj (pure_eq_ok.mp hbody)
        rfl
      · obtain ⟨rfl, rfl⟩ := Prod.mk.inj (pure_eq_ok.mp hbody)
        rfl
      · simp only [decodeBody, bind_eq_ok, pure_eq_ok, Prod.exists, Prod.mk.injEq] at hbody
        obtain ⟨body, _, htake, rfl, rfl⟩ := hbody
        obtain ⟨rfl, rfl⟩ := takeBody_eq_ok htake
        rw [toCanonical, List.append_assoc]
      · simp only [decodeBody, bind_eq_ok, Prod.exists] at hbody
        obtain ⟨body, rest₁, htake, htext⟩ := hbody
        obtain ⟨rfl, rfl⟩ := takeBody_eq_ok htake
        cases htext' : fromUtf8 body with
        | none =>
          rw [htext'] at htext
          exact absurd htext throw_ne_ok
        | some s =>
          rw [htext'] at htext
          obtain ⟨rfl, rfl⟩ := Prod.mk.inj (pure_eq_ok.mp htext)
          rw [toCanonical, utf8_of_fromUtf8 htext', List.append_assoc]
      · simp only [decodeBody, bind_eq_ok, pure_eq_ok, Prod.exists, Prod.mk.injEq] at hbody
        obtain ⟨items, _, hitems, rfl, rfl⟩ := hbody
        obtain ⟨rfl, rfl⟩ := flatMap_decodeItems ih hitems
        rw [toCanonical, encodeItems_eq, List.append_assoc]
      · simp only [decodeBody, bind_eq_ok, pure_eq_ok, Prod.exists, Prod.mk.injEq] at hbody
        obtain ⟨pairs, _, hpairs, rfl, rfl⟩ := hbody
        obtain ⟨rfl, rfl, -, hsorted⟩ := flatMap_decodePairs ih hpairs
        simp [toCanonical, canonicalEntries_encodePairs, sortBy_keepFirst_eq_self hsorted]
      · simp only [decodeBody, bind_eq_ok, pure_eq_ok, Prod.exists, Prod.mk.injEq] at hbody
        obtain ⟨inner, _, hinner, rfl, rfl⟩ := hbody
        rw [ih hinner, toCanonical, List.append_assoc]
    · rw [hsimple.toCanonical, List.cons_append, List.nil_append]

theorem fromCanonicalSlice_eq_ok : fromCanonicalSlice b = .ok v ↔ decodeValue (maxDepth + 1) b = .ok (v, []) := by
  simp only [fromCanonicalSlice, bind_eq_ok, Prod.exists]
  constructor
  · rintro ⟨v', rest, hdecode, hrest⟩
    split_ifs at hrest with hempty
    · obtain rfl := pure_eq_ok.mp hrest
      rw [hdecode, List.isEmpty_iff.mp hempty]
  · intro h
    exact ⟨v, [], h, rfl⟩

/-- Normal values with one encoding are equal, however deep. -/
theorem normalise_eq_of_toCanonical_eq {w : Value} (hv : v.Fits) (hw : w.Fits)
    (h : v.toCanonical = w.toCanonical) : v.normalise = w.normalise := by
  have hdecode := decodeValue_toCanonical v (le_max_left v.depth w.depth) hv []
  rw [h, decodeValue_toCanonical w (le_max_right v.depth w.depth) hw []] at hdecode
  exact (Prod.mk.inj (Except.ok.inj hdecode)).1.symm

/-- **Canonical CBOR is a bijection** between the accepted byte strings and the normal values. -/
theorem canonical_bijection : (∀ b v, fromCanonicalSlice b = .ok v → v.toCanonical = b) ∧
    (∀ v : Value, v.Fits → v.depth ≤ maxDepth → fromCanonicalSlice v.toCanonical = .ok v.normalise) ∧
    (∀ v w : Value, v.Fits → w.Fits → v.normalise = v → w.normalise = w → v.toCanonical = w.toCanonical → v = w) ∧
    (∀ b b' v, fromCanonicalSlice b = .ok v → fromCanonicalSlice b' = .ok v → b = b') := by
  have hencode : ∀ b v, fromCanonicalSlice b = .ok v → v.toCanonical = b := by
    intro b v h
    rw [toCanonical_decodeValue _ (fromCanonicalSlice_eq_ok.mp h), List.append_nil]
  refine ⟨hencode, fun v hfits hdepth => ?_, fun v w hv hw hnv hnw h => ?_, fun b b' v h h' => ?_⟩
  · rw [fromCanonicalSlice_eq_ok]
    have hdecode := decodeValue_toCanonical v hdepth hfits []
    rwa [List.append_nil] at hdecode
  · rw [← hnv, ← hnw]
    exact normalise_eq_of_toCanonical_eq hv hw h
  · rw [← hencode b v h, hencode b' v h']

/-- A map with two pairs of one key and keys out of order. -/
example : fromCanonicalSlice
      (Value.map [(.text "b", .uint 1), (.uint 7, .null), (.text "b", .uint 2)]).toCanonical =
    .ok (.map [(.uint 7, .null), (.text "b", .uint 1)]) := by
  decide

end EuWallet.Codec.Cbor
