import EuWallet.Formats.Walk

/-! # Processing an SD-JWT

`verify_and_process` as a whole: the issuer's token gives the payload, the provided disclosures are indexed
by digest, the walk opens them, and all of them must have been used. From the soundness of the walk follows
what the processed claims and the recorded disclosures are (`verifyAndProcess_sound`). -/

namespace EuWallet.Formats

open Codec Crypto Lib

variable {p : Platform}

/-! ### The provided disclosures -/

/-- What is parsed from a text was sent as that text, and its value stands in the array the text encodes. -/
theorem Disclosure.of_parse {raw : String} {d : Disclosure} (h : Disclosure.parse p raw = .ok d) :
    d.raw = raw ∧ ∃ b elements, p.parseJson b = some (.arr elements) ∧ d.value ∈ elements := by
  obtain ⟨-, h⟩ := guard_eq_ok.mp h
  obtain ⟨b, -, h⟩ := bind_eq_ok.mp h
  obtain ⟨json, hparsed, h⟩ := bind_eq_ok.mp h
  have hparsed := orErr_eq_ok.mp hparsed
  split at h
  · obtain ⟨salt, -, h⟩ := bind_eq_ok.mp h
    obtain ⟨name, -, h⟩ := bind_eq_ok.mp h
    cases pure_eq_ok.mp h
    exact ⟨rfl, b, _, hparsed, by simp⟩
  · obtain ⟨salt, -, h⟩ := bind_eq_ok.mp h
    cases pure_eq_ok.mp h
    exact ⟨rfl, b, _, hparsed, by simp⟩
  · exact absurd h throw_ne_ok

def Parsed (p : Platform) (raws : List String) (ds : List Disclosure) : Prop :=
  List.Forall₂ (fun raw d => Disclosure.parse p raw = .ok d) raws ds

variable {ds : List Disclosure} {m index : List (String × Disclosure)}

theorem Parsed.raws {raws : List String} (h : Parsed p raws ds) : ds.map (·.raw) = raws := by
  induction h with
  | nil => rfl
  | cons hd _ ih => rw [List.map_cons, (Disclosure.of_parse hd).1, ih]

theorem Parsed.ordered (hjson : ∀ b v, p.parseJson b = some v → Ordered v) {raws : List String}
    (h : Parsed p raws ds) : ∀ d ∈ ds, Ordered d.value := by
  induction h with
  | nil => simp
  | cons hd _ ih =>
    obtain ⟨-, b, elements, hparsed, hvalue⟩ := Disclosure.of_parse hd
    exact List.forall_mem_cons.mpr ⟨(hjson b _ hparsed).element hvalue, ih⟩

theorem Parsed.nodup {raws : List String} (h : Parsed p raws ds)
    (hnodup : (ds.map (·.digestB64 p)).Nodup) : raws.Nodup := by
  have hdigests : ds.map (·.digestB64 p) = raws.map fun raw => b64Encode (p.sha256 (utf8 raw)).1 := by
    rw [← h.raws, List.map_map]
    rfl
  rw [hdigests] at hnodup
  exact hnodup.of_map _

def indexOf (p : Platform) (ds : List Disclosure) (m : List (String × Disclosure)) : List (String × Disclosure) :=
  ds.foldl (fun m d => OrdMap.insert (d.digestB64 p) d m) m

def indexStep (p : Platform) (m : List (String × Disclosure)) (raw : String) :
    Except SdJwtError (List (String × Disclosure)) := do
  let d ← Disclosure.parse p raw
  if (m.lookup (d.digestB64 p)).isSome then throw .duplicateClaim
  return OrdMap.insert (d.digestB64 p) d m

theorem indexStep_eq_ok {m' : List (String × Disclosure)} {raw : String} :
    indexStep p m raw = .ok m' ↔ ∃ d, Disclosure.parse p raw = .ok d ∧ m.lookup (d.digestB64 p) = none ∧
      OrdMap.insert (d.digestB64 p) d m = m' := by
  simp only [indexStep, bind_eq_ok, guard_eq_ok, pure_eq_ok, Option.not_isSome_iff_eq_none]

theorem foldlM_indexStep {raws : List String} : raws.foldlM (indexStep p) m = .ok index ↔ ∃ ds, Parsed p raws ds ∧
        (ds.map (·.digestB64 p)).Nodup ∧ (∀ d ∈ ds, m.lookup (d.digestB64 p) = none) ∧ index = indexOf p ds m := by
  induction raws generalizing m with
  | nil =>
    rw [List.foldlM_nil, pure_eq_ok, eq_comm]
    simp [Parsed, List.forall₂_nil_left_iff, List.nodup_nil, indexOf]
  | cons raw raws ih =>
    simp only [List.foldlM_cons, bind_eq_ok, indexStep_eq_ok, ih, Parsed, List.forall₂_cons_left_iff]
    constructor
    · rintro ⟨m', ⟨d, hd, hfree, rfl⟩, ds, hparsed, hnodup, hother, rfl⟩
      refine ⟨d :: ds, ⟨d, ds, hd, hparsed, rfl⟩, ?_, ?_, rfl⟩
      · rw [List.map_cons, List.nodup_cons]
        refine ⟨fun hmem => ?_, hnodup⟩
        obtain ⟨d', hd', heq⟩ := List.mem_map.mp hmem
        have hnone := hother d' hd'
        rw [OrdMap.lookup_insert, if_pos heq] at hnone
        cases hnone
      · intro d' hd'
        rcases List.mem_cons.mp hd' with rfl | hd'
        · exact hfree
        · have hnone := hother d' hd'
          rw [OrdMap.lookup_insert] at hnone
          split_ifs at hnone
          exact hnone
    · rintro ⟨_, ⟨d, ds, hd, hparsed, rfl⟩, hnodup, hother, rfl⟩
      rw [List.map_cons, List.nodup_cons] at hnodup
      refine ⟨_, ⟨d, hd, hother d List.mem_cons_self, rfl⟩, ds, hparsed, hnodup.2, ?_, rfl⟩
      intro d' hd'
      rw [OrdMap.lookup_insert, if_neg]
      · exact hother d' (List.mem_cons_of_mem _ hd')
      · exact fun heq => hnodup.1 (heq ▸ List.mem_map_of_mem hd')

theorem SdJwtVc.indexDisclosures_eq_ok {raws : List String} :
    indexDisclosures p raws = .ok index ↔ ∃ ds, Parsed p raws ds ∧
        (ds.map (·.digestB64 p)).Nodup ∧ index = indexOf p ds [] := by
  have hfold : indexDisclosures p raws = raws.foldlM (indexStep p) [] := rfl
  simp [hfold, foldlM_indexStep, List.lookup_nil]

theorem lookup_indexOf {digest : String} {d : Disclosure} (hnodup : (ds.map (·.digestB64 p)).Nodup)
    (hfree : ∀ d ∈ ds, m.lookup (d.digestB64 p) = none) : (indexOf p ds m).lookup digest = some d ↔
      (d ∈ ds ∧ d.digestB64 p = digest) ∨ m.lookup digest = some d := by
  induction ds generalizing m with
  | nil => simp [indexOf]
  | cons e ds ih =>
    rw [List.map_cons, List.nodup_cons] at hnodup
    have hfree' : ∀ d ∈ ds, (OrdMap.insert (e.digestB64 p) e m).lookup (d.digestB64 p) = none := by
      intro d hd
      rw [OrdMap.lookup_insert, if_neg]
      · exact hfree d (List.mem_cons_of_mem _ hd)
      · exact fun heq => hnodup.1 (heq ▸ List.mem_map_of_mem hd)
    have hrest := ih hnodup.2 hfree'
    rw [indexOf, List.foldl_cons, ← indexOf, hrest, OrdMap.lookup_insert, List.mem_cons]
    constructor
    · rintro (⟨hd, heq⟩ | h)
      · exact .inl ⟨.inr hd, heq⟩
      · split_ifs at h with heq
        · cases h
          exact .inl ⟨.inl rfl, heq.symm⟩
        · exact .inr h
    · rintro (⟨rfl | hd, heq⟩ | h)
      · exact .inr (if_pos heq.symm)
      · exact .inl ⟨hd, heq⟩
      · refine .inr ?_
        rw [if_neg]
        · exact h
        · rintro rfl
          rw [hfree e List.mem_cons_self] at h
          cases h

theorem length_indexOf (hnodup : (ds.map (·.digestB64 p)).Nodup) (hfree : ∀ d ∈ ds, m.lookup (d.digestB64 p) = none) :
    (indexOf p ds m).length = ds.length + m.length := by
  induction ds generalizing m with
  | nil => simp [indexOf]
  | cons e ds ih =>
    rw [List.map_cons, List.nodup_cons] at hnodup
    rw [indexOf, List.foldl_cons, ← indexOf, ih hnodup.2, (OrdMap.insert_perm (hfree e List.mem_cons_self)).length_eq,
      List.length_cons, List.length_cons]
    · omega
    · intro d hd
      rw [OrdMap.lookup_insert, if_neg]
      · exact hfree d (List.mem_cons_of_mem _ hd)
      · exact fun heq => hnodup.1 (heq ▸ List.mem_map_of_mem hd)

/-! ### The token -/

/-- The issuer's token carries the payload: it is signed with the key and algorithm, is of the right type
and names no other hash. -/
def Issued (p : Platform) (issuerJwt : String) (issuerKey : Bytes) (alg : Alg)
    (payload : List (String × Json)) : Prop :=
  ∃ jws, splitJws p issuerJwt = .ok jws ∧ parseJoseAlg jws.header = .ok alg ∧
    (jws.header.get "typ").bind Json.asStr = some "dc+sd-jwt" ∧
    p.verify alg issuerKey (utf8 jws.signingInput) jws.signature = true ∧
    p.parseJson jws.payload = some (.obj payload) ∧ SdJwtVc.checkHashAlg payload = .ok ()

/-- The processor before the walk. -/
def startProcessor (p : Platform) (payload : List (String × Json)) (index : List (String × Disclosure)) :
    DisclosureProcessor :=
  { disclosureByDigest := index, outputBudget := (p.renderJson (.obj payload)).utf8ByteSize }

def Walks (p : Platform) (payload : List (String × Json)) (index : List (String × Disclosure))
    (claims : List (String × Json)) (s : DisclosureProcessor) : Prop :=
  DisclosureProcessor.processValue p (maxNestingDepth + 1) true (.obj payload) [] none
    (startProcessor p payload index) = .ok (.obj claims, s)

theorem asObject_eq_some {value : Json} {members : List (String × Json)} :
    value.asObject = some members ↔ value = .obj members := by
  cases value <;> simp [Json.asObject]

theorem SdJwtVc.verifyAndProcess_eq_ok {c : SdJwtVc} {issuerKey : Bytes} {alg : Alg} {result : ProcessedSdJwt} :
    c.verifyAndProcess p issuerKey alg = .ok result ↔ ∃ payload ds s, Issued p c.issuerJwt issuerKey alg payload ∧
        Parsed p c.disclosures ds ∧
        (ds.map (·.digestB64 p)).Nodup ∧ Walks p payload (indexOf p ds []) result.claims s ∧
        s.usedDisclosures.length = ds.length ∧
        (p.renderJson (.obj result.claims)).utf8ByteSize ≤ maxProcessedJsonBytes ∧
        result.disclosures = s.verified := by
  unfold verifyAndProcess
  simp only [bind_eq_ok, guard_eq_ok, orErr_eq_ok, pure_eq_ok, asObject_eq_some,
    indexDisclosures_eq_ok, Prod.exists, not_not, ne_eq, not_lt]
  constructor
  · rintro ⟨jws, hjws, _, halg, rfl, htype, hverified, _, hpayload, payload, rfl, ⟨⟩, hhash, _,
      ⟨ds, hparsed, hnodup, rfl⟩, _, s, hwalk, hused, hsize, claims, rfl, rfl⟩
    rw [length_indexOf hnodup (by simp)] at hused
    exact ⟨payload, ds, s, ⟨jws, hjws, halg, htype, by simpa using hverified, hpayload, hhash⟩, hparsed, hnodup,
      hwalk, hused, hsize, rfl⟩
  · rintro ⟨payload, ds, s, ⟨jws, hjws, halg, htype, hverified, hpayload, hhash⟩, hparsed, hnodup, hwalk, hused,
      hsize, hrecords⟩
    refine ⟨jws, hjws, alg, halg, rfl, htype, by simpa using hverified, _, hpayload, payload, rfl, (), hhash, _,
      ⟨ds, hparsed, hnodup, rfl⟩, _, s, hwalk, ?_, hsize, _, rfl, by rw [← hrecords]⟩
    rw [length_indexOf hnodup (by simp)]
    exact hused

/-! ### Soundness -/

section Sound
variable {payload claims : List (String × Json)} {s : DisclosureProcessor}

theorem startProcessor_indexOrdered (hnodup : (ds.map (·.digestB64 p)).Nodup)
    (hordered : ∀ d ∈ ds, Ordered d.value) : (startProcessor p payload (indexOf p ds [])).IndexOrdered := by
  intro digest d hd
  rcases (lookup_indexOf hnodup (by simp)).mp hd with ⟨hmem, -⟩ | h
  · exact hordered d hmem
  · cases h

variable (h : Walks p payload (indexOf p ds []) claims s) (hpayload : Ordered (.obj payload))
  (hordered : ∀ d ∈ ds, Ordered d.value) (hnodup : (ds.map (·.digestB64 p)).Nodup)
include h hpayload hordered hnodup

/-- What the walk at the root records, and how it is repeated. -/
theorem Walks.sound (keep : String → Bool) :
    DisclosureProcessor.Advances (startProcessor p payload (indexOf p ds [])) s s.verified ∧
      DisclosureProcessor.Holds [] none (.obj claims) s.verified ∧ Clean (.obj claims) ∧ Ordered (.obj claims) ∧
      ∀ drop, DisclosureProcessor.Marks drop keep [] s.verified → DisclosureProcessor.Closed keep s.verified →
        ∀ t, DisclosureProcessor.Follows keep (startProcessor p payload (indexOf p ds [])) t → ∃ t',
          DisclosureProcessor.processValue p (maxNestingDepth + 1) true (.obj payload) [] none t =
            .ok (.obj (pruneMembers drop claims), t') ∧ DisclosureProcessor.Follows keep s t' := by
  obtain ⟨new, hnew, hholds, hclean, hclaims, hagain⟩ := DisclosureProcessor.processValue_sound p keep _ true hpayload
    (startProcessor_indexOrdered hnodup hordered) h
  obtain rfl : s.verified = new := by simpa [startProcessor] using hnew.verified
  exact ⟨hnew, hholds, hclean, hclaims, fun drop hmarks hclosed t hfollows =>
    hagain drop hmarks hclosed t hfollows [] none⟩

theorem Walks.sources : (s.verified.map (·.digest)).reverse = s.usedDisclosures ∧ s.usedDisclosures.Nodup ∧
      ∀ r ∈ s.verified, ∃ d ∈ ds, d.digestB64 p = r.digest ∧ d.raw = r.raw ∧ d.value = r.value := by
  obtain ⟨hnew, -⟩ := h.sound hpayload hordered hnodup fun _ => true
  refine ⟨?_, hnew.nodup List.nodup_nil, fun r hr => ?_⟩
  · rw [hnew.used]
    simp [startProcessor]
  · obtain ⟨d, hd, hraw, hvalue⟩ := hnew.sources r hr
    rcases (lookup_indexOf hnodup (by simp)).mp hd with ⟨hmem, hdigest⟩ | h
    · exact ⟨d, hmem, hdigest, hraw, hvalue⟩
    · cases h

variable (hused : s.usedDisclosures.length = ds.length)
include hused

theorem Walks.used_perm : (s.verified.map (·.digest)).Perm (ds.map (·.digestB64 p)) := by
  obtain ⟨hdigests, husednodup, hsources⟩ := h.sources hpayload hordered hnodup
  have hlength : (s.verified.map (·.digest)).length = s.usedDisclosures.length := by
    rw [← hdigests, List.length_reverse]
  have hnodup' : (s.verified.map (·.digest)).Nodup := by
    rw [← List.nodup_reverse, hdigests]
    exact husednodup
  have hsubset : s.verified.map (·.digest) ⊆ ds.map (·.digestB64 p) := by
    intro digest hdigest
    obtain ⟨r, hr, rfl⟩ := List.mem_map.mp hdigest
    obtain ⟨d, hd, heq, -⟩ := hsources r hr
    exact heq ▸ List.mem_map_of_mem hd
  refine (hnodup'.subperm hsubset).perm_of_length_le ?_
  rw [hlength, hused, List.length_map]

theorem Walks.raw_perm : (s.verified.map (·.raw)).Perm (ds.map (·.raw)) := by
  obtain ⟨-, -, hsources⟩ := h.sources hpayload hordered hnodup
  -- A digest stands for one text, that of its disclosure.
  let text (digest : String) : String := (((indexOf p ds []).lookup digest).map (·.raw)).getD ""
  have htext {d : Disclosure} (hd : d ∈ ds) : text (d.digestB64 p) = d.raw := by
    have hlookup : (indexOf p ds []).lookup (d.digestB64 p) = some d :=
      (lookup_indexOf hnodup (by simp)).mpr (.inl ⟨hd, rfl⟩)
    simp [text, hlookup]
  have hrecords : s.verified.map (·.raw) = (s.verified.map (·.digest)).map text := by
    rw [List.map_map]
    refine List.map_congr_left fun r hr => ?_
    obtain ⟨d, hd, hdigest, hraw, -⟩ := hsources r hr
    rw [Function.comp_apply, ← hdigest, htext hd, hraw]
  have hprovided : ds.map (·.raw) = (ds.map (·.digestB64 p)).map text := by
    rw [List.map_map]
    exact List.map_congr_left fun d hd => (htext hd).symm
  rw [hrecords, hprovided]
  exact (h.used_perm hpayload hordered hnodup hused).map text

end Sound

namespace SdJwtVc

variable {c : SdJwtVc} {issuerKey : Bytes} {alg : Alg} {result : ProcessedSdJwt}

section
variable (hjson : ∀ b v, p.parseJson b = some v → Ordered v) (h : c.verifyAndProcess p issuerKey alg = .ok result)
include hjson h

theorem verifyAndProcess_records : (result.disclosures.map (·.raw)).Perm c.disclosures ∧ c.disclosures.Nodup ∧
      (result.disclosures.map (·.digest)).Nodup := by
  obtain ⟨payload, ds, s, ⟨jws, -, -, -, -, hpayload, -⟩, hparsed, hnodup, hwalk, hused, -, hrecords⟩ :=
    verifyAndProcess_eq_ok.mp h
  have hordered := hparsed.ordered hjson
  have hpordered := hjson _ _ hpayload
  rw [hrecords]
  refine ⟨?_, hparsed.nodup hnodup, ?_⟩
  · rw [← hparsed.raws]
    exact hwalk.raw_perm hpordered hordered hnodup hused
  · exact (hwalk.used_perm hpordered hordered hnodup hused).nodup_iff.mpr hnodup

theorem verifyAndProcess_holds :
    DisclosureProcessor.Holds [] none (.obj result.claims) result.disclosures ∧ Clean (.obj result.claims) ∧
      Ordered (.obj result.claims) := by
  obtain ⟨payload, ds, s, ⟨jws, -, -, -, -, hpayload, -⟩, hparsed, hnodup, hwalk, -, -, hrecords⟩ :=
    verifyAndProcess_eq_ok.mp h
  obtain ⟨-, hholds, hclean, hclaims, -⟩ := hwalk.sound (hjson _ _ hpayload) (hparsed.ordered hjson) hnodup fun _ => true
  rw [hrecords]
  exact ⟨hholds, hclean, hclaims⟩

end

/-- **Soundness of SD-JWT processing.** The processed claims have no member with a reserved name; the
records are the provided disclosures, each once; their paths are distinct and lead to values; and the
parent of a record is the lowest record above it. -/
theorem verifyAndProcess_sound (hjson : ∀ b v, p.parseJson b = some v → Ordered v) {c : SdJwtVc}
    {issuerKey : Bytes} {alg : Alg} {result : ProcessedSdJwt} (h : c.verifyAndProcess p issuerKey alg = .ok result) :
    Clean (.obj result.claims) ∧ ((result.disclosures.map (·.raw)).Perm c.disclosures ∧ c.disclosures.Nodup) ∧
      (result.disclosures.map (·.path)).Nodup ∧
      (∀ r ∈ result.disclosures, (valueAt (.obj result.claims) r.path).isSome) ∧
      ∀ r ∈ result.disclosures, DisclosureProcessor.Encloses result.disclosures none r := by
  obtain ⟨hholds, hclean, -⟩ := verifyAndProcess_holds hjson h
  obtain ⟨hperm, hnodup, -⟩ := verifyAndProcess_records hjson h
  refine ⟨hclean, ⟨hperm, hnodup⟩, hholds.distinct, ?_, hholds.enclosed⟩
  intro r hr
  obtain ⟨step, rest, hpath, hat⟩ := hholds.below r hr
  rw [hpath]
  exact hat

end SdJwtVc

/-! ### A sample -/

namespace Sample

def mark (b : Bytes) : Hash32 := ⟨(b ++ List.replicate 32 0).take 32, by simp⟩

def digestOf (raw : String) : Json := .str (b64Encode (mark (utf8 raw)).1)

/-- The member `a`, an array whose first element is disclosed on its own. -/
def member : String := "Aw"

def element : String := "BA"

def platform : Platform := { (default : Platform) with
  sha256 := mark
  verify := fun _ _ _ _ => true
  parseJson := fun b =>
    if b = [1] then some (.obj [("alg", .str "ES256"), ("typ", .str "dc+sd-jwt")])
    else if b = [2] then some (.obj [("_sd", .arr [digestOf member]), ("vct", .str "id")])
    else if b = [3] then
      some (.arr [.str "salt", .str "a", .arr [.obj [("...", digestOf element)], .num (.posInt 1)]])
    else if b = [4] then some (.arr [.str "salt", .num (.posInt 2)])
    else none }

def token (disclosures : List String) : SdJwtVc := ⟨"AQ.Ag.", disclosures, none⟩

theorem platform_ordered (b : Bytes) (v : Json) (h : platform.parseJson b = some v) : Ordered v := by
  have hleaf {v : Json} (h : IsScalar v) : Ordered v := h.everywhere
  have helements {vs : List Json} (h : ∀ v ∈ vs, IsScalar v) : Ordered (.arr vs) :=
    .arr fun v hv => hleaf (h v hv)
  have hmembers {ms : List (String × Json)} (hsorted : (ms.map Prod.fst).Pairwise (· < ·))
      (h : ∀ kv ∈ ms, IsScalar kv.2) : Ordered (.obj ms) := .obj hsorted fun kv hkv => hleaf (h kv hkv)
  simp only [platform] at h
  split_ifs at h <;> cases h
  · exact hmembers (by decide) (by simp [IsScalar])
  · refine .obj (by decide) (List.forall_mem_cons.mpr ⟨helements (by simp [digestOf, IsScalar]), ?_⟩)
    exact List.forall_mem_singleton.mpr (hleaf trivial)
  · refine .arr (List.forall_mem_cons.mpr ⟨hleaf trivial,
      List.forall_mem_cons.mpr ⟨hleaf trivial, List.forall_mem_singleton.mpr (.arr ?_)⟩⟩)
    refine List.forall_mem_cons.mpr ⟨hmembers (by decide) (by simp [digestOf, IsScalar]), ?_⟩
    exact List.forall_mem_singleton.mpr (hleaf trivial)
  · exact helements (by simp [IsScalar])

/-- What both disclosures make of the payload. -/
def processed : ProcessedSdJwt where
  claims := [("a", .arr [.num (.posInt 2), .num (.posInt 1)]), ("vct", .str "id")]
  disclosures :=
    [⟨member, b64Encode (mark (utf8 member)).1, [.name "a"], none,
        .arr [.obj [("...", digestOf element)], .num (.posInt 1)]⟩,
      ⟨element, b64Encode (mark (utf8 element)).1, [.name "a", .index 0],
        some (b64Encode (mark (utf8 member)).1), .num (.posInt 2)⟩]

theorem token_processed : (token [element, member]).verifyAndProcess platform [] .es256 = .ok processed := by decide

end Sample

/-- Both disclosures are recorded, one below the other. -/
theorem verifyAndProcess_sound_sample :
    (Sample.processed.disclosures.map (·.raw)).Perm [Sample.element, Sample.member] ∧
      ∀ r ∈ Sample.processed.disclosures, DisclosureProcessor.Encloses Sample.processed.disclosures none r := by
  obtain ⟨-, ⟨hperm, -⟩, -, -, hparents⟩ :=
    SdJwtVc.verifyAndProcess_sound Sample.platform_ordered Sample.token_processed
  exact ⟨hperm, hparents⟩

end EuWallet.Formats
