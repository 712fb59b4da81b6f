import EuWallet.Formats.Processing

/-! # Withholding disclosures

A holder passes on some of the disclosures of an SD-JWT. If the parents of what is passed on are passed on
too, the walk over the same payload succeeds again and returns the document of the first one without the values
of what is withheld (`verifyAndProcess_withheld`). -/

namespace EuWallet.Formats

open Codec Crypto Lib

/-! ### The disclosures that are passed on -/

/-- The places of the disclosures that are not passed on. -/
def withheld (records : List VerifiedDisclosure) (kept : List String) (path : ClaimPath) : Bool :=
  records.any fun r => r.path == path && !kept.contains r.raw

/-- What is passed on is passed on with its parents. -/
def ClosedUnderParents (records : List VerifiedDisclosure) (kept : List String) : Prop :=
  ∀ r ∈ records, r.raw ∈ kept → ∀ parent, r.parentDigest = some parent →
    ∃ e ∈ records, e.digest = parent ∧ e.raw ∈ kept

section Kept
variable {p : Platform} {payload claims : List (String × Json)} {ds ds' : List Disclosure}
  {s : DisclosureProcessor} {kept raws : List String} {records : List VerifiedDisclosure} {path : ClaimPath}

theorem withheld_eq_true : withheld records kept path = true ↔ ∃ r ∈ records, r.path = path ∧ r.raw ∉ kept := by
  simp [withheld]

theorem survives_withheld {value : Json}
    (hbelow : ∀ r ∈ records, ∃ step rest, r.path = [] ++ step :: rest ∧ (valueAt value (step :: rest)).isSome) :
    Survives (withheld records kept) path ↔ ∀ r ∈ records, r.raw ∉ kept → ¬ r.path <+: path := by
  constructor
  · intro h r hr hraw hinitial
    obtain ⟨step, rest, hpath, -⟩ := hbelow r hr
    have hfalse := h r.path hinitial (by simp [hpath])
    rw [withheld_eq_true.mpr ⟨r, hr, rfl, hraw⟩] at hfalse
    cases hfalse
  · intro h pre hpre _
    by_contra hdrop
    rw [Bool.not_eq_false, withheld_eq_true] at hdrop
    obtain ⟨r, hr, rfl, hraw⟩ := hdrop
    exact h r hr hraw hpre

theorem Parsed.exists_mem (h : Parsed p raws ds) {raw : String} (hraw : raw ∈ raws) :
    ∃ d ∈ ds, Disclosure.parse p raw = .ok d := by
  induction h with
  | nil => cases hraw
  | cons hd _ ih =>
    rcases List.mem_cons.mp hraw with rfl | hraw
    · exact ⟨_, List.mem_cons_self, hd⟩
    · obtain ⟨d, hmem, hparse⟩ := ih hraw
      exact ⟨d, List.mem_cons_of_mem _ hmem, hparse⟩

/-- Some of the texts, in any order, are parsed to some of the disclosures. -/
theorem Parsed.choose (h : Parsed p raws ds) (hsubset : kept ⊆ raws) : ∃ ds', Parsed p kept ds' ∧ ds' ⊆ ds := by
  induction kept with
  | nil => exact ⟨[], .nil, by simp⟩
  | cons raw kept ih =>
    rw [List.cons_subset] at hsubset
    obtain ⟨ds', hparsed, hds'⟩ := ih hsubset.2
    obtain ⟨d, hd, hparse⟩ := Parsed.exists_mem h hsubset.1
    exact ⟨d :: ds', .cons hparse hparsed, List.cons_subset.mpr ⟨hd, hds'⟩⟩

theorem Walks.reduces (h : Walks p payload (indexOf p ds []) claims s) (hpayload : Ordered (.obj payload))
    (hordered : ∀ d ∈ ds, Ordered d.value) (hnodup : (ds.map (·.digestB64 p)).Nodup)
    (hused : s.usedDisclosures.length = ds.length) (hsubset : ds' ⊆ ds) (hraws : (ds'.map (·.raw)).Nodup)
    (hclosed : ClosedUnderParents s.verified (ds'.map (·.raw))) :
    (ds'.map (·.digestB64 p)).Nodup ∧ ∃ t, t.usedDisclosures.length = ds'.length ∧
      Walks p payload (indexOf p ds' []) (pruneMembers (withheld s.verified (ds'.map (·.raw))) claims) t := by
  have hinjective {d e : Disclosure} (hd : d ∈ ds) (he : e ∈ ds) (heq : d.digestB64 p = e.digestB64 p) : d = e :=
    List.inj_on_of_nodup_map hnodup hd he heq
  have hnodup' : (ds'.map (·.digestB64 p)).Nodup :=
    hraws.of_map.map_on fun d hd e he => hinjective (hsubset hd) (hsubset he)
  refine ⟨hnodup', ?_⟩
  let keep (digest : String) : Bool := (ds'.map (·.digestB64 p)).contains digest
  have hkeep {digest : String} : keep digest = true ↔ ∃ d ∈ ds', d.digestB64 p = digest := by
    simp [keep]
  obtain ⟨hdigests, husednodup, hsources⟩ := h.sources hpayload hordered hnodup
  have hkept {r : VerifiedDisclosure} (hr : r ∈ s.verified) : keep r.digest = true ↔ r.raw ∈ ds'.map (·.raw) := by
    obtain ⟨d, hd, hdigest, hraw, -⟩ := hsources r hr
    rw [hkeep, ← hdigest, ← hraw, List.mem_map]
    constructor
    · rintro ⟨e, he, heq⟩
      exact ⟨e, he, by rw [hinjective (hsubset he) hd heq]⟩
    · rintro ⟨e, he, heq⟩
      exact ⟨e, he, by rw [Disclosure.digestB64, heq, Disclosure.digestB64]⟩
  have hfollows : DisclosureProcessor.Follows keep (startProcessor p payload (indexOf p ds []))
      (startProcessor p payload (indexOf p ds' [])) := by
    refine ⟨fun digest => ?_, rfl, List.Sublist.refl _, le_rfl⟩
    refine Option.ext fun d => ?_
    show (indexOf p ds' []).lookup digest = some d ↔ _
    rw [lookup_indexOf hnodup' (by simp)]
    split_ifs with hdigest
    · show _ ↔ (indexOf p ds []).lookup digest = some d
      rw [lookup_indexOf hnodup (by simp)]
      obtain ⟨e, he, heq⟩ := hkeep.mp hdigest
      simp only [List.lookup_nil, reduceCtorEq, or_false]
      refine ⟨fun hd => ⟨hsubset hd.1, hd.2⟩, fun hd => ⟨?_, hd.2⟩⟩
      rwa [hinjective hd.1 (hsubset he) (hd.2.trans heq.symm)]
    · simp only [List.lookup_nil, reduceCtorEq, or_false, iff_false]
      exact fun hd => hdigest (hkeep.mpr ⟨d, hd⟩)
  have hmarks : DisclosureProcessor.Marks (withheld s.verified (ds'.map (·.raw))) keep [] s.verified := by
    intro step rest
    rw [withheld_eq_true]
    refine exists_congr fun r => and_congr_right fun hr => and_congr_right fun _ => ?_
    rw [← hkept hr, Bool.not_eq_true]
  have hparents : DisclosureProcessor.Closed keep s.verified := by
    intro r hr hdigest parent hparent
    obtain ⟨e, he, rfl, hraw⟩ := hclosed r hr ((hkept hr).mp hdigest) parent hparent
    exact (hkept he).mpr hraw
  obtain ⟨-, -, -, -, hagain⟩ := h.sound hpayload hordered hnodup keep
  obtain ⟨t, ht, hfollows'⟩ := hagain _ hmarks hparents _ hfollows
  refine ⟨t, ?_, ht⟩
  -- What the second walk used is what the first one used of the disclosures passed on.
  have hperm : (s.usedDisclosures.filter keep).Perm (ds'.map (·.digestB64 p)) := by
    refine (List.perm_ext_iff_of_nodup (husednodup.filter _) hnodup').mpr fun digest => ?_
    have hmem : digest ∈ s.usedDisclosures ↔ digest ∈ ds.map (·.digestB64 p) := by
      rw [← hdigests, List.mem_reverse]
      exact (h.used_perm hpayload hordered hnodup hused).mem_iff
    rw [List.mem_filter, hmem, hkeep, List.mem_map, List.mem_map]
    exact ⟨fun hd => hd.2, fun hd => ⟨hd.imp fun d hd => ⟨hsubset hd.1, hd.2⟩, hd⟩⟩
  rw [hfollows'.used, hperm.length_eq, List.length_map]

end Kept

namespace SdJwtVc

variable {p : Platform} {c : SdJwtVc} {issuerKey : Bytes} {alg : Alg} {result : ProcessedSdJwt}

theorem verifyAndProcess_pruned (hjson : ∀ b v, p.parseJson b = some v → Ordered v) (hcompact : Compact p)
    (h : c.verifyAndProcess p issuerKey alg = .ok result) {kept : List String} (hnodup : kept.Nodup)
    (hsubset : kept ⊆ c.disclosures) (hclosed : ClosedUnderParents result.disclosures kept)
    (keyBindingJwt : Option String) :
    ∃ records, (SdJwtVc.mk c.issuerJwt kept keyBindingJwt).verifyAndProcess p issuerKey alg =
      .ok ⟨pruneMembers (withheld result.disclosures kept) result.claims, records⟩ := by
  obtain ⟨payload, ds, s, hissued, hparsed, hdigests, hwalk, hused, hsize, hrecords⟩ :=
    verifyAndProcess_eq_ok.mp h
  obtain ⟨ds', hparsed', hds'⟩ := hparsed.choose hsubset
  have hpayload : Ordered (.obj payload) := by
    obtain ⟨jws, -, -, -, -, hpayload, -⟩ := hissued
    exact hjson _ _ hpayload
  rw [← hparsed'.raws] at hnodup hclosed ⊢
  rw [hrecords] at hclosed ⊢
  obtain ⟨hdigests', t, hused', hwalk'⟩ :=
    hwalk.reduces hpayload (hparsed.ordered hjson) hdigests hused hds' hnodup hclosed
  refine ⟨t.verified, verifyAndProcess_eq_ok.mpr ⟨payload, ds', t, hissued, ?_, hdigests', hwalk', hused', ?_, rfl⟩⟩
  · rw [hparsed'.raws]
    exact hparsed'
  · exact (jsonBytes_prune hcompact (withheld s.verified (ds'.map (·.raw))) (.obj result.claims)).trans hsize

/-- **Selective disclosure.** Some of the disclosures, in any order and closed under parents, are accepted
again. The claims are those of the whole credential without the values of the other disclosures: they show
exactly the places that lie at or below no withheld disclosure. -/
theorem verifyAndProcess_withheld (hjson : ∀ b v, p.parseJson b = some v → Ordered v) (hcompact : Compact p)
    {c : SdJwtVc} {issuerKey : Bytes} {alg : Alg} {result : ProcessedSdJwt}
    (h : c.verifyAndProcess p issuerKey alg = .ok result) {kept : List String} (hnodup : kept.Nodup)
    (hsubset : kept ⊆ c.disclosures) (hclosed : ClosedUnderParents result.disclosures kept)
    (keyBindingJwt : Option String) :
    ∃ result', (SdJwtVc.mk c.issuerJwt kept keyBindingJwt).verifyAndProcess p issuerKey alg = .ok result' ∧
      Json.obj result'.claims = prune (withheld result.disclosures kept) (.obj result.claims) ∧
      ∀ path, (∃ shown, (valueAt (.obj result'.claims) shown).isSome ∧
          origin (withheld result.disclosures kept) (.obj result.claims) shown = path) ↔
        (valueAt (.obj result.claims) path).isSome ∧ ∀ r ∈ result.disclosures, r.raw ∉ kept → ¬ r.path <+: path := by
  obtain ⟨records, hpruned⟩ := verifyAndProcess_pruned hjson hcompact h hnodup hsubset hclosed keyBindingJwt
  refine ⟨_, hpruned, rfl, fun path => ?_⟩
  have hbelow := (verifyAndProcess_holds hjson h).1.below
  rw [← survives_withheld hbelow]
  constructor
  · rintro ⟨shown, hshown, rfl⟩
    obtain ⟨w, hw⟩ := Option.isSome_iff_exists.mp hshown
    have hw : valueAt (prune (withheld result.disclosures kept) (.obj result.claims)) shown = some w := hw
    obtain ⟨u, hu, hsurvives, -⟩ := valueAt_prune hw
    exact ⟨Option.isSome_iff_exists.mpr ⟨u, hu⟩, hsurvives⟩
  · rintro ⟨hpath, hsurvives⟩
    obtain ⟨u, hu⟩ := Option.isSome_iff_exists.mp hpath
    obtain ⟨shown, horigin, hshown⟩ := exists_origin hu hsurvives
    exact ⟨shown, Option.isSome_iff_exists.mpr ⟨_, hshown⟩, horigin⟩

end SdJwtVc

/-! ### A sample -/

namespace Sample

def quoted (s : String) : String := .ofList ('"' :: s.toList.flatMap (fun c => ['\\', c]) ++ ['"'])

mutual

def size : Json → ℕ
  | .arr elements => 2 + elementSizes elements + (elements.length - 1)
  | .obj members => 2 + memberSizes members + (members.length - 1)
  | .str s => (quoted s).utf8ByteSize
  | _ => 1

def elementSizes : List Json → ℕ
  | [] => 0
  | v :: rest => size v + elementSizes rest

def memberSizes : List (String × Json) → ℕ
  | [] => 0
  | (name, v) :: rest => (quoted name).utf8ByteSize + 1 + size v + memberSizes rest

end

/-- Strings are written out, other values as blanks of the right number. -/
def written : Json → String
  | .str s => quoted s
  | v => .ofList (List.replicate (size v) ' ')

def compactPlatform : Platform := { platform with renderJson := written }

theorem jsonBytes_compactPlatform (v : Json) : jsonBytes compactPlatform v = size v := by
  have hblanks (n : ℕ) : (String.ofList (List.replicate n ' ')).utf8ByteSize = n := by
    rw [String.utf8ByteSize_ofList]
    induction n with
    | zero => rfl
    | succ n ih =>
      rw [List.replicate_succ, String.utf8Len_cons, ih]
      rfl
  cases v with
  | str s => rfl
  | _ => exact hblanks _

theorem compactPlatform_compact : Compact compactPlatform where
  arr elements := by
    have hsum : elementSizes elements = (elements.map (jsonBytes compactPlatform)).sum := by
      induction elements with
      | nil => rfl
      | cons v rest ih => rw [elementSizes, List.map_cons, List.sum_cons, jsonBytes_compactPlatform, ih]
    rw [jsonBytes_compactPlatform, size, hsum]
  obj members := by
    have hsum : memberSizes members = (members.map fun kv => jsonBytes compactPlatform (.str kv.1) + 1 +
        jsonBytes compactPlatform kv.2).sum := by
      induction members with
      | nil => rfl
      | cons kv rest ih =>
        rw [memberSizes, List.map_cons, List.sum_cons, jsonBytes_compactPlatform kv.2, ih]
        rfl
    rw [jsonBytes_compactPlatform, size, hsum]

theorem token_processed_compact :
    (token [element, member]).verifyAndProcess compactPlatform [] .es256 = .ok processed := by decide +kernel

theorem compactPlatform_ordered (b : Bytes) (v : Json) (h : compactPlatform.parseJson b = some v) : Ordered v :=
  platform_ordered b v h

theorem member_closed : ClosedUnderParents processed.disclosures [member] := by
  intro r hr hkept parent hparent
  have hroot : ∀ r ∈ processed.disclosures, r.raw ∈ [member] → r.parentDigest = none := by decide
  rw [hroot r hr hkept] at hparent
  cases hparent

end Sample

/-- The element is withheld and the other one moves up. -/
theorem verifyAndProcess_withheld_sample :
    ∃ result', (Sample.token [Sample.member]).verifyAndProcess Sample.compactPlatform [] .es256 = .ok result' ∧
      result'.claims = [("a", .arr [.num (.posInt 1)]), ("vct", .str "id")] := by
  obtain ⟨result', hresult, hclaims, -⟩ := SdJwtVc.verifyAndProcess_withheld Sample.compactPlatform_ordered
    Sample.compactPlatform_compact Sample.token_processed_compact (List.nodup_singleton Sample.member) (by decide)
    Sample.member_closed none
  exact ⟨result', hresult, Json.obj.inj (hclaims.trans (by decide))⟩

end EuWallet.Formats
