import EuWallet.Wallet.Currency

/-! # Status lists are usable when they are accepted

A list is accepted up to the greatest age inclusive and is fresh up to it exclusive. `statusList_usable_iff` says that
this is the only moment at which an accepted list cannot be used, and that a presentation which waits for lists
otherwise gets on with every list that is accepted. -/

namespace EuWallet.Trust.StatusList

open Codec Crypto Lib

/-- The claims of a token, whoever signed it. -/
def tokenClaims (p : Platform) (token : Bytes) : Option Json :=
  (fromUtf8 token).bind fun s => (compactParts s).bind fun parts => p.partJson parts.2.1

def claimedTime (claims : Json) (name : String) : Option ℤ := (claims.get name).bind Json.asI64

/-- The list is fresh no longer than the claims of its token permit; a token without `ttl` has the default one. -/
def EndsInTime (p : Platform) (token : Bytes) (now : ℤ) (l : StatusList) : Prop :=
  ∀ claims ∈ tokenClaims p token, ∀ t, l.isFreshAt t = true → (∀ exp ∈ claimedTime claims "exp", t < exp) ∧
    (∀ iat ∈ claimedTime claims "iat", t < iat + maxStatusAgeSeconds) ∧
    t < now + (claimedTime claims "ttl").getD defaultCacheTtlSeconds

/-- The token is not exactly as old as it may be. -/
def OffLimit (p : Platform) (token : Bytes) (now : ℤ) : Prop :=
  ∀ claims ∈ tokenClaims p token, ∀ iat ∈ claimedTime claims "iat", iat + maxStatusAgeSeconds ≠ now

variable {p : Platform} {token key : Bytes} {uri : String} {alg : Alg} {now issuedAt : ℤ} {body : Json} {l : StatusList}

theorem readExpiry_ok {expiry : Option ℤ} (h : readExpiry body issuedAt now = .ok expiry) :
    claimedTime body "exp" = expiry ∧ ∀ exp ∈ expiry, now < exp := by
  unfold readExpiry at h
  unfold claimedTime
  split at h
  · next hnone =>
    cases h
    simp [hnone]
  · next v hsome =>
    split at h
    · cases h
    · next exp hexp =>
      split_ifs at h with hlate
      cases h
      rw [not_or, not_le, not_le] at hlate
      simp [hsome, hexp, hlate.2]

theorem readTtl_ok {ttl : ℤ} (h : readTtl body = .ok ttl) :
    0 < ttl ∧ ttl ≤ (claimedTime body "ttl").getD defaultCacheTtlSeconds := by
  unfold readTtl at h
  unfold claimedTime
  split at h
  · next hnone =>
    cases h
    simp [hnone, defaultCacheTtlSeconds]
  · next v hsome =>
    split at h
    · cases h
    · next x hx =>
      split_ifs at h with hpositive
      cases h
      simp [hsome, hx, hpositive, maxStatusAgeSeconds]

theorem checkedAdd_eq_some {a b c : ℤ} (h : checkedAdd a b = some c) : c = a + b ∧ a + b < 2 ^ 63 := by
  unfold checkedAdd at h
  split_ifs at h with hrange
  exact ⟨(Option.some.inj h).symm, hrange.2⟩

/-- An accepted list can be used from the start exactly when its token is not as old as it may be. -/
theorem fresh_iff_offLimit (h : parseAndVerify p token uri key alg now = .ok l) :
    (l.isFreshAt now = true ↔ OffLimit p token now) ∧ EndsInTime p token now l := by
  simp only [parseAndVerify, bind_eq_ok, guard_eq_ok, orErr_eq_ok] at h
  obtain ⟨-, s, hs, ⟨header, payload, signature⟩, hparts, _, -, -, -, _, -, -, body, hbody, _, -, -, iat, hiat, hfuture,
    hold, expiry, hexpiry, ttl, httl, _, huntil, _, hage, _, -, _, -, _, -, -, compressed, -, h⟩ := h
  split at h
  case h_2 | h_3 => cases h
  obtain ⟨-, ⟨⟩⟩ := guard_eq_ok.mp h
  have hclaims : tokenClaims p token = some body := by simp [tokenClaims, hs, hparts, hbody]
  have htime : claimedTime body "iat" = some iat := hiat
  obtain ⟨hexp, hahead⟩ := readExpiry_ok hexpiry
  obtain ⟨hpositive, hshort⟩ := readTtl_ok httl
  obtain ⟨rfl, hrange⟩ := checkedAdd_eq_some huntil
  obtain ⟨rfl, -⟩ := checkedAdd_eq_some hage
  have hlimit (t : ℤ) : t < (expiry.map (min (min (now + ttl) (iat + maxStatusAgeSeconds)))).getD
      (min (now + ttl) (iat + maxStatusAgeSeconds)) ↔
        t < now + ttl ∧ t < iat + maxStatusAgeSeconds ∧ ∀ exp ∈ expiry, t < exp := by
    cases expiry <;> simp
  -- Saturation only raises the bound, so the token is at most as old as it may be.
  have hyoung : now ≤ iat + maxStatusAgeSeconds := by
    simp only [satAdd64, maxStatusAgeSeconds] at hold ⊢
    omega
  constructor
  · simp only [OffLimit, hclaims, htime, Option.mem_def, Option.some.injEq, forall_eq', isFreshAt, Bool.and_eq_true,
      decide_eq_true_eq, hlimit]
    exact ⟨fun h => by omega, fun hoff => ⟨not_lt.mp hfuture, by omega, by omega, hahead⟩⟩
  · intro claims hmem t hfresh
    obtain rfl := Option.some.inj (hclaims.symm.trans hmem)
    simp only [isFreshAt, Bool.and_eq_true, decide_eq_true_eq, hlimit] at hfresh
    obtain ⟨-, hcache, hnew, hbefore⟩ := hfresh
    refine ⟨by rwa [hexp], fun iat' hiat' => ?_, hcache.trans_le (Int.add_le_add_left hshort now)⟩
    rwa [← Option.some.inj (htime.symm.trans hiat')]

end EuWallet.Trust.StatusList

namespace EuWallet.Wallet

open Codec Crypto Lib Trust

namespace Core

variable {p : Platform} {c c' : Core} {uri u : String}

/-- No list that can be used is kept for the address. -/
def Missing (p : Platform) (c : Core) (uri : String) : Prop := ∀ cached, c.statusLists.lookup uri = some cached →
  cached.list.isFreshAt c.nowEpoch = true → c.resolveStatusProviderKey p cached.providerCertChain = none

/-- The gate asks for the lists that are missing. -/
theorem checkReferences_fetch {all all' : List StatusReference} {uris' : List String} :
    ∀ {references : List StatusReference} {uris : List String},
      c.checkReferences p all references uris = .fetch all' uris' →
        (u ∈ uris' ↔ u ∈ uris ∨ ∃ r ∈ references, r.uri = u ∧ c.Missing p u)
  | [], uris, h => by
    simp only [checkReferences] at h
    split_ifs at h
    cases h
    simp
  | reference :: rest, uris, h => by
    simp only [List.exists_mem_cons_iff]
    have hpushed (hmissing : c.Missing p reference.uri)
        (h : c.checkReferences p all rest (pushNew uris reference.uri) = .fetch all' uris') :
        u ∈ uris' ↔ u ∈ uris ∨ reference.uri = u ∧ c.Missing p u ∨ ∃ r ∈ rest, r.uri = u ∧ c.Missing p u := by
      rw [checkReferences_fetch h, mem_pushNew, or_assoc]
      refine or_congr_right (or_congr_left ⟨?_, fun h => h.1.symm⟩)
      rintro rfl
      exact ⟨rfl, hmissing⟩
    simp only [checkReferences] at h
    split at h
    · next hnone => exact hpushed (fun _ hsome => by cases hnone.symm.trans hsome) h
    · next cached hcached =>
      split_ifs at h with hunusable
      · refine hpushed (fun cached' hcached' hfresh => ?_) h
        obtain rfl := Option.some.inj (hcached.symm.trans hcached')
        simpa [hfresh] using hunusable
      · have hkept : ¬ (reference.uri = u ∧ c.Missing p u) := by
          rintro ⟨rfl, hmissing⟩
          have := hmissing cached hcached
          simp_all
        split at h
        · rw [checkReferences_fetch h, or_iff_right_of_imp fun h => absurd h hkept]
        all_goals cases h

/-- The references of a session, as the gate collects them. -/
def statusReferences (session : Option SessionInfo) : List StatusReference :=
  ((session.bind fun s => s.selectedSources.mapM sourceStatus).getD [] |>.filterMap id).foldl pushNew []

theorem presentationStatusGate_fetch {all : List StatusReference} {uris : List String}
    (h : c.presentationStatusGate p = .fetch all uris) :
    u ∈ uris ↔ ∃ r ∈ statusReferences c.session, r.uri = u ∧ c.Missing p u := by
  unfold presentationStatusGate at h
  unfold statusReferences
  split at h
  · cases h
  · next session hsession =>
    split at h
    · cases h
    · next found hfound =>
      dsimp only at h
      split_ifs at h
      rw [checkReferences_fetch h]
      simp [hsession, hfound]

theorem lookup_filter {κ ν : Type} [DecidableEq κ] {f : κ × ν → Bool} {k : κ} {v : ν} {m : List (κ × ν)}
    (h : m.lookup k = some v) (hf : f (k, v) = true) : (m.filter f).lookup k = some v := by
  induction m with
  | nil => cases h
  | cons kv m ih =>
    obtain ⟨k', v'⟩ := kv
    rw [OrdMap.lookup_cons_eq_ite] at h
    rw [List.filter_cons]
    split_ifs at h with hk
    · cases h
      simp [← hk, hf]
    · split_ifs
      · rw [OrdMap.lookup_cons_eq_ite, if_neg hk, ih h]
      · exact ih h

/-- A list that is accepted is kept, and no other list that can be used is lost. -/
theorem loadStatusList_ok {token : Bytes} {chain : List Bytes} (h : c.loadStatusList p uri token chain = (c', .ok ())) :
    ∃ key list, c.resolveStatusProviderKey p chain = some key ∧
      StatusList.parseAndVerify p token uri key .es256 c.nowEpoch = .ok list ∧ c'.environment = c.environment ∧
      c'.statusLists.lookup uri = some ⟨list, chain⟩ ∧ ∀ u ≠ uri, c'.Missing p u → c.Missing p u := by
  unfold loadStatusList at h
  split_ifs at h
  · cases h
  · cases h
  split at h
  · cases h
  · next key hkey =>
    split at h
    · cases h
    · next list hlist =>
      dsimp only at h
      split_ifs at h
      · cases h
      · cases h
        refine ⟨key, list, hkey, hlist, rfl, by simp [OrdMap.lookup_insert], fun u hu hmissing cached hcached hfresh => ?_⟩
        refine hmissing cached ?_ hfresh
        simp only [OrdMap.lookup_insert, if_neg hu]
        exact lookup_filter hcached hfresh

/-- What a session makes the gate ask for after a list was loaded: not for that list, and for no list it did not ask
for before. -/
def GetsOn (p : Platform) (c c' : Core) (uri : String) : Prop :=
  ∀ session all uris, { c' with session }.presentationStatusGate p = .fetch all uris → uri ∉ uris ∧
    ∀ all₀ uris₀, { c with session }.presentationStatusGate p = .fetch all₀ uris₀ → uris ⊆ uris₀

end Core

open Wallet.Core StatusList in
/-- **An accepted status list is usable**, and the gate does not ask for it again, exactly when its token is not as old
as it may be. -/
theorem statusList_usable_iff (p : Platform) (uri : String) (token : Bytes) :
    (∀ key alg now l, parseAndVerify p token uri key alg now = .ok l →
      (l.isFreshAt now = true ∧ EndsInTime p token now l ↔ OffLimit p token now)) ∧
    ∀ c c' chain, loadStatusList p c uri token chain = (c', .ok ()) →
      (GetsOn p c c' uri ↔ OffLimit p token c.nowEpoch) := by
  refine ⟨fun key alg now l h => ?_, fun c c' chain h => ?_⟩
  · obtain ⟨hfresh, hends⟩ := fresh_iff_offLimit h
    rw [hfresh, and_iff_left hends]
  obtain ⟨key, list, hkey, hlist, henv, hkept, hother⟩ := loadStatusList_ok h
  have hmissing : c'.Missing p uri ↔ ¬ OffLimit p token c.nowEpoch := by
    rw [← (fresh_iff_offLimit hlist).1, ← nowEpoch_congr henv]
    simp [Missing, hkept, resolveStatusProviderKey_congr henv, hkey]
  constructor
  · intro hgets
    by_contra hlimit
    have hstale : list.isFreshAt c'.nowEpoch = false := by
      rw [nowEpoch_congr henv, ← Bool.not_eq_true, (fresh_iff_offLimit hlist).1]
      exact hlimit
    let source : PresentationCredentialReference := .sdJwt ⟨"", [], some ⟨uri, 0⟩⟩ none
    refine absurd (List.mem_singleton_self uri) (hgets
      (some ⟨"", none, "", [], "", "", "", none, none, [], [source], [], none, zeroHash, []⟩) [⟨uri, 0⟩] [uri] ?_).1
    simp [presentationStatusGate, source, sourceStatus, checkReferences, hkept, hstale, pushNew,
      maxStatusListsPerPresentation]
  · intro hoff session all uris hasked
    have hasked (u : String) := presentationStatusGate_fetch (u := u) hasked
    have hgone : uri ∉ uris := fun hmem => ((hasked uri).mp hmem).elim fun _ h => hmissing.mp h.2.2 hoff
    refine ⟨hgone, fun all₀ uris₀ hbefore u hu => ?_⟩
    obtain ⟨r, hr, hru, hmissing⟩ := (hasked u).mp hu
    refine (presentationStatusGate_fetch hbefore).mpr ⟨r, hr, hru, hother u ?_ hmissing⟩
    rintro rfl
    exact hgone hu

/-! ### A list of one byte -/

namespace Published

def claims (iat : ℕ) : Json := .obj [("iat", .num (.posInt iat)),
  ("status_list", .obj [("bits", .num (.posInt 1)), ("lst", .str "AA")]), ("sub", .str "https://status.example")]

def platform (iat : ℕ) : Platform := { Expiring.platform with
  parseJson := fun b =>
    if b = [1] then some (.obj [("alg", .str "ES256"), ("typ", .str "statuslist+jwt")]) else some (claims iat)
  inflate := fun _ _ => .ok [0] }

def token : Bytes := utf8 "AQ.Ag.AQ"

def core : Core := { Expiring.trusting with
  trustStore := ⟨some ⟨1, 0, 100, [⟨[1], .statusProvider, .granted⟩], [], []⟩⟩ }

end Published

open Wallet.Core Published StatusList

/-- A list that was issued ten seconds ago. -/
theorem statusList_usable_recent :
    (∃ l, parseAndVerify (platform 0) token "https://status.example" [] .es256 10 = .ok l ∧ l.isFreshAt 10 = true) ∧
      ∃ c', core.loadStatusList (platform 0) "https://status.example" token [[4]] = (c', .ok ()) ∧
        GetsOn (platform 0) core c' "https://status.example" := by
  have hoff : OffLimit (platform 0) token 10 := by
    rintro _ ⟨⟩ _ ⟨⟩
    decide
  obtain ⟨hparse, hload⟩ := statusList_usable_iff (platform 0) "https://status.example" token
  have hparsed : parseAndVerify (platform 0) token "https://status.example" [] .es256 10 =
      .ok ⟨"https://status.example", .one, [0], 0, 3610⟩ := by decide
  have hloaded : core.loadStatusList (platform 0) "https://status.example" token [[4]] = (_, .ok ()) :=
    Prod.ext rfl (by decide)
  exact ⟨⟨_, hparsed, ((hparse _ _ _ _ hparsed).mpr hoff).1⟩, _, hloaded, (hload _ _ _ hloaded).mpr hoff⟩

/-- A list that is exactly a day old is accepted and cannot be used. -/
theorem statusList_unusable : ∃ l, parseAndVerify (platform 10) token "https://status.example" [] .es256 86410 = .ok l ∧
    l.isFreshAt 86410 = false :=
  ⟨⟨"https://status.example", .one, [0], 10, 86410⟩, by decide, by decide⟩

end EuWallet.Wallet
