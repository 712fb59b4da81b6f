import EuWallet.Wallet.RelyingParty
import EuWallet.Wallet.Runs

/-! # From the selection to the response

What is selected for a presentation comes from holdings, one for one; what the machine signs comes
from the selection, one for one and in its order. `Selected` holds in every state of every run. -/

namespace EuWallet.Protocol.Oid4vp

open Codec Crypto Formats Lib

def Presents (p : Platform) (selected : SelectedCredential) (sub : SubPresentation) : Prop :=
  ∃ env req, subPresentation p env req selected = some sub

def Completes (p : Platform) (selected : SelectedCredential) (done : CompletedPresentation) : Prop :=
  ∃ sub signature, Presents p selected sub ∧ done = complete signature sub

structure Signing (p : Platform) (selected : List SelectedCredential) (pending : PendingPresentation) :
    Prop where
  aligned : ∃ completed queued, selected = completed ++ queued ∧
    List.Forall₂ (Completes p) completed pending.done ∧ List.Forall₂ (Presents p) queued pending.queue
  waiting : pending.queue ≠ []

variable {p : Platform} {selected : List SelectedCredential} {pending : PendingPresentation}
  {sub : SubPresentation} {signature : Bytes} {rest : List SubPresentation}

theorem Signing.start {env : Env} {req : AuthRequest} {first : SubPresentation} {state : Option String}
    (h : selected.mapM (subPresentation p env req) = some (first :: rest)) :
    Signing p selected ⟨first :: rest, [], state⟩ := by
  refine ⟨⟨[], selected, rfl, .nil, ?_⟩, by simp⟩
  exact (mapM_eq_some.mp h).imp fun _ _ hsub => ⟨env, req, hsub⟩

theorem Signing.complete_first (h : Signing p selected pending) (hqueue : pending.queue = sub :: rest)
    (signature : Bytes) : ∃ completed queued, selected = completed ++ queued ∧
      List.Forall₂ (Completes p) completed (pending.done ++ [complete signature sub]) ∧
      List.Forall₂ (Presents p) queued rest := by
  obtain ⟨completed, queued, rfl, hdone, hqueued⟩ := h.aligned
  rw [hqueue] at hqueued
  cases hqueued with
  | @cons credential _ queued _ hsub hrest =>
    refine ⟨completed ++ [credential], queued, by simp, ?_, hrest⟩
    exact List.rel_append hdone (.cons ⟨sub, signature, hsub, rfl⟩ .nil)

theorem Signing.next {next : SubPresentation} (h : Signing p selected pending)
    (hqueue : pending.queue = sub :: next :: rest) :
    Signing p selected ⟨next :: rest, pending.done ++ [complete signature sub], pending.state⟩ :=
  ⟨h.complete_first hqueue signature, by simp⟩

theorem Signing.finish (h : Signing p selected pending) (hqueue : pending.queue = [sub]) :
    List.Forall₂ (Completes p) selected (pending.done ++ [complete signature sub]) := by
  obtain ⟨completed, queued, rfl, hdone, hqueued⟩ := h.complete_first hqueue signature
  cases hqueued
  simpa using hdone

end EuWallet.Protocol.Oid4vp

namespace EuWallet.Wallet

open Codec Crypto Formats Lib Presenter Protocol
open Trust

/-! ### Selected credentials and their holdings -/

inductive SelectedFrom (p : Platform) :
    PresentationCredentialReference → Oid4vp.SelectedCredential → Prop
  | sdJwt {holding authenticated disclosures dcqlId} :
      SelectedFrom p (.sdJwt holding authenticated) (.sdJwt holding.issuerJwt disclosures dcqlId)
  | mdoc {holding paths clientId responseUri nonce mgn dcqlId} :
      SelectedFrom p (.mdoc holding) (.mdoc holding.doctype (minimiseMdoc holding.issuerSigned paths)
        (oid4vpSessionTranscript p clientId responseUri nonce mgn) emptyDeviceNamespacesBytes mgn dcqlId)

structure SessionInfo.Frozen (p : Platform) (s : SessionInfo) : Prop where
  nonempty : s.selectedCredentials ≠ []
  sources : List.Forall₂ (SelectedFrom p) s.selectedSources s.selectedCredentials

namespace Core

/-- A candidate that is selected has the property. -/
def Candidate.Holds (P : PreparedPresentationCredential → Prop) : Candidate → Prop
  | .found item => P item
  | .skip | .error _ => True

/-- Every form a credential can be selected in has the property. -/
structure HoldsOfPrepared (p : Platform) (session : SessionInfo)
    (P : PreparedPresentationCredential → Prop) : Prop where
  mdoc : ∀ holding paths labels dcqlId, P (preparedMdoc p session holding paths labels dcqlId)
  authenticated : ∀ holding a selection dcqlId, P (preparedAuthenticated holding a selection dcqlId)
  fixture : ∀ holding claims dcqlId, P (preparedFixture holding claims dcqlId)

section Candidates
variable {p : Platform} {c : Core} {session : SessionInfo} {P : PreparedPresentationCredential → Prop}

theorem candidateIfCurrent_holds {current : Except PresentationEligibilityError Unit}
    {item : PreparedPresentationCredential} (h : P item) : (candidateIfCurrent current item).Holds P := by
  unfold candidateIfCurrent
  split
  · trivial
  · exact h

section
variable (hP : HoldsOfPrepared p session P) (q : CredentialQuery) (claims : List ClaimQuery)
include hP

theorem mdocCandidate_holds (paths : List (String × String)) (doctype : String)
    (stored : StoredMdocCredential) : (c.mdocCandidate p session q claims paths doctype stored).Holds P := by
  unfold mdocCandidate
  split
  · exact candidateIfCurrent_holds (hP.mdoc _ _ _ _)
  · trivial

theorem sdjwtCandidate_holds (paths : List (List RequestedSdJwtPathElement))
    (stored : StoredSdJwtCredential) : (c.sdjwtCandidate p q claims paths stored).Holds P := by
  unfold sdjwtCandidate
  dsimp only
  split
  · split_ifs
    · split
      · trivial
      · exact candidateIfCurrent_holds (hP.authenticated _ _ _ _)
    · trivial
  · split_ifs
    · exact candidateIfCurrent_holds (hP.fixture _ _ _)
    · trivial
  · trivial

end

theorem legacyCandidate_holds (hP : HoldsOfPrepared p session P) (stored : StoredSdJwtCredential) :
    (c.legacyCandidate p session stored).Holds P := by
  unfold legacyCandidate
  split
  · split
    · trivial
    · exact candidateIfCurrent_holds (hP.authenticated _ _ _ _)
  · split_ifs
    · exact candidateIfCurrent_holds (hP.fixture _ _ _)
    · trivial
  · trivial

variable {result : List PreparedPresentationCredential} {q : CredentialQuery}

theorem gatherCandidates_forall {multiple : Bool} : ∀ {candidates : List Candidate}
    {selected : List PreparedPresentationCredential} {firstError : Option PresentationEligibilityError},
    (∀ item, .found item ∈ candidates → P item) → (∀ item ∈ selected, P item) →
    gatherCandidates multiple candidates selected firstError = .ok result → ∀ item ∈ result, P item
  | [], selected, firstError, _, hselected, h => by
    unfold gatherCandidates at h
    split at h
    · cases h
    · cases h
      exact hselected
  | .skip :: rest, selected, firstError, hfound, hselected, h =>
    gatherCandidates_forall (fun item hitem => hfound item (List.mem_cons_of_mem _ hitem)) hselected h
  | .error e :: rest, selected, firstError, hfound, hselected, h =>
    gatherCandidates_forall (fun item hitem => hfound item (List.mem_cons_of_mem _ hitem)) hselected h
  | .found item :: rest, selected, firstError, hfound, hselected, h => by
    have hitems : ∀ x ∈ selected ++ [item], P x := by
      intro x hx
      rcases List.mem_append.mp hx with hx | hx
      · exact hselected x hx
      · rw [List.mem_singleton.mp hx]
        exact hfound item List.mem_cons_self
    unfold gatherCandidates at h
    split_ifs at h
    · cases h
      exact hitems
    · exact gatherCandidates_forall (fun x hx => hfound x (List.mem_cons_of_mem _ hx)) hitems h

theorem firstCandidate_found {result : PreparedPresentationCredential} :
    ∀ {candidates : List Candidate} {firstError : Option PresentationEligibilityError},
    firstCandidate candidates firstError = .ok result → .found result ∈ candidates
  | .skip :: rest, firstError, h => List.mem_cons_of_mem _ (firstCandidate_found h)
  | .error e :: rest, firstError, h => List.mem_cons_of_mem _ (firstCandidate_found h)
  | .found item :: rest, firstError, h => by
    cases h
    exact List.mem_cons_self

theorem holds_of_map {α : Type} {f : α → Candidate} {xs : List α} (h : ∀ x, (f x).Holds P)
    (item : PreparedPresentationCredential) (hitem : .found item ∈ xs.map f) : P item := by
  obtain ⟨x, -, hx⟩ := List.mem_map.mp hitem
  have := h x
  rwa [hx] at this

theorem selectForQueryClaims_forall (hP : HoldsOfPrepared p session P) {claims : List ClaimQuery}
    (h : c.selectForQueryClaims p session q claims = .ok result) : ∀ item ∈ result, P item := by
  unfold selectForQueryClaims at h
  split at h
  · split at h
    · exact gatherCandidates_forall
        (holds_of_map fun stored => mdocCandidate_holds hP q claims _ _ stored) (by simp) h
    · cases h
  · split at h
    · cases h
    · split at h
      · exact gatherCandidates_forall
          (holds_of_map fun stored => sdjwtCandidate_holds hP q claims _ stored) (by simp) h
      · cases h

theorem selectFirstOption_forall (hP : HoldsOfPrepared p session P) :
    ∀ {options : List (List ℕ)} {firstError : Option PresentationEligibilityError},
    c.selectFirstOption p session q options firstError = .ok result → ∀ item ∈ result, P item
  | [], _, h => by cases h
  | option :: rest, firstError, h => by
    unfold selectFirstOption at h
    split at h
    · next hselected =>
      cases h
      exact selectForQueryClaims_forall hP hselected
    · exact selectFirstOption_forall hP h

section
variable (hP : HoldsOfPrepared p session P)
include hP

theorem selectForQuery_forall (h : c.selectForQuery p session q = .ok result) : ∀ item ∈ result, P item := by
  unfold selectForQuery at h
  split at h
  · cases h
  · exact selectFirstOption_forall hP h

theorem selectLegacySdjwt_holds
    {result : PreparedPresentationCredential} (h : c.selectLegacySdjwt p session = .ok result) : P result :=
  holds_of_map (fun stored => legacyCandidate_holds hP stored) result (firstCandidate_found h)

theorem selectForDcql_forall {dcql : DcqlQuery}
    (h : c.selectForDcql p session dcql = .ok result) : ∀ item ∈ result, P item := by
  unfold selectForDcql at h
  dsimp only at h
  split at h
  · cases h
  · cases h
  · split at h
    · cases h
    · next prepared hprepared =>
      cases h
      intro item hitem
      obtain ⟨group, hgroup, hitem⟩ := List.mem_flatten.mp hitem
      obtain ⟨i, -, hi⟩ := exists_of_mem_mapM hprepared hgroup
      obtain ⟨candidate, hcandidate, hok⟩ := Option.bind_eq_some_iff.mp hi
      obtain ⟨q, -, rfl⟩ := List.mem_map.mp (List.mem_of_getElem? hcandidate)
      cases hselected : c.selectForQuery p session q with
      | error e =>
        rw [hselected] at hok
        cases hok
      | ok selected =>
        rw [hselected] at hok
        cases hok
        exact selectForQuery_forall hP hselected item hitem

theorem selectPresentation_forall (h : c.selectPresentation p session = .ok result) : ∀ item ∈ result, P item := by
  have hlegacy (h : (c.selectLegacySdjwt p session).map ([·]) = .ok result) : ∀ item ∈ result, P item := by
    cases hselected : c.selectLegacySdjwt p session with
    | error e =>
      rw [hselected] at h
      cases h
    | ok selected =>
      rw [hselected] at h
      cases h
      simpa using selectLegacySdjwt_holds hP hselected
  unfold selectPresentation at h
  split at h
  · split at h
    · exact hlegacy h
    · exact selectForDcql_forall hP h
  · exact hlegacy h

end

def FromHolding (p : Platform) (item : PreparedPresentationCredential) : Prop :=
  SelectedFrom p item.source item.selected

theorem selectPresentation_fromHolding (h : c.selectPresentation p session = .ok result) :
    ∀ item ∈ result, FromHolding p item :=
  selectPresentation_forall ⟨fun _ _ _ _ => .mdoc, fun _ _ _ _ => .sdJwt, fun _ _ _ => .sdJwt⟩ h

end Candidates

variable {s : SessionInfo}

theorem Admitted.frozen {p : Platform} {c : Core} {req : Oid4vp.AuthRequest} (h : Admitted p c req s)
    : s.Frozen p := by
  obtain ⟨prepared, hne, rfl, hselected⟩ := h.selection
  refine ⟨by simpa [SessionInfo.freeze] using hne, ?_⟩
  rw [SessionInfo.freeze, List.forall₂_map_left_iff, List.forall₂_map_right_iff, List.forall₂_same]
  exact selectPresentation_fromHolding hselected

/-! ### Every state of a run -/

structure Selected (p : Platform) (c : Core) : Prop where
  session : c.vp.Validated → c.session ≠ none
  frozen : ∀ s, c.session = some s → s.Frozen p
  signing : ∀ pending s, c.vp = .awaitingDeviceSignature pending → c.session = some s →
    Oid4vp.Signing p s.selectedCredentials pending

variable {p : Platform} {r : Entropy} {c c' : Core} {e : Event} {out : Core × List Effect}

theorem Selected.of_unvalidated (hvp : ¬ c.vp.Validated) (hfrozen : ∀ s, c.session = some s → s.Frozen p) :
    c.Selected p := by
  refine ⟨fun h => absurd h hvp, hfrozen, fun pending _ h => ?_⟩
  rw [h] at hvp
  exact absurd trivial hvp

theorem Selected.of_ended (hvp : ¬ c.vp.Validated) (hsession : c.session = none) : c.Selected p :=
  .of_unvalidated hvp (by simp [hsession])

theorem Selected.some_session (h : c.Selected p) (hvp : c.vp.Validated) :
    ∃ s, c.session = some s := Option.ne_none_iff_exists'.mp (h.session hvp)

theorem Selected.congr (h : c.Selected p) (hvp : c'.vp = c.vp) (hsession : c'.session = c.session) :
    c'.Selected p := by
  obtain ⟨h₁, h₂, h₃⟩ := h
  exact ⟨by rwa [hvp, hsession], by rwa [hsession], by rwa [hvp, hsession]⟩

theorem selectCredentialsFor_consent (hs : c.session = some s) :
    c.selectCredentialsFor .consentGranted = s.selectedCredentials := by
  simp [selectCredentialsFor, hs]

theorem Provisioned.selected (h : Provisioned p c) : c.Selected p := by
  have hdata := FlowData.presentation.inj (h.flowData .presentation)
  exact .of_ended (by rw [hdata.1]; exact id) hdata.2.1

/-! ### What is posted -/

structure Answers (p : Platform) (r : Entropy) (c : Core) (s : SessionInfo)
    (done : List Oid4vp.CompletedPresentation) (url : String) (body : Bytes) : Prop where
  session : c.session = some s
  clear : c.presentationSensitiveAbortReason p = none
  posted : ∃ state, Posted p r c s (utf8 (Oid4vp.assembleDirectPostBody p done state)) body
  url : url = s.responseUri

variable {url : String} {body : Bytes}

end Core

/-! ### A presentation from beginning to end

The wallet trusts one access authority, holds one credential of one claim and is asked for that claim. -/

namespace Sample

def header : Json := .obj [("alg", .str "ES256")]

def trustList : Json := .obj [("seq", .num (.posInt 1)), ("valid_from", .num (.posInt 0)),
  ("valid_until", .num (.posInt 100)), ("anchors", .arr [.obj [("cert", .str "AQ"),
    ("service", .str "rp-access-ca"), ("status", .str "granted")]])]

def request : Json := .obj [("client_id", .str "x509_san_dns:rp.example"), ("nonce", .str "n"),
  ("aud", .str "wallet"), ("response_uri", .str "https://rp.example/"),
  ("response_mode", .str "direct_post"), ("claims", .arr [.str "age"])]

/-- Every signature of a token is accepted, and three bytes stand for the three documents. -/
def platform : Platform := { Decoy.platform with
  sha256 := fun _ => oneHash
  verify := fun _ _ _ _ => true
  parseJson := fun b => if b = [1] then some header else if b = [2] then some trustList
    else if b = [3] then some request else none }

def trusting : Core := { Core.new "wallet" "device" 0 with
  nowEpoch := 10
  trustStore := ⟨some ⟨1, 0, 100, [⟨[1], .relyingPartyAccessCa, .granted⟩], [], []⟩⟩ }

def core : Core := trusting.loadUnverifiedCredentialForTesting ⟨"jwt", [("age", "disclosure")], none⟩

def asked : Event := .authorizationRequestReceived (utf8 "AQ.Aw.AQ")

def resolved : Event := .rpCertChainResolved [[2]] ["https://rp.example/"]

/-- The run that delivers the presentation. -/
def inputs : List (Event × Entropy) := [(asked, []), (resolved, []), (.userConsented, []),
  (.deviceSignatureProduced [7], []), (.presentationDelivered, [])]

theorem trusting_provisioned : Core.Provisioned platform trusting := by
  have hclock : Core.Provisioned platform { Core.new "wallet" "device" 0 with nowEpoch := 10 } :=
    .clock (.new "wallet" "device" 0) (by decide)
  have hloaded : Core.loadTrustList platform { Core.new "wallet" "device" 0 with nowEpoch := 10 }
      (utf8 "AQ.Ag.AQ") [] = .ok trusting := by
    rfl
  exact .trustList hclock hloaded

theorem core_provisioned : Core.Provisioned platform core := .fixture trusting_provisioned _

end Sample

def Effect.isDirectPost : Effect → Bool
  | .http .openid4vpDirectPost _ _ => true
  | _ => false

end EuWallet.Wallet
