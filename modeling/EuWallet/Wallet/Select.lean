import EuWallet.Wallet.Disclose

/-! # Selecting what to present

Whether the evidence behind a holding is current, which holdings answer a request, and the consent
screen of the selection. A selection is made once, before the user is asked; what is signed later is
what it froze. -/

namespace EuWallet.Wallet

open Codec Crypto Formats Presenter Protocol Trust

def eligibilityFromIngestionError : CredentialIngestionError → PresentationEligibilityError
  | .credentialExpired => .credentialExpired
  | .credentialNotYetValid => .credentialNotYetValid
  | _ => .credentialProvenanceInvalid

def SessionInfo.freeze (session : SessionInfo) (prepared : List PreparedPresentationCredential) : SessionInfo :=
  { session with
    selectedCredentials := prepared.map (·.selected)
    selectedRevealedClaims := (prepared.flatMap (·.revealedClaims)).foldl pushNew []
    selectedSources := prepared.map (·.source) }

namespace Core

/-! ### Current evidence -/

/-- The part `sdjwt_credential_is_current` and `mdoc_credential_is_current` share: the validity
window, then the whole authentication again. `same` compares its result with the holding. -/
def credentialIsCurrent (p : Platform) (c : Core) (validity : CredentialValidity)
    (provenance : StoredProvenance) (same : VerifiedCredential → Bool) :
    Except PresentationEligibilityError Unit := do
  (validity.validateAt c.nowEpoch).mapError eligibilityFromIngestionError
  match provenance with
  | .testFixture => return ()
  | .authenticated provenance =>
    let authenticated ← (c.authenticateReceivedCredential p provenance.format
      provenance.rawCredential provenance.issuer.certificatePath
      provenance.issuer.identity).mapError eligibilityFromIngestionError
    if authenticated.provenance ≠ provenance then throw .credentialProvenanceInvalid
    if same authenticated.credential then return () else throw .credentialProvenanceInvalid

def sdjwtCredentialIsCurrent (p : Platform) (c : Core) (stored : StoredSdJwtCredential) :
    Except PresentationEligibilityError Unit :=
  c.credentialIsCurrent p stored.validity stored.provenance fun credential => match credential with
    | .sdJwt holding authenticated validity =>
      holding == stored.holding && stored.authenticated == some authenticated &&
        validity == stored.validity
    | .mdoc _ _ => false

def mdocCredentialIsCurrent (p : Platform) (c : Core) (stored : StoredMdocCredential) :
    Except PresentationEligibilityError Unit :=
  c.credentialIsCurrent p stored.validity stored.provenance fun credential => match credential with
    | .mdoc holding validity => holding == stored.holding && validity == stored.validity
    | .sdJwt _ _ _ => false

def presentationTrustIsCurrent (p : Platform) (c : Core) (session : SessionInfo) :
    Except PresentationEligibilityError Unit := do
  if !c.trustStore.isValidAt c.nowEpoch then throw .trustEvidenceInvalid
  match session.rpProvenance with
  | none => throw .trustEvidenceInvalid
  | some provenance =>
    let (registered, publicKey, _) := c.resolveRp p provenance.certificateChain
    if !registered || publicKey != provenance.publicKey then throw .trustEvidenceInvalid

def sourceIsCurrent (p : Platform) (c : Core) :
    PresentationCredentialReference → Except PresentationEligibilityError Unit
  | .sdJwt holding authenticated =>
    match c.credentials.find? (fun s => s.holding == holding && s.authenticated == authenticated) with
    | none => .error .credentialProvenanceInvalid
    | some stored => c.sdjwtCredentialIsCurrent p stored
  | .mdoc holding => match c.mdocHoldings.find? (·.holding == holding) with
    | none => .error .credentialProvenanceInvalid
    | some stored => c.mdocCredentialIsCurrent p stored

def presentationEvidenceIsCurrent (p : Platform) (c : Core) :
    Except PresentationEligibilityError Unit := do
  match c.session with
  | none => throw .trustEvidenceInvalid
  | some session =>
    c.presentationTrustIsCurrent p session
    if session.selectedSources.isEmpty ∨
        session.selectedSources.length ≠ session.selectedCredentials.length then
      throw .noEligibleCredential
    session.selectedSources.forM (c.sourceIsCurrent p)

/-! ### Candidates -/

/-- What one stored credential does in a selection loop: it is passed over, it leaves an error that
counts when nothing is selected, or it is selected. -/
inductive Candidate where
  | skip
  | error (e : PresentationEligibilityError)
  | found (c : PreparedPresentationCredential)
deriving DecidableEq

/-- A candidate that fits the request is selected when its evidence is current. -/
def candidateIfCurrent (current : Except PresentationEligibilityError Unit)
    (prepared : PreparedPresentationCredential) : Candidate :=
  match current with
  | .error e => .error e
  | .ok _ => .found prepared

def gatherCandidates (multiple : Bool) : List Candidate → List PreparedPresentationCredential →
    Option PresentationEligibilityError → Except PresentationEligibilityError (List PreparedPresentationCredential)
  | [], selected, firstError =>
    if selected.isEmpty then .error (firstError.getD .noEligibleCredential) else .ok selected
  | .skip :: rest, selected, firstError => gatherCandidates multiple rest selected firstError
  | .error e :: rest, selected, firstError =>
    gatherCandidates multiple rest selected (firstError.or (some e))
  | .found item :: rest, selected, firstError =>
    if !multiple then .ok (selected ++ [item])
    else if maxPresentationsPerDcqlQuery < (selected ++ [item]).length then
      .error .noEligibleCredential
    else gatherCandidates multiple rest (selected ++ [item]) firstError

def firstCandidate : List Candidate → Option PresentationEligibilityError →
    Except PresentationEligibilityError PreparedPresentationCredential
  | [], firstError => .error (firstError.getD .noEligibleCredential)
  | .skip :: rest, firstError => firstCandidate rest firstError
  | .error e :: rest, firstError => firstCandidate rest (firstError.or (some e))
  | .found item :: _, _ => .ok item

/-- An authenticated SD-JWT with the disclosures selected from it. -/
def preparedAuthenticated (holding : HeldCredential) (a : AuthenticatedSdJwtHolding)
    (selection : SdJwtDisclosureSelection) (dcqlId : Option String) : PreparedPresentationCredential where
  selected := .sdJwt holding.issuerJwt selection.disclosures dcqlId
  source := .sdJwt holding (some a)
  revealedClaims := selection.revealedClaims

/-- A fixture SD-JWT, minimised by claim name. -/
def preparedFixture (holding : HeldCredential) (claims : List String) (dcqlId : Option String) :
    PreparedPresentationCredential :=
  let selectedClaims := minimumClaimSet claims (holding.disclosuresByClaim.map (·.1))
  { selected := .sdJwt holding.issuerJwt
      (selectedClaims.filterMap fun claim => holding.disclosuresByClaim.lookup claim) dcqlId
    source := .sdJwt holding none
    revealedClaims := selectedClaims }

/-! ### One credential query -/

/-- The mdoc labels of the requested claims, as the consent screen shows them. -/
def mdocClaimLabel (path : String × String) (claim : ClaimQuery) : String :=
  let path := path.1 ++ "." ++ path.2
  if claim.intentToRetain = some true then path ++ " [retained]" else path

def mdocValuesOk (claims : List ClaimQuery) (paths : List (String × String)) (i : IssuerSigned) : Bool :=
  (claims.zip paths).all fun (claim, path) => match claim.values with
    | none => true
    | some allowed => (mdocValueAt i path).any fun value => allowed.any (cborValueMatchesJson value)

/-- The selected form of an mdoc, bound to the session of the request. -/
def preparedMdoc (p : Platform) (session : SessionInfo) (holding : MdocHolding)
    (paths : List (String × String)) (labels : List String) (dcqlId : Option String) :
    PreparedPresentationCredential :=
  let mgn := mdocGeneratedNonce p session.nonce
  { selected := .mdoc holding.doctype (minimiseMdoc holding.issuerSigned paths)
      (oid4vpSessionTranscript p session.rpClientId session.responseUri session.nonce mgn)
      emptyDeviceNamespacesBytes mgn dcqlId
    source := .mdoc holding
    revealedClaims := labels }

def mdocCandidate (p : Platform) (c : Core) (session : SessionInfo) (q : CredentialQuery)
    (claims : List ClaimQuery) (paths : List (String × String)) (doctype : String)
    (stored : StoredMdocCredential) : Candidate :=
  if stored.holding.doctype == doctype && mdocValuesOk claims paths stored.holding.issuerSigned &&
      paths.all (fun path => (mdocValueAt stored.holding.issuerSigned path).isSome) then
    candidateIfCurrent (c.mdocCredentialIsCurrent p stored)
      (preparedMdoc p session stored.holding paths (List.zipWith mdocClaimLabel paths claims)
        (some q.id))
  else .skip

def acceptedPaths (a : AuthenticatedSdJwtHolding)
    (claimPath : ClaimQuery × List RequestedSdJwtPathElement) : Option (List (List ClaimPathElement)) :=
  let accepted := (matchingSdjwtValues a claimPath.2).filter fun found =>
    claimPath.1.values.all (·.contains found.2)
  if accepted.isEmpty then none else some (accepted.map (·.1))

def fixtureSdjwtValuesOk (p : Platform) (claims : List ClaimQuery) (holding : HeldCredential) : Bool :=
  claims.all fun claim => match claim.values with
    | none => true
    | some allowed =>
      ((holding.disclosuresByClaim.lookup claim.pathString).bind (sdDisclosureValue p)).any
        allowed.contains

def sdjwtCandidate (p : Platform) (c : Core) (q : CredentialQuery) (claims : List ClaimQuery)
    (paths : List (List RequestedSdJwtPathElement)) (stored : StoredSdJwtCredential) : Candidate :=
  let vcts := (q.meta.map (·.vctValues)).getD []
  let current := c.sdjwtCredentialIsCurrent p stored
  match stored.authenticated, stored.provenance with
  | some a, .authenticated _ =>
    if vcts.isEmpty ||
        ((a.processed.claims.lookup "vct").bind Json.asStr).any vcts.contains then
      match (claims.zip paths).mapM (acceptedPaths a) with
      | none => .skip
      | some accepted => candidateIfCurrent current (preparedAuthenticated stored.holding a
          (selectAuthenticatedSdjwtDisclosuresForPaths p a (accepted.flatten.foldl pushNew []))
          (some q.id))
    else .skip
  | none, .testFixture =>
    let names := (claims.map (·.pathString)).filter (!·.isEmpty)
    if (vcts.isEmpty || vcts.contains (credentialVctAndIssuer p stored.holding.issuerJwt).1) &&
        fixtureSdjwtValuesOk p claims stored.holding &&
        names.all (fun name => (stored.holding.disclosuresByClaim.lookup name).isSome) then
      candidateIfCurrent current (preparedFixture stored.holding names (some q.id))
    else .skip
  | _, _ => .error .credentialProvenanceInvalid

def selectForQueryClaims (p : Platform) (c : Core) (session : SessionInfo) (q : CredentialQuery)
    (claims : List ClaimQuery) : Except PresentationEligibilityError (List PreparedPresentationCredential) :=
  let multiple := q.multiple == some true
  if q.format = "mso_mdoc" then
    match claims.mapM (fun claim => requestedMdocPath claim.path), q.meta.bind (·.doctypeValue) with
    | some paths, some doctype =>
      gatherCandidates multiple (c.mdocHoldings.map (c.mdocCandidate p session q claims paths doctype))
        [] none
    | _, _ => .error .noEligibleCredential
  else if q.format ≠ "dc+sd-jwt" then .error .noEligibleCredential
  else match claims.mapM (fun claim => requestedSdjwtPath claim.path) with
    | some paths => gatherCandidates multiple (c.credentials.map (c.sdjwtCandidate p q claims paths))
        [] none
    | none => .error .noEligibleCredential

def selectFirstOption (p : Platform) (c : Core) (session : SessionInfo) (q : CredentialQuery) :
    List (List ℕ) → Option PresentationEligibilityError →
    Except PresentationEligibilityError (List PreparedPresentationCredential)
  | [], firstError => .error (firstError.getD .noEligibleCredential)
  | option :: rest, firstError =>
    match c.selectForQueryClaims p session q (option.filterMap (q.claims[·]?)) with
    | .ok selected => .ok selected
    | .error e => selectFirstOption p c session q rest (firstError.or (some e))

def selectForQuery (p : Platform) (c : Core) (session : SessionInfo) (q : CredentialQuery) :
    Except PresentationEligibilityError (List PreparedPresentationCredential) :=
  match q.claimSelectionOptions with
  | none => .error .noEligibleCredential
  | some options => c.selectFirstOption p session q options none

/-! ### A request without a query -/

def legacyCandidate (p : Platform) (c : Core) (session : SessionInfo) (stored : StoredSdJwtCredential) : Candidate :=
  let current := c.sdjwtCredentialIsCurrent p stored
  match stored.authenticated, stored.provenance with
  | some a, .authenticated _ =>
    match selectAuthenticatedSdjwtDisclosures p a (session.requestedClaims.map ([.name ·])) with
    | none => .skip
    | some selection =>
      candidateIfCurrent current (preparedAuthenticated stored.holding a selection none)
  | none, .testFixture =>
    if session.requestedClaims.all fun name =>
        (stored.holding.disclosuresByClaim.lookup name).isSome then
      candidateIfCurrent current (preparedFixture stored.holding session.requestedClaims none)
    else .skip
  | _, _ => .error .credentialProvenanceInvalid

def selectLegacySdjwt (p : Platform) (c : Core) (session : SessionInfo) :
    Except PresentationEligibilityError PreparedPresentationCredential :=
  firstCandidate (c.credentials.map (c.legacyCandidate p session)) none

/-! ### The whole request -/

def selectForDcql (p : Platform) (c : Core) (session : SessionInfo) (dcql : DcqlQuery) :
    Except PresentationEligibilityError (List PreparedPresentationCredential) :=
  let candidates := dcql.credentials.map (c.selectForQuery p session)
  match dcql.credentialSelectionPlan (candidates.map fun found => found.toOption.isSome) with
  | none => .error ((candidates.findSome? fun found => match found with
      | .error e => some e
      | .ok _ => none).getD .noEligibleCredential)
  | some [] => .error .noEligibleCredential
  -- The indices of a plan are distinct, so taking a candidate out never finds it gone.
  | some indices => match indices.mapM (fun i => (candidates[i]?).bind Except.toOption) with
    | none => .error .noEligibleCredential
    | some prepared => .ok prepared.flatten

def selectPresentation (p : Platform) (c : Core) (session : SessionInfo) :
    Except PresentationEligibilityError (List PreparedPresentationCredential) :=
  match session.dcql with
  | some dcql =>
    if dcql.credentials.isEmpty then (c.selectLegacySdjwt p session).map ([·])
    else c.selectForDcql p session dcql
  | none => (c.selectLegacySdjwt p session).map ([·])

def withSession (c : Core) (session : SessionInfo) : Core := { c with session := some session }

def preparePresentationSelection (p : Platform) (c : Core) :
    Except PresentationEligibilityError Core := do
  match c.session with
  | none => throw .trustEvidenceInvalid
  | some session =>
    c.presentationTrustIsCurrent p session
    let prepared ← c.selectPresentation p session
    if prepared.isEmpty then throw .noEligibleCredential
    return c.withSession (session.freeze prepared)

def selectCredentialsFor (c : Core) : Oid4vp.Input → List Oid4vp.SelectedCredential
  | .consentGranted => (c.session.map (·.selectedCredentials)).getD []
  | _ => []

/-! ### The consent screen -/

/-- A claim's label without its retention mark. -/
def unretained (claim : String) : String := (stripEnd " [retained]" claim).getD claim

def sourceClaims (p : Platform) : PresentationCredentialReference → List String
  | .sdJwt _ (some a) => visibleSdjwtClaims p a (a.processed.disclosures.map (·.digest))
  | .sdJwt holding none => holding.disclosuresByClaim.map (·.1)
  | .mdoc holding => holding.issuerSigned.nameSpaces.flatMap fun nsItems =>
    nsItems.2.map fun item => nsItems.1 ++ "." ++ item.elementId

def overAskOf (registration : RelyingPartyRegistration) (revealed : List String) : OverAskResult :=
  let unregistered := revealed.filter fun claim =>
    !registration.allowedClaims.contains (unretained claim)
  if unregistered.isEmpty then .withinRegisteredScope else .exceedsRegisteredScope unregistered

def sessionConsentScreen (p : Platform) (session : SessionInfo) : ConsentScreen :=
  let held := ((session.selectedSources.flatMap (sourceClaims p)).foldl pushNew []).insertionSort (· ≤ ·)
  let shared := session.selectedRevealedClaims.map unretained
  let notShared := held.filter (!shared.contains ·)
  match session.rpRegistration with
  | some registration => {
      rpDisplayName := registration.displayName
      purpose := session.purpose
      requestedClaims := session.selectedRevealedClaims
      notSharedClaims := notShared
      verifierRegistration := .registered
      trustMark := registration.trustMark.map fun mark => match mark with
        | .eudiWallet => .eudiWallet
      retention := match registration.retention with
        | .notStored => .notStored
        | .days n => .days n
        | .unspecified => .unspecified
      overAsk := overAskOf registration session.selectedRevealedClaims
      activechain := none }
  | none => {
      rpDisplayName := session.rpClientId
      purpose := session.purpose
      requestedClaims := session.selectedRevealedClaims
      notSharedClaims := notShared
      verifierRegistration := .certificateValidated
      trustMark := none
      retention := .unspecified
      overAsk := .registrationScopeUnavailable
      activechain := none }

def consentScreen (p : Platform) (c : Core) : ScreenDescription :=
  match c.session with
  | none => .consent {
      rpDisplayName := "", purpose := "", requestedClaims := [], notSharedClaims := []
      verifierRegistration := .certificateValidated, trustMark := none, retention := .unspecified
      overAsk := .registrationScopeUnavailable, activechain := none }
  | some session => .consent (sessionConsentScreen p session)

end Core

end EuWallet.Wallet
