import EuWallet.Wallet.Ingest

/-! # What a presentation discloses

Which disclosures of an SD-JWT a request needs, which claims become visible by them, and which
elements of an mdoc remain after minimisation. -/

namespace EuWallet.Wallet

open Codec Codec.Cbor Crypto Formats Protocol

/-! ### Requested paths -/

inductive RequestedSdJwtPathElement where
  | name (s : String)
  | index (i : ℕ)
  | anyIndex
deriving DecidableEq

def requestedSdjwtPath (path : List Json) : Option (List RequestedSdJwtPathElement) :=
  if path.isEmpty then none
  else path.mapM fun element => match element with
    | .str name => if name.isEmpty then none else some (.name name)
    | .num n => n.asU64.map .index
    | .null => some .anyIndex
    | _ => none

def requestedMdocPath : List Json → Option (String × String)
  | [.str ns, .str element] => if ns.isEmpty || element.isEmpty then none else some (ns, element)
  | _ => none

def collectMatchingJsonPaths : List RequestedSdJwtPathElement → Json → List ClaimPathElement →
    List (List ClaimPathElement × Json)
  | [], value, current => [(current, value)]
  | .name name :: tail, .obj members, current => match members.lookup name with
    | some child => collectMatchingJsonPaths tail child (current ++ [.name name])
    | none => []
  | .index i :: tail, .arr values, current => match values[i]? with
    | some child => collectMatchingJsonPaths tail child (current ++ [.index i])
    | none => []
  | .anyIndex :: tail, .arr values, current => values.zipIdx.flatMap fun (child, i) =>
    collectMatchingJsonPaths tail child (current ++ [.index i])
  | _ :: _, _, _ => []

def matchingSdjwtValues (a : AuthenticatedSdJwtHolding) (requested : List RequestedSdJwtPathElement) :
    List (List ClaimPathElement × Json) :=
  collectMatchingJsonPaths requested (.obj a.processed.claims) []

def claimPathIsPrefix (short path : List ClaimPathElement) : Bool := short.isPrefixOf path

/-- Add an element at the end unless it is there. -/
def pushNew {α : Type} [DecidableEq α] (xs : List α) (x : α) : List α :=
  if xs.contains x then xs else xs ++ [x]

/-! ### Visible claims -/

/-- `sdjwt_path_string`: dotted names, other names and indices in brackets. -/
def sdjwtPathString (p : Platform) (path : List ClaimPathElement) : String :=
  path.foldl (fun rendered element => match element with
    | .name name =>
      if !name.isEmpty && (utf8 name).all (fun b => isAsciiAlphanumeric b || b == 95 || b == 45) then
        (if rendered.isEmpty then rendered else rendered ++ ".") ++ name
      else rendered ++ "[" ++ p.renderJson (.str name) ++ "]"
    | .index i => rendered ++ "[" ++ toString i ++ "]") ""

mutual

def collectJsonLeafPaths : Json → List ClaimPathElement → List (List ClaimPathElement)
  | .obj (m :: ms), path => memberLeafPaths (m :: ms) path
  | .arr (v :: vs), path => elementLeafPaths (v :: vs) 0 path
  | _, path => if path.isEmpty then [] else [path]

def memberLeafPaths : List (String × Json) → List ClaimPathElement → List (List ClaimPathElement)
  | [], _ => []
  | (name, child) :: rest, path =>
    collectJsonLeafPaths child (path ++ [.name name]) ++ memberLeafPaths rest path

def elementLeafPaths : List Json → ℕ → List ClaimPathElement → List (List ClaimPathElement)
  | [], _, _ => []
  | child :: rest, i, path =>
    collectJsonLeafPaths child (path ++ [.index i]) ++ elementLeafPaths rest (i + 1) path

end

def leafIsVisible (a : AuthenticatedSdJwtHolding) (selected : List String) (path : List ClaimPathElement) : Bool :=
  match path.head? with
  | some (.name root) => !sdjwtControlClaims.contains root && root != "_sd_alg" &&
    (a.processed.disclosures.filter fun d => claimPathIsPrefix d.path path).all fun d =>
      selected.contains d.digest
  | _ => false

def visibleSdjwtClaims (p : Platform) (a : AuthenticatedSdJwtHolding) (selected : List String) : List String :=
  ((collectJsonLeafPaths (.obj a.processed.claims) []).filter (leafIsVisible a selected)).foldl
    (fun visible path => pushNew visible (sdjwtPathString p path)) []

/-! ### Selected disclosures -/

structure SdJwtDisclosureSelection where
  disclosures : List String
  revealedClaims : List String
deriving DecidableEq

def addSdjwtDisclosureDependencies (a : AuthenticatedSdJwtHolding) (selected : List String) : List String :=
  selected.foldl (fun acc digest =>
    match (a.processed.disclosures.find? (·.digest == digest)).bind (·.parentDigest) with
    | some parent => pushNew acc parent
    | none => acc) selected

def closeDependencies (a : AuthenticatedSdJwtHolding) : ℕ → List String → List String
  | 0, selected => selected
  | rounds + 1, selected => closeDependencies a rounds (addSdjwtDisclosureDependencies a selected)

/-- The digests of the disclosures above or below a matched path. -/
def touchedDigests (a : AuthenticatedSdJwtHolding) (matched : List (List ClaimPathElement)) : List String :=
  (matched.flatMap fun path => (a.processed.disclosures.filter fun d =>
    claimPathIsPrefix d.path path || claimPathIsPrefix path d.path).map (·.digest)).foldl pushNew []

def selectAuthenticatedSdjwtDisclosuresForPaths (p : Platform) (a : AuthenticatedSdJwtHolding)
    (matched : List (List ClaimPathElement)) : SdJwtDisclosureSelection :=
  let selected := closeDependencies a (a.processed.disclosures.length + 1) (touchedDigests a matched)
  { disclosures := (a.processed.disclosures.filter fun d => selected.contains d.digest).map (·.raw)
    revealedClaims := visibleSdjwtClaims p a selected }

def selectAuthenticatedSdjwtDisclosures (p : Platform) (a : AuthenticatedSdJwtHolding)
    (requested : List (List RequestedSdJwtPathElement)) : Option SdJwtDisclosureSelection := do
  let matched ← requested.mapM fun path =>
    let found := matchingSdjwtValues a path
    if found.isEmpty then none else some (found.map (·.1))
  return selectAuthenticatedSdjwtDisclosuresForPaths p a (matched.flatten.foldl pushNew [])

def minimumClaimSet (requested held : List String) : List String :=
  ((requested.filter held.contains).insertionSort (· ≤ ·)).dedup

/-! ### mdoc elements -/

def mdocValueAt (i : IssuerSigned) (path : String × String) : Option Value :=
  i.nameSpaces.findSome? fun nsItems =>
    if nsItems.1 ≠ path.1 then none
    else (nsItems.2.find? (·.elementId == path.2)).map (·.elementValue)

def minimiseMdoc (i : IssuerSigned) (requested : List (String × String)) : IssuerSigned where
  nameSpaces := i.nameSpaces.map fun nsItems =>
    (nsItems.1, nsItems.2.filter fun item => requested.contains (nsItems.1, item.elementId))
  issuerAuth := i.issuerAuth

mutual

def cborValueMatchesJson : Value → Json → Bool
  | .text l, .str r => l == r
  | .bool l, .bool r => l == r
  | .uint l, .num r => r.asU64 == some l
  | .nint l, .num r => r.asI64 == some (-1 - (l : ℤ))
  | .null, .null => true
  | .array l, .arr r => l.length == r.length && itemsMatchJson l r
  | .map l, .obj r => l.length == r.length && pairsMatchJson l r
  | _, _ => false

def itemsMatchJson : List Value → List Json → Bool
  | l :: ls, r :: rs => cborValueMatchesJson l r && itemsMatchJson ls rs
  | _, _ => true

def pairsMatchJson : List (Value × Value) → List (String × Json) → Bool
  | [], _ => true
  | (.text key, value) :: rest, members => (match members.lookup key with
      | some right => cborValueMatchesJson value right
      | none => false) && pairsMatchJson rest members
  | _ :: _, _ => false

end

def sdDisclosureValue (p : Platform) (b64 : String) : Option Json := do
  let values ← (← p.parseJson (← b64Decode b64)).asArray
  values[2]?

def mdocGeneratedNonce (p : Platform) (nonce : String) : String :=
  "mgn-" ++ hexBytes ((p.sha256 (utf8 ("eudi-mdoc-generated-nonce:" ++ nonce))).1.take 12)

def credentialVctAndIssuer (p : Platform) (issuerJwt : String) : String × String :=
  let payload := (splitStr '.' issuerJwt)[1]?.bind p.partJson
  let text (name : String) : String := ((payload.bind (·.get name)).bind Json.asStr).getD ""
  (text "vct", text "iss")

end EuWallet.Wallet
