import EuWallet.Codec.Json

/-! # The credential query language

The DCQL query of a presentation request, as `oid4vp::dcql` reads it: first the raw value is held to
fixed budgets, then it is deserialised, then the query itself is checked. `credentialSelectionPlan`
chooses the smallest set of queries that satisfies every required credential set. -/

namespace EuWallet.Protocol

open Codec

def maxCredentialQueries : ℕ := 16
def maxCredentialSetQueries : ℕ := 16
def maxCredentialSetOptions : ℕ := 16
def maxCredentialIdsPerOption : ℕ := maxCredentialQueries
def maxClaimsPerQuery : ℕ := 64
def maxClaimSetOptions : ℕ := 32
def maxClaimIdsPerOption : ℕ := maxClaimsPerQuery
def maxPathDepth : ℕ := 16
def maxValuesPerClaim : ℕ := 64
def maxMetaValues : ℕ := 32
def maxIdentifierBytes : ℕ := 128
def maxClaimNameBytes : ℕ := 256
def maxJsonStringOrKeyBytes : ℕ := 512
def maxJsonValueDepth : ℕ := 16
def maxJsonContainerItems : ℕ := 128

structure DcqlMeta where
  vctValues : List String
  doctypeValue : Option String
deriving DecidableEq

structure ClaimQuery where
  id : Option String
  path : List Json
  values : Option (List Json)
  intentToRetain : Option Bool
deriving DecidableEq

structure CredentialQuery where
  id : String
  format : String
  «meta» : Option DcqlMeta
  claims : List ClaimQuery
  claimSets : Option (List (List String))
  trustedAuthorities : Option Json
  requireCryptographicHolderBinding : Option Bool
  multiple : Option Bool
deriving DecidableEq

structure CredentialSetQuery where
  options : List (List String)
  required : Bool
deriving DecidableEq

structure DcqlQuery where
  credentials : List CredentialQuery
  credentialSets : Option (List CredentialSetQuery)
deriving DecidableEq

def pathStringStep (out : String) : Json → String
  | .str s => (if out.isEmpty then out else out ++ ".") ++ s
  | .num n => out ++ "[" ++ n.render ++ "]"
  | .null => out ++ "[]"
  | _ => out

def ClaimQuery.pathString (c : ClaimQuery) : String := c.path.foldl pathStringStep ""

def CredentialQuery.claimSelectionOptions (q : CredentialQuery) : Option (List (List ℕ)) :=
  match q.claimSets with
  | none => some [List.range q.claims.length]
  | some sets => sets.mapM fun set => set.mapM fun id => q.claims.findIdx? (·.id == some id)

/-! ### Deserialisation -/

def record (names : List String) : Json → Option (String → Option Json)
  | .obj m => some fun name => m.lookup name
  | .arr xs =>
    if names.length < xs.length then none else some fun name => xs[names.idxOf name]?
  | _ => none

/-- An optional field: absent and `null` are the same. -/
def optionalField {α : Type} (read : Json → Option α) : Option Json → Option (Option α)
  | none | some .null => some none
  | some v => (read v).map some

/-- A defaulted field: absent is the default, `null` is refused by `read`. -/
def defaultField {α : Type} (read : Json → Option α) (default : α) : Option Json → Option α
  | none => some default
  | some v => read v

/-- An array whose elements are all read. -/
def readArray {α : Type} (read : Json → Option α) (j : Json) : Option (List α) :=
  j.asArray.bind (·.mapM read)

def DcqlMeta.read (j : Json) : Option DcqlMeta := do
  let f ← record ["vct_values", "doctype_value"] j
  let vctValues ← defaultField (readArray Json.asStr) [] (f "vct_values")
  let doctypeValue ← optionalField Json.asStr (f "doctype_value")
  return { vctValues, doctypeValue }

def ClaimQuery.read (j : Json) : Option ClaimQuery := do
  let f ← record ["id", "path", "values", "intent_to_retain"] j
  let id ← optionalField Json.asStr (f "id")
  let path ← (f "path").bind Json.asArray
  let values ← optionalField Json.asArray (f "values")
  let intentToRetain ← optionalField Json.asBool (f "intent_to_retain")
  return { id, path, values, intentToRetain }

def CredentialQuery.read (j : Json) : Option CredentialQuery := do
  let f ← record ["id", "format", "meta", "claims", "claim_sets", "trusted_authorities",
    "require_cryptographic_holder_binding", "multiple"] j
  let id ← (f "id").bind Json.asStr
  let format ← (f "format").bind Json.asStr
  let m ← optionalField DcqlMeta.read (f "meta")
  -- an explicitly empty list of claims is refused
  let claims ← defaultField (fun v => (readArray ClaimQuery.read v).filter (!·.isEmpty)) [] (f "claims")
  let claimSets ← optionalField (readArray (readArray Json.asStr)) (f "claim_sets")
  let trustedAuthorities ← optionalField some (f "trusted_authorities")
  let holderBinding ← optionalField Json.asBool (f "require_cryptographic_holder_binding")
  let multiple ← optionalField Json.asBool (f "multiple")
  return ⟨id, format, m, claims, claimSets, trustedAuthorities, holderBinding, multiple⟩

def CredentialSetQuery.read (j : Json) : Option CredentialSetQuery := do
  let f ← record ["options", "required"] j
  let options ← (f "options").bind (readArray (readArray Json.asStr))
  let required ← defaultField Json.asBool true (f "required")
  return { options, required }

def DcqlQuery.read (j : Json) : Option DcqlQuery := do
  let f ← record ["credentials", "credential_sets"] j
  let credentials ← ((f "credentials").bind (readArray CredentialQuery.read)).filter (!·.isEmpty)
  let credentialSets ← optionalField (readArray CredentialSetQuery.read) (f "credential_sets")
  return { credentials, credentialSets }

/-! ### Budgets -/

def jsonValueWithinBudget : ℕ → Json → Bool
  | 0, _ => false
  | _ + 1, .str s => s.utf8ByteSize ≤ maxJsonStringOrKeyBytes
  | levels + 1, .arr xs => xs.length ≤ maxJsonContainerItems && xs.all (jsonValueWithinBudget levels)
  | levels + 1, .obj m =>
    m.length ≤ maxJsonContainerItems && m.all fun kv =>
      kv.1.utf8ByteSize ≤ maxJsonStringOrKeyBytes && jsonValueWithinBudget levels kv.2
  | _ + 1, _ => true

/-- An array with at least one element. -/
def isNonEmptyArray (j : Json) : Bool := j.asArray.any (!·.isEmpty)

def credentialObjects (query : List (String × Json)) : List (List (String × Json)) :=
  (((query.lookup "credentials").bind Json.asArray).getD []).filterMap Json.asObject

def knownOptionalArraysAreNonEmpty (v : Json) : Bool :=
  match v.asObject with
  | none => false
  | some query =>
    !(query.lookup "credential_sets").any (!isNonEmptyArray ·) &&
      (credentialObjects query).all fun c => !(c.lookup "claim_sets").any (!isNonEmptyArray ·)

def containsUnsupportedSelectionModifier (v : Json) : Bool :=
  match v.asObject with
  | none => false
  | some query => (credentialObjects query).any fun c =>
    Json.hasKey c "trusted_authorities" ||
      (c.lookup "require_cryptographic_holder_binding").any (·.asBool.isNone) ||
      (c.lookup "multiple").any (·.asBool.isNone) ||
      (((c.lookup "claims").bind Json.asArray).getD []).any fun claim =>
        (claim.get "intent_to_retain").any fun intent =>
          (c.lookup "format").bind Json.asStr != some "mso_mdoc" || intent.asBool.isNone

def validDcqlId (id : String) : Bool :=
  !id.isEmpty && id.utf8ByteSize ≤ maxIdentifierBytes &&
    (utf8 id).all fun b => isAsciiAlphanumeric b || b == 95 || b == 45

def sameIdentifierSet (l r : List String) : Bool := l.length == r.length && l.all r.contains

/-- Does `check` hold of every element, given the ones before it? -/
def allWithEarlier {α : Type} (check : List α → α → Bool) : List α → List α → Bool
  | _, [] => true
  | earlier, a :: rest => check earlier a && allWithEarlier check (earlier ++ [a]) rest

/-- A list of alternatives: bounded, non-empty sets of known identifiers, no set twice. -/
def alternativesWithinBudget (maxOptions maxIds : ℕ) (known : String → Bool) (options : List (List String)) : Bool :=
  !options.isEmpty && options.length ≤ maxOptions &&
    allWithEarlier (fun earlier option =>
      !option.isEmpty && option.length ≤ maxIds &&
        allWithEarlier (fun before id => validDcqlId id && !before.contains id && known id) [] option &&
        !earlier.any (sameIdentifierSet · option)) [] options

def metaText (s : String) : Bool := !s.isEmpty && s.utf8ByteSize ≤ maxJsonStringOrKeyBytes

/-- The metadata of a credential query, by format. -/
def metaWithinBudget (format : String) (m : Option DcqlMeta) : Bool :=
  match m with
  | none => false
  | some m =>
    m.vctValues.length ≤ maxMetaValues && m.vctValues.all metaText && m.doctypeValue.all metaText &&
      (if format = "dc+sd-jwt" then !m.vctValues.isEmpty
      else if format = "mso_mdoc" then m.doctypeValue.any (!·.isEmpty)
      else true)

def pathElementWithinBudget : Json → Bool
  | .str name => !name.isEmpty && name.utf8ByteSize ≤ maxClaimNameBytes
  | .num n => n.asU64.isSome
  | .null => true
  | _ => false

def claimValueWithinBudget : Json → Bool
  | .str _ | .bool _ => true
  | .num n => n.asI64.isSome || n.asU64.isSome
  | _ => false

/-- One claim of a credential query, given the earlier ones. -/
def claimWithinBudget (hasClaimSets : Bool) (earlier : List ClaimQuery) (claim : ClaimQuery) : Bool :=
  claim.id.all (fun id => validDcqlId id && !(earlier.filterMap (·.id)).contains id) &&
    (!hasClaimSets || claim.id.isSome) && !claim.path.isEmpty && claim.path.length ≤ maxPathDepth &&
    claim.path.all pathElementWithinBudget &&
    claim.values.all (fun vs =>
      !vs.isEmpty && vs.length ≤ maxValuesPerClaim && vs.all claimValueWithinBudget) &&
    !earlier.any (·.path == claim.path)

def credentialWithinBudget (earlier : List CredentialQuery) (c : CredentialQuery) : Bool :=
  validDcqlId c.id && !earlier.any (·.id == c.id) && !c.format.isEmpty &&
    c.format.utf8ByteSize ≤ maxIdentifierBytes && c.claims.length ≤ maxClaimsPerQuery &&
    c.trustedAuthorities.isNone && metaWithinBudget c.format c.meta &&
    allWithEarlier (claimWithinBudget c.claimSets.isSome) [] c.claims &&
    c.claimSets.all (alternativesWithinBudget maxClaimSetOptions maxClaimIdsPerOption
      fun id => c.claims.any (·.id == some id))

def DcqlQuery.withinBudget (q : DcqlQuery) : Bool :=
  !q.credentials.isEmpty && q.credentials.length ≤ maxCredentialQueries &&
    allWithEarlier credentialWithinBudget [] q.credentials &&
    q.credentialSets.all fun sets =>
      !sets.isEmpty && sets.length ≤ maxCredentialSetQueries && sets.all fun set =>
        alternativesWithinBudget maxCredentialSetOptions maxCredentialIdsPerOption
          (fun id => q.credentials.any (·.id == id)) set.options

def DcqlQuery.fromValue (v : Json) : Option DcqlQuery :=
  if !jsonValueWithinBudget (maxJsonValueDepth + 1) v || !knownOptionalArraysAreNonEmpty v ||
      containsUnsupportedSelectionModifier v then none
  else (DcqlQuery.read v).filter (·.withinBudget)

/-! ### Planning -/

/-- The number of queries in a plan. -/
def countOnes (mask : ℕ) : ℕ := (List.range 16).countP mask.testBit

def preferMask (l r count : ℕ) : Bool :=
  if countOnes l = countOnes r then
    ((List.range count).find? fun i => l.testBit i != r.testBit i).any l.testBit
  else countOnes l < countOnes r

def optionMask (q : DcqlQuery) (satisfiable : List Bool) : ℕ → List String → Option (Option ℕ)
  | mask, [] => some (some mask)
  | mask, id :: rest =>
    match q.credentials.findIdx? (·.id == id) with
    | none => none
    | some i => if satisfiable.getD i false then optionMask q satisfiable (mask ||| 2 ^ i) rest
      else some none

/-- The masks of the satisfiable options of one set, without repetition. -/
def optionMasks (q : DcqlQuery) (satisfiable : List Bool) (options : List (List String)) : Option (List ℕ) :=
  options.foldlM (fun masks option => do
    match ← optionMask q satisfiable 0 option with
    | some mask => return if masks.contains mask then masks else masks ++ [mask]
    | none => return masks) []

/-- All unions of a plan and an option, without repetition. -/
def combinePlans (plans options : List ℕ) : List ℕ :=
  (plans.flatMap fun plan => options.map (plan ||| ·)).foldl
    (fun next mask => if next.contains mask then next else next ++ [mask]) []

def requiredPlans (q : DcqlQuery) (satisfiable : List Bool) (sets : List CredentialSetQuery) : Option (List ℕ) :=
  sets.foldlM (fun plans set =>
    if !set.required then some plans
    else do
      let masks ← optionMasks q satisfiable set.options
      if masks.isEmpty then none else some (combinePlans plans masks)) [0]

def minPlan (count : ℕ) : List ℕ → Option ℕ
  | [] => none
  | plan :: rest => some (rest.foldl (fun best m => if preferMask m best count then m else best) plan)

def DcqlQuery.credentialSelectionPlan (q : DcqlQuery) (satisfiable : List Bool) : Option (List ℕ) :=
  let count := q.credentials.length
  if satisfiable.length ≠ count ∨ count = 0 ∨ maxCredentialQueries < count then none
  else match q.credentialSets with
    | none => if satisfiable.all id then some (List.range count) else none
    | some sets => do
      let plans ← requiredPlans q satisfiable sets
      let selected ← minPlan count plans
      return (List.range count).filter selected.testBit

def DcqlQuery.requestedClaimPaths (q : DcqlQuery) : List String :=
  (q.credentials.flatMap fun c => c.claims.map (·.pathString)).foldl
    (fun paths path => if path.isEmpty || paths.contains path then paths else paths ++ [path]) []

end EuWallet.Protocol
