import EuWallet.Codec.Text

/-! # The attestation catalogue

The credential types the wallet understands, the claims each of them must carry, and the issuers that
may issue it. -/

namespace EuWallet.Trust

open Codec

inductive ClaimPath where
  | json (path : String)
  | mdoc (ns element : String)
deriving DecidableEq

structure ClaimSpec where
  path : ClaimPath
  displayName : String
  mandatory : Bool
deriving DecidableEq

inductive IssuerTrustDomain where
  | pid
  | attestation
deriving DecidableEq

structure AttestationType where
  id : String
  displayName : String
  format : String
  issuerTrustDomain : IssuerTrustDomain
  claims : List ClaimSpec
  trustedIssuers : List String
deriving DecidableEq

def AttestationType.mandatoryClaims (t : AttestationType) : List ClaimPath :=
  (t.claims.filter (·.mandatory)).map (·.path)

structure Catalogue where
  types : List AttestationType
deriving DecidableEq

namespace Catalogue

/-- `Catalogue::register`: replace the entry of the same id, or append. -/
def register (c : Catalogue) (t : AttestationType) : Catalogue :=
  match c.types.findIdx? (·.id == t.id) with
  | some i => ⟨c.types.set i t⟩
  | none => ⟨c.types ++ [t]⟩

def get (c : Catalogue) (id : String) : Option AttestationType := c.types.find? (·.id == id)

def issuerAllowed (c : Catalogue) (id issuer : String) : Bool :=
  (c.get id).any (·.trustedIssuers.contains issuer)

def issuerTrustDomain (c : Catalogue) (id : String) : Option IssuerTrustDomain :=
  (c.get id).map (·.issuerTrustDomain)

def satisfiesMandatory (c : Catalogue) (id : String) (held : List String) : Bool :=
  (c.get id).any fun t => t.mandatoryClaims.all fun m => match m with
    | .json path => held.contains path
    | .mdoc _ _ => false

def satisfiesMandatoryMdoc (c : Catalogue) (docType : String) (held : List (String × String)) : Bool :=
  (c.get docType).any fun t => t.format == "mso_mdoc" && t.mandatoryClaims.all fun m => match m with
    | .mdoc ns element => held.contains (ns, element)
    | .json _ => false

end Catalogue

/-! ### The types the wallet ships with -/

private def jsonClaim (path displayName : String) (mandatory : Bool) : ClaimSpec :=
  ⟨.json path, displayName, mandatory⟩

private def mdocClaim (ns element displayName : String) (mandatory : Bool) : ClaimSpec :=
  ⟨.mdoc ns element, displayName, mandatory⟩

private def familyName := jsonClaim "family_name" "Family name" true
private def givenName := jsonClaim "given_name" "Given name" true
private def ageOver18 := jsonClaim "age_over_18" "Over 18" false
private def issuingCountry := jsonClaim "issuing_country" "Issuing country" true
private def expiryDate := jsonClaim "expiry_date" "Expiry date" true

def defaultCatalogue : Catalogue :=
  let issuers := ["https://issuer.example"]
  ⟨[
    ⟨"dev.advatar.tlsn.evidence.1", "TLSNotary web evidence (development)", "dc+sd-jwt", .attestation,
      [jsonClaim "tlsn_evidence" "Versioned TLSNotary evidence provenance" true],
      ["https://issuer.advatar.systems", "https://issuer.example"]⟩,
    ⟨"urn:eudi:pid:1", "Person Identification Data", "dc+sd-jwt", .pid,
      [familyName, givenName, jsonClaim "birthdate" "Date of birth" true,
        jsonClaim "picture" "Portrait" true, ageOver18], issuers⟩,
    ⟨"eu.europa.ec.eudi.pid.1", "Person Identification Data (mdoc)", "mso_mdoc", .pid,
      [mdocClaim "eu.europa.ec.eudi.pid.1" "family_name" "Family name" true,
        mdocClaim "eu.europa.ec.eudi.pid.1" "given_name" "Given name" true,
        mdocClaim "eu.europa.ec.eudi.pid.1" "birth_date" "Date of birth" true,
        mdocClaim "eu.europa.ec.eudi.pid.1" "portrait" "Portrait" true], issuers⟩,
    ⟨"urn:eudi:mdl:1", "Mobile Driving Licence", "dc+sd-jwt", .attestation,
      [familyName, givenName, jsonClaim "driving_privileges" "Driving categories" true,
        issuingCountry, ageOver18], issuers⟩,
    ⟨"org.iso.18013.5.1.mDL", "Mobile Driving Licence (mdoc)", "mso_mdoc", .attestation,
      [mdocClaim "org.iso.18013.5.1" "family_name" "Family name" true,
        mdocClaim "org.iso.18013.5.1" "given_name" "Given name" true,
        mdocClaim "org.iso.18013.5.1" "age_over_18" "Over 18" false], issuers⟩,
    ⟨"urn:eudi:passport:1", "Passport", "dc+sd-jwt", .attestation,
      [familyName, givenName, jsonClaim "document_number" "Passport number" true,
        jsonClaim "nationality" "Nationality" true, expiryDate, ageOver18], issuers⟩,
    ⟨"urn:eudi:nid:1", "National ID Card", "dc+sd-jwt", .attestation,
      [familyName, givenName, jsonClaim "document_number" "Document number" true,
        issuingCountry, expiryDate, ageOver18], issuers⟩,
    ⟨"urn:eudi:pid:de:1", "German ID Card", "dc+sd-jwt", .pid,
      [familyName, givenName, jsonClaim "birthdate" "Date of birth" true,
        jsonClaim "place_of_birth" "Place of birth" true,
        jsonClaim "resident_address" "Resident address" true, issuingCountry, ageOver18], issuers⟩]⟩

end EuWallet.Trust
