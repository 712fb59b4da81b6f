import EuWallet.Crypto.Platform

/-! # The Digital Credentials API

Reading a browser-mediated request for one mdoc, and the response body. The flow itself has no machine
of its own; the wallet drives it directly. -/

namespace EuWallet.Protocol.DcApi

open Codec Crypto

inductive DcApiError where
  | malformed
  | unsupportedMode
  | noMdocQuery
deriving DecidableEq

structure DcApiRequest where
  nonce : String
  responseMode : String
  dcqlId : String
  doctype : String
  claims : List (String × String)
deriving DecidableEq

/-- The namespace and element a claim asks for, if its path starts with two names. -/
def claimOf (claim : Json) : Option (String × String) := do
  let path ← (claim.get "path").bind Json.asArray
  let ns ← path[0]?.bind Json.asStr
  let element ← path[1]?.bind Json.asStr
  return (ns, element)

def parseDcapiRequest (p : Platform) (request : Bytes) : Except DcApiError DcApiRequest := do
  let root ← orErr .malformed (p.parseJson request)
  let obj ← orErr .malformed root.asObject
  let text (name : String) : Option String := (obj.lookup name).bind Json.asStr
  if text "response_type" ≠ some "vp_token" then throw .unsupportedMode
  let responseMode ← orErr .unsupportedMode
    ((text "response_mode").filter fun m => m = "dc_api" ∨ m = "dc_api.jwt")
  let nonce ← orErr .malformed (text "nonce")
  let credentials ← orErr .malformed
    (((obj.lookup "dcql_query").bind (·.get "credentials")).bind Json.asArray)
  let query ← orErr .noMdocQuery
    (credentials.find? fun c => (c.get "format").bind Json.asStr == some "mso_mdoc")
  let dcqlId ← orErr .malformed ((query.get "id").bind Json.asStr)
  let doctype ← orErr .noMdocQuery
    (((query.get "meta").bind (·.get "doctype_value")).bind Json.asStr)
  let claims := (((query.get "claims").bind Json.asArray).getD []).filterMap claimOf
  return { nonce, responseMode, dcqlId, doctype, claims }

def vpTokenResponse (p : Platform) (dcqlId : String) (deviceResponse : Bytes) : Bytes :=
  utf8 (p.renderJson (.obj [("vp_token", .obj [(dcqlId, .arr [.str (b64Encode deviceResponse)])])]))

end EuWallet.Protocol.DcApi
