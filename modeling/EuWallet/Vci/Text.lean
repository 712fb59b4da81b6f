import EuWallet.Codec.BoundedJson
import EuWallet.Lib.Fallible

/-! # Texts and values of the issuance transports

The checks on texts, header values and compact tokens that `authorization.rs` and `credential.rs` share, and
the correlation values both flows draw. `ct_eq` compares byte strings without early exit: it is equality. -/

namespace EuWallet.Vci

open Codec Lib Lib.Fallible

abbrev CorrelationId := Hash32

/-- The text of a parsed `HttpsIdentifier`. -/
abbrev HttpsIdentifier := String

/-- The text of a parsed `HttpsEndpoint`. -/
abbrev HttpsEndpoint := String

/-! ### Characters -/

def isNqchar (b : UInt8) : Bool := 0x21 ≤ b && b ≤ 0x7e

def isBase64urlUnpadded (value : Bytes) : Bool :=
  !value.isEmpty && value.all fun b => isAsciiAlphanumeric b || b == 45 || b == 95

def validBoundedText (value : String) (max : ℕ) (allowEmpty : Bool) : Bool :=
  (allowEmpty || !value.isEmpty) && value.utf8ByteSize ≤ max && !value.toList.any isControl

def eqIgnoreAsciiCase (a b : String) : Bool := toAsciiLower a == toAsciiLower b

def dpopHtu (endpoint : String) : String := ((splitOnce '?' endpoint).map (·.1)).getD endpoint

/-! ### Header values -/

def headerText (max : ℕ) (value : String) : Bool :=
  !value.isEmpty && value.utf8ByteSize ≤ max && isAscii value &&
    (utf8 value).all fun b => b == 9 || (0x20 ≤ b && b ≤ 0x7e)

def charsetOnly : Bool → List String → Bool
  | _, [] => true
  | sawCharset, parameter :: rest =>
    match splitOnce '=' (trim parameter) with
    | none => false
    | some (name, value) =>
      if sawCharset || !eqIgnoreAsciiCase (trim name) "charset" then false
      else if !eqIgnoreAsciiCase (trim value) "utf-8" && !eqIgnoreAsciiCase (trim value) "\"utf-8\"" then
        false
      else charsetOnly true rest

/-- The part both `valid_json_content_type` share. -/
def isJsonMediaType (value : String) : Bool :=
  match splitStr ';' value with
  | [] => false
  | media :: parameters =>
    eqIgnoreAsciiCase (trim media) "application/json" && charsetOnly false parameters

def directives (values : List String) : List String :=
  values.flatMap fun value => (splitStr ',' value).map trim

/-! ### Keys -/

def validCoordinate (value : String) : Bool :=
  value.utf8ByteSize == 43 && isBase64urlUnpadded (utf8 value) &&
    (b64Decode value).any fun decoded => decoded.length == 32 && b64Encode decoded == value

/-- `Es256PublicJwk`: two coordinates that `Es256PublicJwk::parse` has accepted. -/
structure Es256PublicJwk where
  x : String
  y : String
  validX : validCoordinate x = true
  validY : validCoordinate y = true
deriving DecidableEq

/-- The public key as a JSON value. -/
def Es256PublicJwk.json (jwk : Es256PublicJwk) : Json :=
  .obj [("crv", .str "P-256"), ("kty", .str "EC"), ("x", .str jwk.x), ("y", .str jwk.y)]

/-- `DpopKeyBinding` and `CredentialKeyBinding`: a handle with the public half of its key. -/
structure KeyBinding where
  keyRef : String
  publicJwk : Es256PublicJwk
  validRef : validBoundedText keyRef 1024 false = true
deriving DecidableEq

/-- An `i64` as a JSON number. -/
def jsonInt (n : ℤ) : Json := .num (if n < 0 then .negInt n else .posInt n.toNat)

/-! ### Random values -/

/-- `fresh_random`: at most 32 values a flow, none zero, none twice. -/
def freshRandom (used : List Hash32) (value : Hash32) : Option (List Hash32) :=
  if 32 ≤ used.length then none
  else if value = zeroHash ∨ value ∈ used then none
  else some (used ++ [value])

theorem freshRandom_eq_some {used after : List Hash32} {value : Hash32} : freshRandom used value = some after ↔
      used.length < 32 ∧ value ≠ zeroHash ∧ value ∉ used ∧ after = used ++ [value] := by
  unfold freshRandom
  split_ifs with hfull hbad
  · simp; omega
  · simp; tauto
  · rw [not_or] at hbad
    rw [Nat.not_le] at hfull
    simp [hfull, hbad.1, hbad.2, eq_comm]

theorem outcome_draw_bind_ok {σ ε β : Type} {value : Hash32} {draw : Fallible σ ε Hash32} (e : ε)
    (used : σ → List Hash32) (keep : σ → List Hash32 → σ)
    (hdraw : ∀ s, outcome draw s = match freshRandom (used s) value with
      | none => (.error e, s)
      | some after => (.ok value, keep s after))
    {f : Hash32 → Fallible σ ε β} {s s' : σ} {d : β} :
    outcome (draw >>= f) s = (.ok d, s') ↔
      ((used s).length < 32 ∧ value ≠ zeroHash ∧ value ∉ used s) ∧
        outcome (f value) (keep s (used s ++ [value])) = (.ok d, s') := by
  rw [outcome_bind, hdraw]
  cases hfresh : freshRandom (used s) value with
  | none =>
    have hnot : ¬ ((used s).length < 32 ∧ value ≠ zeroHash ∧ value ∉ used s) := by
      rintro ⟨hroom, hzero, hnew⟩
      have hsome := freshRandom_eq_some.mpr ⟨hroom, hzero, hnew, rfl⟩
      rw [hfresh] at hsome
      cases hsome
    simp [hnot]
  | some after =>
    obtain ⟨hroom, hzero, hnew, rfl⟩ := freshRandom_eq_some.mp hfresh
    simp [hroom, hzero, hnew]

end EuWallet.Vci
