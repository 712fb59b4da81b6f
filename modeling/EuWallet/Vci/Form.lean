import Mathlib.Algebra.Order.BigOperators.Group.List
import EuWallet.Codec.Base64
import EuWallet.Codec.Numbers
import EuWallet.Vci.Text

/-! # Forms

`encode_form` writes the body of a pushed authorization request and of a token request, `parse_form` reads
the query of the browser's return. A form is a list of fields in the order they stand in; the source's
`BTreeMap` is only looked up. `parseForm_encodeForm` says that what one writes the other reads. -/

namespace EuWallet.Vci

open Codec Lib

inductive AuthorizationError where
  | invalidConfiguration
  | offerPlanMismatch
  | invalidClock
  | randomnessFailure
  | unexpectedInput
  | correlationMismatch
  | clientAuthenticationBindingMismatch
  | clientAuthenticationInvalid
  | clientAuthenticationReused
  | dpopSigningResultMismatch
  | dpopSignatureInvalid
  | dpopNonceInvalid
  | dpopNonceStale
  | dpopNonceRetryLimit
  | transportBindingMismatch
  | invalidMediaType
  | cachePolicyMissing
  | invalidParResponse
  | parRejected
  | redirectMismatch
  | invalidAuthorizationCallback
  | stateMismatch
  | authorizationIssuerMismatch
  | authorizationDenied
  | invalidTokenResponse
  | tokenTypeDowngrade
  | tokenRejected
  | alreadyTerminal
deriving DecidableEq

/-! ### Percent coding -/

def isUnreserved (b : UInt8) : Bool :=
  isAsciiAlphanumeric b || b == 45 || b == 46 || b == 95 || b == 126

def upperHexDigit (n : ℕ) : UInt8 := if n < 10 then UInt8.ofNat (48 + n) else UInt8.ofNat (55 + n)

def percentEncodeByte (b : UInt8) : Bytes :=
  if isUnreserved b then [b] else [37, upperHexDigit (b.toNat / 16), upperHexDigit (b.toNat % 16)]

def percentEncodeBytes (value : String) : Bytes := (utf8 value).flatMap percentEncodeByte

def percentEncode (value : String) : String :=
  String.ofList ((percentEncodeBytes value).map fun b => Char.ofNat b.toNat)

def fromHex (b : UInt8) : Option ℕ :=
  if 48 ≤ b ∧ b ≤ 57 then some (b.toNat - 48)
  else if 97 ≤ b ∧ b ≤ 102 then some (b.toNat - 97 + 10)
  else if 65 ≤ b ∧ b ≤ 70 then some (b.toNat - 65 + 10)
  else none

def percentDecodeLoop (max : ℕ) : ℕ → Bytes → Option Bytes
  | _, [] => some []
  | written, 37 :: high :: low :: rest =>
    if max ≤ written then none
    else do
      let high ← fromHex high
      let low ← fromHex low
      return UInt8.ofNat (high * 16 + low) :: (← percentDecodeLoop max (written + 1) rest)
  | written, b :: rest =>
    if max ≤ written ∨ b = 37 then none
    else return (if b = 43 then 32 else b) :: (← percentDecodeLoop max (written + 1) rest)

def percentDecode (input : Bytes) (max : ℕ) : Except AuthorizationError String :=
  match (percentDecodeLoop max 0 input).bind fromUtf8 with
  | some text => .ok text
  | none => .error .invalidAuthorizationCallback

/-! ### The two functions -/

def encodeField (field : String × String) : Bytes :=
  percentEncodeBytes field.1 ++ 61 :: percentEncodeBytes field.2

def maxFormBytes : ℕ := 64 * 1024

def maxFormFields : ℕ := 16

def encodeForm (fields : List (String × String)) : Except AuthorizationError Bytes :=
  if fields.isEmpty || maxFormFields < fields.length then .error .invalidConfiguration
  else
    let output := List.intercalate [38] (fields.map encodeField)
    if maxFormBytes < output.length then .error .invalidConfiguration else .ok output

/-- The name of a field of a form: not empty, printable, at most once. -/
def validFieldName (name : String) : Bool := !name.isEmpty && isAscii name && !name.toList.any isControl

def parseFields (maxFields maxValueBytes : ℕ) :
    List (String × String) → List Bytes → Except AuthorizationError (List (String × String))
  | result, [] => .ok result
  | result, pair :: rest =>
    if pair.isEmpty ∨ maxFields ≤ result.length ∨ 61 ∉ pair then .error .invalidAuthorizationCallback
    else do
      let name ← percentDecode (pair.takeWhile (· ≠ 61)) 128
      let value ← percentDecode ((pair.dropWhile (· ≠ 61)).drop 1) maxValueBytes
      if validFieldName name = false ∨ name ∈ result.map (·.1) then
        .error .invalidAuthorizationCallback
      else parseFields maxFields maxValueBytes (result ++ [(name, value)]) rest

def parseForm (input : Bytes) (maxBytes maxFields maxValueBytes : ℕ) :
    Except AuthorizationError (List (String × String)) :=
  if input.isEmpty || maxBytes < input.length then .error .invalidAuthorizationCallback
  else parseFields maxFields maxValueBytes [] (input.splitOn 38)

/-! ### What one writes the other reads -/

theorem fromHex_upperHexDigit {n : ℕ} (h : n < 16) : fromHex (upperHexDigit n) = some n := by
  revert n; decide

/-- The bytes that stand for themselves. -/
theorem isUnreserved_ne {b : UInt8} (h : isUnreserved b = true) : b ≠ 37 ∧ b ≠ 43 ∧ b ≠ 38 ∧ b ≠ 61 := by
  refine ⟨?_, ?_, ?_, ?_⟩ <;> rintro rfl <;> revert h <;> decide

theorem upperHexDigit_ne {n : ℕ} (h : n < 16) : upperHexDigit n ≠ 38 ∧ upperHexDigit n ≠ 61 := by
  revert n; decide

theorem separator_not_mem_percentEncodeBytes (value : String) :
    38 ∉ percentEncodeBytes value ∧ 61 ∉ percentEncodeBytes value := by
  have hbyte : ∀ b : UInt8, 38 ∉ percentEncodeByte b ∧ 61 ∉ percentEncodeByte b := by
    intro b
    have hb := b.toNat_lt
    unfold percentEncodeByte
    split_ifs with hfree
    · have hne := isUnreserved_ne hfree
      simp only [List.mem_singleton]
      exact ⟨fun h => hne.2.2.1 h.symm, fun h => hne.2.2.2 h.symm⟩
    · have hhigh := upperHexDigit_ne (n := b.toNat / 16) (by omega)
      have hlow := upperHexDigit_ne (n := b.toNat % 16) (by omega)
      simp only [List.mem_cons, List.not_mem_nil, or_false, not_or]
      exact ⟨⟨by decide, hhigh.1.symm, hlow.1.symm⟩, ⟨by decide, hhigh.2.symm, hlow.2.symm⟩⟩
  unfold percentEncodeBytes
  simp only [List.mem_flatMap, not_exists, not_and]
  exact ⟨fun b _ => (hbyte b).1, fun b _ => (hbyte b).2⟩

theorem percentDecodeLoop_flatMap {max : ℕ} (bs : Bytes) : ∀ {written : ℕ}, written + bs.length ≤ max →
    percentDecodeLoop max written (bs.flatMap percentEncodeByte) = some bs := by
  induction bs with
  | nil =>
    intro written _
    rfl
  | cons b bs ih =>
    intro written h
    rw [List.length_cons] at h
    have hroom : ¬ max ≤ written := by omega
    have hrest : percentDecodeLoop max (written + 1) (bs.flatMap percentEncodeByte) = some bs :=
      ih (by omega)
    have hb := b.toNat_lt
    rw [List.flatMap_cons]
    by_cases hfree : isUnreserved b = true
    · -- the byte stands for itself and is neither `%` nor `+`
      have hne := isUnreserved_ne hfree
      rw [percentEncodeByte, if_pos hfree, List.singleton_append, percentDecodeLoop, hrest]
      · simp [hroom, hne.1, hne.2.1]
      · rintro _ _ _ rfl
        exact absurd rfl hne.1
    · have hvalue : UInt8.ofNat (b.toNat / 16 * 16 + b.toNat % 16) = b := by
        rw [Nat.div_add_mod' b.toNat 16, UInt8.ofNat_toNat]
      rw [percentEncodeByte, if_neg hfree]
      simp only [List.cons_append, List.nil_append, percentDecodeLoop, if_neg hroom,
        fromHex_upperHexDigit (show b.toNat / 16 < 16 by omega),
        fromHex_upperHexDigit (show b.toNat % 16 < 16 by omega), hrest, Option.bind_eq_bind, Option.bind_some, hvalue]
      rfl

theorem percentDecode_percentEncodeBytes {value : String} {max : ℕ} (h : value.utf8ByteSize ≤ max) :
    percentDecode (percentEncodeBytes value) max = .ok value := by
  have hloop : percentDecodeLoop max 0 ((utf8 value).flatMap percentEncodeByte) = some (utf8 value) :=
    percentDecodeLoop_flatMap (utf8 value) (by simpa using h)
  rw [percentDecode, percentEncodeBytes, hloop, Option.bind_some, fromUtf8_utf8]

/-- The encoded text is at least as long as the text. -/
theorem utf8ByteSize_le_length_percentEncodeBytes (value : String) :
    value.utf8ByteSize ≤ (percentEncodeBytes value).length := by
  have hbyte : ∀ b : UInt8, 1 ≤ (percentEncodeByte b).length := by
    intro b
    unfold percentEncodeByte
    split_ifs <;> simp
  rw [← length_utf8, percentEncodeBytes, List.length_flatMap]
  have hsum := List.length_le_sum_of_one_le ((utf8 value).map fun b => (percentEncodeByte b).length)
    (by simpa using fun b _ => hbyte b)
  simpa using hsum

theorem encodeField_split (field : String × String) :
    (encodeField field).takeWhile (· ≠ 61) = percentEncodeBytes field.1 ∧
      ((encodeField field).dropWhile (· ≠ 61)).drop 1 = percentEncodeBytes field.2 := by
  have hname : ∀ b ∈ percentEncodeBytes field.1, (decide (b ≠ 61)) = true := by
    intro b hb
    have := (separator_not_mem_percentEncodeBytes field.1).2
    simpa using fun h : b = 61 => this (h ▸ hb)
  constructor
  · rw [encodeField, List.takeWhile_append_of_pos hname]
    simp
  · rw [encodeField, List.dropWhile_append_of_pos hname]
    simp

/-- A field is no longer than the form it stands in. -/
theorem length_le_length_intercalate {s field : Bytes} : ∀ {fields : List Bytes}, field ∈ fields →
    field.length ≤ (List.intercalate s fields).length
  | [], h => by simp at h
  | [only], h => by
    obtain rfl := List.mem_singleton.mp h
    simp
  | first :: second :: rest, h => by
    rw [List.intercalate_cons_cons, List.length_append, List.length_append]
    rcases List.mem_cons.mp h with rfl | h
    · omega
    · have := length_le_length_intercalate (s := s) h
      omega

variable {fields : List (String × String)} {body : Bytes}

theorem encodeForm_eq_ok (h : encodeForm fields = .ok body) :
    fields ≠ [] ∧ fields.length ≤ maxFormFields ∧ body.length ≤ maxFormBytes ∧
      body = List.intercalate [38] (fields.map encodeField) := by
  unfold encodeForm at h
  dsimp only at h
  split_ifs at h with hempty hlong
  simp only [Except.ok.injEq] at h
  simp only [Bool.or_eq_true, not_or, decide_eq_true_eq, List.isEmpty_iff] at hempty
  rw [h] at hlong
  exact ⟨hempty.1, by omega, by omega, h.symm⟩

/-- The fields a body can hold: each with a name of its own. -/
structure WellNamed (fields : List (String × String)) : Prop where
  valid : ∀ field ∈ fields, validFieldName field.1 = true ∧ field.1.utf8ByteSize ≤ 128
  nodup : (fields.map (·.1)).Nodup

theorem parseFields_map_encodeField {maxFields maxValueBytes : ℕ} : ∀ {fields result : List (String × String)},
    WellNamed (result ++ fields) → result.length + fields.length ≤ maxFields →
    (∀ field ∈ fields, field.2.utf8ByteSize ≤ maxValueBytes) →
    parseFields maxFields maxValueBytes result (fields.map encodeField) = .ok (result ++ fields) := by
  intro fields
  induction fields with
  | nil =>
    intro result _ _ _
    simp [parseFields]
  | cons field fields ih =>
    intro result hnamed hlength hvalues
    rw [List.length_cons] at hlength
    obtain ⟨hvalid, hsize⟩ := hnamed.valid field (by simp)
    obtain ⟨htake, hdrop⟩ := encodeField_split field
    have hpair : ¬ ((encodeField field).isEmpty ∨ maxFields ≤ result.length ∨ 61 ∉ encodeField field) := by
      rw [not_or, not_or]
      refine ⟨by simp [encodeField], by omega, by simp [encodeField]⟩
    have hnew : ¬ (validFieldName field.1 = false ∨ field.1 ∈ result.map (·.1)) := by
      rw [not_or]
      refine ⟨by simp [hvalid], fun hmem => ?_⟩
      have hnodup := hnamed.nodup
      rw [List.map_append, List.map_cons] at hnodup
      exact (List.nodup_append.mp hnodup).2.2 _ hmem _ List.mem_cons_self rfl
    have hrest : parseFields maxFields maxValueBytes (result ++ [field]) (fields.map encodeField) =
        .ok (result ++ [field] ++ fields) :=
      ih (by simpa using hnamed) (by simp only [List.length_append, List.length_singleton]; omega)
        (fun f hf => hvalues f (List.mem_cons_of_mem _ hf))
    rw [List.map_cons, parseFields, if_neg hpair, htake, hdrop, percentDecode_percentEncodeBytes hsize,
      percentDecode_percentEncodeBytes (hvalues field List.mem_cons_self)]
    simp only [bind, Except.bind]
    rw [if_neg hnew, hrest]
    simp

theorem parseForm_encodeForm {maxBytes maxFields maxValueBytes : ℕ} (h : encodeForm fields = .ok body)
    (hnamed : WellNamed fields) (hbytes : body.length ≤ maxBytes)
    (hfields : fields.length ≤ maxFields) (hvalues : ∀ field ∈ fields, field.2.utf8ByteSize ≤ maxValueBytes) :
    parseForm body maxBytes maxFields maxValueBytes = .ok fields := by
  obtain ⟨hfilled, -, -, rfl⟩ := encodeForm_eq_ok h
  have hne : fields.map encodeField ≠ [] := by simpa using hfilled
  have hsplit : (List.intercalate [38] (fields.map encodeField)).splitOn 38 = fields.map encodeField := by
    refine List.splitOn_intercalate 38 ?_ hne
    intro pair hpair
    obtain ⟨field, -, rfl⟩ := List.mem_map.mp hpair
    simp [encodeField, separator_not_mem_percentEncodeBytes]
  have hbody : (List.intercalate [38] (fields.map encodeField)).isEmpty = false := by
    obtain ⟨field, hfield⟩ := List.exists_mem_of_ne_nil _ hfilled
    have hlength := length_le_length_intercalate (s := [38]) (List.mem_map_of_mem (f := encodeField) hfield)
    have hpos : 0 < (encodeField field).length := by simp [encodeField]
    rw [List.isEmpty_eq_false_iff, ← List.length_pos_iff]
    omega
  rw [parseForm, hsplit, hbody, Bool.false_or, if_neg (by simpa using hbytes)]
  exact parseFields_map_encodeField (by simpa using hnamed) (by simpa using hfields) hvalues

/-- The value of a field in the body of a request, read with the limits of the writer. -/
def bodyField (body : Bytes) (name : String) : Option String :=
  match parseForm body maxFormBytes maxFormFields maxFormBytes with
  | .ok fields => fields.lookup name
  | .error _ => none

theorem bodyField_encodeForm (h : encodeForm fields = .ok body) (hnamed : WellNamed fields) (name : String)
    : bodyField body name = fields.lookup name := by
  obtain ⟨-, hfields, hbytes, hbody⟩ := encodeForm_eq_ok h
  have hvalues : ∀ field ∈ fields, field.2.utf8ByteSize ≤ maxFormBytes := by
    intro field hfield
    have hvalue := utf8ByteSize_le_length_percentEncodeBytes field.2
    have hlength := length_le_length_intercalate (s := [38]) (List.mem_map_of_mem (f := encodeField) hfield)
    rw [← hbody] at hlength
    simp only [encodeField, List.length_append, List.length_cons] at hlength
    omega
  rw [bodyField, parseForm_encodeForm h hnamed hbytes hfields hvalues]

end EuWallet.Vci
