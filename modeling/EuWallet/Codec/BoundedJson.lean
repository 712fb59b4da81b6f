import EuWallet.Crypto.Platform

/-! # The bounded JSON boundary

`bounded_json::parse_object`: a lexical pass over the bytes that enforces the limits on depth, entries and
text lengths and refuses a repeated member name, before `serde_json` builds the value. The scanner of the
source moves a position through its input; here every function returns the bytes it has not read. Each
nested call starts after at least one byte more, so the length of the input bounds the recursion. -/

namespace EuWallet.Codec.BoundedJson

open Crypto

def absoluteMaxJsonBytes : ℕ := 256 * 1024
def absoluteMaxJsonDepth : ℕ := 16
def absoluteMaxContainerEntries : ℕ := 128
def absoluteMaxStringBytes : ℕ := absoluteMaxJsonBytes

structure JsonLimits where
  maxBytes : ℕ
  maxDepth : ℕ
  maxContainerEntries : ℕ
  maxStringBytes : ℕ
deriving DecidableEq

inductive JsonBoundaryError where
  | limitsExceedHardMaximum
  | inputTooLarge
  | depthExceeded
  | containerEntriesExceeded
  | stringTooLong
  | duplicateMember
  | invalidJson
  | nonObjectRoot
deriving DecidableEq

inductive ValueKind where
  | object
  | other
deriving DecidableEq

/-! ### Characters -/

def skipWhitespace (input : Bytes) : Bytes :=
  input.dropWhile fun b => b == 32 || b == 10 || b == 13 || b == 9

def expect (expected : UInt8) : Bytes → Except JsonBoundaryError Bytes
  | b :: rest => if b = expected then .ok rest else .error .invalidJson
  | [] => .error .invalidJson

def utf8Width (first : UInt8) : Option ℕ :=
  if 0xc2 ≤ first ∧ first ≤ 0xdf then some 2
  else if 0xe0 ≤ first ∧ first ≤ 0xef then some 3
  else if 0xf0 ≤ first ∧ first ≤ 0xf4 then some 4
  else none

def hexValue (b : UInt8) : Option ℕ :=
  if 48 ≤ b ∧ b ≤ 57 then some (b.toNat - 48)
  else if 97 ≤ b ∧ b ≤ 102 then some (b.toNat - 97 + 10)
  else if 65 ≤ b ∧ b ≤ 70 then some (b.toNat - 65 + 10)
  else none

def parseHexQuad : Bytes → Except JsonBoundaryError (ℕ × Bytes)
  | a :: b :: c :: d :: rest =>
    match hexValue a, hexValue b, hexValue c, hexValue d with
    | some a, some b, some c, some d => .ok (((a * 16 + b) * 16 + c) * 16 + d, rest)
    | _, _, _, _ => .error .invalidJson
  | _ => .error .invalidJson

def charFromU32 (n : ℕ) : Option Char := if n.isValidChar then some (Char.ofNat n) else none

/-- `Scanner::parse_unicode_escape`: after `\u`, a scalar value or a surrogate pair. -/
def parseUnicodeEscape (input : Bytes) : Except JsonBoundaryError (Char × Bytes) := do
  let (first, rest) ← parseHexQuad input
  if 0xd800 ≤ first ∧ first ≤ 0xdbff then
    let rest ← expect 92 rest
    let rest ← expect 117 rest
    let (second, rest) ← parseHexQuad rest
    if second < 0xdc00 ∨ 0xdfff < second then throw .invalidJson
    let scalar ← orErr .invalidJson
      (charFromU32 (0x10000 + (first - 0xd800) * 1024 + (second - 0xdc00)))
    return (scalar, rest)
  else if 0xdc00 ≤ first ∧ first ≤ 0xdfff then throw .invalidJson
  else return (← orErr .invalidJson (charFromU32 first), rest)

/-- What stands for a character after a backslash. -/
def parseEscape : Bytes → Except JsonBoundaryError (Char × Bytes)
  | [] => .error .invalidJson
  | escaped :: rest =>
    if escaped = 34 then .ok ('"', rest)
    else if escaped = 92 then .ok ('\\', rest)
    else if escaped = 47 then .ok ('/', rest)
    else if escaped = 98 then .ok (Char.ofNat 8, rest)
    else if escaped = 102 then .ok (Char.ofNat 12, rest)
    else if escaped = 110 then .ok (Char.ofNat 10, rest)
    else if escaped = 114 then .ok (Char.ofNat 13, rest)
    else if escaped = 116 then .ok (Char.ofNat 9, rest)
    else if escaped = 117 then parseUnicodeEscape rest
    else .error .invalidJson

/-- One character of a string that is neither a quote nor the end of the input. -/
def parseCharacter (byte : UInt8) (rest : Bytes) : Except JsonBoundaryError (String × Bytes) :=
  if byte = 92 then (parseEscape rest).map fun r => (r.1.toString, r.2)
  else if byte ≤ 0x1f then .error .invalidJson
  else if byte ≤ 0x7f then .ok ((Char.ofNat byte.toNat).toString, rest)
  else match utf8Width byte with
    | none => .error .invalidJson
    | some width =>
      if rest.length + 1 < width then .error .invalidJson
      else match fromUtf8 (byte :: rest.take (width - 1)) with
        | none => .error .invalidJson
        | some scalar => .ok (scalar, rest.drop (width - 1))

/-- The loop of `Scanner::parse_string` after the opening quote. -/
def parseStringTail (limits : JsonLimits) : ℕ → String → Bytes → Except JsonBoundaryError (String × Bytes)
  | 0, _, _ => .error .invalidJson
  | _ + 1, _, [] => .error .invalidJson
  | fuel + 1, decoded, byte :: rest =>
    if byte = 34 then .ok (decoded, rest)
    else do
      let (piece, rest) ← parseCharacter byte rest
      let decoded := decoded ++ piece
      if limits.maxStringBytes < decoded.utf8ByteSize then throw .stringTooLong
      parseStringTail limits fuel decoded rest

def parseString (limits : JsonLimits) (input : Bytes) : Except JsonBoundaryError (String × Bytes) := do
  let rest ← expect 34 input
  parseStringTail limits (rest.length + 1) "" rest

/-! ### Numbers and literals -/

def someDigits : Bytes → Except JsonBoundaryError Bytes
  | b :: rest => if isAsciiDigit b then .ok (rest.dropWhile isAsciiDigit) else .error .invalidJson
  | [] => .error .invalidJson

/-- The digits before the point: a zero alone or digits that start with another one. -/
def integerPart : Bytes → Except JsonBoundaryError Bytes
  | b :: rest =>
    if b = 48 then
      if rest.head?.any isAsciiDigit then .error .invalidJson else .ok rest
    else if isAsciiDigit b then .ok (rest.dropWhile isAsciiDigit)
    else .error .invalidJson
  | [] => .error .invalidJson

def parseNumber (input : Bytes) : Except JsonBoundaryError Bytes := do
  let rest ← integerPart (if input.head? = some 45 then input.tail else input)
  let rest ← if rest.head? = some 46 then someDigits rest.tail else pure rest
  if rest.head? = some 101 ∨ rest.head? = some 69 then
    let rest := rest.tail
    someDigits (if rest.head? = some 43 ∨ rest.head? = some 45 then rest.tail else rest)
  else return rest

def consumeLiteral (expected input : Bytes) : Except JsonBoundaryError Bytes :=
  if expected.isPrefixOf input then .ok (input.drop expected.length) else .error .invalidJson

def checkDepth (limits : JsonLimits) (depth : ℕ) : Except JsonBoundaryError Unit :=
  if limits.maxDepth < depth then .error .depthExceeded else .ok ()

/-! ### Values -/

mutual

def parseValue (limits : JsonLimits) : ℕ → ℕ → Bytes → Except JsonBoundaryError (ValueKind × Bytes)
  | 0, _, _ => .error .invalidJson
  | fuel + 1, parentDepth, input =>
    match skipWhitespace input with
    | [] => .error .invalidJson
    | byte :: rest =>
      if byte = 0x7b then do
        checkDepth limits (parentDepth + 1)
        let rest := skipWhitespace rest
        if rest.head? = some 0x7d then return (.object, rest.tail)
        return (.object, ← parseMembers limits fuel (parentDepth + 1) [] rest)
      else if byte = 0x5b then do
        checkDepth limits (parentDepth + 1)
        let rest := skipWhitespace rest
        if rest.head? = some 0x5d then return (.other, rest.tail)
        return (.other, ← parseElements limits fuel (parentDepth + 1) 0 rest)
      else if byte = 34 then return (.other, (← parseString limits (byte :: rest)).2)
      else if byte = 45 ∨ isAsciiDigit byte then return (.other, ← parseNumber (byte :: rest))
      else if byte = 116 then return (.other, ← consumeLiteral (utf8 "true") (byte :: rest))
      else if byte = 102 then return (.other, ← consumeLiteral (utf8 "false") (byte :: rest))
      else if byte = 110 then return (.other, ← consumeLiteral (utf8 "null") (byte :: rest))
      else throw .invalidJson

/-- The loop of `Scanner::parse_object`, up to its closing brace. -/
def parseMembers (limits : JsonLimits) : ℕ → ℕ → List String → Bytes → Except JsonBoundaryError Bytes
  | 0, _, _, _ => .error .invalidJson
  | fuel + 1, depth, names, input => do
    let (name, rest) ← parseString limits input
    if name ∈ names then throw .duplicateMember
    let names := names ++ [name]
    if limits.maxContainerEntries < names.length then throw .containerEntriesExceeded
    let rest ← expect 58 (skipWhitespace rest)
    let (_, rest) ← parseValue limits fuel depth rest
    let rest := skipWhitespace rest
    if rest.head? = some 0x7d then return rest.tail
    let rest ← expect 44 rest
    parseMembers limits fuel depth names (skipWhitespace rest)

/-- The loop of `Scanner::parse_array`, up to its closing bracket. -/
def parseElements (limits : JsonLimits) : ℕ → ℕ → ℕ → Bytes → Except JsonBoundaryError Bytes
  | 0, _, _, _ => .error .invalidJson
  | fuel + 1, depth, entries, input => do
    let entries := entries + 1
    if limits.maxContainerEntries < entries then throw .containerEntriesExceeded
    let (_, rest) ← parseValue limits fuel depth input
    let rest := skipWhitespace rest
    if rest.head? = some 0x5d then return rest.tail
    let rest ← expect 44 rest
    parseElements limits fuel depth entries (skipWhitespace rest)

end

def parseObject (p : Platform) (input : Bytes) (limits : JsonLimits) :
    Except JsonBoundaryError (List (String × Json)) := do
  if absoluteMaxJsonBytes < limits.maxBytes ∨ absoluteMaxJsonDepth < limits.maxDepth ∨
      absoluteMaxContainerEntries < limits.maxContainerEntries ∨
      absoluteMaxStringBytes < limits.maxStringBytes then
    throw .limitsExceedHardMaximum
  if limits.maxBytes < input.length then throw .inputTooLarge
  if (fromUtf8 input).isNone then throw .invalidJson
  let (root, rest) ← parseValue limits (input.length + 1) 0 (skipWhitespace input)
  if skipWhitespace rest ≠ [] then throw .invalidJson
  if root ≠ .object then throw .nonObjectRoot
  match ← orErr .invalidJson (p.parseJson input) with
  | .obj members => return members
  | _ => throw .nonObjectRoot

end EuWallet.Codec.BoundedJson
