import EuWallet.Codec.Text
import Mathlib.Data.List.Sort

/-! # Canonical CBOR

The value type and the deterministic encoding of the `cose` crate (RFC 8949, section 4.2): shortest
heads, definite lengths, map entries in the order of their encoded keys, no trailing bytes. Decoding
refuses everything else. The decoder's nesting bound `MAX_DEPTH` is its recursion measure. -/

namespace EuWallet.Codec.Cbor

inductive Value where
  | uint (n : ℕ)
  | nint (n : ℕ)
  | bytes (b : Bytes)
  | text (s : String)
  | array (items : List Value)
  | map (pairs : List (Value × Value))
  | tag (t : ℕ) (inner : Value)
  | bool (b : Bool)
  | null
deriving Inhabited

/-! ### Equality of values is decidable -/

mutual

def Value.same : Value → Value → Bool
  | .uint a, .uint b | .nint a, .nint b => a = b
  | .bytes a, .bytes b => a = b
  | .text a, .text b => a = b
  | .array a, .array b => Value.sameItems a b
  | .map a, .map b => Value.samePairs a b
  | .tag s a, .tag t b => s = t && Value.same a b
  | .bool a, .bool b => a = b
  | .null, .null => true
  | _, _ => false

def Value.sameItems : List Value → List Value → Bool
  | [], [] => true
  | x :: a, y :: b => Value.same x y && Value.sameItems a b
  | _, _ => false

def Value.samePairs : List (Value × Value) → List (Value × Value) → Bool
  | [], [] => true
  | (k, x) :: a, (l, y) :: b => Value.same k l && Value.same x y && Value.samePairs a b
  | _, _ => false

end

mutual

theorem Value.same_iff : ∀ a b : Value, a.same b = true ↔ a = b
  | .array a, b => by cases b <;> simp [Value.same, Value.sameItems_iff a]
  | .map a, b => by cases b <;> simp [Value.same, Value.samePairs_iff a]
  | .tag _ a, b => by cases b <;> simp [Value.same, Value.same_iff a]
  | .uint _, b | .nint _, b | .bytes _, b | .text _, b | .bool _, b | .null, b => by
    cases b <;> simp [Value.same]

theorem Value.sameItems_iff : ∀ a b, Value.sameItems a b = true ↔ a = b
  | [], b => by cases b <;> simp [Value.sameItems]
  | x :: a, b => by cases b <;> simp [Value.sameItems, Value.same_iff x, Value.sameItems_iff a]

theorem Value.samePairs_iff : ∀ a b, Value.samePairs a b = true ↔ a = b
  | [], b => by cases b <;> simp [Value.samePairs]
  | (k, x) :: a, b => by
    cases b <;> simp [Value.samePairs, Value.same_iff k, Value.same_iff x, Value.samePairs_iff a, Prod.ext_iff]

end

instance : DecidableEq Value := fun a b => decidable_of_iff _ (Value.same_iff a b)

/-! ### Encoding -/

def writeHead (major arg : ℕ) : Bytes :=
  let mt := major * 32
  if arg ≤ 23 then [UInt8.ofNat (mt + arg)]
  else if arg < 2 ^ 8 then UInt8.ofNat (mt + 24) :: beBytes 1 arg
  else if arg < 2 ^ 16 then UInt8.ofNat (mt + 25) :: beBytes 2 arg
  else if arg < 2 ^ 32 then UInt8.ofNat (mt + 26) :: beBytes 4 arg
  else UInt8.ofNat (mt + 27) :: beBytes 8 arg

def dedupKeys (last : Option Bytes) : List (Bytes × Bytes) → List (Bytes × Bytes)
  | [] => []
  | kv :: rest =>
    if last = some kv.1 then dedupKeys last rest else kv :: dedupKeys (some kv.1) rest

/-- The entries of a map in canonical order. -/
def canonicalEntries (entries : List (Bytes × Bytes)) : List (Bytes × Bytes) :=
  dedupKeys none (entries.insertionSort fun a b => a.1 ≤ b.1)

mutual

def Value.toCanonical : Value → Bytes
  | .uint n => writeHead 0 n
  | .nint n => writeHead 1 n
  | .bytes b => writeHead 2 b.length ++ b
  | .text s => writeHead 3 (utf8 s).length ++ utf8 s
  | .array items => writeHead 4 items.length ++ Value.encodeItems items
  | .map pairs =>
    let encoded := canonicalEntries (Value.encodePairs pairs)
    writeHead 5 encoded.length ++ encoded.flatMap fun kv => kv.1 ++ kv.2
  | .tag t inner => writeHead 6 t ++ inner.toCanonical
  | .bool false => [0xf4]
  | .bool true => [0xf5]
  | .null => [0xf6]

def Value.encodeItems : List Value → Bytes
  | [] => []
  | v :: vs => v.toCanonical ++ Value.encodeItems vs

def Value.encodePairs : List (Value × Value) → List (Bytes × Bytes)
  | [] => []
  | (k, v) :: kvs => (k.toCanonical, v.toCanonical) :: Value.encodePairs kvs

end

/-! ### Decoding -/

inductive CborError where
  | truncated
  | notShortestForm
  | indefiniteLength
  | reserved
  | invalidUtf8
  | mapKeysNotSorted
  | duplicateMapKey
  | trailingBytes
  | unsupportedSimple
  | tooDeep
deriving DecidableEq

def maxDepth : ℕ := 64

/-- The number a big-endian byte string denotes (`from_be_bytes`). -/
def beNat (b : Bytes) : ℕ := b.foldl (fun n x => n * 256 + x.toNat) 0

/-- The argument in the `k` bytes after the initial byte, at least `low` (shortest form). -/
def readArg (k low : ℕ) (rest : Bytes) : Except CborError (ℕ × Bytes) :=
  if rest.length < k then .error .truncated
  else if beNat (rest.take k) < low then .error .notShortestForm
  else .ok (beNat (rest.take k), rest.drop k)

def readHead : Bytes → Except CborError (ℕ × ℕ × Bytes)
  | [] => .error .truncated
  | first :: rest =>
    let major := first.toNat / 32
    let info := first.toNat % 32
    let arg : Except CborError (ℕ × Bytes) :=
      if info ≤ 23 then .ok (info, rest)
      else if info = 24 then readArg 1 24 rest
      else if info = 25 then readArg 2 (2 ^ 8) rest
      else if info = 26 then readArg 4 (2 ^ 16) rest
      else if info = 27 then readArg 8 (2 ^ 32) rest
      else if info = 31 then .error .indefiniteLength
      else .error .reserved
    arg.map fun (arg, rest) => (major, arg, rest)

def takeBody (len : ℕ) (rest : Bytes) : Except CborError (Bytes × Bytes) :=
  if rest.length < len then .error .truncated else .ok (rest.take len, rest.drop len)

def decodeItems (decode : Bytes → Except CborError (Value × Bytes)) :
    ℕ → Bytes → Except CborError (List Value × Bytes)
  | 0, rest => .ok ([], rest)
  | len + 1, rest => do
    let (item, rest) ← decode rest
    let (items, rest) ← decodeItems decode len rest
    pure (item :: items, rest)

/-- The `for _ in 0..len` loop over the entries of a map; `prev` is the last encoded key. -/
def decodePairs (decode : Bytes → Except CborError (Value × Bytes)) :
    ℕ → Option Bytes → Bytes → Except CborError (List (Value × Value) × Bytes)
  | 0, _, rest => .ok ([], rest)
  | len + 1, prev, rest => do
    let (key, rest) ← decode rest
    let keyBytes := key.toCanonical
    match prev with
    | some prev =>
      if keyBytes < prev then throw .mapKeysNotSorted
      else if keyBytes = prev then throw .duplicateMapKey
    | none => pure ()
    let (val, rest) ← decode rest
    let (pairs, rest) ← decodePairs decode len (some keyBytes) rest
    pure ((key, val) :: pairs, rest)

/-- `decode_value`. The measure is `MAX_DEPTH + 1 - depth`. -/
def decodeValue : ℕ → Bytes → Except CborError (Value × Bytes)
  | 0, _ => .error .tooDeep
  | _ + 1, [] => .error .truncated
  | levels + 1, first :: tail => do
    match first.toNat / 32 with
    | 0 =>
      let (_, arg, rest) ← readHead (first :: tail)
      pure (.uint arg, rest)
    | 1 =>
      let (_, arg, rest) ← readHead (first :: tail)
      pure (.nint arg, rest)
    | 2 =>
      let (_, len, rest) ← readHead (first :: tail)
      let (body, rest) ← takeBody len rest
      pure (.bytes body, rest)
    | 3 =>
      let (_, len, rest) ← readHead (first :: tail)
      let (body, rest) ← takeBody len rest
      match fromUtf8 body with
      | some s => pure (.text s, rest)
      | none => throw .invalidUtf8
    | 4 =>
      let (_, len, rest) ← readHead (first :: tail)
      let (items, rest) ← decodeItems (decodeValue levels) len rest
      pure (.array items, rest)
    | 5 =>
      let (_, len, rest) ← readHead (first :: tail)
      let (pairs, rest) ← decodePairs (decodeValue levels) len none rest
      pure (.map pairs, rest)
    | 6 =>
      let (_, t, rest) ← readHead (first :: tail)
      let (inner, rest) ← decodeValue levels rest
      pure (.tag t inner, rest)
    | _ =>
      if first = 0xf4 then pure (.bool false, tail)
      else if first = 0xf5 then pure (.bool true, tail)
      else if first = 0xf6 then pure (.null, tail)
      else throw .unsupportedSimple

def fromCanonicalSlice (b : Bytes) : Except CborError Value := do
  let (value, rest) ← decodeValue (maxDepth + 1) b
  if rest.isEmpty then pure value else throw .trailingBytes

end EuWallet.Codec.Cbor
