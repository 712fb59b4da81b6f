import Mathlib.Algebra.Group.Int.Defs
import Mathlib.Algebra.GroupWithZero.Nat
import Mathlib.Data.List.Basic

/-! # Bytes and texts

A Rust `Vec<u8>` is a list of bytes, a `String` is Lean's `String` (valid UTF-8 on both sides), and a
`[u8; 32]` is a list of bytes together with the proof of its length. The helpers below are the few
functions of the Rust standard library that the wallet applies to texts, and the strict base64url
codec all its tokens use. -/

namespace EuWallet.Codec

abbrev Bytes := List UInt8

/-- A `[u8; 32]`: a digest, a consent hash, a chain link. -/
abbrev Hash32 := { b : Bytes // b.length = 32 }

/-- The all-zero `[0u8; 32]`. -/
def zeroHash : Hash32 := ⟨List.replicate 32 0, rfl⟩

/-- Another hash than `zeroHash`. -/
def oneHash : Hash32 := ⟨List.replicate 32 1, rfl⟩

instance : LawfulBEq Hash32 := inferInstance

/-- `<[u8; 32]>::try_from`. -/
def toHash32 (b : Bytes) : Option Hash32 :=
  if h : b.length = 32 then some ⟨b, h⟩ else none

def utf8 (s : String) : Bytes := s.toByteArray.data.toList

def fromUtf8 (b : Bytes) : Option String := String.fromUTF8? ⟨b.toArray⟩

def splitStr (sep : Char) (s : String) : List String :=
  (s.toList.splitOn sep).map String.ofList

def splitOnce (sep : Char) (s : String) : Option (String × String) :=
  if sep ∈ s.toList then
    some (String.ofList (s.toList.takeWhile (· ≠ sep)),
      String.ofList ((s.toList.dropWhile (· ≠ sep)).drop 1))
  else none

def stripStart (pre s : String) : Option String :=
  if pre.toList.isPrefixOf s.toList then some (String.ofList (s.toList.drop pre.toList.length))
  else none

def stripEnd (suf s : String) : Option String :=
  if suf.toList.isSuffixOf s.toList then
    some (String.ofList (s.toList.take (s.toList.length - suf.toList.length)))
  else none

def isAsciiDigit (b : UInt8) : Bool := 48 ≤ b && b ≤ 57

/-- `u8::is_ascii_lowercase`. -/
def isAsciiLower (b : UInt8) : Bool := 97 ≤ b && b ≤ 122

/-- `u8::is_ascii_uppercase`. -/
def isAsciiUpper (b : UInt8) : Bool := 65 ≤ b && b ≤ 90

def isAsciiAlphanumeric (b : UInt8) : Bool := isAsciiDigit b || isAsciiLower b || isAsciiUpper b

def isAsciiControl (b : UInt8) : Bool := b ≤ 31 || b == 127

def isAsciiAlphabetic (b : UInt8) : Bool := isAsciiLower b || isAsciiUpper b

/-- `u8::is_ascii_whitespace`: space, tab, line feed, form feed, carriage return. -/
def isAsciiWhitespace (b : UInt8) : Bool := b == 32 || b == 9 || b == 10 || b == 12 || b == 13

def isAscii (s : String) : Bool := s.toList.all (·.toNat < 128)

/-- `char::is_whitespace`: the Unicode property `White_Space`. -/
def isWhite (c : Char) : Bool :=
  let n := c.toNat
  (9 ≤ n && n ≤ 13) || n == 32 || n == 133 || n == 160 || n == 0x1680 || (0x2000 ≤ n && n ≤ 0x200A)
    || n == 0x2028 || n == 0x2029 || n == 0x202F || n == 0x205F || n == 0x3000

def isControl (c : Char) : Bool := c.toNat ≤ 31 || (127 ≤ c.toNat && c.toNat ≤ 159)

def trim (s : String) : String :=
  String.ofList ((s.toList.dropWhile isWhite).reverse.dropWhile isWhite).reverse

def splitWhitespace (s : String) : List String :=
  ((s.toList.splitOnP isWhite).filter (· ≠ [])).map String.ofList

def toAsciiLower (s : String) : String :=
  String.ofList (s.toList.map fun c => if 65 ≤ c.toNat ∧ c.toNat ≤ 90 then Char.ofNat (c.toNat + 32) else c)

def rsplitOnce (sep : Char) (s : String) : Option (String × String) :=
  if sep ∈ s.toList then
    some (String.ofList ((s.toList.reverse.dropWhile (· ≠ sep)).drop 1).reverse,
      String.ofList (s.toList.reverse.takeWhile (· ≠ sep)).reverse)
  else none

def decimal : List Char → Option ℕ
  | [] => none
  | cs => cs.foldl (fun acc c => acc.bind fun n =>
      if c.isDigit then some (10 * n + (c.toNat - 48)) else none) (some 0)

def parseU16 (s : String) : Option ℕ :=
  let digits := match s.toList with
    | '+' :: cs => cs
    | cs => cs
  (decimal digits).filter (· < 2 ^ 16)

/-- One part of a dotted IPv4 address: up to three digits, no leading zero, at most 255. -/
def ipv4Octet (cs : List Char) : Bool :=
  cs.length ≤ 3 && !(cs.length > 1 && cs.head? == some '0') &&
    ((decimal cs).filter (· < 256)).isSome

def isIpv4 (s : String) : Bool :=
  let parts := s.toList.splitOn '.'
  parts.length == 4 && parts.all ipv4Octet

def joinStr (sep : String) : List String → String
  | [] => ""
  | [s] => s
  | s :: t => s ++ sep ++ joinStr sep t

/-- `str::contains` for one character. -/
def hasChar (c : Char) (s : String) : Bool := s.toList.contains c

def startsWith (pre s : String) : Bool := pre.toList.isPrefixOf s.toList

def endsWith (suf s : String) : Bool := suf.toList.isSuffixOf s.toList

/-- `i64::saturating_add`. -/
def satAdd64 (a b : ℤ) : ℤ := max (-2 ^ 63) (min (2 ^ 63 - 1) (a + b))

def beBytes (k n : ℕ) : Bytes :=
  (List.range k).map fun i => UInt8.ofNat (n / 256 ^ (k - 1 - i))

@[simp] theorem length_beBytes (k n : ℕ) : (beBytes k n).length = k := by simp [beBytes]

/-- The two's complement of an `i64` as an unsigned number. -/
def wrap64 (n : ℤ) : ℕ := (n % 2 ^ 64).toNat

/-- One lower-case hexadecimal digit. -/
def hexDigit (n : ℕ) : Char := if n < 10 then Char.ofNat (48 + n) else Char.ofNat (87 + n)

def hexBytes (b : Bytes) : String :=
  String.ofList (b.flatMap fun x => [hexDigit (x.toNat / 16), hexDigit (x.toNat % 16)])

/-! ### Base64url without padding -/

/-- The sixty-four letters of `Base64UrlUnpadded`. -/
def b64Letter (n : ℕ) : Char :=
  if n < 26 then Char.ofNat (65 + n)
  else if n < 52 then Char.ofNat (71 + n)
  else if n < 62 then Char.ofNat (n - 4)
  else if n = 62 then '-' else '_'

def b64Value (c : Char) : Option ℕ :=
  let n := c.toNat
  if 65 ≤ n ∧ n ≤ 90 then some (n - 65)
  else if 97 ≤ n ∧ n ≤ 122 then some (n - 71)
  else if 48 ≤ n ∧ n ≤ 57 then some (n + 4)
  else if c = '-' then some 62
  else if c = '_' then some 63
  else none

def b64Chars : Bytes → List Char
  | [] => []
  | [a] => [b64Letter (a.toNat / 4), b64Letter (a.toNat % 4 * 16)]
  | [a, b] => [b64Letter (a.toNat / 4), b64Letter (a.toNat % 4 * 16 + b.toNat / 16),
      b64Letter (b.toNat % 16 * 4)]
  | a :: b :: c :: rest =>
    b64Letter (a.toNat / 4) :: b64Letter (a.toNat % 4 * 16 + b.toNat / 16) ::
      b64Letter (b.toNat % 16 * 4 + c.toNat / 64) :: b64Letter (c.toNat % 64) :: b64Chars rest

/-- `Base64UrlUnpadded::encode_string`. -/
def b64Encode (b : Bytes) : String := String.ofList (b64Chars b)

/-- Decode the values of letters. The unused low bits of a last partial group must be zero. -/
def b64Bytes : List ℕ → Option Bytes
  | [] => some []
  | [_] => none
  | [a, b] => if b % 16 = 0 then some [UInt8.ofNat (a * 4 + b / 16)] else none
  | [a, b, c] =>
    if c % 4 = 0 then some [UInt8.ofNat (a * 4 + b / 16), UInt8.ofNat (b % 16 * 16 + c / 4)] else none
  | a :: b :: c :: d :: rest => do
    let bs ← b64Bytes rest
    return UInt8.ofNat (a * 4 + b / 16) :: UInt8.ofNat (b % 16 * 16 + c / 4) ::
      UInt8.ofNat (c % 4 * 64 + d) :: bs

/-- `Base64UrlUnpadded::decode_vec`. -/
def b64Decode (s : String) : Option Bytes := do
  b64Bytes (← s.toList.mapM b64Value)

/-- `Base64::decode_vec`: the standard alphabet with its padding. -/
def b64StdDecode (s : String) : Option Bytes :=
  let cs := s.toList
  let body := (cs.reverse.dropWhile (· == '=')).reverse
  if cs.length % 4 ≠ 0 ∨ 2 < cs.length - body.length ∨ body.any fun c => c == '-' || c == '_' then none
  else do
    b64Bytes (← body.mapM fun c => b64Value (if c = '+' then '-' else if c = '/' then '_' else c))

def b64StdEncode (b : Bytes) : String :=
  let body := (b64Chars b).map fun c => if c = '-' then '+' else if c = '_' then '/' else c
  String.ofList (body ++ List.replicate ((4 - body.length % 4) % 4) '=')

end EuWallet.Codec
