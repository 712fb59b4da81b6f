import EuWallet.Codec.Text

/-! # Date-times

The tag-0 date-times of an mdoc: an RFC 3339 text read as an instant in Unix seconds with a decimal
fraction. -/

namespace EuWallet.Formats

open Codec

/-- `TDate`: the fraction has no trailing zero. -/
structure TDate where
  unixSeconds : ℤ
  fraction : List ℕ
deriving DecidableEq

namespace TDate

/-- The closure `digits`: the number in the bytes from `start` to `stop`. -/
def digits (b : Bytes) (start stop : ℕ) : Option ℕ :=
  if b.length < stop then none
  else ((b.take stop).drop start).foldl (fun acc x => acc.bind fun n =>
    if isAsciiDigit x then some (n * 10 + (x.toNat - 48)) else none) (some 0)

def isLeap (year : ℕ) : Bool := year % 4 == 0 && (year % 100 != 0 || year % 400 == 0)

def monthDays (year month : ℕ) : ℕ :=
  [31, if isLeap year then 29 else 28, 31, 30, 31, 30, 31, 31, 30, 31, 30, 31].getD (month - 1) 0

def civilDays (year month day : ℕ) : ℤ :=
  let adjusted : ℤ := (year : ℤ) - if month ≤ 2 then 1 else 0
  let era := adjusted / 400
  let yearOfEra := adjusted - era * 400
  let shifted : ℤ := (month : ℤ) + if month > 2 then -3 else 9
  let dayOfYear := (153 * shifted + 2) / 5 + day - 1
  let dayOfEra := yearOfEra * 365 + yearOfEra / 4 - yearOfEra / 100 + dayOfYear
  era * 146097 + dayOfEra - 719468

/-- The offset at the end of a date-time, in seconds. -/
def parseOffset (b : Bytes) (suffix : ℕ) : Option ℤ :=
  match b[suffix]? with
  | some 90 => if suffix + 1 = b.length then some 0 else none
  | some sign =>
    if (sign = 43 ∨ sign = 45) ∧ suffix + 6 = b.length then do
      if b[suffix + 3]? ≠ some 58 then none
      let hour ← digits b (suffix + 1) (suffix + 3)
      let minute ← digits b (suffix + 4) (suffix + 6)
      if hour > 23 ∨ minute > 59 then none
      if sign = 45 ∧ hour = 0 ∧ minute = 0 then none
      let magnitude : ℤ := hour * 3600 + minute * 60
      return if sign = 43 then magnitude else -magnitude
    else none
  | none => none

/-- The fraction of a second and the index after it. -/
def parseFraction (b : Bytes) : Option (List ℕ × ℕ) :=
  if b[19]? = some 46 then
    let run := (b.drop 20).takeWhile isAsciiDigit
    if run.isEmpty then none
    else
      let ds := run.map fun x => x.toNat - 48
      some ((ds.reverse.dropWhile (· == 0)).reverse, 20 + run.length)
  else some ([], 19)

def parse (value : String) : Option TDate := do
  let b := utf8 value
  if b.length < 20 || b[4]? != some 45 || b[7]? != some 45 || b[10]? != some 84 ||
      b[13]? != some 58 || b[16]? != some 58 then none
  let year ← digits b 0 4
  let month ← digits b 5 7
  let day ← digits b 8 10
  let hour ← digits b 11 13
  let minute ← digits b 14 16
  let second ← digits b 17 19
  if year < 1 ∨ month < 1 ∨ 12 < month ∨ day < 1 ∨ monthDays year month < day ∨ 23 < hour ∨
      59 < minute ∨ 59 < second then none
  let (fraction, suffix) ← parseFraction b
  let offset ← parseOffset b suffix
  let localSeconds := civilDays year month day * 86400 + hour * 3600 + minute * 60 + second
  return { unixSeconds := localSeconds - offset, fraction }

def fromUnixSeconds (n : ℤ) : TDate := ⟨n, []⟩

def unixSecondsCeil (t : TDate) : ℤ := satAdd64 t.unixSeconds (if t.fraction.isEmpty then 0 else 1)

/-- Compare fractions digit by digit, missing digits being zero. -/
def fractionLt : List ℕ → List ℕ → Bool
  | [], bs => bs.any (0 < ·)
  | _ :: _, [] => false
  | a :: as, b :: bs => a < b || (a == b && fractionLt as bs)

/-- The order of `TDate`. -/
def lt (a b : TDate) : Bool :=
  a.unixSeconds < b.unixSeconds || (a.unixSeconds == b.unixSeconds && fractionLt a.fraction b.fraction)

end TDate

end EuWallet.Formats
