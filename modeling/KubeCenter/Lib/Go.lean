import Mathlib.Algebra.Order.Ring.Int

/-! # Go values shared by the backend packages

Text fields are Lean strings: every text the modelled code stores or compares was decoded from
JSON, which is valid UTF-8. -/
namespace KubeCenter.Lib.Go

/-- `uuid.UUID`: sixteen bytes, the first the most significant. -/
abbrev Uuid := BitVec 128

/-- `uuid.Nil`. -/
def Uuid.nil : Uuid := 0

/-- `UUID.String`. -/
def Uuid.text (id : Uuid) : String :=
  let digits := id.toHex.toList
  String.ofList (digits.take 8 ++ '-' :: (digits.drop 8).take 4 ++ '-' :: (digits.drop 12).take 4 ++
    '-' :: (digits.drop 16).take 4 ++ '-' :: digits.drop 20)

def Uuid.version (id : Uuid) : Nat := (id.toNat >>> 76) % 16

/-- An instant, in nanoseconds since the Unix epoch. -/
abbrev Time := Int

abbrev Duration := Int

def second : Duration := 1000000000
def minute : Duration := 60 * second
def hour : Duration := 60 * minute

/-- The zero `time.Time`: midnight of the first of January of year 1. -/
def zeroTime : Time := -62135596800 * second

/-- `t.Sub(u)`: the difference, held within an `int64`. -/
def Time.sub (t u : Time) : Duration := max (-2 ^ 63) (min (2 ^ 63 - 1) (t - u))

/-- `c` folds to the ASCII letter `t`: `s` with the long s, `k` with the Kelvin sign. -/
def foldsTo (t c : Char) : Bool :=
  c.toLower == t.toLower || (t.toLower == 's' && c == 'ſ') || (t.toLower == 'k' && c == 'K')

/-- `strings.EqualFold(s, target)` for an ASCII `target`. -/
def equalFold (s target : String) : Bool :=
  s.toList.length == target.toList.length &&
    (target.toList.zip s.toList).all fun p => foldsTo p.1 p.2

/-- The first and third results of `strings.Cut`. -/
def cut (s : String) (sep : Char) : String × Bool :=
  (String.ofList (s.toList.takeWhile (· != sep)), s.toList.contains sep)

/-- The text after the first `sep`, the second result of `strings.Cut`. -/
def afterCut (s : List Char) (sep : Char) : List Char := (s.dropWhile (· != sep)).drop 1

/-- `strings.SplitN(s, sep, n)` for `n ≥ 0`. -/
def splitN (sep : Char) : Nat → List Char → List (List Char)
  | 0, _ => []
  | 1, s => [s]
  | n + 2, s =>
    if s.contains sep then s.takeWhile (· != sep) :: splitN sep (n + 1) (afterCut s sep)
    else [s]

/-- The longest prefix of whole characters in `max` bytes: what `strings.ToValidUTF8(s[:max], "")`
leaves of valid UTF-8. -/
def takeBytes : Nat → List Char → List Char
  | _, [] => []
  | max, c :: cs => if c.utf8Size ≤ max then c :: takeBytes (max - c.utf8Size) cs else []

/-- The value an `int64` operation leaves of an integer. -/
def wrapInt64 (x : Int) : Int := (x + 2 ^ 63) % 2 ^ 64 - 2 ^ 63

end KubeCenter.Lib.Go
