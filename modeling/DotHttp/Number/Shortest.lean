import DotHttp.Number.Binary64

/-!
The decimal text of a double-precision number: the fewest digits that read back as the number, and
of those the nearest. It is positional while the decimal point stands at most sixteen places to the
right and three places to the left of the first digit, and has an exponent otherwise.
-/

namespace DotHttp.Binary64

/-- How many digits stand before the decimal point of a positive quotient; negative or zero when
zeros follow the point. -/
def pointPlace (num den : Nat) : Int :=
  if den ≤ num then (Nat.toDigits 10 (num / den)).length
  else
    let t := (Nat.toDigits 10 (den / num)).length
    if den ≤ num * Nat.pow 10 (t - 1) then 2 - (t : Int) else 1 - (t : Int)

/-- The decimal `digits · 10 ^ exponent`. -/
structure Decimal where
  digits : Nat
  exponent : Int
  deriving DecidableEq, Repr

/-- The decimal with `count` digits that reads back as the positive number `num / den`, if there is
one; of two the nearer, and at the same distance the even one. -/
def readBack? (x : Binary64) (num den : Nat) (count : Nat) : Option Decimal :=
  let exponent := pointPlace num den - count
  let (n, d) := if 0 ≤ exponent then (num, den * Nat.pow 10 exponent.toNat)
    else (num * Nat.pow 10 (-exponent).toNat, den)
  let below := n / d
  let above := below + 1
  let nearest := roundDiv n d
  let farthest := if nearest = below then above else below
  let reads (k : Nat) : Bool := ofDecimal false k exponent == x
  if reads nearest then some ⟨nearest, exponent⟩
  else if reads farthest then some ⟨farthest, exponent⟩
  else none

/-- Drops the zeros at the end of the digits. -/
def Decimal.trim (x : Decimal) : Nat → Decimal
  | 0 => x
  | fuel + 1 =>
    if x.digits % 10 = 0 && x.digits != 0 then Decimal.trim ⟨x.digits / 10, x.exponent + 1⟩ fuel
    else x

/-- The shortest decimal that reads back as `mantissa · 2 ^ exponent`. Seventeen digits always do. -/
def shortest (mantissa : Nat) (exponent : Int) : Decimal :=
  if mantissa = 0 then ⟨0, 0⟩
  else
    let (num, den) := scaled mantissa 1 exponent
    let found := (List.range 17).findSome? fun k =>
      readBack? (.finite false mantissa exponent) num den (k + 1)
    (found.getD ⟨num, 0⟩).trim 400

/-- Where a decimal is written with an exponent, and how. -/
structure Layout where
  /-- The point stands at most this many places to the right of the first digit. -/
  widest : Int
  /-- The point stands more than this many places before the first digit. -/
  narrowest : Int
  /-- The exponent has at least this many digits. -/
  exponentDigits : Nat

/-- The layout of every number that the library writes. -/
def layout : Layout := ⟨16, -4, 2⟩

def zeros (n : Nat) : String :=
  String.ofList (List.replicate n '0')

def Decimal.render (x : Decimal) (lay : Layout) : String :=
  let digits := Nat.toDigits 10 x.digits
  let point : Int := x.exponent + digits.length
  if lay.narrowest < point && point ≤ lay.widest then
    if point ≤ 0 then "0." ++ zeros (-point).toNat ++ String.ofList digits
    else if (digits.length : Int) ≤ point then
      String.ofList digits ++ zeros (point - digits.length).toNat ++ ".0"
    else String.ofList (digits.take point.toNat) ++ "." ++ String.ofList (digits.drop point.toNat)
  else
    let e := point - 1
    let size := toString e.natAbs
    let tail := if digits.length = 1 then "" else "." ++ String.ofList (digits.drop 1)
    String.ofList (digits.take 1) ++ tail ++ (if e < 0 then "e-" else "e+") ++
      zeros (lay.exponentDigits - size.length) ++ size

def text : Binary64 → String
  | .finite negative m e =>
    (if negative then "-" else "") ++ if m = 0 then "0.0" else (shortest m e).render layout
  | .infinite negative => if negative then "-inf" else "inf"
  | .nan => "nan"

end DotHttp.Binary64
