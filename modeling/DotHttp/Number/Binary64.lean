/-!
Double-precision numbers with exact arithmetic. A finite number is `mantissa · 2 ^ exponent`, with
the mantissa below `2 ^ 53` and the exponent as small as that allows but at least -1074; results
are rounded to the nearest number, a tie going to the even mantissa.
-/

namespace DotHttp

inductive Binary64 where
  | finite (negative : Bool) (mantissa : Nat) (exponent : Int)
  | infinite (negative : Bool)
  | nan
  deriving DecidableEq, Repr

namespace Binary64

/-- The quotient rounded to the nearest whole number, a tie to the even one. -/
def roundDiv (num den : Nat) : Nat :=
  let q := num / den
  let r := num % den
  if 2 * r < den then q else if den < 2 * r then q + 1 else q + q % 2

/-- `num · 2 ^ e` over `den`, as a quotient of two whole numbers. -/
def scaled (num den : Nat) (e : Int) : Nat × Nat :=
  if 0 ≤ e then (num * Nat.pow 2 e.toNat, den) else (num, den * Nat.pow 2 (-e).toNat)

/-- The largest power of two that is at most a positive quotient. -/
def floorLog2 (num den : Nat) : Int :=
  let e : Int := Int.ofNat num.log2 - Int.ofNat den.log2
  let (n, d) := scaled num den (-e)
  if d ≤ n then e else e - 1

/-- Mantissas are below `2 ^ 53`. -/
def mantissaBound : Nat := Nat.pow 2 53

def zero (negative : Bool) : Binary64 :=
  .finite negative 0 (-1074)

def ofRatio (negative : Bool) (num den : Nat) : Binary64 :=
  if num = 0 then zero negative
  else
    let q := max (-1074) (floorLog2 num den - 52)
    let (n, d) := scaled num den (-q)
    let m := roundDiv n d
    let (m, q) := if m = mantissaBound then (mantissaBound / 2, q + 1) else (m, q)
    if 971 < q then .infinite negative else .finite negative m q

/-- The number nearest to `digits · 10 ^ exponent`. -/
def ofDecimal (negative : Bool) (digits : Nat) (exponent : Int) : Binary64 :=
  let size : Int := Int.ofNat (Nat.log2 digits / 4) + exponent
  if digits = 0 then zero negative
  else if 400 < size then .infinite negative
  else if Int.ofNat (Nat.log2 digits) + exponent < -400 then zero negative
  else if 0 ≤ exponent then ofRatio negative (digits * Nat.pow 10 exponent.toNat) 1
  else ofRatio negative digits (Nat.pow 10 (-exponent).toNat)

def ofInt (n : Int) : Binary64 :=
  ofRatio (n < 0) n.natAbs 1

/-- The number nearest to `n · 2 ^ e`. -/
def ofScaled (n e : Int) : Binary64 :=
  let (num, den) := scaled n.natAbs 1 e
  ofRatio (n < 0) num den

def signed (negative : Bool) (n : Nat) : Int :=
  if negative then -(Int.ofNat n) else Int.ofNat n

def neg : Binary64 → Binary64
  | .finite s m e => .finite (!s) m e
  | .infinite s => .infinite (!s)
  | .nan => .nan

def add : Binary64 → Binary64 → Binary64
  | .finite s m e, .finite t n f =>
    let low := min e f
    if m = 0 && n = 0 then zero (s && t)
    else
      ofScaled (signed s (m * Nat.pow 2 (e - low).toNat) +
        signed t (n * Nat.pow 2 (f - low).toNat)) low
  | .nan, _ => .nan
  | _, .nan => .nan
  | .infinite s, .infinite t => if s = t then .infinite s else .nan
  | .infinite s, _ => .infinite s
  | _, .infinite t => .infinite t

def sub (x y : Binary64) : Binary64 :=
  add x y.neg

def mul : Binary64 → Binary64 → Binary64
  | .finite s m e, .finite t n f =>
    let (num, den) := scaled (m * n) 1 (e + f)
    ofRatio (s != t) num den
  | .nan, _ => .nan
  | _, .nan => .nan
  | .infinite s, .finite t n _ => if n = 0 then .nan else .infinite (s != t)
  | .finite s m _, .infinite t => if m = 0 then .nan else .infinite (s != t)
  | .infinite s, .infinite t => .infinite (s != t)

def truncate? : Binary64 → Option Int
  | .finite s m e =>
    let (num, den) := scaled m 1 e
    some (signed s (num / den))
  | _ => none

/-- The whole number that a finite number is, if it is one. -/
def whole? : Binary64 → Option Int
  | .finite s m e =>
    let (num, den) := scaled m 1 e
    if num % den = 0 then some (signed s (num / den)) else none
  | _ => none

def isZero : Binary64 → Bool
  | .finite _ m _ => m == 0
  | _ => false

end Binary64

end DotHttp
