import DotHttp.Number.Numeral
import DotHttp.Text.Split

/-!
Duration literals: a whole number with one of the units `ms`, `s` and `m`, or with none. Durations
are milliseconds below `2 ^ 64`.
-/

namespace DotHttp.Duration

open DotHttp.Text

/-- The longest duration, in milliseconds. -/
def limit : Nat := Nat.pow 2 64 - 1

/-- The units with their milliseconds. One that ends like another stands before it. -/
def units : List (List Char × Nat) :=
  [(['m', 's'], 1), (['m'], 60000), (['s'], 1000)]

/-- The number part of a literal: common digits only, with a value up to the limit. -/
def amount? (s : List Char) : Except Numeral.Fault (Option Nat) :=
  let digits := strip s
  if digits.isEmpty || !digits.all Char.isDigit then .ok none
  else
    (Numeral.ofDigits (Numeral.plainDigits digits)).map fun n => if n ≤ limit then some n else none

/-- The product of a number and the milliseconds of its unit, up to the limit. -/
def times (factor : Nat) (n : Nat) : Option Nat :=
  if n * factor ≤ limit then some (n * factor) else none

/-- The unit at the end of a literal and the text before it; without a unit the number counts
`bare` milliseconds. -/
def splitUnit (bare : Nat) (s : List Char) : List Char × Nat :=
  (units.findSome? fun (unit, factor) => (dropEnd? unit s).map (·, factor)).getD (s, bare)

/-- Reads a duration literal. Anything else is no duration; a number with too many digits is not
looked at. -/
def read (s : List Char) (bare : Nat) : Except Numeral.Fault (Option Nat) :=
  let literal := strip s
  if literal.isEmpty then .ok none
  else
    let (number, factor) := splitUnit bare literal
    (amount? number).map fun n => n.bind (times factor)

end DotHttp.Duration
