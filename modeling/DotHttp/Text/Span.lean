/-!
Sets of characters given by inclusive spans of code points, and maps given by spans that are
shifted by a constant. The tables of character properties are written in these two forms.
-/

namespace DotHttp.Text

/-- Inclusive spans of code points. -/
abbrev Spans := List (Nat × Nat)

def Spans.contains (spans : Spans) (c : Char) : Bool :=
  spans.any fun (first, last) => first ≤ c.toNat && c.toNat ≤ last

/-- Every `step`-th code point from `first` to `last` is moved by `offset`. -/
structure Shift where
  first : Nat
  last : Nat
  step : Nat
  offset : Int

def Shift.covers (s : Shift) (n : Nat) : Bool :=
  s.first ≤ n && n ≤ s.last && (n - s.first) % s.step == 0

/-- The first shift that covers a character moves it; other characters stay. -/
def shiftChar (shifts : List Shift) (c : Char) : Char :=
  match shifts.find? (·.covers c.toNat) with
  | some s => Char.ofNat (c.toNat + s.offset).toNat
  | none => c

end DotHttp.Text
