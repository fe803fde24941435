import DotHttp.Text.Blank
import DotHttp.Text.Word

/-!
Decimal numerals. A numeral may have a sign, digits of any script and single low lines between
digits; one with more than 4300 digits is refused, whatever its value.
-/

namespace DotHttp.Numeral

open DotHttp.Text

inductive Fault where
  | malformed
  | tooManyDigits
  deriving DecidableEq, Repr

/-- The most digits that a numeral may have. -/
def maxDigits : Nat := 4300

/-- The number written by some digits, the highest first. -/
def valueOf (digits : List Nat) : Nat :=
  digits.foldl (fun n d => 10 * n + d) 0

/-- The number written by some digits, unless there are too many of them. -/
def ofDigits (digits : List Nat) : Except Fault Nat :=
  if digits.length ≤ maxDigits then .ok (valueOf digits) else .error .tooManyDigits

/-- The space around a numeral: white space without the four information separators. -/
def isMargin (c : Char) : Bool :=
  isBlank c && !(0x1c ≤ c.toNat && c.toNat ≤ 0x1f)

/-- The digits of a numeral; a low line may stand between two of them. -/
def digits? : List Char → Option (List Nat)
  | [] => none
  | [c] => (digitValue? c).map fun d => [d]
  | c :: '_' :: r => do
    let d ← digitValue? c
    let ds ← digits? r
    some (d :: ds)
  | c :: r => do
    let d ← digitValue? c
    let ds ← digits? r
    some (d :: ds)

def unsigned (s : List Char) : Except Fault Nat :=
  match digits? s with
  | some ds => ofDigits ds
  | none => .error .malformed

def readInt (s : List Char) : Except Fault Int :=
  match ((s.dropWhile isMargin).reverse.dropWhile isMargin).reverse with
  | '+' :: r => (unsigned r).map Int.ofNat
  | '-' :: r => (unsigned r).map fun n => -(Int.ofNat n)
  | r => (unsigned r).map Int.ofNat

/-- Digits in their common form, with their values. -/
def plainDigits (s : List Char) : List Nat :=
  s.filterMap asciiDigit?

theorem plainDigits_of_isDigit {s : List Char} (h : ∀ c ∈ s, c.isDigit = true) :
    plainDigits s = s.map (·.toNat - 48) := by
  induction s with
  | nil => rfl
  | cons c s ih =>
    rw [List.forall_mem_cons] at h
    rw [plainDigits, List.filterMap_cons, asciiDigit?, if_pos h.1, List.map_cons, ← ih h.2]
    rfl

end DotHttp.Numeral
