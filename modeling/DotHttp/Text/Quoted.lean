import DotHttp.Text.Printable

/-!
The quoted form of a text in messages: single quotes, or double ones when the text has a single
quote and no double one; controls and characters without a visible form are escaped.
-/

namespace DotHttp.Text

def hexDigit (n : Nat) : Char :=
  if n < 10 then Char.ofNat (48 + n) else Char.ofNat (87 + n)

/-- The last `width` digits of a number in base sixteen. -/
def hexDigits : Nat → Nat → List Char
  | 0, _ => []
  | width + 1, n => hexDigits width (n / 16) ++ [hexDigit (n % 16)]

def quotedChar (quote c : Char) : List Char :=
  if c = '\\' || c = quote then ['\\', c]
  else if c = '\t' then ['\\', 't']
  else if c = '\n' then ['\\', 'n']
  else if c = '\r' then ['\\', 'r']
  else if isPrintable c then [c]
  else if c.toNat < 0x100 then '\\' :: 'x' :: hexDigits 2 c.toNat
  else if c.toNat < 0x10000 then '\\' :: 'u' :: hexDigits 4 c.toNat
  else '\\' :: 'U' :: hexDigits 8 c.toNat

def quoteMark (s : List Char) : Char :=
  if s.contains '\x27' && !s.contains '"' then '"' else '\x27'

def quoted (s : List Char) : List Char :=
  quoteMark s :: s.flatMap (quotedChar (quoteMark s)) ++ [quoteMark s]

end DotHttp.Text

namespace String

def quotedForm (s : String) : String :=
  ofList (DotHttp.Text.quoted s.toList)

end String
