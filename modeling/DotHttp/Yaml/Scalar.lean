import DotHttp.Number.Numeral
import DotHttp.Setting
import DotHttp.Text.Split
import DotHttp.Yaml.Quoted

/-!
Plain scalars of YAML 1.1: which texts are null, truth values, numbers in several bases and notations
or dates. Any other text is itself.
-/

namespace DotHttp.Yaml

open DotHttp.Text

def nullWords : List String :=
  ["", "~", "null", "Null", "NULL"]

def trueWords : List String :=
  ["yes", "Yes", "YES", "true", "True", "TRUE", "on", "On", "ON"]

def falseWords : List String :=
  ["no", "No", "NO", "false", "False", "FALSE", "off", "Off", "OFF"]

def infinityWords : List String :=
  [".inf", ".Inf", ".INF"]

def nanWords : List String :=
  [".nan", ".NaN", ".NAN"]

/-- The sign of a number and the text after it. -/
def splitSign : List Char → Bool × List Char
  | '-' :: r => (true, r)
  | '+' :: r => (false, r)
  | r => (false, r)

def withoutLines (s : List Char) : List Char :=
  s.filter (· != '_')

def isOf (digit : Char → Bool) (c : Char) : Bool :=
  c = '_' || digit c

def isBinary (c : Char) : Bool :=
  c = '0' || c = '1'

def isOctal (c : Char) : Bool :=
  '0' ≤ c && c ≤ '7'

/-- The number written in a base; without a digit there is none. -/
def inBase (base : Nat) (digits : List Char) : Except Fault Nat :=
  match withoutLines digits with
  | [] => .error .impossibleValue
  | ds => .ok (ds.foldl (fun n c => base * n + hexValue c) 0)

def decimal (digits : List Char) : Except Fault Nat :=
  (Numeral.ofDigits (Numeral.plainDigits digits)).mapError fun _ => .impossibleValue

/-- A part after a colon: one digit, or two of which the first is at most five. -/
def isSixtieth : List Char → Bool
  | [a] => a.isDigit
  | [a, b] => '0' ≤ a && a ≤ '5' && b.isDigit
  | _ => false

/-- The parts of a number in base sixty with colons between them. -/
def sixtieths? (s : List Char) : Option (List Char × List (List Char)) :=
  match splitOn ':' s with
  | first :: part :: rest =>
    if (part :: rest).all isSixtieth then some (first, part :: rest) else none
  | _ => none

/-- Decimal digits with low lines among them, the first being a digit. -/
def isDigits : List Char → Bool
  | c :: r => c.isDigit && r.all (isOf Char.isDigit)
  | [] => false

/-- A number from one up, in base sixty. -/
def sexagesimal? (s : List Char) : Option (Except Fault Nat) :=
  match sixtieths? s with
  | some (first, parts) =>
    if isDigits first && first.head? != some '0' then
      some do
        let high ← decimal first
        let low ← parts.mapM decimal
        .ok (low.foldl (fun n d => 60 * n + d) high)
    else none
  | none => none

/-- A whole number without its sign: binary, octal, hexadecimal, decimal or in base sixty. -/
def whole? (s : List Char) : Option (Except Fault Nat) :=
  match s with
  | '0' :: 'b' :: c :: r =>
    if (c :: r).all (isOf isBinary) then some (inBase 2 (c :: r)) else none
  | '0' :: 'x' :: c :: r =>
    if (c :: r).all (isOf isHexadecimal) then some (inBase 16 (c :: r)) else none
  | '0' :: r => if r.all (isOf isOctal) then some (inBase 8 ('0' :: r)) else none
  | c :: r =>
    if c.isDigit && r.all (isOf Char.isDigit) then some (decimal (c :: r)) else sexagesimal? s
  | [] => none

/-- The exponent of a fraction, which has a sign and digits. -/
def exponent? : List Char → Option Int
  | [] => some 0
  | e :: sign :: d :: ds =>
    if (e = 'e' || e = 'E') && (sign = '+' || sign = '-') && (d :: ds).all Char.isDigit then
      some (Binary64.signed (sign = '-') (Numeral.valueOf (Numeral.plainDigits (d :: ds))))
    else none
  | _ => none

/-- A decimal fraction without its sign; `bare` allows that no digit stands before the point. -/
def fraction? (bare : Bool) (negative : Bool) (s : List Char) : Option Binary64 :=
  match splitFirst '.' s with
  | none => none
  | some (before, after) =>
    let (digits, rest) := after.span (isOf Char.isDigit)
    let leads := isDigits before || (bare && before.isEmpty && isDigits digits)
    if leads then
      (exponent? rest).map fun e =>
        let ds := Numeral.plainDigits digits
        Binary64.ofDecimal negative
          (Numeral.valueOf (Numeral.plainDigits before ++ ds)) (e - ds.length)
    else none

def sexagesimalFraction? (negative : Bool) (s : List Char) : Option Binary64 :=
  match splitFirst '.' s with
  | none => none
  | some (before, after) =>
    match sixtieths? before with
    | some (first, parts) =>
      if isDigits first && after.all (isOf Char.isDigit) then
        let number (ds fraction : List Char) : Binary64 :=
          let fs := Numeral.plainDigits fraction
          Binary64.ofDecimal false
            (Numeral.valueOf (Numeral.plainDigits ds ++ fs)) (-(fs.length : Int))
        let digits := match (first :: parts).reverse with
          | last :: higher => number last after :: higher.map (number · [])
          | [] => []
        let (sum, _) := digits.foldl
          (fun (sum, base) d => (sum.add (d.mul (.ofInt base)), base * 60)) (Binary64.zero false, 1)
        some (if negative then sum.neg else sum)
      else none
    | none => none

def number? (s : List Char) : Option Binary64 :=
  let (negative, body) := splitSign s
  let signless := body.length = s.length
  if nanWords.contains (String.ofList s) then some .nan
  else if infinityWords.contains (String.ofList body) then some (.infinite negative)
  else
    match fraction? signless negative body with
    | some x => some x
    | none => sexagesimalFraction? negative body

/-- Reads from `least` to `most` digits. -/
def digits? (least most : Nat) (s : List Char) : Option (Nat × List Char) :=
  let digits := (s.take most).takeWhile Char.isDigit
  if least ≤ digits.length then
    some (Numeral.valueOf (Numeral.plainDigits digits), s.drop digits.length)
  else none

/-- Reads a day: four digits, and one or two after each hyphen. -/
def day? (s : List Char) : Option (Date × List Char) := do
  let (year, r) ← digits? 4 4 s
  let r ← dropStart? ['-'] r
  let (month, r) ← digits? 1 2 r
  let r ← dropStart? ['-'] r
  let (day, r) ← digits? 1 2 r
  some (⟨year, month, day⟩, r)

/-- A day whose month and day have two digits. -/
def date? (s : List Char) : Option (Except Fault Setting) :=
  match day? s with
  | some (d, []) =>
    if s.length = 10 then some (if d.isReal then .ok (.date d) else .error .impossibleValue)
    else none
  | _ => none

def skipBlanks (s : List Char) : List Char :=
  s.dropWhile isSpaceOrTab

/-- The zone at the end of a time, which may be missing. -/
def zone? (s : List Char) : Option (Option Int) :=
  if s.isEmpty then some none
  else
    match skipBlanks s with
    | ['Z'] => some (some 0)
    | sign :: r =>
      let zone (hours minutes : Nat) : Option (Option Int) :=
        some (some (Binary64.signed (sign = '-') (60 * hours + minutes)))
      if sign = '+' || sign = '-' then
        match digits? 1 2 r with
        | some (hours, []) => zone hours 0
        | some (hours, ':' :: m) =>
          match digits? 2 2 m with
          | some (minutes, []) => zone hours minutes
          | _ => none
        | _ => none
      else none
    | [] => none

/-- The microseconds that the digits after a point stand for. -/
def microseconds (digits : List Char) : Nat :=
  Numeral.valueOf (Numeral.plainDigits ((digits ++ List.replicate 6 '0').take 6))

/-- A day and a time of day with seconds. -/
def timestamp? (s : List Char) : Option (Except Fault Setting) := do
  let (date, r) ← day? s
  let r ← match r with
    | c :: r =>
      if c = 'T' || c = 't' then some r
      else if isSpaceOrTab c then some (skipBlanks r)
      else none
    | [] => none
  let (hour, r) ← digits? 1 2 r
  let r ← dropStart? [':'] r
  let (minute, r) ← digits? 2 2 r
  let r ← dropStart? [':'] r
  let (second, r) ← digits? 2 2 r
  let (fraction, r) := match r with
    | '.' :: r => r.span Char.isDigit
    | r => ([], r)
  let zone ← zone? r
  let t : Timestamp := ⟨date, hour, minute, second, microseconds fraction, zone⟩
  some (if t.isReal then .ok (.timestamp t) else .error .impossibleValue)

def scalar (s : List Char) : Except Fault Setting :=
  let word := String.ofList s
  if nullWords.contains word then .ok .null
  else if trueWords.contains word then .ok (.bool true)
  else if falseWords.contains word then .ok (.bool false)
  else if word = "=" || word = "<<" then .error .malformed
  else
    match number? s with
    | some x => .ok (.number x)
    | none =>
      let (negative, body) := splitSign s
      match whole? body with
      | some n => n.map fun n => .integer (Binary64.signed negative n)
      | none =>
        (date? s <|> timestamp? s).getD (.ok (.text word))

end DotHttp.Yaml
