import DotHttp.Yaml.Spot

/-!
Quoted scalars. Single quotes are doubled inside; between double quotes a backslash begins an escape,
and one at the end of a line takes the break away. White space over line breaks is folded.
-/

namespace DotHttp.Yaml

def escapes : List (Char × Nat) :=
  [('0', 0), ('a', 7), ('b', 8), ('t', 9), ('\t', 9), ('n', 10), ('v', 11), ('f', 12), ('r', 13),
    ('e', 27), (' ', 32), ('"', 34), ('\\', 92), ('/', 47), ('N', 0x85), ('_', 0xa0),
    ('L', 0x2028), ('P', 0x2029)]

/-- The number of hexadecimal digits after an escape letter. -/
def escapeLengths : List (Char × Nat) :=
  [('x', 2), ('u', 4), ('U', 8)]

def isHexadecimal (c : Char) : Bool :=
  c.isDigit || ('a' ≤ c && c ≤ 'f') || ('A' ≤ c && c ≤ 'F')

def hexValue (c : Char) : Nat :=
  if c.isDigit then c.toNat - 48 else c.toLower.toNat - 87

def charOf (n : Nat) : Except Fault Char :=
  if n.isValidChar then .ok (Char.ofNat n)
  else if n < Nat.pow 2 31 then .error .impossibleValue
  else .error .tooLarge

/-- Line breaks within quotes; no marker line may follow them. -/
def quotedBreaks (s : List Spot) : Except Fault (List Char × List Spot) :=
  let (breaks, rest) := breaksFrom isSpaceOrTab s
  if atMarker rest then .error .malformed else .ok (breaks, rest)

/-- The white space at the start of a text: as it is within a line, folded over line breaks. -/
def quotedGap (s : List Spot) : Except Fault (List Char × List Spot) :=
  match s.span (isSpaceOrTab ·.char) with
  | (blanks, c :: below) =>
    if c.isBreak then
      (quotedBreaks below).map fun (further, rest) => (foldBreaks c.char further, rest)
    else .ok (textOf blanks, c :: below)
  | (blanks, []) => .ok (textOf blanks, [])

/-- What an escape stands for, read after its backslash. -/
def escape (s : List Spot) : Except Fault (List Char × List Spot) :=
  match s with
  | [] => .error .malformed
  | e :: r =>
    match escapes.lookup e.char, escapeLengths.lookup e.char with
    | some n, _ => .ok ([Char.ofNat n], r)
    | none, some size =>
      let digits := textOf (r.take size)
      if digits.length = size && digits.all isHexadecimal then
        (charOf (digits.foldl (fun n d => 16 * n + hexValue d) 0)).map fun c => ([c], r.drop size)
      else .error .malformed
    | none, none => if e.isBreak then quotedBreaks r else .error .malformed

/-- Reads a quoted scalar after its opening quote. -/
def quotedFrom (quote : Char) : Nat → List Spot → Except Fault (List Char × List Spot)
  | 0, _ => .error .malformed
  | fuel + 1, s =>
    let goOn (part : List Char) (rest : List Spot) : Except Fault (List Char × List Spot) :=
      (quotedFrom quote fuel rest).map fun (more, below) => (part ++ more, below)
    match s with
    | [] => .error .malformed
    | c :: r =>
      if c.isGap then do
        let (gap, rest) ← quotedGap s
        goOn gap rest
      else if c.char = quote then
        if quote = '\x27' && begins quote r then goOn [quote] (r.drop 1) else .ok ([], r)
      else if quote = '"' && c.char = '\\' then do
        let (part, rest) ← escape r
        goOn part rest
      else goOn [c.char] r

def quoted (quote : Char) (s : List Spot) : Except Fault (List Char × List Spot) :=
  quotedFrom quote (s.length + 1) s

end DotHttp.Yaml
