import DotHttp.Yaml.Spot

/-!
Plain scalars: where they begin and end. Inside brackets more characters end them; outside, their
further lines must not begin left of a column.
-/

namespace DotHttp.Yaml

def indicators : List Char :=
  "-?:,[]\x7b\x7d#&*!|>\x27\"%@\x60".toList

def brackets : List Char :=
  "[]\x7b\x7d".toList

def beginsPlain (flow : Bool) (s : List Spot) : Bool :=
  match s with
  | [] => false
  | c :: r =>
    (!c.isGap && !indicators.contains c.char) ||
      (!beginsGap r && (c.char = '-' || (!flow && (c.char = '?' || c.char = ':'))))

/-- Whether a plain scalar ends before this text. -/
def endsPlain (flow : Bool) (s : List Spot) : Bool :=
  match s with
  | [] => true
  | c :: r =>
    c.isGap ||
      (c.char = ':' && (beginsGap r ||
        (flow && r.head?.any fun x => x.char = ',' || brackets.contains x.char))) ||
      (flow && (c.char = ',' || c.char = '?' || brackets.contains c.char))

/-- A run of a plain scalar, without white space. -/
def plainRun (flow : Bool) : List Spot → List Char × List Spot
  | [] => ([], [])
  | c :: r =>
    if endsPlain flow (c :: r) then ([], c :: r)
    else
      let (run, rest) := plainRun flow r
      (c.char :: run, rest)

/-- A part of a scalar, what follows it, and whether a line break was passed at its end. -/
structure Piece where
  text : List Char
  rest : List Spot
  crossed : Bool

/-- The white space after a run: as it is within a line, folded over line breaks. -/
def plainGap (s : List Spot) : Piece :=
  match s.span (·.char = ' ') with
  | (blanks, c :: below) =>
    if c.isBreak then
      let (further, rest) := breaksFrom (· = ' ') below
      ⟨if atMarker rest then [] else foldBreaks c.char further, rest, true⟩
    else ⟨textOf blanks, c :: below, false⟩
  | (blanks, []) => ⟨textOf blanks, [], false⟩

/-- Whether a text begins left of a column. -/
def isLeftOf (column : Nat) (s : List Spot) : Bool :=
  match s with
  | c :: _ => c.column < column
  | [] => false

def plainFrom (flow : Bool) (least : Nat) : Nat → List Spot → Piece
  | 0, s => ⟨[], s, false⟩
  | fuel + 1, s =>
    let (run, rest) := plainRun flow s
    let gap := plainGap rest
    if run.isEmpty then ⟨[], s, false⟩
    else if gap.text.isEmpty || begins '#' gap.rest || (!flow && isLeftOf least gap.rest) then
      ⟨run, gap.rest, gap.crossed⟩
    else
      let more := plainFrom flow least fuel gap.rest
      if more.text.isEmpty then ⟨run, gap.rest, gap.crossed⟩
      else ⟨run ++ gap.text ++ more.text, more.rest, more.crossed⟩

def plain (flow : Bool) (least : Nat) (s : List Spot) : Piece :=
  plainFrom flow least (s.length + 1) s

end DotHttp.Yaml
