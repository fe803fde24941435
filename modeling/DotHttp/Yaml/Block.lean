import DotHttp.Yaml.Spot

/-!
Block scalars: the indented lines below a header such as `|` or `>-`. A literal scalar keeps its line
breaks and a folded one joins lines; the header tells which breaks at the end stay.
-/

namespace DotHttp.Yaml

/-- Which line breaks stay at the end: none, one, or all. -/
inductive Chomping where
  | strip
  | clip
  | keep
  deriving DecidableEq, Repr

/-- The header of a block scalar. `indentation` is relative to the block around. -/
structure BlockHeader where
  chomping : Chomping
  indentation : Option Nat
  deriving DecidableEq, Repr

def chomping? (c : Spot) : Option Chomping :=
  if c.char = '+' then some .keep else if c.char = '-' then some .strip else none

def indentation? (c : Spot) : Option Nat :=
  if c.char.isDigit then some (c.char.toNat - 48) else none

/-- Reads the signs of a header, each at most once in either order. -/
def blockSigns (s : List Spot) : BlockHeader × List Spot :=
  match s with
  | [] => (⟨.clip, none⟩, [])
  | c :: r =>
    match chomping? c, indentation? c with
    | some ch, _ =>
      match r.head?.bind indentation? with
      | some n => (⟨ch, some n⟩, r.drop 1)
      | none => (⟨ch, none⟩, r)
    | none, some n =>
      match r.head?.bind chomping? with
      | some ch => (⟨ch, some n⟩, r.drop 1)
      | none => (⟨.clip, some n⟩, r)
    | none, none => (⟨.clip, none⟩, s)

/-- Reads a header to the end of its line, where a comment may stand after a blank. -/
def blockHeader? (s : List Spot) : Option (BlockHeader × List Spot) :=
  let (header, rest) := blockSigns s
  let margin := rest.dropWhile (·.char = ' ')
  let line := if begins '#' margin then (splitLine margin).2 else margin
  if header.indentation = some 0 || !(begins ' ' rest || rest.isEmpty || rest.head?.any Spot.isBreak)
  then none
  else
    match line with
    | [] => some (header, [])
    | c :: below => if c.isBreak then some (header, below) else none

/-- Passes empty lines and at most `column` blanks of each line. -/
def emptyLines (column : Nat) : List Spot → List Char × List Spot
  | [] => ([], [])
  | c :: r =>
    if c.isBreak then
      let (breaks, rest) := emptyLines column r
      (c.char :: breaks, rest)
    else if c.char = ' ' && c.column < column then emptyLines column r
    else ([], c :: r)

/-- The column after the longest run of blanks among the empty lines at the start. -/
def blankWidth : List Spot → Nat
  | [] => 0
  | c :: r =>
    if c.isBreak then blankWidth r
    else if c.char = ' ' then max (c.column + 1) (blankWidth r)
    else 0

def startsAt (column : Nat) (s : List Spot) : Bool :=
  match s with
  | c :: _ => c.column = column
  | [] => false

/-- Whether a line begins with white space, so that it is not folded. -/
def isIndented (s : List Spot) : Bool :=
  match s with
  | c :: _ => isSpaceOrTab c.char
  | [] => false

/-- The lines of a block scalar, with the breaks at its end. -/
structure BlockBody where
  text : List Char
  lastBreak : List Char
  emptyLines : List Char
  rest : List Spot

/-- Reads the lines at a column; `breaks` are those of the empty lines before. -/
def blockLines (folded : Bool) (column : Nat) : Nat → List Char → List Spot → BlockBody
  | 0, breaks, s => ⟨[], [], breaks, s⟩
  | fuel + 1, breaks, s =>
    if startsAt column s then
      match splitLine s with
      | (line, []) => ⟨breaks ++ textOf line, [], [], []⟩
      | (line, c :: below) =>
        let (further, rest) := emptyLines column below
        if startsAt column rest then
          let join :=
            if folded && c.char = '\n' && !isIndented s && !isIndented rest then
              if further.isEmpty then [' '] else []
            else [c.char]
          let more := blockLines folded column fuel further rest
          { more with text := breaks ++ textOf line ++ join ++ more.text }
        else ⟨breaks ++ textOf line, [c.char], further, rest⟩
    else ⟨[], [], breaks, s⟩

/-- Reads a block scalar after its sign; its lines begin at `least` or right of it. -/
def blockScalar (folded : Bool) (least : Nat) (s : List Spot) :
    Except Fault (List Char × List Spot) :=
  match blockHeader? s with
  | none => .error .malformed
  | some (header, below) =>
    let least := max 1 least
    let column :=
      match header.indentation with
      | some n => least + n - 1
      | none => max least (blankWidth below)
    let (breaks, rest) := emptyLines column below
    let body := blockLines folded column (below.length + 1) breaks rest
    let tail :=
      match header.chomping with
      | .strip => []
      | .clip => body.lastBreak
      | .keep => body.lastBreak ++ body.emptyLines
    .ok (body.text ++ tail, body.rest)

end DotHttp.Yaml
