import DotHttp.Yaml.Block
import DotHttp.Yaml.Plain
import DotHttp.Yaml.Quoted

/-!
The tokens of a document. Block collections are told by columns: one begins where a text stands right
of those around it and ends at the first text left of it. A key is known only by the colon after it,
so the place where one may have begun is kept until the colon is found, for the rest of its line and
for at most 1024 characters.
-/

namespace DotHttp.Yaml

inductive Token where
  | documentStart
  | documentEnd
  | blockList
  | blockMapping
  | blockEnd
  | entry
  | key
  | value
  | openList
  | closeList
  | openMapping
  | closeMapping
  | comma
  | scalar (text : List Char) (isPlain : Bool)
  /-- Here a document cannot be read further. -/
  | fault (fault : Fault)
  deriving DecidableEq, Repr

/-- A place where a key may have begun. -/
structure Candidate where
  /-- The number of tokens before it. -/
  before : Nat
  start : Spot
  /-- In a block mapping an entry must begin with a key. -/
  required : Bool
  deriving DecidableEq, Repr

/-- The most characters from the start of a key to its colon. -/
def maxKeyLength : Nat := 1024

/-- Whether the colon of a key can no longer follow. -/
def Candidate.isStale (k : Candidate) (here : Spot) : Bool :=
  k.start.line != here.line || k.start.index + maxKeyLength < here.index

/-- The tokens up to a place, and what decides those after it. -/
structure Layout where
  /-- The tokens, latest first. -/
  tokens : List Token
  /-- The number of tokens. -/
  count : Nat
  /-- The columns of the open block collections, innermost first. -/
  columns : List Nat
  candidate : Option Candidate
  /-- The candidates outside each open bracket, innermost first. -/
  outside : List (Option Candidate)
  /-- Whether a key may begin at the next token. -/
  allowsKey : Bool

/-- What a step gives: the layout after it and the rest of the text. -/
abbrev Step := Except Fault (Layout × List Spot)

namespace Layout

def start : Layout := ⟨[], 0, [], none, [], true⟩

/-- Whether a bracket is open, so that columns do not count. -/
def isFlow (l : Layout) : Bool :=
  !l.outside.isEmpty

def emit (t : Token) (l : Layout) : Layout :=
  { l with tokens := t :: l.tokens, count := l.count + 1 }

/-- Inserts a token after the first `before` ones. -/
def insertAfter (before : Nat) (t : Token) (l : Layout) : Layout :=
  { l with tokens := l.tokens.insertIdx (l.count - before) t, count := l.count + 1 }

/-- The column at which the text of a block must at least begin. -/
def least (l : Layout) : Nat :=
  match l.columns with
  | [] => 0
  | c :: _ => c + 1

def giveUp (k : Option Candidate) : Except Fault (Option Candidate) :=
  match k with
  | some k => if k.required then .error .malformed else .ok none
  | none => .ok none

def dropCandidate (l : Layout) : Except Fault Layout :=
  (giveUp l.candidate).map fun k => { l with candidate := k }

/-- Gives up the candidates whose colon can no longer follow. -/
def dropStale (here : Spot) (l : Layout) : Except Fault Layout := do
  let check (k : Option Candidate) : Except Fault (Option Candidate) :=
    if k.any (·.isStale here) then giveUp k else .ok k
  let candidate ← check l.candidate
  let outside ← l.outside.mapM check
  .ok { l with candidate, outside }

/-- Keeps the place of the next token, if a key may begin there. -/
def saveCandidate (here : Spot) (l : Layout) : Except Fault Layout :=
  if l.allowsKey then
    let required := !l.isFlow && l.columns.head? = some here.column
    l.dropCandidate.map fun l => { l with candidate := some ⟨l.count, here, required⟩ }
  else .ok l

/-- Ends the block collections that the condition on their column holds for. -/
def endBlocks (ends : Nat → Bool) (l : Layout) : Layout :=
  if l.isFlow then l
  else
    let ended := l.columns.takeWhile ends
    { ended.foldl (fun l _ => l.emit .blockEnd) l with columns := l.columns.dropWhile ends }

def beginsBlock (column : Nat) (l : Layout) : Bool :=
  l.columns.head?.all (· < column)

/-- Begins a block collection at a column right of those around it. -/
def beginBlock (column : Nat) (t : Token) (l : Layout) : Layout :=
  if l.beginsBlock column then { l.emit t with columns := column :: l.columns } else l

def marker (t : Token) (l : Layout) : Except Fault Layout :=
  (l.endBlocks fun _ => true).dropCandidate.map fun l => { l.emit t with allowsKey := false }

def opening (t : Token) (here : Spot) (l : Layout) : Except Fault Layout :=
  (l.saveCandidate here).map fun l =>
    { l.emit t with candidate := none, outside := l.candidate :: l.outside, allowsKey := true }

def closing (t : Token) (l : Layout) : Except Fault Layout := do
  let l ← l.dropCandidate
  match l.outside with
  | [] => .error .malformed
  | k :: outside => .ok { l.emit t with candidate := k, outside, allowsKey := false }

def comma (l : Layout) : Except Fault Layout :=
  l.dropCandidate.map fun l => { l.emit .comma with allowsKey := true }

/-- The sign of a list entry, which stands in a block only. -/
def entry (here : Spot) (l : Layout) : Except Fault Layout :=
  if l.isFlow || !l.allowsKey then .error .malformed
  else (l.beginBlock here.column .blockList).dropCandidate.map (emit .entry)

/-- A question mark, after which a key of any form stands. -/
def key (here : Spot) (l : Layout) : Except Fault Layout :=
  if l.isFlow then l.dropCandidate.map fun l => { l.emit .key with allowsKey := false }
  else if l.allowsKey then
    (l.beginBlock here.column .blockMapping).dropCandidate.map (emit .key)
  else .error .malformed

/-- A colon. What stands at the candidate is a key; without a candidate the key is empty or stands
after a question mark. -/
def value (here : Spot) (l : Layout) : Except Fault Layout :=
  match l.candidate with
  | some k =>
    let l := l.insertAfter k.before .key
    let l :=
      if !l.isFlow && l.beginsBlock k.start.column then
        { l.insertAfter k.before .blockMapping with columns := k.start.column :: l.columns }
      else l
    .ok { l.emit .value with candidate := none, allowsKey := false }
  | none =>
    if l.isFlow then .ok { l.emit .value with allowsKey := false }
    else if l.allowsKey then .ok ((l.beginBlock here.column .blockMapping).emit .value)
    else .error .malformed

/-- A plain or quoted scalar. A key may follow it only if a line break does. -/
def scalar (here : Spot) (text : List Char) (isPlain allowsKey : Bool) (l : Layout) :
    Except Fault Layout :=
  (l.saveCandidate here).map fun l => { l.emit (.scalar text isPlain) with allowsKey }

/-- A block scalar; a key may follow it. -/
def blockScalar (text : List Char) (l : Layout) : Except Fault Layout :=
  l.dropCandidate.map fun l => { l.emit (.scalar text false) with allowsKey := true }

/-- The tokens of a text that has ended. -/
def finish (l : Layout) : Except Fault Layout :=
  (l.endBlocks fun _ => true).dropCandidate

/-- The token that begins with a character. Directives, anchors, aliases and tags are not read. -/
def step (l : Layout) (here : Spot) (r : List Spot) : Step :=
  let s := here :: r
  let sign : Bool := l.isFlow || beginsGap r
  let after (l : Except Fault Layout) : Step := l.map fun l => (l, r)
  match afterMarker? startMarker s, afterMarker? endMarker s with
  | some rest, _ => (l.marker .documentStart).map fun l => (l, rest)
  | none, some rest => (l.marker .documentEnd).map fun l => (l, rest)
  | none, none =>
    match here.char with
    | '[' => after (l.opening .openList here)
    | '\x7b' => after (l.opening .openMapping here)
    | ']' => after (l.closing .closeList)
    | '\x7d' => after (l.closing .closeMapping)
    | ',' => after l.comma
    | c =>
      if c = '-' && beginsGap r then after (l.entry here)
      else if c = '?' && sign then after (l.key here)
      else if c = ':' && sign then after (l.value here)
      else if (c = '|' || c = '>') && !l.isFlow then do
        let (text, rest) ← Yaml.blockScalar (c = '>') l.least r
        (l.blockScalar text).map fun l => (l, rest)
      else if c = '\x27' || c = '"' then do
        let (text, rest) ← quoted c r
        (l.scalar here text false false).map fun l => (l, rest)
      else if beginsPlain l.isFlow s then
        let found := plain l.isFlow l.least s
        (l.scalar here found.text true found.crossed).map fun l => (l, found.rest)
      else .error .malformed

/-- The tokens of the rest of a text, after those of a layout. Each step passes a character. -/
def run : Nat → Layout → List Spot → List Token
  | 0, l, _ => l.tokens.reverse
  | fuel + 1, l, s =>
    let (s, crossed) := skip s
    let l := if crossed && !l.isFlow then { l with allowsKey := true } else l
    let fail (f : Fault) : List Token := (l.emit (.fault f)).tokens.reverse
    match s with
    | [] =>
      match l.finish with
      | .ok l => l.tokens.reverse
      | .error f => fail f
    | here :: r =>
      match l.dropStale here with
      | .error f => fail f
      | .ok l =>
        match (l.endBlocks (here.column < ·)).step here r with
        | .error f => fail f
        | .ok (l, rest) => run fuel l rest

end Layout

/-- The tokens of a text. A byte-order mark at its start is passed. -/
def tokens (s : List Char) : List Token :=
  let all := spots s
  let text := if begins byteOrderMark all then all.drop 1 else all
  Layout.start.run (all.length + 1) text

end DotHttp.Yaml
