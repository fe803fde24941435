/-!
Characters of a document with their places. Structure depends on columns and lines, so each character
carries its own; line breaks have one spelling, apart from the line and paragraph separators.
-/

namespace DotHttp.Yaml

/-- Why a document has no value. -/
inductive Fault where
  /-- Its form is wrong. -/
  | malformed
  /-- A scalar looks like a value that it cannot be, or an escape names no character. -/
  | impossibleValue
  /-- The number in an escape is beyond 31 bits. -/
  | tooLarge
  deriving DecidableEq, Repr

def isAllowed (c : Char) : Bool :=
  let n := c.toNat
  n = 9 || n = 10 || n = 13 || (0x20 ≤ n && n ≤ 0x7e) || n = 0x85 || (0xa0 ≤ n && n ≤ 0xd7ff) ||
    (0xe000 ≤ n && n ≤ 0xfffd) || 0x10000 ≤ n

def byteOrderMark : Char := Char.ofNat 0xfeff

def isSeparator (c : Char) : Bool :=
  c = Char.ofNat 0x2028 || c = Char.ofNat 0x2029

def isBreak (c : Char) : Bool :=
  c = '\n' || c = '\r' || c = Char.ofNat 0x85 || isSeparator c

def isSpaceOrTab (c : Char) : Bool :=
  c = ' ' || c = '\t'

def isGap (c : Char) : Bool :=
  isSpaceOrTab c || isBreak c

/-- A character, its line and column, and the number of characters before it. -/
structure Spot where
  char : Char
  line : Nat
  column : Nat
  index : Nat
  deriving DecidableEq, Repr

/-- The characters of a text that goes on at a place. A byte-order mark has no width. -/
def spotsFrom (line column index : Nat) : List Char → List Spot
  | [] => []
  | '\r' :: '\n' :: r => ⟨'\n', line, column, index⟩ :: spotsFrom (line + 1) 0 (index + 2) r
  | c :: r =>
    if isBreak c then
      ⟨if isSeparator c then c else '\n', line, column, index⟩ ::
        spotsFrom (line + 1) 0 (index + 1) r
    else
      ⟨c, line, column, index⟩ ::
        spotsFrom line (if c = byteOrderMark then column else column + 1) (index + 1) r

def spots (s : List Char) : List Spot :=
  spotsFrom 0 0 0 s

namespace Spot

def isBreak (c : Spot) : Bool :=
  Yaml.isBreak c.char

def isGap (c : Spot) : Bool :=
  Yaml.isGap c.char

end Spot

def textOf (s : List Spot) : List Char :=
  s.map (·.char)

def begins (c : Char) (s : List Spot) : Bool :=
  match s with
  | x :: _ => x.char = c
  | [] => false

/-- Whether a text begins with white space or has ended. -/
def beginsGap (s : List Spot) : Bool :=
  match s with
  | x :: _ => x.isGap
  | [] => true

/-- What follows a marker line, which begins or ends a document. -/
def afterMarker? (marker : List Char) (s : List Spot) : Option (List Spot) :=
  match s with
  | x :: _ =>
    if x.column = 0 && marker.isPrefixOf (textOf (s.take marker.length)) &&
        beginsGap (s.drop marker.length) then
      some (s.drop marker.length)
    else none
  | [] => none

def startMarker : List Char := "---".toList

def endMarker : List Char := "...".toList

def atMarker (s : List Spot) : Bool :=
  (afterMarker? startMarker s).isSome || (afterMarker? endMarker s).isSome

/-- The line at which a text begins, and the text from its end. -/
def splitLine (s : List Spot) : List Spot × List Spot :=
  s.span (!·.isBreak)

/-- Passes blanks, comments and line breaks; tells whether a break was among them. -/
def skip (s : List Spot) : List Spot × Bool :=
  go false false s
where
  /-- `comment` holds within a comment, `crossed` after a line break. -/
  go (comment crossed : Bool) : List Spot → List Spot × Bool
    | [] => ([], crossed)
    | c :: r =>
      if c.isBreak then go false true r
      else if comment || c.char = '#' then go true crossed r
      else if c.char = ' ' then go false crossed r
      else (c :: r, crossed)

/-- Passes blanks of some kind and line breaks; the breaks are kept. -/
def breaksFrom (blank : Char → Bool) : List Spot → List Char × List Spot
  | [] => ([], [])
  | c :: r =>
    if c.isBreak then
      let (breaks, rest) := breaksFrom blank r
      (c.char :: breaks, rest)
    else if blank c.char then breaksFrom blank r
    else ([], c :: r)

/-- What a line break and those after it contribute to a folded text: one break becomes a blank, and
of several the first is dropped. A separator always stays. -/
def foldBreaks (first : Char) (further : List Char) : List Char :=
  if isSeparator first then first :: further
  else if further.isEmpty then [' ']
  else further

end DotHttp.Yaml
