import DotHttp.Text.Blank
import DotHttp.Text.Split

/-!
Files of environment settings: lines such as `export NAME="value" # why`. A value may be quoted, and
`${NAME}` in it stands for an earlier setting of the file or of the environment around it.
-/

namespace DotHttp.EnvFile

open DotHttp.Text

def isLineEnd (c : Char) : Bool :=
  c = '\n' || c = '\r'

def isMargin (c : Char) : Bool :=
  isBlank c && !isLineEnd c

def skipMargin (s : List Char) : List Char :=
  s.dropWhile isMargin

/-- A line: its setting, if it has one. A name without an equals sign has no value. -/
inductive Line where
  | setting (name : List Char) (value : Option (List Char))
  | empty
  | malformed
  deriving DecidableEq, Repr

/-- Reads a quoted text after its opening quote. A backslash escapes whatever follows it, and the text
ends at the first quote that is not escaped. -/
def untilQuote (quote : Char) : List Char → Option (List Char × List Char)
  | [] => none
  | c :: r =>
    if c = quote then some ([], r)
    else if c = '\\' then
      match r with
      | [] => none
      | e :: r => (untilQuote quote r).map fun (text, rest) => (c :: e :: text, rest)
    else (untilQuote quote r).map fun (text, rest) => (c :: text, rest)

/-- The characters that escapes stand for between double quotes. -/
def escapes : List (Char × Char) :=
  [('\\', '\\'), ('\x27', '\x27'), ('"', '"'), ('a', Char.ofNat 7), ('b', Char.ofNat 8),
    ('f', Char.ofNat 12), ('n', '\n'), ('r', '\r'), ('t', '\t'), ('v', Char.ofNat 11)]

def plainEscapes : List (Char × Char) :=
  [('\\', '\\'), ('\x27', '\x27')]

/-- Replaces the escapes of a table; any other backslash stays. -/
def unescape (table : List (Char × Char)) : List Char → List Char
  | [] => []
  | '\\' :: c :: r =>
    match table.lookup c with
    | some x => x :: unescape table r
    | none => '\\' :: unescape table (c :: r)
  | c :: r => c :: unescape table r

/-- A text up to a number sign that white space stands before. -/
def beforeComment (s : List Char) : List Char :=
  match s with
  | [] => []
  | c :: r =>
    if isBlank c && (stripLeft r).head? = some '#' then [] else c :: beforeComment r

/-- Reads the text after an equals sign: a value, which is quoted or goes to the end of the line. One
with a comment right after white space is empty. -/
def value? (s : List Char) : Option (List Char × List Char) :=
  match skipMargin s with
  | [] => some ([], [])
  | c :: r =>
    if c = '\x27' then (untilQuote c r).map fun (v, rest) => (unescape plainEscapes v, rest)
    else if c = '"' then (untilQuote c r).map fun (v, rest) => (unescape escapes v, rest)
    else
      let line := s.takeWhile (!isLineEnd ·)
      some (strip (beforeComment line), s.dropWhile (!isLineEnd ·))

/-- The name of a setting, quoted or not. A comment has none. -/
def name? (s : List Char) : Option (Option (List Char) × List Char) :=
  match s with
  | '#' :: _ => some (none, s)
  | c :: r =>
    if c = '\x27' then
      match r.span (· != '\x27') with
      | (n :: ns, _ :: rest) => some (some (n :: ns), rest)
      | _ => none
    else
      match (c :: r).span fun x => x != '=' && x != '#' && !isBlank x with
      | ([], _) => none
      | (n, rest) => some (some n, rest)
  | [] => none

/-- The text after the word `export` and white space, if it begins so. -/
def skipExport (s : List Char) : List Char :=
  match dropStart? "export".toList s with
  | some r => if (r.head?.map isMargin).getD false then skipMargin r else s
  | none => s

/-- Passes an optional comment and the end of the line. -/
def lineEnd? (s : List Char) : Option (List Char) :=
  let s :=
    match skipMargin s with
    | '#' :: r => r.dropWhile (!isLineEnd ·)
    | _ => s
  match skipMargin s with
  | [] => some []
  | '\r' :: '\n' :: r => some r
  | c :: r => if isLineEnd c then some r else none

/-- Reads a setting at the start of a text that is not blank. A failure gives what is left. -/
def setting (s : List Char) : Except (List Char) (Line × List Char) :=
  let s := skipExport s
  match name? s with
  | none => .error s
  | some (name, r) =>
    let r := skipMargin r
    let value : Except (List Char) (Option (List Char) × List Char) :=
      match r with
      | '=' :: t =>
        match value? t with
        | some (v, rest) => .ok (some v, rest)
        | none => .error (skipMargin t)
      | _ => .ok (none, r)
    match value with
    | .error left => .error left
    | .ok (v, rest) =>
      match lineEnd? rest with
      | none => .error rest
      | some below =>
        match name with
        | some n => .ok (.setting n v, below)
        | none => .ok (.empty, below)

/-- Passes the rest of a line that is not understood. -/
def skipLine (s : List Char) : List Char :=
  (s.dropWhile (!isLineEnd ·)).drop 1

/-- A line with the number of the line it begins at. -/
structure Entry where
  line : Line
  number : Nat
  deriving DecidableEq, Repr

/-- Reads the lines of a text, the first of which has a number. -/
def entriesFrom : Nat → Nat → List Char → List Entry
  | 0, _, _ => []
  | fuel + 1, number, s =>
    if s.isEmpty then []
    else
      let start := stripLeft s
      if start.isEmpty then [⟨.empty, number⟩]
      else
        let (line, rest) :=
          match setting start with
          | .ok (line, rest) => (line, rest)
          | .error left => (.malformed, skipLine left)
        let consumed := s.take (s.length - rest.length)
        ⟨line, number⟩ :: entriesFrom fuel (number + consumed.count '\n') rest

/-- The lines of a file. A byte-order mark at its start is no part of them. -/
def entries (s : List Char) : List Entry :=
  let s := (dropStart? [Char.ofNat 0xfeff] s).getD s
  entriesFrom (s.length + 1) 1 s

/-- Texts by name; a later one replaces an earlier one in its place. -/
abbrev Bindings := List (String × String)

def Bindings.put (name value : String) : Bindings → Bindings
  | [] => [(name, value)]
  | (n, v) :: rest => if n = name then (n, value) :: rest else (n, v) :: Bindings.put name value rest

/-- Reads `${NAME}` or `${NAME:-default}` after the dollar sign. -/
def braced? : List Char → Option ((List Char × Option (List Char)) × List Char)
  | '{' :: r =>
    match r.span fun c => c != '}' && c != ':' with
    | (name, '}' :: rest) => some ((name, none), rest)
    | (name, ':' :: '-' :: r) =>
      match r.span (· != '}') with
      | (default, '}' :: rest) => some ((name, some default), rest)
      | _ => none
    | _ => none
  | _ => none

/-- Replaces the variables in a value. One that has no value stands for its default, or nothing. -/
def interpolate (lookup : String → Option (Option String)) : Nat → List Char → List Char
  | 0, s => s
  | _ + 1, [] => []
  | fuel + 1, c :: r =>
    if c = '$' then
      match braced? r with
      | some ((name, default), rest) =>
        let value :=
          match lookup (String.ofList name) with
          | some v => (v.getD "").toList
          | none => default.getD []
        value ++ interpolate lookup fuel rest
      | none => c :: interpolate lookup fuel r
    else c :: interpolate lookup fuel r

/-- The settings read so far; a name without an equals sign is known without a value. -/
abbrev Known := List (String × Option String)

def putKnown (name : String) (value : Option String) : Known → Known
  | [] => [(name, value)]
  | (n, v) :: rest =>
    if n = name then (n, value) :: rest else (n, v) :: putKnown name value rest

/-- The settings of a text over those of the environment around it. -/
def settings (around : Bindings) (entries : List Entry) : Known :=
  entries.foldl (fun known e =>
    match e.line with
    | .setting name value =>
      let lookup (n : String) : Option (Option String) :=
        match known.lookup n with
        | some v => some v
        | none => (around.lookup n).map some
      putKnown (String.ofList name)
        (value.map fun v => String.ofList (interpolate lookup (v.length + 1) v)) known
    | _ => known) []

/-- The environment with the settings of a file put over it. -/
def overlay (around : Bindings) (known : Known) : Bindings :=
  known.foldl (fun env (name, value) =>
    match value with
    | some v => Bindings.put name v env
    | none => env) around

/-- The numbers of the lines that are not understood. -/
def malformedLines (entries : List Entry) : List Nat :=
  (entries.filter fun e => e.line = .malformed).map (·.number)

end DotHttp.EnvFile
