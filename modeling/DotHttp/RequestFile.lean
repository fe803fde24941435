import DotHttp.Condition
import DotHttp.Duration
import DotHttp.Note
import DotHttp.Placeholder
import DotHttp.RequestFile.Line
import DotHttp.Text.Lines

/-!
Reading a request file. Lines are read one after the other; directives wait for the next request
line, headers stand between the request line and the first blank line, and the body goes on to the
next request line. Placeholders of variables known so far are replaced while reading.
-/

namespace DotHttp.RequestFile

open DotHttp.Text

/-- What is wrong with a line. -/
inductive Fault where
  | missingUrl (line : String)
  | missingName
  | missingDependency
  | invalidCondition (word value : String)
  | invalidDuration (word value : String)
  | unknownDirective (word : String)
  | strayAssertion (word : String)
  | strayContent (line : String)
  deriving DecidableEq, Repr

/-- Why a file is not read: a fault in a line, counted from one, or a numeral that is too long. -/
inductive Error where
  | malformed (line : Nat) (fault : Fault)
  | tooManyDigits
  deriving DecidableEq, Repr

def Fault.message : Fault → String
  | .missingUrl line => s!"Request line has no URL: '{line}'"
  | .missingName => "@name requires a value"
  | .missingDependency => "@dependsOn requires a request name"
  | .invalidCondition word value => s!"Invalid @{word} directive: '{value}'"
  | .invalidDuration word value => s!"Invalid @{word} value: '{value}'"
  | .unknownDirective word => s!"Unknown directive: @{word}"
  | .strayAssertion word => s!"{word} before any request line"
  | .strayContent line => s!"Unexpected content outside of a request: '{line}'"

/-- Directives that wait for the next request line. -/
structure Pending where
  name : Option String
  dependsOn : Option String
  conditions : List Condition
  timeout : Option Nat
  connectionTimeout : Option Nat
  preDelay : Option Nat
  postDelay : Option Nat
  deriving DecidableEq, Repr

def Pending.empty : Pending := ⟨none, none, [], none, none, none, none⟩

/-- The state between two lines. -/
structure State where
  /-- The finished requests, in order. -/
  requests : List Request
  definitions : List Variable
  /-- The request that lines are added to. -/
  current : Option Request
  inBody : Bool
  body : List String
  pending : Pending
  inScript : Bool
  /-- The names given to requests so far. -/
  names : List String
  notes : List Note
  deriving DecidableEq, Repr

namespace State

def start (vars : List Variable) : State :=
  ⟨[], vars, none, false, [], .empty, false, [], []⟩

def expand (s : State) (text : String) : String :=
  Variable.expand s.definitions text

/-- Gives the first variable of a name a value; a new name comes last. -/
def setVariable (name value : String) : List Variable → List Variable
  | [] => [⟨name, value⟩]
  | v :: rest => if v.name = name then ⟨name, value⟩ :: rest else v :: setVariable name value rest

def define (s : State) (name value : String) : State :=
  { s with definitions := setVariable name (s.expand value) s.definitions }

def isBlankLine (line : String) : Bool :=
  line.stripBlank = ""

/-- The body made of some lines, without the blank ones at its ends. -/
def bodyText (lines : List String) : Option String :=
  match ((lines.reverse.dropWhile isBlankLine).reverse).dropWhile isBlankLine with
  | [] => none
  | kept => some ("\n".intercalate kept)

def finish (s : State) : State :=
  match s.current with
  | none => s
  | some r =>
    { s with
      requests := s.requests ++ [{ r with body := bodyText s.body }]
      current := none
      body := []
      inBody := false }

/-- The method and the rest of the words of a request line. -/
def splitMethod : List (List Char) → String × List (List Char)
  | [] => ("GET", [])
  | word :: rest =>
    if methods.contains (String.ofList word) then (String.ofList word, rest)
    else ("GET", word :: rest)

/-- The URL is the first word after the method, unless that is the protocol version. -/
def url? : List (List Char) → Option String
  | [] => none
  | word :: _ => if "HTTP/".toList.isPrefixOf word then none else some (String.ofList word)

/-- The note for a name that an earlier request has. -/
def nameNotes (s : State) (line : Nat) : List Note :=
  match s.pending.name with
  | some name => if s.names.contains name then [.duplicateName name line] else []
  | none => []

/-- Begins a request with the directives that wait for it. -/
def beginRequest (s : State) (line : Nat) (text : List Char) : Except Error State :=
  let s := s.finish
  let (method, rest) := splitMethod (words text)
  match url? rest with
  | none => .error (.malformed line (.missingUrl (String.ofList text)))
  | some url =>
    let p := s.pending
    .ok { s with
      current := some {
        method := s.expand method
        url := s.expand url
        name := p.name
        headers := []
        body := none
        assertions := []
        conditions := p.conditions
        dependsOn := p.dependsOn
        timeout := p.timeout
        connectionTimeout := p.connectionTimeout
        preDelay := p.preDelay
        postDelay := p.postDelay }
      pending := .empty
      names := s.names ++ p.name.toList
      notes := s.notes ++ s.nameNotes line }

def duration (line : Nat) (word value : String) (bare : Nat) : Except Error Nat :=
  match Duration.read value.toList bare with
  | .error _ => .error .tooManyDigits
  | .ok none => .error (.malformed line (.invalidDuration word value))
  | .ok (some n) => .ok n

/-- Adds a directive to those that wait. A bare number is seconds for a timeout and milliseconds for
a pause. -/
def direct (s : State) (line : Nat) (keyword : Keyword) (word value : String) :
    Except Error State :=
  match keyword with
  | .name =>
    if value = "" then .error (.malformed line .missingName)
    else .ok { s with pending := { s.pending with name := some value } }
  | .dependsOn =>
    if value = "" then .error (.malformed line .missingDependency)
    else .ok { s with pending := { s.pending with dependsOn := some value } }
  | .condition negated =>
    match Condition.parse? (s.expand value) negated with
    | none => .error (.malformed line (.invalidCondition word value))
    | some c =>
      .ok { s with pending := { s.pending with conditions := s.pending.conditions ++ [c] } }
  | .timeout => do
    let n ← duration line word value 1000
    .ok { s with pending := { s.pending with timeout := some n } }
  | .connectionTimeout => do
    let n ← duration line word value 1000
    .ok { s with pending := { s.pending with connectionTimeout := some n } }
  | .preDelay => do
    let n ← duration line word value 1
    .ok { s with pending := { s.pending with preDelay := some n } }
  | .postDelay => do
    let n ← duration line word value 1
    .ok { s with pending := { s.pending with postDelay := some n } }

/-- A blank line belongs to the body; the first one after a request line ends the headers. -/
def skipLine (s : State) : State :=
  if s.inBody then { s with body := s.body ++ [""] }
  else if s.current.isSome then { s with inBody := true }
  else s

def addAssertion (s : State) (line : Nat) (kind : Assertion.Kind) (word expected : String) :
    Except Error State :=
  match s.current with
  | none => .error (.malformed line (.strayAssertion word))
  | some r =>
    .ok { s with current := some { r with
      assertions := r.assertions ++ [⟨kind, s.expand expected⟩] } }

/-- Before the body a line with a colon is a header; any other line belongs to the body, where it
keeps the white space at its start. -/
def addContent (s : State) (line : Nat) (raw text : List Char) : Except Error State :=
  match s.current with
  | none => .error (.malformed line (.strayContent (String.ofList text)))
  | some r =>
    let bodyLine := s.expand (String.ofList (stripRight raw))
    match if s.inBody then none else splitFirst ':' text with
    | some (name, value) =>
      let header := ⟨s.expand (String.ofList (strip name)), s.expand (String.ofList (strip value))⟩
      .ok { s with current := some { r with headers := r.headers ++ [header] } }
    | none => .ok { s with inBody := true, body := s.body ++ [bodyLine] }

/-- Reads one line. Lines of a script block are passed over. -/
def readLine (s : State) (line : Nat) (raw : List Char) : Except Error State :=
  let text := strip raw
  if opensScript text then .ok { s with inScript := !closesScript text }
  else if s.inScript then .ok { s with inScript := !closesScript text }
  else
    match Line.ofText text with
    | .blank => .ok s.skipLine
    | .comment | .ignored => .ok s
    | .directive keyword word value => s.direct line keyword word value
    | .unknownDirective word => .error (.malformed line (.unknownDirective word))
    | .definition name value => .ok (s.define name value)
    | .assertion kind word expected => s.addAssertion line kind word expected
    | .request text => s.beginRequest line text
    | .content text => s.addContent line raw text

end State

/-- A file that is not read, with the notes made before the fault. -/
structure Failed where
  error : Error
  notes : List Note
  deriving DecidableEq, Repr

/-- Reads lines, the first of which has a number. -/
def readLines (line : Nat) (s : State) : List (List Char) → Except Failed State
  | [] => .ok s
  | raw :: rest =>
    match s.readLine line raw with
    | .error e => .error ⟨e, s.notes⟩
    | .ok s => readLines (line + 1) s rest

/-- The requests of a file, with the notes made while reading. -/
structure Parsed where
  requests : List Request
  notes : List Note
  deriving DecidableEq, Repr

def readText (vars : List Variable) (text : String) : Except Failed State :=
  readLines 1 (.start vars) (lines text.toList)

/-- Ends the last request; directives that still wait are of no use. -/
def State.result (s : State) : Parsed :=
  ⟨s.finish.requests, s.notes ++ if s.pending = .empty then [] else [.directivesIgnored]⟩

/-- Reads the text of a request file. `variables` are known from the start. -/
def parse (vars : List Variable) (text : String) : Except Failed Parsed :=
  (readText vars text).map State.result

end DotHttp.RequestFile
