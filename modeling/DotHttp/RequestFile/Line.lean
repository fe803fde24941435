import DotHttp.Request
import DotHttp.Text.Blank
import DotHttp.Text.Split
import DotHttp.Text.Word

/-!
The lines of a request file, each told apart by its own text. What a line means for the requests
around it is said in `RequestFile`.
-/

namespace DotHttp.RequestFile

open DotHttp.Text

def methods : List String :=
  ["GET", "POST", "PUT", "DELETE", "PATCH", "HEAD", "OPTIONS", "TRACE", "CONNECT"]

/-- What a directive sets on the next request. -/
inductive Keyword where
  | name
  | dependsOn
  | condition (negated : Bool)
  | timeout
  | connectionTimeout
  | preDelay
  | postDelay
  deriving DecidableEq, Repr

def keywords : List (String × Keyword) :=
  [("name", .name), ("dependsOn", .dependsOn), ("if", .condition false),
    ("if-not", .condition true), ("timeout", .timeout),
    ("connection-timeout", .connectionTimeout), ("connectionTimeout", .connectionTimeout),
    ("pre-delay", .preDelay), ("post-delay", .postDelay)]

def Keyword.ofWord? (word : String) : Option Keyword :=
  keywords.lookup word

def assertionWords : List (String × Assertion.Kind) :=
  [("EXPECTED_RESPONSE_STATUS", .status), ("EXPECTED_RESPONSE_BODY", .body),
    ("EXPECTED_RESPONSE_HEADERS", .headers)]

/-- One line of a request file, without the white space around it. -/
inductive Line where
  | blank
  | comment
  | directive (keyword : Keyword) (word value : String)
  | unknownDirective (word : String)
  /-- A line that begins with an at sign and is neither a definition nor a directive. -/
  | ignored
  | definition (name value : String)
  | assertion (kind : Assertion.Kind) (word expected : String)
  | request (text : List Char)
  | content (text : List Char)
  deriving DecidableEq, Repr

def isLatin (c : Char) : Bool :=
  c.isAlpha

/-- A word of letters, digits, low lines and hyphens that begins with a Latin letter, and the rest
of the text with an optional colon after the word skipped. -/
def directive? : List Char → Option (List Char × List Char)
  | '@' :: c :: r =>
    if isLatin c then
      let word := c :: r.takeWhile fun x => isWord x || x = '-'
      let rest := stripLeft (r.dropWhile fun x => isWord x || x = '-')
      let value :=
        match rest with
        | ':' :: t => t
        | t => t
      some (word, strip value)
    else none
  | _ => none

/-- A name of letters, digits, low lines, points and hyphens, an equals sign and a value. -/
def definition? : List Char → Option (List Char × List Char)
  | '@' :: c :: r =>
    if isLatin c || c = '_' then
      let inName (x : Char) : Bool := isWord x || x = '.' || x = '-'
      match stripLeft (r.dropWhile inName) with
      | '=' :: value => some (c :: r.takeWhile inName, strip value)
      | _ => none
    else none
  | _ => none

/-- The text of a comment that holds a directive, from the at sign on. -/
def commentDirective? (s : List Char) : Option (List Char) :=
  let body :=
    match s with
    | '#' :: r => some (r.dropWhile (· = '#'))
    | '/' :: '/' :: r => some r
    | _ => none
  body.bind fun r =>
    match stripLeft r with
    | '@' :: t => some ('@' :: t)
    | _ => none

def isComment (s : List Char) : Bool :=
  ['#'].isPrefixOf s || ['/', '/'].isPrefixOf s

/-- A line with the name of the protocol, or with a method and a blank at its start. -/
def isRequestLine (s : List Char) : Bool :=
  occursIn "HTTP/".toList s || methods.any fun m => (m.toList ++ [' ']).isPrefixOf s

/-- The text without one pair of double quotes around it. -/
def unquote (s : List Char) : List Char :=
  match s with
  | '"' :: r => (dropEnd? ['"'] r).getD s
  | _ => s

/-- An assertion keyword alone or followed by a blank; the rest is the expected text. -/
def assertion? (s : List Char) : Option (Assertion.Kind × String × List Char) :=
  let body := (dropStart? ['>', ' '] s).getD s
  assertionWords.findSome? fun (word, kind) =>
    match dropStart? word.toList body with
    | some [] => some (kind, word, [])
    | some (' ' :: r) => some (kind, word, unquote (strip r))
    | _ => none

/-- Tells what kind of line a text is. A comment counts as a directive only with a known word. -/
def Line.ofText (s : List Char) : Line :=
  if s.isEmpty then .blank
  else if isComment s then
    match (commentDirective? s).bind directive? with
    | some (word, value) =>
      match Keyword.ofWord? (String.ofList word) with
      | some keyword => .directive keyword (String.ofList word) (String.ofList value)
      | none => .comment
    | none => .comment
  else if s.head? = some '@' then
    match definition? s with
    | some (name, value) => .definition (String.ofList name) (String.ofList value)
    | none =>
      match directive? s with
      | none => .ignored
      | some (word, value) =>
        match Keyword.ofWord? (String.ofList word) with
        | some keyword => .directive keyword (String.ofList word) (String.ofList value)
        | none => .unknownDirective (String.ofList word)
  else
    match assertion? s with
    | some (kind, word, expected) => .assertion kind word (String.ofList expected)
    | none => if isRequestLine s then .request s else .content s

def opensScript (s : List Char) : Bool :=
  "> \x7b%".toList.isPrefixOf s

def closesScript (s : List Char) : Bool :=
  ['%', '}'].isSuffixOf s

end DotHttp.RequestFile
