import DotHttp.JsonPath
import DotHttp.Outcome
import DotHttp.Text.LetterCase

/-!
References to earlier requests: `login.response.body.$.token` names a request, one side of its
exchange, a part of that side and a path into the part.
-/

namespace DotHttp

inductive Side where
  | request
  | response
  deriving DecidableEq, Repr

inductive Part where
  | body
  | headers
  deriving DecidableEq, Repr

def Side.word : Side → String
  | .request => "request"
  | .response => "response"

def Part.word : Part → String
  | .body => "body"
  | .headers => "headers"

def Side.ofWord? (s : List Char) : Option Side :=
  [Side.request, Side.response].find? fun x => x.word.toList = s

def Part.ofWord? (s : List Char) : Option Part :=
  [Part.body, Part.headers].find? fun x => x.word.toList = s

/-- A reference, with the text it was read from. -/
structure Reference where
  text : String
  requestName : String
  side : Side
  part : Part
  path : String
  deriving DecidableEq, Repr

namespace Reference

open DotHttp.Text

/-- The text without one pair of double braces around it, if it has both. -/
def unbraced (s : List Char) : List Char :=
  ((dropStart? ['{', '{'] s).bind (dropEnd? ['}', '}'])).getD s

/-- Reads a reference: a name, a side, a part and a path, with points between them. The name is not
empty; the path may be, and may have points of its own. -/
def parse? (text : String) : Option Reference :=
  match splitOn '.' (strip (unbraced text.toList)) with
  | name :: side :: part :: first :: more => do
    if name.isEmpty then none
    let side ← Side.ofWord? side
    let part ← Part.ofWord? part
    some ⟨text, String.ofList name, side, part, String.ofList (joinWith ['.'] (first :: more))⟩
  | _ => none

/-- The value of the first header whose name agrees up to letter case. -/
def headerValue? (headers : List (String × String)) (name : String) : Option String :=
  (headers.find? fun (n, _) => n.lowerCase = name.lowerCase).map Prod.snd

/-- A body as a whole, under the path `*`, or the value at a path into it. -/
def bodyValue? (body : Option String) (path : String) : Option String :=
  body.bind fun b => if path = "*" then some b else JsonPath.extract? b path

end Reference

/-- The value of the first header whose name agrees up to letter case. -/
def Request.header? (r : Request) (name : String) : Option String :=
  Reference.headerValue? (r.headers.map fun h => (h.name, h.value)) name

end DotHttp
