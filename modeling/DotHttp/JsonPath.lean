import DotHttp.Json.Reader
import DotHttp.Json.Writer

/-!
Paths into a JSON body: `$.a.b` is the field `b` of the field `a` of the document. Only chains of
object fields can be followed. A text is given as it is, any other value in compact form.
-/

namespace DotHttp.JsonPath

open DotHttp.Text

def follow : List Symbols → Json → Option Json
  | [], j => some j
  | name :: names, .object fields => (Json.field? fields name).bind (follow names)
  | _ :: _, _ => none

def textOf : Json → String
  | .string s => s.toString
  | j => Json.compactText j

/-- The field names of a path, which begins with a dollar sign and a point. -/
def names? (path : String) : Option (List Symbols) :=
  (dropStart? ['$', '.'] path.toList).map fun s => (splitOn '.' s).map Symbols.ofList

/-- The text of the value that a path leads to. There is none when the path or the body is not well
formed or a field is missing. -/
def extract? (body path : String) : Option String := do
  let names ← names? path
  let document ← (Json.parse body.toList).toOption
  let value ← follow names document
  some (textOf value)

end DotHttp.JsonPath
