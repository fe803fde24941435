/-!
Requests as a request file describes them: what is sent, what is expected of the answer, and under
which conditions and with which pauses it is sent. Times are milliseconds.
-/

namespace DotHttp

/-- A named text that placeholders refer to. -/
structure Variable where
  name : String
  value : String
  deriving DecidableEq, Repr

structure Header where
  name : String
  value : String
  deriving DecidableEq, Repr

/-- What an assertion looks at. -/
inductive Assertion.Kind where
  | status
  | body
  | headers
  deriving DecidableEq, Repr

/-- An expectation on the answer to a request. -/
structure Assertion where
  kind : Assertion.Kind
  expected : String
  deriving DecidableEq, Repr

/-- What a condition compares: the status of an earlier answer, or a value in its body. -/
inductive Condition.Kind where
  | status
  | bodyPath
  deriving DecidableEq, Repr

/-- A comparison with the answer to an earlier request. Only a body condition has a path. -/
structure Condition where
  requestName : String
  kind : Condition.Kind
  expected : String
  negated : Bool
  path : Option String
  deriving DecidableEq, Repr

structure Request where
  method : String
  url : String
  name : Option String
  headers : List Header
  body : Option String
  assertions : List Assertion
  conditions : List Condition
  dependsOn : Option String
  timeout : Option Nat
  connectionTimeout : Option Nat
  preDelay : Option Nat
  postDelay : Option Nat
  deriving DecidableEq, Repr

def Assertion.Kind.word : Assertion.Kind → String
  | .status => "status"
  | .body => "body"
  | .headers => "headers"

/-- The part of an answer that a condition names. -/
def Condition.describe (c : Condition) : String :=
  match c.kind with
  | .status => c.requestName ++ ".response.status"
  | .bodyPath => c.requestName ++ ".response.body." ++ c.path.getD "None"

end DotHttp
