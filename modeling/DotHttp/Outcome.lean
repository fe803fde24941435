import DotHttp.Request

/-!
What became of a dispatched request. Without an answer the status is zero and a message says why.
-/

namespace DotHttp

/-- An assertion with its verdict; there is a message exactly when it failed. -/
structure AssertionResult where
  assertion : Assertion
  passed : Bool
  actual : Option String
  message : Option String
  deriving DecidableEq, Repr

structure Outcome where
  status : Int
  success : Bool
  duration : Nat
  requestName : Option String
  message : Option String
  /-- Each name once, in the order of arrival. -/
  headers : Option (List (String × String))
  body : Option String
  assertions : List AssertionResult
  deriving DecidableEq, Repr

/-- A status from 200 to 299 is a success. -/
def isSuccessStatus (status : Int) : Bool :=
  200 ≤ status && status < 300

end DotHttp
