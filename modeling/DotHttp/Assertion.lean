import DotHttp.Number.Numeral
import DotHttp.Outcome
import DotHttp.Text.LetterCase
import DotHttp.Text.Split

/-!
Assertions: what a request file expects of an answer, checked against the outcome.
-/

namespace DotHttp.Assertion

open DotHttp.Text

def pass (a : Assertion) (actual : String) : AssertionResult :=
  ⟨a, true, some actual, none⟩

def fail (a : Assertion) (actual message : String) : AssertionResult :=
  ⟨a, false, some actual, some message⟩

/-- The status is compared as a number. -/
def checkStatus (a : Assertion) (outcome : Outcome) : AssertionResult :=
  let actual := toString outcome.status
  match Numeral.readInt (strip a.expected.toList) with
  | .error _ => a.fail actual "Invalid expected status code format"
  | .ok expected =>
    if outcome.status = expected then a.pass actual
    else a.fail actual s!"Expected status {expected}, got {actual}"

def checkBody (a : Assertion) (outcome : Outcome) : AssertionResult :=
  match outcome.body with
  | none => a.fail "" "No response body available"
  | some body =>
    if occursIn a.expected.toList body.toList then a.pass body
    else a.fail body s!"Expected body to contain '{a.expected}'"

def headersText (headers : List (String × String)) : String :=
  ", ".intercalate (headers.map fun (n, v) => n ++ ": " ++ v)

/-- Some header of the expected name, up to letter case, contains the expected value. -/
def checkHeaders (a : Assertion) (outcome : Outcome) : AssertionResult :=
  match outcome.headers.getD [] with
  | [] => a.fail "" "No response headers available"
  | headers =>
    let actual := headersText headers
    match splitFirst ':' a.expected.toList with
    | none => a.fail actual "Invalid header format, expected 'Name: Value'"
    | some (name, value) =>
      let name := String.ofList (strip name)
      let value := String.ofList (strip value)
      let found := (headers.filter fun (n, _) => n.lowerCase = name.lowerCase).map Prod.snd
      match found with
      | [] => a.fail actual s!"Header '{name}' not present in response"
      | _ =>
        let shown :=
          match found with
          | [v] => v
          | _ => actual
        if found.any fun v => occursIn value.toList v.toList then a.pass shown
        else a.fail shown s!"Expected header '{name}' with value containing '{value}'"

def check (a : Assertion) (outcome : Outcome) : AssertionResult :=
  match a.kind with
  | .status => a.checkStatus outcome
  | .body => a.checkBody outcome
  | .headers => a.checkHeaders outcome

/-- One verdict for each assertion, in order. -/
def checkAll (as : List Assertion) (outcome : Outcome) : List AssertionResult :=
  as.map (·.check outcome)

end DotHttp.Assertion
