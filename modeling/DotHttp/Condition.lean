import DotHttp.JsonPath
import DotHttp.Store

/-!
Conditions under which a request is sent: the text of a directive, and its evaluation against the
outcomes of earlier requests.
-/

namespace DotHttp

/-- A condition with its verdict and the value that was compared. -/
structure Condition.Evaluation where
  condition : Condition
  met : Bool
  actual : Option String
  deriving DecidableEq, Repr

namespace Condition

open DotHttp.Text

/-- Reads the text of a condition: the part of an answer, white space, and the expected value,
whose words are put one blank apart. -/
def parse? (text : String) (negated : Bool) : Option Condition :=
  match words text.toList with
  | reference :: word :: more =>
    let expected := String.ofList (joinWith [' '] (word :: more))
    match splitOn '.' reference with
    | name :: side :: part :: path =>
      if name.isEmpty || side != "response".toList then none
      else if path.isEmpty && part == "status".toList then
        some ⟨String.ofList name, .status, expected, negated, none⟩
      else if !path.isEmpty && part == "body".toList then
        some ⟨String.ofList name, .bodyPath, expected, negated,
          some (String.ofList (joinWith ['.'] path))⟩
      else none
    | _ => none
  | _ => none

/-- The value that a condition looks at, and whether it is the expected one. -/
def compare (c : Condition) (outcome : Outcome) : String × Bool :=
  let expected := c.expected.stripBlank
  match c.kind with
  | .status => (toString outcome.status, toString outcome.status == expected)
  | .bodyPath =>
    match outcome.body with
    | none => ("<no body>", false)
    | some body =>
      match JsonPath.extract? body (c.path.getD "") with
      | none => ("<not found>", false)
      | some value => (value, value.stripBlank == expected)

/-- A condition on a request without an outcome is never met, negated or not. -/
def evaluate (c : Condition) (store : Store) : Evaluation :=
  match store.outcome? c.requestName with
  | none => ⟨c, false, none⟩
  | some outcome =>
    let (actual, equal) := c.compare outcome
    ⟨c, equal != c.negated, some actual⟩

def evaluateAll (cs : List Condition) (store : Store) : List Evaluation :=
  cs.map (·.evaluate store)

def allMet (cs : List Condition) (store : Store) : Bool :=
  cs.all fun c => (c.evaluate store).met

end Condition

/-- A dependency is met when the latest request of that name succeeded; none needs nothing. -/
def Store.dependencyMet (store : Store) (dependsOn : Option String) : Bool :=
  match dependsOn with
  | none => true
  | some name =>
    name = "" || match store.outcome? name with
      | some outcome => outcome.success
      | none => false

end DotHttp
