import DotHttp.Function
import DotHttp.Note
import DotHttp.Placeholder
import DotHttp.Reference

/-!
Resolution turns a request of a file into the one that is sent. In every text first references to
earlier requests are replaced, then calls of built-in functions, then variables of the environment.
-/

namespace DotHttp

namespace Reference

/-- The value of a reference, if the request it names was recorded and its path leads somewhere. -/
def value? (r : Reference) (store : Store) : Option String :=
  (store.get? r.requestName).bind fun c =>
    match r.side, r.part with
    | .request, .headers => c.request.header? r.path
    | .request, .body => bodyValue? c.request.body r.path
    | .response, .headers => c.outcome.bind fun o => headerValue? (o.headers.getD []) r.path
    | .response, .body => c.outcome.bind fun o => bodyValue? o.body r.path

end Reference

namespace Resolution

/-- Why a request cannot be resolved: a reference without a value, or a numeral that is too long. -/
inductive Fault where
  | unresolved (placeholder : String)
  | tooManyDigits
  deriving DecidableEq, Repr

def unresolvedMessage (placeholder : String) : String :=
  s!"Unresolved request variable: {placeholder}"

/-- What resolution uses up and leaves behind: the number of the next draw, and notes. -/
structure Progress where
  next : Nat
  notes : List Note
  deriving DecidableEq, Repr

/-- Resolution steps keep their progress when one fails. -/
abbrev Step := ExceptT Fault (StateM Progress)

/-- Replaces one part of a text if it is a reference. -/
def fillReference (store : Store) : Segment → Step (List Char)
  | .char c => pure [c]
  | .placeholder inner =>
    match Reference.parse? (String.ofList inner) with
    | none => pure (Placeholder.written inner)
    | some r =>
      match r.value? store with
      | none => throw (.unresolved (String.ofList (Placeholder.written inner)))
      | some value => do
        modify fun p =>
          { p with notes := p.notes ++ [.resolved (String.ofList (Placeholder.written inner))] }
        pure value.toList

/-- Replaces the references in the parts of a text, from left to right. -/
def fillReferences (store : Store) : List Segment → Step (List Char)
  | [] => pure []
  | part :: rest => do
    let s ← fillReference store part
    let t ← fillReferences store rest
    pure (s ++ t)

def references (store : Store) (text : String) : Step String := do
  let s ← fillReferences store (Placeholder.segments text.toList)
  pure (String.ofList s)

def functions (src : Sources) (text : String) : Step String := do
  let p ← get
  match Function.substitute src p.next text with
  | .error _ => throw .tooManyDigits
  | .ok (text, next) => do
    set { p with next }
    pure text

def text (src : Sources) (store : Store) (vars : List Variable) (text : String) : Step String := do
  let text ← references store text
  let text ← functions src text
  pure (Variable.expand vars text)

def header (src : Sources) (store : Store) (vars : List Variable) (h : Header) : Step Header := do
  let name ← text src store vars h.name
  let value ← text src store vars h.value
  pure ⟨name, value⟩

def headers (src : Sources) (store : Store) (vars : List Variable) :
    List Header → Step (List Header)
  | [] => pure []
  | h :: rest => do
    let h ← header src store vars h
    let rest ← headers src store vars rest
    pure (h :: rest)

def body (src : Sources) (store : Store) (vars : List Variable) :
    Option String → Step (Option String)
  | none => pure none
  | some b => do
    let b ← text src store vars b
    pure (some b)

def assertions (src : Sources) (store : Store) (vars : List Variable) :
    List Assertion → Step (List Assertion)
  | [] => pure []
  | a :: rest => do
    let expected ← text src store vars a.expected
    let rest ← assertions src store vars rest
    pure ({ a with expected } :: rest)

/-- Resolves the texts of a request: its URL, headers, body and assertions, in this order. -/
def request (src : Sources) (store : Store) (vars : List Variable) (r : Request) :
    Step Request := do
  let url ← text src store vars r.url
  let headers ← headers src store vars r.headers
  let body ← body src store vars r.body
  let assertions ← assertions src store vars r.assertions
  pure { r with url, headers, body, assertions }

end Resolution

end DotHttp
