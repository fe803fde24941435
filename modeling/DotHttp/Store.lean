import DotHttp.Outcome

/-!
The record of one run of a file: a context for each request that was reached, in order. An index
points each name at the latest context recorded under it, so a later request hides an earlier one of
the same name.
-/

namespace DotHttp

/-- A request that was reached, with its outcome if it was dispatched. -/
structure Context where
  name : String
  request : Request
  outcome : Option Outcome
  deriving DecidableEq, Repr

structure Store where
  contexts : List Context
  deriving DecidableEq, Repr

namespace Store

def empty : Store := ⟨[]⟩

/-- The name under which a request is recorded: its own, or one made from its position. -/
def nameFor (request : Request) (position : Int) : String :=
  match request.name with
  | some name => if name = "" then s!"request_{position}" else name
  | none => s!"request_{position}"

def record (s : Store) (request : Request) (outcome : Option Outcome) (position : Int) : Store :=
  ⟨s.contexts ++ [⟨nameFor request position, request, outcome⟩]⟩

/-- Points a name at a place; a name that is known keeps its own place in the index. -/
def point (name : String) (place : Nat) : List (String × Nat) → List (String × Nat)
  | [] => [(name, place)]
  | (n, i) :: rest =>
    if n = name then (n, place) :: rest else (n, i) :: point name place rest

/-- Every name with the place of its latest context: contexts are entered one after the other, and each
points its name at itself. -/
def index (s : Store) : List (String × Nat) :=
  s.contexts.zipIdx.foldl (fun known (c, place) => point c.name place known) []

def get? (s : Store) (name : String) : Option Context :=
  (s.index.lookup name).bind fun place => s.contexts[place]?

/-- The outcome in the latest context of a name. -/
def outcome? (s : Store) (name : String) : Option Outcome :=
  (s.get? name).bind (·.outcome)

def contains (s : Store) (name : String) : Bool :=
  (s.index.lookup name).isSome

def size (s : Store) : Nat :=
  s.contexts.length

def names (s : Store) : List String :=
  s.contexts.map (·.name)

end Store

end DotHttp
