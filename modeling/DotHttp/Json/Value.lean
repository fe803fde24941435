import DotHttp.Number.Shortest

/-!
JSON documents. An object is the list of its fields in the order of their first occurrence, each
name once. A text is a list of symbols, because an escape may name half of a surrogate pair alone.
-/

namespace DotHttp

/-- A character, or one half of a surrogate pair without the other. -/
inductive Symbol where
  | char (c : Char)
  | half (unit : Nat)
  deriving DecidableEq, Repr

abbrev Symbols := List Symbol

namespace Symbols

def ofList (s : List Char) : Symbols :=
  s.map .char

def ofString (s : String) : Symbols :=
  ofList s.toList

/-- A lone half of a pair has no character; the replacement character stands for it. -/
def toList (s : Symbols) : List Char :=
  s.map fun
    | .char c => c
    | .half _ => Char.ofNat 0xfffd

def toString (s : Symbols) : String :=
  String.ofList (toList s)

@[simp] theorem toList_ofList (s : List Char) : toList (ofList s) = s := by
  simp [toList, ofList, Function.comp_def]

@[simp] theorem toString_ofString (s : String) : toString (ofString s) = s := by
  simp [toString, ofString]

end Symbols

inductive Json where
  | null
  | bool (b : Bool)
  | integer (n : Int)
  | number (x : Binary64)
  | string (s : Symbols)
  | array (items : List Json)
  | object (fields : List (Symbols × Json))
  deriving Inhabited, Repr

namespace Json

/-- Sets a field: a new name comes last, a known one keeps its place. -/
def putField (name : Symbols) (value : Json) : List (Symbols × Json) → List (Symbols × Json)
  | [] => [(name, value)]
  | (n, v) :: rest =>
    if n = name then (n, value) :: rest else (n, v) :: putField name value rest

/-- The object with the given fields; of two fields with one name the later value stands. -/
def ofFields (fields : List (Symbols × Json)) : Json :=
  .object (fields.foldl (fun known (n, v) => putField n v known) [])

def field? (fields : List (Symbols × Json)) (name : Symbols) : Option Json :=
  (fields.find? fun (n, _) => n = name).map Prod.snd

def text (s : String) : Json :=
  .string (.ofString s)

def nat (n : Nat) : Json :=
  .integer (Int.ofNat n)

def optional (f : α → Json) : Option α → Json
  | some a => f a
  | none => .null

/-- The object whose field names are plain texts. -/
def record (fields : List (String × Json)) : Json :=
  .object (fields.map fun (n, v) => (.ofString n, v))

end Json

end DotHttp
