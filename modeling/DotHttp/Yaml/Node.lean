import DotHttp.Yaml.Scalar

/-!
Nodes: the form of a document before its scalars have values. A node is read from tokens; the entries
that a mapping merges stand before its own.
-/

namespace DotHttp.Yaml

inductive Node where
  | scalar (text : List Char) (isPlain : Bool)
  | list (items : List Node)
  | mapping (entries : List (Node × Node))
  deriving Inhabited, Repr

namespace Node

def empty : Node := .scalar [] true

/-- Whether a key asks for the entries of its value. -/
def isMerge : Node → Bool
  | .scalar text isPlain => isPlain && text = "<<".toList
  | _ => false

/-- The entries that a node offers to a mapping: those of a mapping or of the mappings in a list, the
last one first. -/
def offered? : Node → Option (List (Node × Node))
  | .mapping entries => some entries
  | .list items =>
    items.foldl (fun known item => do
      let known ← known
      match item with
      | .mapping entries => some (entries ++ known)
      | _ => none) (some [])
  | .scalar .. => none

/-- A mapping with the entries that it merges before its own. A merge of anything else than mappings
stays as an entry, and comes first. -/
def ofEntries (entries : List (Node × Node)) : Node :=
  let (merges, own) := entries.partition (·.1.isMerge)
  let faulty := merges.filter (·.2.offered?.isNone)
  .mapping (faulty ++ merges.flatMap (fun (_, v) => v.offered?.getD []) ++ own)

/-- The value of a scalar, which as a key may be an equals sign. -/
def scalarValue (isKey : Bool) (text : List Char) (isPlain : Bool) : Except Fault Setting :=
  if !isPlain || (isKey && text = ['=']) then .ok (.text (String.ofList text)) else Yaml.scalar text

def ofFault (level : Nat) (value : Except Fault Setting) : List (Nat × Fault) :=
  match value with
  | .ok _ => []
  | .error f => [(level, f)]

/-- The faults of a key, which must not be a collection. -/
def keyFaults (level : Nat) : Node → List (Nat × Fault)
  | .scalar text isPlain => ofFault level (scalarValue true text isPlain)
  | _ => [(level, .malformed)]

mutual

/-- The faults of a node, each with its depth. -/
def faults (level : Nat) : Node → List (Nat × Fault)
  | .scalar text isPlain => ofFault level (scalarValue false text isPlain)
  | .list items => itemFaults (level + 1) items
  | .mapping entries => entryFaults (level + 1) entries

def itemFaults (level : Nat) : List Node → List (Nat × Fault)
  | [] => []
  | x :: rest => faults level x ++ itemFaults level rest

def entryFaults (level : Nat) : List (Node × Node) → List (Nat × Fault)
  | [] => []
  | (k, v) :: rest => keyFaults level k ++ faults level v ++ entryFaults level rest

end

def keyValue : Node → Setting
  | .scalar text isPlain => (scalarValue true text isPlain).toOption.getD .null
  | _ => .null

mutual

def setting : Node → Setting
  | .scalar text isPlain => (scalarValue false text isPlain).toOption.getD .null
  | .list items => .list (itemSettings items)
  | .mapping entries => .ofEntries (entrySettings entries)

def itemSettings : List Node → List Setting
  | [] => []
  | x :: rest => setting x :: itemSettings rest

def entrySettings : List (Node × Node) → List (Setting × Setting)
  | [] => []
  | (k, v) :: rest => (keyValue k, setting v) :: entrySettings rest

end

/-- The fault that counts: the first of the least depth. -/
def leastFault : List (Nat × Fault) → Option (Nat × Fault)
  | [] => none
  | (level, f) :: rest =>
    match leastFault rest with
    | some (least, g) => some (if level ≤ least then (level, f) else (least, g))
    | none => some (level, f)

def value (n : Node) : Except Fault Setting :=
  match leastFault (n.faults 0) with
  | some (_, f) => .error f
  | none => .ok n.setting

end Node

end DotHttp.Yaml
