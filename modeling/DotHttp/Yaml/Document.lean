import DotHttp.Yaml.Node
import DotHttp.Yaml.Token

/-!
Documents: nodes read from tokens. A file holds one document, which may stand between marker lines.
-/

namespace DotHttp.Yaml

abbrev Reading := Except Fault (Node × List Token)

def refuse {α : Type} (tokens : List Token) : Except Fault α :=
  match tokens with
  | .fault f :: _ => .error f
  | _ => .error .malformed

/-- Whether a node that stands before some tokens is left out. -/
def isLeftOut (ends : Token → Bool) (tokens : List Token) : Bool :=
  match tokens with
  | t :: _ => ends t
  | [] => false

/-- What ends an entry of a list in a block. -/
def endsItem (t : Token) : Bool :=
  t = .entry || t = .blockEnd

/-- What ends an entry of a list that stands at the column of the mapping around it. -/
def endsFlatItem (t : Token) : Bool :=
  endsItem t || t = .key || t = .value

/-- What ends the value of an entry, in a block or inside brackets. -/
def endsValue (flow : Bool) (t : Token) : Bool :=
  if flow then t = .comma || t = .closeList || t = .closeMapping
  else t = .key || t = .value || t = .blockEnd

def endsKey (flow : Bool) (t : Token) : Bool :=
  t = .value || endsValue flow t

mutual

/-- Reads a node. `flat` allows a list at the column of the mapping around it. -/
def node (flat : Bool) : Nat → List Token → Reading
  | 0, _ => .error .malformed
  | fuel + 1, tokens =>
    match tokens with
    | .scalar text isPlain :: r => .ok (.scalar text isPlain, r)
    | .openList :: r => flowItems fuel [] r
    | .openMapping :: r => flowEntries fuel [] r
    | .blockList :: r => blockItems fuel [] r
    | .blockMapping :: r => blockEntries fuel [] r
    | .entry :: _ => if flat then flatItems fuel [] tokens else refuse tokens
    | _ => refuse tokens

/-- Reads a node that may be left out. -/
def nodeOr (flat : Bool) (ends : Token → Bool) : Nat → List Token → Reading
  | 0, _ => .error .malformed
  | fuel + 1, tokens =>
    if isLeftOut ends tokens then .ok (.empty, tokens) else node flat fuel tokens

/-- Reads a key, and the value if a colon follows. -/
def entry (flow : Bool) : Nat → List Token → Except Fault ((Node × Node) × List Token)
  | 0, _ => .error .malformed
  | fuel + 1, tokens => do
    let (key, r) ← nodeOr (!flow) (endsKey flow) fuel tokens
    match r with
    | .value :: r =>
      let (value, r) ← nodeOr (!flow) (endsValue flow) fuel r
      .ok ((key, value), r)
    | _ => .ok ((key, .empty), r)

/-- Reads the items of a list in a block. Here and below those read before come latest first. -/
def blockItems : Nat → List Node → List Token → Reading
  | 0, _, _ => .error .malformed
  | fuel + 1, items, tokens =>
    match tokens with
    | .entry :: r => do
      let (item, r) ← nodeOr false endsItem fuel r
      blockItems fuel (item :: items) r
    | .blockEnd :: r => .ok (.list items.reverse, r)
    | _ => refuse tokens

/-- Reads the items of a list that has no end of its own. -/
def flatItems : Nat → List Node → List Token → Reading
  | 0, _, _ => .error .malformed
  | fuel + 1, items, tokens =>
    match tokens with
    | .entry :: r => do
      let (item, r) ← nodeOr false endsFlatItem fuel r
      flatItems fuel (item :: items) r
    | _ => .ok (.list items.reverse, tokens)

/-- Reads the entries of a mapping in a block. -/
def blockEntries : Nat → List (Node × Node) → List Token → Reading
  | 0, _, _ => .error .malformed
  | fuel + 1, entries, tokens =>
    match tokens with
    | .key :: r => do
      let (e, r) ← entry false fuel r
      blockEntries fuel (e :: entries) r
    | .blockEnd :: r => .ok (.ofEntries entries.reverse, r)
    | _ => refuse tokens

/-- Reads the items of a list in brackets. An item with a key is a mapping with one entry. -/
def flowItems : Nat → List Node → List Token → Reading
  | 0, _, _ => .error .malformed
  | fuel + 1, items, tokens =>
    match tokens with
    | .closeList :: r => .ok (.list items.reverse, r)
    | _ => do
      let (item, r) ← match tokens with
        | .key :: r => (entry true fuel r).map fun (e, r) => (Node.ofEntries [e], r)
        | _ => node false fuel tokens
      match r with
      | .comma :: r => flowItems fuel (item :: items) r
      | .closeList :: r => .ok (.list (item :: items).reverse, r)
      | _ => refuse r

/-- Reads the entries of a mapping in braces. An item without a key is one, with no value. -/
def flowEntries : Nat → List (Node × Node) → List Token → Reading
  | 0, _, _ => .error .malformed
  | fuel + 1, entries, tokens =>
    match tokens with
    | .closeMapping :: r => .ok (.ofEntries entries.reverse, r)
    | _ => do
      let (e, r) ← match tokens with
        | .key :: r => entry true fuel r
        | _ => (node false fuel tokens).map fun (key, r) => ((key, Node.empty), r)
      match r with
      | .comma :: r => flowEntries fuel (e :: entries) r
      | .closeMapping :: r => .ok (.ofEntries (e :: entries).reverse, r)
      | _ => refuse r

end

def document (tokens : List Token) : Except Fault Node := do
  let fuel := 4 * tokens.length + 4
  let (root, rest) ← match tokens with
    | [] => .ok (.empty, [])
    | .documentStart :: r =>
      if r.isEmpty then .ok (.empty, [])
      else nodeOr false (fun t => t = .documentStart || t = .documentEnd) fuel r
    | _ => node false fuel tokens
  match rest.dropWhile (· = .documentEnd) with
  | [] => .ok root
  | left => refuse left

def parse (s : List Char) : Except Fault Setting :=
  if s.all isAllowed then document (tokens s) >>= Node.value else .error .malformed

end DotHttp.Yaml
