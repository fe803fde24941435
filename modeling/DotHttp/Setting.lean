import DotHttp.Number.Numeral
import DotHttp.Number.Shortest
import DotHttp.Text.Quoted
import DotHttp.Timestamp

/-!
Setting values: what a configuration file can say. A setting has a text, as in a message that names
it, and a plain text, as where it is used.
-/

namespace DotHttp

inductive Setting where
  | null
  | bool (b : Bool)
  | integer (n : Int)
  | number (x : Binary64)
  | text (s : String)
  | list (items : List Setting)
  | mapping (entries : List (Setting × Setting))
  | date (d : Date)
  | timestamp (t : Timestamp)
  deriving Inhabited, Repr

namespace Setting

mutual

/-- The text of a setting in a message; texts are quoted. -/
def quotedText : Setting → String
  | .null => "None"
  | .bool b => if b then "True" else "False"
  | .integer n => toString n
  | .number x => x.text
  | .text s => s.quotedForm
  | .list items => "[" ++ ", ".intercalate (quotedItems items) ++ "]"
  | .mapping entries => "\x7b" ++ ", ".intercalate (quotedEntries entries) ++ "\x7d"
  | .date d => d.quotedText
  | .timestamp t => t.quotedText

def quotedItems : List Setting → List String
  | [] => []
  | x :: rest => quotedText x :: quotedItems rest

def quotedEntries : List (Setting × Setting) → List String
  | [] => []
  | (k, v) :: rest => (quotedText k ++ ": " ++ quotedText v) :: quotedEntries rest

end

mutual

/-- Whether a setting can be written: no whole number in it has more digits than a numeral may have. -/
def isWritable : Setting → Bool
  | .integer n => n.natAbs < Nat.pow 10 Numeral.maxDigits
  | .list items => itemsWritable items
  | .mapping entries => entriesWritable entries
  | _ => true

def itemsWritable : List Setting → Bool
  | [] => true
  | x :: rest => isWritable x && itemsWritable rest

def entriesWritable : List (Setting × Setting) → Bool
  | [] => true
  | (k, v) :: rest => isWritable k && isWritable v && entriesWritable rest

end

/-- The text of a setting where it is used: a text as it is, anything else as in a message. -/
def plainText : Setting → String
  | .text s => s
  | .date d => d.text
  | .timestamp t => t.text
  | x => x.quotedText

/-- Whether a setting counts as set: not null, false, zero or empty. -/
def isSet : Setting → Bool
  | .null => false
  | .bool b => b
  | .integer n => n != 0
  | .number x => !x.isZero
  | .text s => s != ""
  | .list items => !items.isEmpty
  | .mapping entries => !entries.isEmpty
  | .date _ | .timestamp _ => true

/-- A number as a key of a mapping: truth values count as one and zero, and a whole number has one
form. -/
def keyNumber? : Setting → Option (Int ⊕ Binary64)
  | .bool b => some (.inl (if b then 1 else 0))
  | .integer n => some (.inl n)
  | .number x => some ((x.whole?.map .inl).getD (.inr x))
  | _ => none

/-- Whether two settings are one key of a mapping. Collections are no keys. -/
def isSameKey : Setting → Setting → Bool
  | .null, .null => true
  | .text a, .text b => a = b
  | .date d, .date e => d = e
  | .timestamp t, .timestamp u => t = u
  | x, y => x.keyNumber?.isSome && x.keyNumber? = y.keyNumber?

/-- Puts an entry into a mapping; a known key keeps its place and its form. -/
def putEntry (key value : Setting) : List (Setting × Setting) → List (Setting × Setting)
  | [] => [(key, value)]
  | (k, v) :: rest =>
    if k.isSameKey key then (k, value) :: rest else (k, v) :: putEntry key value rest

/-- The mapping with some entries; of two with one key the later counts. -/
def ofEntries (entries : List (Setting × Setting)) : Setting :=
  .mapping (entries.foldl (fun known (k, v) => putEntry k v known) [])

/-- The value of a text key in a mapping. -/
def lookup (entries : List (Setting × Setting)) (key : String) : Option Setting :=
  entries.findSome? fun
    | (.text k, v) => if k = key then some v else none
    | _ => none

end Setting

end DotHttp
