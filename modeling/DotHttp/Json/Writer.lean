import DotHttp.Json.Value
import DotHttp.Text.Quoted

/-!
Writing JSON. All output is in the first 128 characters; other symbols are escaped as one or two
code units. The compact form has no space; the wide form puts each item on a line of its own.
-/

namespace DotHttp.Json

open DotHttp.Text

def units (n : Nat) : List Nat :=
  if n < 0x10000 then [n] else [0xd800 + (n - 0x10000) / 0x400, 0xdc00 + (n - 0x10000) % 0x400]

def escapeUnit (n : Nat) : List Char :=
  '\\' :: 'u' :: hexDigits 4 n

def writeChar (c : Char) : List Char :=
  if c = '"' then ['\\', '"']
  else if c = '\\' then ['\\', '\\']
  else if c = '\n' then ['\\', 'n']
  else if c = '\r' then ['\\', 'r']
  else if c = '\t' then ['\\', 't']
  else if c.toNat = 8 then ['\\', 'b']
  else if c.toNat = 12 then ['\\', 'f']
  else if 32 ≤ c.toNat && c.toNat < 127 then [c]
  else (units c.toNat).flatMap escapeUnit

def writeSymbol : Symbol → List Char
  | .char c => writeChar c
  | .half n => escapeUnit n

def writeString (s : Symbols) : List Char :=
  '"' :: s.flatMap writeSymbol ++ ['"']

def writeNumber : Binary64 → List Char
  | .infinite false => "Infinity".toList
  | .infinite true => "-Infinity".toList
  | .nan => "NaN".toList
  | x => x.text.toList

/-- What stands between the parts of a document. -/
structure Style where
  /-- The line break and the blanks before an item at a level, if items have lines of their own. -/
  newline : Nat → List Char
  comma : List Char
  colon : List Char

def compact : Style := ⟨fun _ => [], [','], [':']⟩

/-- Two more blanks at each level. -/
def wide : Style := ⟨fun level => '\n' :: List.replicate (2 * level) ' ', [','], [':', ' ']⟩

mutual

/-- The text of a value that stands at a level of nesting. -/
def write (style : Style) (level : Nat) : Json → List Char
  | .null => "null".toList
  | .bool true => "true".toList
  | .bool false => "false".toList
  | .integer n => (toString n).toList
  | .number x => writeNumber x
  | .string s => writeString s
  | .array [] => ['[', ']']
  | .array (item :: items) =>
    '[' :: style.newline (level + 1) ++ write style (level + 1) item ++
      writeItems style (level + 1) items ++ style.newline level ++ [']']
  | .object [] => ['{', '}']
  | .object (field :: fields) =>
    '{' :: style.newline (level + 1) ++ writeField style (level + 1) field ++
      writeFields style (level + 1) fields ++ style.newline level ++ ['}']

def writeItems (style : Style) (level : Nat) : List Json → List Char
  | [] => []
  | item :: items =>
    style.comma ++ style.newline level ++ write style level item ++ writeItems style level items

def writeField (style : Style) (level : Nat) : Symbols × Json → List Char
  | (name, value) => writeString name ++ style.colon ++ write style level value

def writeFields (style : Style) (level : Nat) : List (Symbols × Json) → List Char
  | [] => []
  | field :: fields =>
    style.comma ++ style.newline level ++ writeField style level field ++
      writeFields style level fields

end

def compactText (j : Json) : String :=
  String.ofList (write compact 0 j)

def wideText (j : Json) : String :=
  String.ofList (write wide 0 j)

end DotHttp.Json
