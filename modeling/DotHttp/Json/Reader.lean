import DotHttp.Json.Value
import DotHttp.Number.Numeral
import DotHttp.Text.Split

/-!
Reading JSON. Beside the standard the words `NaN`, `Infinity` and `-Infinity` are numbers; whole
numbers have any size up to the length limit of numerals. What is wrong with a text is said with
the place where reading stopped.
-/

namespace DotHttp.Json

inductive Fault where
  | expectingValue
  | expectingName
  | expectingColon
  | expectingComma
  | unterminatedString
  | invalidEscape
  | invalidUnicodeEscape
  | controlCharacter
  | extraData
  | byteOrderMark
  deriving DecidableEq, Repr

def Fault.message : Fault → String
  | .expectingValue => "Expecting value"
  | .expectingName => "Expecting property name enclosed in double quotes"
  | .expectingColon => "Expecting ':' delimiter"
  | .expectingComma => "Expecting ',' delimiter"
  | .unterminatedString => "Unterminated string starting at"
  | .invalidEscape => "Invalid \\escape"
  | .invalidUnicodeEscape => "Invalid \\uXXXX escape"
  | .controlCharacter => "Invalid control character at"
  | .extraData => "Extra data"
  | .byteOrderMark => "Unexpected UTF-8 BOM (decode using utf-8-sig)"

/-- A place in a text; lines and columns count from one, the offset from zero. -/
structure Place where
  line : Nat
  column : Nat
  offset : Nat
  deriving DecidableEq, Repr

def Place.at (doc : List Char) (offset : Nat) : Place :=
  let before := doc.take offset
  ⟨1 + before.count '\n', 1 + (before.reverse.takeWhile (· != '\n')).length, offset⟩

inductive ReadError where
  | malformed (fault : Fault) (place : Place)
  | tooManyDigits
  deriving DecidableEq, Repr

/-- Why reading stopped; the place is the number of characters left. -/
inductive Stop where
  | malformed (fault : Fault) (left : Nat)
  | tooManyDigits
  deriving DecidableEq, Repr

def isSpace (c : Char) : Bool :=
  c = ' ' || c = '\t' || c = '\n' || c = '\r'

def skipSpace (s : List Char) : List Char :=
  s.dropWhile isSpace

/-- A character of a string as written: itself, or a code unit given by an escape. -/
inductive Piece where
  | char (c : Char)
  | unit (n : Nat)
  deriving DecidableEq, Repr

def hexValue? (c : Char) : Option Nat :=
  if c.isDigit then some (c.toNat - 48)
  else if 'a' ≤ c && c ≤ 'f' then some (c.toNat - 87)
  else if 'A' ≤ c && c ≤ 'F' then some (c.toNat - 55)
  else none

def unitOf? (a b c d : Char) : Option Nat := do
  let a ← hexValue? a
  let b ← hexValue? b
  let c ← hexValue? c
  let d ← hexValue? d
  some (((a * 16 + b) * 16 + c) * 16 + d)

def escaped? : Char → Option Char
  | '"' => some '"'
  | '\\' => some '\\'
  | '/' => some '/'
  | 'b' => some (Char.ofNat 8)
  | 'f' => some (Char.ofNat 12)
  | 'n' => some '\n'
  | 'r' => some '\r'
  | 't' => some '\t'
  | _ => none

/-- Reads a string after its opening quote; `opening` is what was left at that quote. -/
def pieces (opening : Nat) : List Char → Except Stop (List Piece × List Char)
  | [] => .error (.malformed .unterminatedString opening)
  | '"' :: rest => .ok ([], rest)
  | ['\\'] => .error (.malformed .unterminatedString opening)
  | '\\' :: 'u' :: a :: b :: c :: d :: e :: rest =>
    match unitOf? a b c d with
    | none => .error (.malformed .invalidUnicodeEscape (rest.length + 6))
    | some n => (pieces opening (e :: rest)).map fun (ps, left) => (.unit n :: ps, left)
  | '\\' :: 'u' :: rest => .error (.malformed .invalidUnicodeEscape (rest.length + 1))
  | '\\' :: c :: rest =>
    match escaped? c with
    | none => .error (.malformed .invalidEscape (rest.length + 2))
    | some x => (pieces opening rest).map fun (ps, left) => (.char x :: ps, left)
  | c :: rest =>
    if c.toNat < 32 then .error (.malformed .controlCharacter (rest.length + 1))
    else (pieces opening rest).map fun (ps, left) => (.char c :: ps, left)

theorem pieces_unit {opening n : Nat} {a b c d e : Char} (h : unitOf? a b c d = some n) (r : List Char) :
    pieces opening ('\\' :: 'u' :: a :: b :: c :: d :: e :: r) =
      (pieces opening (e :: r)).map fun (ps, left) => (.unit n :: ps, left) := by
  rw [pieces, h]

theorem pieces_escape {opening : Nat} {c x : Char} (h : escaped? c = some x) (r : List Char) :
    pieces opening ('\\' :: c :: r) =
      (pieces opening r).map fun (ps, left) => (.char x :: ps, left) := by
  have other : c ≠ 'u' := by
    rintro rfl
    cases h
  rw [pieces.eq_6 _ _ _ (fun _ _ _ _ _ _ hc => (other hc).elim) other, h]

theorem pieces_plain {opening : Nat} {c : Char} (hq : c ≠ '"') (hb : c ≠ '\\') (hc : ¬ c.toNat < 32)
    (r : List Char) :
    pieces opening (c :: r) =
      (pieces opening r).map fun (ps, left) => (.char c :: ps, left) := by
  rw [pieces.eq_7 _ _ _ hq (fun h => (hb h).elim) (fun _ _ _ _ _ _ h => (hb h).elim)
    (fun _ h => (hb h).elim) (fun _ _ h => (hb h).elim), if_neg hc]

def isHighHalf (n : Nat) : Bool :=
  0xd800 ≤ n && n < 0xdc00

def isLowHalf (n : Nat) : Bool :=
  0xdc00 ≤ n && n < 0xe000

def Piece.symbol : Piece → Symbol
  | .char c => .char c
  | .unit n => if isHighHalf n || isLowHalf n then .half n else .char (Char.ofNat n)

/-- Two escapes that are the halves of a pair are one character. -/
def joinHalves : List Piece → Symbols
  | [] => []
  | [p] => [p.symbol]
  | .unit n :: .unit m :: rest =>
    if isHighHalf n && isLowHalf m then
      .char (Char.ofNat (0x10000 + (n - 0xd800) * 0x400 + (m - 0xdc00))) :: joinHalves rest
    else Piece.symbol (.unit n) :: joinHalves (.unit m :: rest)
  | p :: rest => p.symbol :: joinHalves rest

def readString (opening : Nat) (s : List Char) : Except Stop (Symbols × List Char) :=
  (pieces opening s).map fun (ps, left) => (joinHalves ps, left)

/-- The parts of a number as written. -/
structure NumberText where
  negative : Bool
  whole : List Char
  fraction : List Char
  exponent : Option (Bool × List Char)
  deriving DecidableEq, Repr

def takeDigits (s : List Char) : List Char × List Char :=
  s.span Char.isDigit

/-- The digits before the point: a single zero, or digits that do not begin with one. -/
def wholePart? : List Char → Option (List Char × List Char)
  | [] => none
  | c :: r =>
    if c = '0' then some (['0'], r)
    else if c.isDigit then some (takeDigits (c :: r))
    else none

/-- A point counts only when a digit follows it. -/
def fractionPart : List Char → List Char × List Char
  | '.' :: d :: r => if d.isDigit then takeDigits (d :: r) else ([], '.' :: d :: r)
  | s => ([], s)

/-- An exponent counts only when it has a digit. -/
def exponentPart (s : List Char) : Option (Bool × List Char) × List Char :=
  match s with
  | [] => (none, s)
  | e :: r =>
    if e = 'e' || e = 'E' then
      let (negative, digits) :=
        match r with
        | '+' :: t => (false, t)
        | '-' :: t => (true, t)
        | t => (false, t)
      match takeDigits digits with
      | ([], _) => (none, s)
      | (ds, rest) => (some (negative, ds), rest)
    else (none, s)

def numberText? (s : List Char) : Option (NumberText × List Char) :=
  let (negative, body) :=
    match s with
    | '-' :: r => (true, r)
    | r => (false, r)
  (wholePart? body).map fun (whole, r) =>
    let (fraction, r) := fractionPart r
    let (exponent, r) := exponentPart r
    (⟨negative, whole, fraction, exponent⟩, r)

def digitsValue (s : List Char) : Nat :=
  Numeral.valueOf (Numeral.plainDigits s)

/-- A number without fraction and exponent is whole; any other is the nearest double. -/
def NumberText.value (t : NumberText) : Except Stop Json :=
  match t.fraction, t.exponent with
  | [], none =>
    match Numeral.ofDigits (Numeral.plainDigits t.whole) with
    | .ok n => .ok (.integer (Binary64.signed t.negative n))
    | .error _ => .error .tooManyDigits
  | fraction, exponent =>
    let shift : Int :=
      match exponent with
      | some (negative, ds) => Binary64.signed negative (digitsValue ds)
      | none => 0
    .ok (.number (Binary64.ofDecimal t.negative (digitsValue (t.whole ++ fraction))
      (shift - fraction.length)))

def keywords : List (List Char × Json) := [
  ("null".toList, .null),
  ("true".toList, .bool true),
  ("false".toList, .bool false),
  ("NaN".toList, .number .nan),
  ("Infinity".toList, .number (.infinite false)),
  ("-Infinity".toList, .number (.infinite true))]

/-- Reads a value that is neither a string nor an array nor an object. -/
def readPlain (s : List Char) : Except Stop (Json × List Char) :=
  match keywords.findSome? fun (w, v) => (Text.dropStart? w s).map fun rest => (v, rest) with
  | some found => .ok found
  | none =>
    match numberText? s with
    | some (t, rest) => t.value.map fun v => (v, rest)
    | none => .error (.malformed .expectingValue s.length)

mutual

/-- Reads one value. Each call has less fuel than its caller; twice the length is enough. -/
def readValue : Nat → List Char → Except Stop (Json × List Char)
  | 0, s => .error (.malformed .expectingValue s.length)
  | fuel + 1, s =>
    match s with
    | '"' :: r => (readString s.length r).map fun (text, rest) => (.string text, rest)
    | '[' :: r =>
      match skipSpace r with
      | ']' :: rest => .ok (.array [], rest)
      | r => (readItems fuel r).map fun (items, rest) => (.array items, rest)
    | '{' :: r =>
      match skipSpace r with
      | '}' :: rest => .ok (.object [], rest)
      | r => (readFields fuel r).map fun (fields, rest) => (ofFields fields, rest)
    | s => readPlain s

/-- Reads the items of an array up to its closing bracket. -/
def readItems : Nat → List Char → Except Stop (List Json × List Char)
  | 0, s => .error (.malformed .expectingValue s.length)
  | fuel + 1, s => do
    let (item, r) ← readValue fuel s
    match skipSpace r with
    | ']' :: rest => .ok ([item], rest)
    | ',' :: rest =>
      let (items, rest) ← readItems fuel (skipSpace rest)
      .ok (item :: items, rest)
    | r => .error (.malformed .expectingComma r.length)

/-- Reads the fields of an object up to its closing brace. -/
def readFields : Nat → List Char → Except Stop (List (Symbols × Json) × List Char)
  | 0, s => .error (.malformed .expectingName s.length)
  | fuel + 1, s =>
    match s with
    | '"' :: r => do
      let (name, r) ← readString s.length r
      match skipSpace r with
      | ':' :: r =>
        let (value, r) ← readValue fuel (skipSpace r)
        match skipSpace r with
        | '}' :: rest => .ok ([(name, value)], rest)
        | ',' :: rest =>
          let (fields, rest) ← readFields fuel (skipSpace rest)
          .ok ((name, value) :: fields, rest)
        | r => .error (.malformed .expectingComma r.length)
      | r => .error (.malformed .expectingColon r.length)
    | s => .error (.malformed .expectingName s.length)

end

/-- Reads a document that holds one value and nothing else but space. -/
def readDocument (s : List Char) : Except Stop Json :=
  if s.head? = some (Char.ofNat 0xfeff) then .error (.malformed .byteOrderMark s.length)
  else do
    let (value, r) ← readValue (2 * s.length + 2) (skipSpace s)
    match skipSpace r with
    | [] => .ok value
    | r => .error (.malformed .extraData r.length)

def Stop.error (doc : List Char) : Stop → ReadError
  | .malformed fault left => .malformed fault (Place.at doc (doc.length - left))
  | .tooManyDigits => .tooManyDigits

def parse (s : List Char) : Except ReadError Json :=
  (readDocument s).mapError (Stop.error s)

/-- The message for a text that is no document. -/
def malformedMessage (fault : Fault) (place : Place) : String :=
  fault.message ++ s!": line {place.line} column {place.column} (char {place.offset})"

end DotHttp.Json
