import DotHttp.Text.Quoted

/-!
Reading bytes as text. A byte sequence that is not a text is described by the bytes at fault: the
longest start of a character that the next byte does not continue, or a byte that starts none.
-/

namespace DotHttp.Text

inductive Utf8Fault where
  | invalidStart
  | invalidContinuation
  | unexpectedEnd
  deriving DecidableEq, Repr

/-- The bytes at fault: `count` of them from `position`, the first being `byte`. -/
structure Utf8Error where
  byte : UInt8
  position : Nat
  count : Nat
  fault : Utf8Fault
  deriving DecidableEq, Repr

def Utf8Fault.message : Utf8Fault → String
  | .invalidStart => "invalid start byte"
  | .invalidContinuation => "invalid continuation byte"
  | .unexpectedEnd => "unexpected end of data"

def Utf8Error.message (e : Utf8Error) : String :=
  let bytes :=
    if e.count = 1 then
      "byte 0x" ++ String.ofList (hexDigits 2 e.byte.toNat) ++ s!" in position {e.position}"
    else s!"bytes in position {e.position}-{e.position + e.count - 1}"
  s!"'utf-8' codec can't decode {bytes}: " ++ e.fault.message

/-- The number of bytes of a character that starts with `b`, and the range of its second byte. -/
def utf8Lead (b : UInt8) : Option (Nat × UInt8 × UInt8) :=
  if b < 0x80 then some (1, 0x80, 0xbf)
  else if b < 0xc2 then none
  else if b < 0xe0 then some (2, 0x80, 0xbf)
  else if b < 0xf0 then some (3, if b = 0xe0 then 0xa0 else 0x80, if b = 0xed then 0x9f else 0xbf)
  else if b < 0xf5 then some (4, if b = 0xf0 then 0x90 else 0x80, if b = 0xf4 then 0x8f else 0xbf)
  else none

/-- Adds `needed` more bytes to the value read so far; a failure gives the number of bytes that
did continue and why the next one does not. -/
def utf8Tail : Nat → UInt8 → UInt8 → Nat → Nat → List UInt8 → Except (Nat × Utf8Fault) (Nat × List UInt8)
  | 0, _, _, _, value, rest => .ok (value, rest)
  | _ + 1, _, _, taken, _, [] => .error (taken, .unexpectedEnd)
  | needed + 1, low, high, taken, value, b :: rest =>
    if low ≤ b && b ≤ high then
      utf8Tail needed 0x80 0xbf (taken + 1) (value * 64 + (b.toNat - 0x80)) rest
    else .error (taken, .invalidContinuation)

/-- The part of the first byte that belongs to the value. -/
def utf8LeadValue (size : Nat) (b : UInt8) : Nat :=
  match size with
  | 1 => b.toNat
  | 2 => b.toNat - 0xc0
  | 3 => b.toNat - 0xe0
  | _ => b.toNat - 0xf0

theorem length_utf8Tail_le {needed : Nat} {low high : UInt8} {taken value : Nat}
    {bytes rest : List UInt8} {result : Nat}
    (h : utf8Tail needed low high taken value bytes = .ok (result, rest)) :
    rest.length ≤ bytes.length := by
  induction needed generalizing low high taken value bytes with
  | zero =>
    simp only [utf8Tail, Except.ok.injEq, Prod.mk.injEq] at h
    exact Nat.le_of_eq (congrArg List.length h.2.symm)
  | succ needed ih =>
    cases bytes with
    | nil => simp [utf8Tail] at h
    | cons b bs =>
      simp only [utf8Tail] at h
      split at h
      · exact Nat.le_succ_of_le (ih h)
      · simp at h

/-- Reads the bytes from `position` on. -/
def decodeUtf8From (position : Nat) (bytes : List UInt8) : Except Utf8Error (List Char) :=
  match bytes with
  | [] => .ok []
  | b :: rest =>
    match utf8Lead b with
    | none => .error ⟨b, position, 1, .invalidStart⟩
    | some (size, low, high) =>
      match _h : utf8Tail (size - 1) low high 1 (utf8LeadValue size b) rest with
      | .error (count, fault) => .error ⟨b, position, count, fault⟩
      | .ok (value, rest') => (decodeUtf8From (position + size) rest').map (Char.ofNat value :: ·)
termination_by bytes.length
decreasing_by exact Nat.lt_succ_of_le (length_utf8Tail_le _h)

def decodeUtf8 (bytes : List UInt8) : Except Utf8Error (List Char) :=
  decodeUtf8From 0 bytes

end DotHttp.Text
