import DotHttp.Request
import DotHttp.Text.Blank

/-!
Placeholders: `\x7b\x7bname\x7d\x7d` in a text. A placeholder runs from two opening braces to the
next two closing ones on the same line, with at least one character between. A text is read once
from left to right, so what is put in place of a placeholder is never looked at again.
-/

namespace DotHttp

/-- A part of a text: a character, or a placeholder with what stands between its braces. -/
inductive Segment where
  | char (c : Char)
  | placeholder (inner : List Char)
  deriving DecidableEq, Repr

namespace Placeholder

/-- The text up to the next two closing braces on the line, and what follows them. -/
def untilClose : List Char → Option (List Char × List Char)
  | [] => none
  | '}' :: '}' :: rest => some ([], rest)
  | c :: rest =>
    if c = '\n' then none else (untilClose rest).map fun (inner, left) => (c :: inner, left)

/-- Reads a placeholder at the start of a text. -/
def opening? : List Char → Option (List Char × List Char)
  | '{' :: '{' :: c :: rest =>
    if c = '\n' then none else (untilClose rest).map fun (inner, left) => (c :: inner, left)
  | _ => none

theorem length_untilClose {s inner rest : List Char} (h : untilClose s = some (inner, rest)) :
    s.length = inner.length + 2 + rest.length := by
  fun_induction untilClose s generalizing inner rest with
  | case1 => simp at h
  | case2 r =>
    simp only [Option.some.injEq, Prod.mk.injEq] at h
    obtain ⟨rfl, rfl⟩ := h
    simp only [List.length_cons, List.length_nil]
    omega
  | case3 => simp at h
  | case4 c r _ _ ih =>
    simp only [Option.map_eq_some_iff, Prod.exists, Prod.mk.injEq] at h
    obtain ⟨i, l, hi, rfl, rfl⟩ := h
    simp only [List.length_cons, ih hi]
    omega

theorem length_opening? {s inner rest : List Char} (h : opening? s = some (inner, rest)) :
    rest.length < s.length := by
  unfold opening? at h
  split at h
  · split at h
    · simp at h
    · simp only [Option.map_eq_some_iff, Prod.exists, Prod.mk.injEq] at h
      obtain ⟨i, l, hi, rfl, rfl⟩ := h
      simp only [List.length_cons, length_untilClose hi]
      omega
  · simp at h

def segments (s : List Char) : List Segment :=
  match s with
  | [] => []
  | c :: r =>
    match _h : opening? (c :: r) with
    | some (inner, rest) => .placeholder inner :: segments rest
    | none => .char c :: segments r
termination_by s.length
decreasing_by
  · exact length_opening? _h
  · simp

def written (inner : List Char) : List Char :=
  '{' :: '{' :: inner ++ ['}', '}']

end Placeholder

def Segment.written : Segment → List Char
  | .char c => [c]
  | .placeholder inner => Placeholder.written inner

namespace Variable

/-- The value of a name; the last variable with that name counts. -/
def lookup (vars : List Variable) (name : String) : Option String :=
  (vars.reverse.find? fun v => v.name = name).map (·.value)

/-- What stands for a part: a known name is replaced by its value. -/
def fill (vars : List Variable) : Segment → List Char
  | .char c => [c]
  | .placeholder inner =>
    match lookup vars (String.ofList (Text.strip inner)) with
    | some value => value.toList
    | none => Placeholder.written inner

/-- Puts the values of the variables in place of their placeholders. -/
def expandChars (vars : List Variable) (s : List Char) : List Char :=
  (Placeholder.segments s).flatMap (fill vars)

def expand (vars : List Variable) (text : String) : String :=
  String.ofList (expandChars vars text.toList)

end Variable

end DotHttp
