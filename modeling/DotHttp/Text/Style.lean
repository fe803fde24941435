/-!
Styles. A text asks a terminal for colours and the like by control sequences: an escape character, an
opening bracket, parameters, intermediate characters and a final character, each of the three from a
range of its own. `unstyled` is what is left of a text without them.
-/

namespace DotHttp.Text

/-- Digits and the characters from the colon to the question mark. -/
def isStyleParameter (c : Char) : Bool :=
  0x30 ≤ c.toNat && c.toNat ≤ 0x3f

/-- The blank and the signs before the digits. -/
def isStyleIntermediate (c : Char) : Bool :=
  0x20 ≤ c.toNat && c.toNat ≤ 0x2f

def isStyleFinal (c : Char) : Bool :=
  0x40 ≤ c.toNat && c.toNat ≤ 0x7e

/-- What follows the style that a text begins with. -/
def afterStyle? : List Char → Option (List Char)
  | '\x1b' :: '[' :: r =>
    match (r.dropWhile isStyleParameter).dropWhile isStyleIntermediate with
    | c :: rest => if isStyleFinal c then some rest else none
    | [] => none
  | _ => none

theorem length_afterStyle? {s rest : List Char} (h : afterStyle? s = some rest) :
    rest.length < s.length := by
  unfold afterStyle? at h
  split at h
  next r =>
    have hp := (List.dropWhile_suffix isStyleParameter (l := r)).length_le
    have hi := (List.dropWhile_suffix isStyleIntermediate
      (l := r.dropWhile isStyleParameter)).length_le
    split at h
    next c t ht =>
      split at h
      · cases h
        rw [ht] at hi
        simp only [List.length_cons] at hi ⊢
        omega
      · cases h
    next => cases h
  next => cases h

def unstyled (s : List Char) : List Char :=
  match _h : afterStyle? s with
  | some rest => unstyled rest
  | none =>
    match s with
    | [] => []
    | c :: r => c :: unstyled r
termination_by s.length
decreasing_by
  · exact length_afterStyle? _h
  · simp

end DotHttp.Text

namespace String

def unstyled (s : String) : String :=
  ofList (DotHttp.Text.unstyled s.toList)

@[simp] theorem toList_unstyled (s : String) :
    s.unstyled.toList = DotHttp.Text.unstyled s.toList :=
  toList_ofList

end String
