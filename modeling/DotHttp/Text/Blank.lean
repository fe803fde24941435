/-!
White space: the characters that separate words and that are cut from the ends of a text.
`strip` cuts both ends, `words` are the longest runs without white space.
-/

namespace DotHttp.Text

/-- White space of every script, with the four information separators and the next-line control. -/
def isBlank (c : Char) : Bool :=
  let n := c.toNat
  (0x09 ≤ n && n ≤ 0x0d) || (0x1c ≤ n && n ≤ 0x20) || n == 0x85 || n == 0xa0 || n == 0x1680 ||
    (0x2000 ≤ n && n ≤ 0x200a) || n == 0x2028 || n == 0x2029 || n == 0x202f || n == 0x205f ||
    n == 0x3000

theorem isBlank_of_isWhitespace {c : Char} (h : c.isWhitespace) : isBlank c := by
  simp only [Char.isWhitespace, Bool.or_eq_true, decide_eq_true_eq] at h
  rcases h with ((rfl | rfl) | rfl) | rfl <;> decide

def stripLeft (s : List Char) : List Char :=
  s.dropWhile isBlank

def stripRight (s : List Char) : List Char :=
  (s.reverse.dropWhile isBlank).reverse

def strip (s : List Char) : List Char :=
  stripRight (stripLeft s)

/-- The words of a text: its longest runs of characters that are not white space. -/
def words (s : List Char) : List (List Char) :=
  match _h : stripLeft s with
  | [] => []
  | c :: r => (c :: r.takeWhile (!isBlank ·)) :: words (r.dropWhile (!isBlank ·))
termination_by s.length
decreasing_by
  have h₁ := (List.dropWhile_suffix isBlank (l := s)).length_le
  have h₂ := (List.dropWhile_suffix (!isBlank ·) (l := r)).length_le
  rw [show s.dropWhile isBlank = c :: r from _h] at h₁
  simp only [List.length_cons] at h₁
  omega

end DotHttp.Text

namespace String

open DotHttp.Text

/-- The text without the white space at its ends. -/
def stripBlank (s : String) : String :=
  ofList (strip s.toList)

@[simp] theorem toList_stripBlank (s : String) : s.stripBlank.toList = strip s.toList :=
  toList_ofList

end String
