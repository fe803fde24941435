/-!
Lines. A text is cut at every line boundary of every script; a carriage return followed by a line
feed is one boundary, and a boundary at the very end opens no further line. `unifyNewlines` is the
reading of a text file, where both spellings with a carriage return stand for a line feed.
-/

namespace DotHttp.Text

def isLineBoundary (c : Char) : Bool :=
  let n := c.toNat
  (0x0a ≤ n && n ≤ 0x0d) || (0x1c ≤ n && n ≤ 0x1e) || n == 0x85 || n == 0x2028 || n == 0x2029

/-- The lines of a text, without their boundaries. -/
def lines : List Char → List (List Char)
  | [] => []
  | '\r' :: '\n' :: r => [] :: lines r
  | c :: r =>
    if isLineBoundary c then [] :: lines r
    else
      match lines r with
      | [] => [[c]]
      | line :: rest => (c :: line) :: rest

/-- Every line end of a file becomes a line feed. -/
def unifyNewlines : List Char → List Char
  | [] => []
  | '\r' :: '\n' :: r => '\n' :: unifyNewlines r
  | c :: r => (if c = '\r' then '\n' else c) :: unifyNewlines r

end DotHttp.Text
