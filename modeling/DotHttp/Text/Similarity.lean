/-!
How similar two texts are: the part of their characters that lie in common runs, which are found by
taking the longest common run and going on with what lies before and after it.
-/

namespace DotHttp.Text

/-- The length of the common start of two texts. -/
def commonStart : List Char → List Char → Nat
  | a :: as, b :: bs => if a = b then commonStart as bs + 1 else 0
  | _, _ => 0

/-- A common run: where it starts in each of two texts, and its length. -/
structure Run where
  left : Nat
  right : Nat
  length : Nat
  deriving DecidableEq, Repr

/-- The longest common run; of several the one that starts first in the left text, and then in the
right one. -/
def longestRun (a b : List Char) : Run :=
  (List.range a.length).foldl (fun best i =>
    (List.range b.length).foldl (fun best j =>
      let n := commonStart (a.drop i) (b.drop j)
      if best.length < n then ⟨i, j, n⟩ else best) best) ⟨0, 0, 0⟩

/-- How many characters lie in common runs. Each run found uses one unit of fuel. -/
def matchedIn : Nat → List Char → List Char → Nat
  | 0, _, _ => 0
  | fuel + 1, a, b =>
    let r := longestRun a b
    if r.length = 0 then 0
    else
      r.length + matchedIn fuel (a.take r.left) (b.take r.right) +
        matchedIn fuel (a.drop (r.left + r.length)) (b.drop (r.right + r.length))

def matched (a b : List Char) : Nat :=
  matchedIn (a.length + 1) a b

/-- Whether at least three fifths of the characters of two texts are matched. -/
def isSimilar (a b : List Char) : Bool :=
  3 * (a.length + b.length) ≤ 5 * (2 * matched a b)

/-- Orders texts by how much of them a word matches, and then by their characters. -/
def similarityLe (word a b : List Char) : Bool :=
  let x := matched a word * (b.length + word.length)
  let y := matched b word * (a.length + word.length)
  if x = y then !(a < b) else y < x

/-- Up to three of some texts that are most similar to a word, the most similar first. -/
def closest (word : List Char) (texts : List (List Char)) : List (List Char) :=
  ((texts.filter fun t => isSimilar t word).mergeSort (similarityLe word)).take 3

end DotHttp.Text
