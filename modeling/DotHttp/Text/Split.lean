/-!
Cutting a text at a separator, joining pieces, and looking for one text inside another.
`splitOn` keeps empty pieces, so joining its pieces gives the text back.
-/

namespace DotHttp.Text

/-- The pieces between the separators; a text without one is a single piece. -/
def splitOn (sep : Char) : List Char → List (List Char)
  | [] => [[]]
  | c :: r =>
    if c = sep then [] :: splitOn sep r
    else
      match splitOn sep r with
      | [] => [[c]]
      | piece :: rest => (c :: piece) :: rest

/-- The pieces with a separator between any two neighbours. -/
def joinWith (sep : List Char) : List (List Char) → List Char
  | [] => []
  | [piece] => piece
  | piece :: rest => piece ++ sep ++ joinWith sep rest

/-- The parts before and after the first separator. -/
def splitFirst (sep : Char) : List Char → Option (List Char × List Char)
  | [] => none
  | c :: r =>
    if c = sep then some ([], r)
    else (splitFirst sep r).map fun (before, after) => (c :: before, after)

theorem splitFirst_append {sep : Char} {s : List Char} (h : sep ∉ s) (t : List Char) :
    splitFirst sep (s ++ sep :: t) = some (s, t) := by
  induction s with
  | nil => simp [splitFirst]
  | cons c s ih =>
    obtain ⟨hc, hs⟩ := List.ne_and_not_mem_of_not_mem_cons h
    simp [splitFirst, Ne.symm hc, ih hs]

theorem splitFirst_eq_some_iff {sep : Char} {s before after : List Char} :
    splitFirst sep s = some (before, after) ↔ s = before ++ sep :: after ∧ sep ∉ before := by
  refine ⟨fun h => ?_, fun ⟨hs, hb⟩ => hs ▸ splitFirst_append hb after⟩
  induction s generalizing before with
  | nil => cases h
  | cons c s ih =>
    rw [splitFirst] at h
    split at h
    · next hc =>
      cases h
      exact ⟨by rw [hc, List.nil_append], List.not_mem_nil⟩
    · next hc =>
      obtain ⟨⟨start, rest⟩, found, same⟩ := Option.map_eq_some_iff.1 h
      cases same
      obtain ⟨rfl, fresh⟩ := ih found
      exact ⟨rfl, List.not_mem_cons_of_ne_of_not_mem (Ne.symm hc) fresh⟩

theorem splitOn_ne_nil (sep : Char) (s : List Char) : splitOn sep s ≠ [] := by
  cases s with
  | nil => simp [splitOn]
  | cons c r =>
    unfold splitOn
    split
    · simp
    · split <;> simp

theorem splitOn_append (sep : Char) (s t : List Char) :
    splitOn sep (s ++ sep :: t) = splitOn sep s ++ splitOn sep t := by
  induction s with
  | nil => simp [splitOn]
  | cons c r ih =>
    rw [List.cons_append, splitOn, splitOn]
    split
    · rw [ih, List.cons_append]
    · rw [ih]
      obtain ⟨piece, rest, pieces⟩ := List.exists_cons_of_ne_nil (splitOn_ne_nil sep r)
      rw [pieces]
      rfl

theorem joinWith_splitOn (sep : Char) (s : List Char) : joinWith [sep] (splitOn sep s) = s := by
  induction s with
  | nil => rfl
  | cons c r ih =>
    unfold splitOn
    by_cases h : c = sep
    · rw [if_pos h]
      cases hr : splitOn sep r with
      | nil => exact absurd hr (splitOn_ne_nil sep r)
      | cons p ps => rw [hr] at ih; simp [joinWith, ih, h]
    · rw [if_neg h]
      cases hr : splitOn sep r with
      | nil => exact absurd hr (splitOn_ne_nil sep r)
      | cons p ps =>
        rw [hr] at ih
        cases ps with
        | nil => simpa [joinWith] using ih
        | cons q qs => simpa [joinWith] using ih

theorem not_mem_of_mem_splitOn {sep : Char} {s piece : List Char} (h : piece ∈ splitOn sep s) :
    sep ∉ piece := by
  induction s generalizing piece with
  | nil =>
    rw [splitOn, List.mem_singleton] at h
    rw [h]
    exact List.not_mem_nil
  | cons c r ih =>
    obtain ⟨first, rest, pieces⟩ := List.exists_cons_of_ne_nil (splitOn_ne_nil sep r)
    rw [pieces] at ih
    rw [splitOn] at h
    split at h
    · rw [pieces] at h
      rcases List.mem_cons.1 h with rfl | later
      · exact List.not_mem_nil
      · exact ih later
    · next other =>
      rw [pieces] at h
      rcases List.mem_cons.1 h with rfl | later
      · exact List.not_mem_cons_of_ne_of_not_mem (Ne.symm other) (ih List.mem_cons_self)
      · exact ih (List.mem_cons_of_mem _ later)

theorem splitOn_of_not_mem {sep : Char} {s : List Char} (h : sep ∉ s) : splitOn sep s = [s] := by
  induction s with
  | nil => rfl
  | cons c s ih =>
    obtain ⟨hc, hs⟩ := List.ne_and_not_mem_of_not_mem_cons h
    rw [splitOn, if_neg (Ne.symm hc), ih hs]

theorem splitOn_joinWith {sep : Char} {pieces : List (List Char)} (nonempty : pieces ≠ [])
    (h : ∀ piece ∈ pieces, sep ∉ piece) : splitOn sep (joinWith [sep] pieces) = pieces := by
  induction pieces with
  | nil => exact (nonempty rfl).elim
  | cons piece rest ih =>
    obtain ⟨first, later⟩ := List.forall_mem_cons.1 h
    cases rest with
    | nil => exact splitOn_of_not_mem first
    | cons next rest =>
      have joined : joinWith [sep] (piece :: next :: rest) =
          piece ++ sep :: joinWith [sep] (next :: rest) := by
        rw [joinWith.eq_3 _ _ _ (by simp), List.append_assoc, List.singleton_append]
      rw [joined, splitOn_append, splitOn_of_not_mem first, ih (by simp) later, List.singleton_append]

/-- Pieces without the separator are told by what is joined of them. -/
theorem joinWith_injective {sep : Char} {pieces pieces' : List (List Char)} (nonempty : pieces ≠ [])
    (nonempty' : pieces' ≠ []) (h : ∀ piece ∈ pieces, sep ∉ piece) (h' : ∀ piece ∈ pieces', sep ∉ piece)
    (same : joinWith [sep] pieces = joinWith [sep] pieces') : pieces = pieces' := by
  rw [← splitOn_joinWith nonempty h, same, splitOn_joinWith nonempty' h']

/-- Whether `needle` occurs somewhere in a text. -/
def occursIn (needle : List Char) : List Char → Bool
  | [] => needle.isEmpty
  | c :: r => needle.isPrefixOf (c :: r) || occursIn needle r

theorem occursIn_iff (needle s : List Char) : occursIn needle s = true ↔ needle <:+: s := by
  induction s with
  | nil => simp [occursIn]
  | cons c r ih =>
    rw [occursIn, Bool.or_eq_true, ih, List.isPrefixOf_iff_prefix, List.infix_cons_iff]

/-- What follows `start` in a text that begins with it. -/
def dropStart? : List Char → List Char → Option (List Char)
  | [], s => some s
  | _ :: _, [] => none
  | p :: ps, c :: r => if p = c then dropStart? ps r else none

theorem dropStart?_eq_some_iff {start s rest : List Char} :
    dropStart? start s = some rest ↔ s = start ++ rest := by
  induction start generalizing s with
  | nil => simp [dropStart?, eq_comm]
  | cons p ps ih =>
    cases s with
    | nil => simp [dropStart?]
    | cons c r =>
      by_cases h : p = c
      · simp [dropStart?, h, ih]
      · simp [dropStart?, h, Ne.symm h]

def dropEnd? (ending s : List Char) : Option (List Char) :=
  (dropStart? ending.reverse s.reverse).map List.reverse

theorem dropEnd?_eq_some_iff {ending s rest : List Char} :
    dropEnd? ending s = some rest ↔ s = rest ++ ending := by
  simp [dropEnd?, dropStart?_eq_some_iff, List.reverse_eq_iff]

end DotHttp.Text
