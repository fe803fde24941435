import DotHttp.Text.Lines

/-!
Where the lines of a text come from. A line feed ends the line before it, and what follows is cut as
if it stood alone.
-/

namespace DotHttp.Text

@[simp] theorem lines_nil : lines [] = [] :=
  rfl

theorem lines_crlf (s : List Char) : lines ('\r' :: '\n' :: s) = [] :: lines s :=
  rfl

theorem lines_cons {c : Char} {s : List Char} (single : c = '\r' → s.head? ≠ some '\n') :
    lines (c :: s) = if isLineBoundary c then [] :: lines s
      else (c :: (lines s).headD []) :: (lines s).tail := by
  rw [lines.eq_3]
  · cases lines s <;> rfl
  · rintro r rfl rfl
    exact single rfl rfl

theorem lines_cons_of_plain {c : Char} (h : isLineBoundary c = false) (s : List Char) :
    lines (c :: s) = (c :: (lines s).headD []) :: (lines s).tail := by
  have single : c = '\r' → s.head? ≠ some '\n' := by
    rintro rfl
    exact absurd h (by decide)
  rw [lines_cons single, if_neg (Bool.eq_false_iff.1 h)]

/-- A boundary ends a line at once, unless it is a carriage return that a line feed follows. -/
theorem lines_cons_of_boundary {c : Char} {s : List Char} (h : isLineBoundary c = true)
    (hs : c = '\r' → s.head? ≠ some '\n') : lines (c :: s) = [] :: lines s := by
  rw [lines_cons hs, if_pos h]

theorem lines_newline (s : List Char) : lines ('\n' :: s) = [] :: lines s :=
  lines_cons_of_boundary (by decide) (by simp)

/-- Induction along the cutting of a text: the text is empty, or starts with the two characters of one
line end, with another boundary, or with a character of its first line. -/
@[elab_as_elim]
theorem lines_induction {motive : List Char → Prop} (s : List Char) (nil : motive [])
    (crlf : ∀ r, motive r → motive ('\r' :: '\n' :: r))
    (boundary : ∀ c r, isLineBoundary c = true → (c = '\r' → r.head? ≠ some '\n') → motive r →
      motive (c :: r))
    (plain : ∀ c r, isLineBoundary c = false → motive r → motive (c :: r)) : motive s := by
  induction s using lines.induct with
  | case1 => exact nil
  | case2 r ih => exact crlf r ih
  | case3 c r hr hc ih =>
    refine boundary c r hc (fun h hn => ?_) ih
    obtain ⟨t, rfl⟩ := List.head?_eq_some_iff.1 hn
    exact hr t h rfl
  | case4 c r _ hc _ ih => exact plain c r (Bool.eq_false_iff.2 hc) ih
  | case5 c r _ hc _ _ _ ih => exact plain c r (Bool.eq_false_iff.2 hc) ih

/-- A text on one line. -/
def Unbroken (line : List Char) : Prop := ∀ c ∈ line, isLineBoundary c = false

instance (line : List Char) : Decidable (Unbroken line) :=
  List.decidableBAll (isLineBoundary · = false) line

theorem Unbroken.append {s t : List Char} (hs : Unbroken s) (ht : Unbroken t) : Unbroken (s ++ t) :=
  List.forall_mem_append.2 ⟨hs, ht⟩

theorem Unbroken.cons {c : Char} {s : List Char} (hc : isLineBoundary c = false) (hs : Unbroken s) :
    Unbroken (c :: s) :=
  List.forall_mem_cons.2 ⟨hc, hs⟩

theorem lines_of_plain {line : List Char} (h : Unbroken line) (s : List Char) :
    lines (line ++ '\n' :: s) = line :: lines s := by
  induction line with
  | nil => exact lines_newline s
  | cons c rest ih =>
    rw [List.cons_append, lines_cons_of_plain (h c List.mem_cons_self),
      ih fun d hd => h d (List.mem_cons_of_mem c hd)]
    rfl

theorem lines_append_of_unbroken {w : List Char} (h : Unbroken w) (nonempty : w ≠ []) (s : List Char) :
    lines (w ++ s) = (w ++ (lines s).headD []) :: (lines s).tail := by
  induction w with
  | nil => exact (nonempty rfl).elim
  | cons c w ih =>
    obtain ⟨hc, hw⟩ := List.forall_mem_cons.1 h
    rw [List.cons_append, lines_cons_of_plain hc]
    cases w with
    | nil => rfl
    | cons d w =>
      rw [ih hw (List.cons_ne_nil d w)]
      rfl

/-- The two characters of a line end are one boundary. -/
theorem lines_cons_return {s : List Char} (h : s.head? = some '\n') : lines ('\r' :: s) = lines s := by
  obtain ⟨r, rfl⟩ := List.head?_eq_some_iff.1 h
  rw [lines_crlf, lines_newline]

theorem lines_ne_nil (c : Char) (s : List Char) : lines (c :: s) ≠ [] := by
  by_cases pair : c = '\r' ∧ s.head? = some '\n'
  · obtain ⟨rfl, h⟩ := pair
    obtain ⟨r, rfl⟩ := List.head?_eq_some_iff.1 h
    rw [lines_crlf]
    exact List.cons_ne_nil _ _
  · rw [lines_cons fun h hn => pair ⟨h, hn⟩]
    split <;> exact List.cons_ne_nil _ _

/-- A text and another after a line feed have the lines of both, with a blank one between them if the
first text has ended its last line itself. -/
theorem lines_append_newline (s t : List Char) :
    ∃ between : List (List Char), (between = [] ∨ between = [[]]) ∧
      lines (s ++ '\n' :: t) = lines s ++ (between ++ lines t) := by
  induction s using lines_induction with
  | nil => exact ⟨[[]], .inr rfl, by simp [lines_newline]⟩
  | crlf r ih =>
    obtain ⟨between, hb, h⟩ := ih
    exact ⟨between, hb, by simp [lines_crlf, h]⟩
  | boundary c r hc single ih =>
    cases r with
    | nil =>
      rw [lines_cons_of_boundary hc single]
      by_cases hcr : c = '\r'
      · -- A carriage return at the end and the line feed are one boundary.
        subst hcr
        exact ⟨[], .inl rfl, lines_crlf t⟩
      · refine ⟨[[]], .inr rfl, ?_⟩
        rw [List.singleton_append, lines_cons_of_boundary hc fun h => (hcr h).elim, lines_newline]
        rfl
    | cons d r =>
      obtain ⟨between, hb, h⟩ := ih
      refine ⟨between, hb, ?_⟩
      rw [lines_cons_of_boundary hc single, List.cons_append,
        lines_cons_of_boundary hc (by simpa using single), h]
      rfl
  | plain c r hc ih =>
    cases r with
    | nil =>
      refine ⟨[], .inl rfl, ?_⟩
      rw [lines_cons_of_plain hc []]
      exact lines_of_plain (List.forall_mem_singleton.2 hc) t
    | cons d r =>
      obtain ⟨between, hb, h⟩ := ih
      obtain ⟨line, rest, cut⟩ := List.exists_cons_of_ne_nil (lines_ne_nil d r)
      refine ⟨between, hb, ?_⟩
      rw [List.cons_append, lines_cons_of_plain hc, lines_cons_of_plain hc, h, cut]
      rfl

theorem unbroken_of_mem_lines {s line : List Char} (h : line ∈ lines s) : Unbroken line := by
  induction s using lines_induction generalizing line with
  | nil => cases h
  | crlf r ih =>
    rw [lines_crlf] at h
    rcases List.mem_cons.1 h with rfl | later
    · exact List.forall_mem_nil _
    · exact ih later
  | boundary c r hc single ih =>
    rw [lines_cons_of_boundary hc single] at h
    rcases List.mem_cons.1 h with rfl | later
    · exact List.forall_mem_nil _
    · exact ih later
  | plain c r hc ih =>
    rw [lines_cons_of_plain hc] at h
    cases cut : lines r with
    | nil =>
      rw [cut, List.headD_nil, List.tail_nil, List.mem_singleton] at h
      exact h ▸ List.forall_mem_singleton.2 hc
    | cons first rest =>
      rw [cut] at h ih
      rcases List.mem_cons.1 h with rfl | later
      · exact (ih List.mem_cons_self).cons hc
      · exact ih (List.mem_cons_of_mem _ later)

theorem prefix_of_head?_lines {s line : List Char} (h : (lines s).head? = some line) : line <+: s := by
  induction s using lines_induction generalizing line with
  | nil => cases h
  | crlf r =>
    rw [lines_crlf] at h
    cases h
    exact List.nil_prefix
  | boundary c r hc single =>
    rw [lines_cons_of_boundary hc single] at h
    cases h
    exact List.nil_prefix
  | plain c r hc ih =>
    rw [lines_cons_of_plain hc] at h
    cases h
    cases cut : lines r with
    | nil => exact List.prefix_append [c] r
    | cons first rest =>
      rw [cut] at ih
      exact List.cons_prefix_cons.2 ⟨rfl, ih rfl⟩

theorem infix_of_mem_lines {s line : List Char} (h : line ∈ lines s) : line <:+: s := by
  induction s using lines_induction generalizing line with
  | nil => cases h
  | crlf r ih =>
    rw [lines_crlf] at h
    rcases List.mem_cons.1 h with rfl | later
    · exact List.nil_infix
    · exact List.infix_cons (List.infix_cons (ih later))
  | boundary c r hc single ih =>
    rw [lines_cons_of_boundary hc single] at h
    rcases List.mem_cons.1 h with rfl | later
    · exact List.nil_infix
    · exact List.infix_cons (ih later)
  | plain c r hc ih =>
    have cut := lines_cons_of_plain hc r
    rw [cut] at h
    rcases List.mem_cons.1 h with rfl | later
    · exact (prefix_of_head?_lines (by rw [cut]; rfl)).isInfix
    · exact List.infix_cons (ih (List.mem_of_mem_tail later))

/-- The first line of a text and a line feed is all of it just if the text is on one line. -/
theorem tail_lines_break_iff {s : List Char} (h : '\r' ∉ s) : (lines (s ++ ['\n'])).tail = [] ↔ Unbroken s := by
  constructor
  · intro single
    induction s with
    | nil => exact List.forall_mem_nil _
    | cons c s ih =>
      obtain ⟨apart, rest⟩ := List.ne_and_not_mem_of_not_mem_cons h
      rw [List.cons_append] at single
      cases boundary : isLineBoundary c with
      | true =>
        rw [lines_cons_of_boundary boundary (absurd · (Ne.symm apart)), List.tail_cons] at single
        cases s with
        | nil => exact (lines_ne_nil _ _ single).elim
        | cons d s => exact (lines_ne_nil _ _ single).elim
      | false =>
        rw [lines_cons_of_plain boundary] at single
        exact (ih rest single).cons boundary
  · intro unbroken
    rw [lines_of_plain unbroken, lines_nil, List.tail_cons]

/-- A line feed that does not follow a carriage return has the lines before it and those after it cut
apart. -/
theorem lines_append_break {s : List Char} (h : '\r' ∉ s) (t : List Char) :
    lines (s ++ '\n' :: t) = lines (s ++ ['\n']) ++ lines t := by
  induction s with
  | nil => simp [lines_newline]
  | cons c s ih =>
    obtain ⟨single, rest⟩ := List.ne_and_not_mem_of_not_mem_cons h
    rw [List.cons_append, List.cons_append]
    cases boundary : isLineBoundary c with
    | true =>
      rw [lines_cons_of_boundary boundary (absurd · (Ne.symm single)),
        lines_cons_of_boundary boundary (absurd · (Ne.symm single)), ih rest, List.cons_append]
    | false =>
      rw [lines_cons_of_plain boundary, lines_cons_of_plain boundary, ih rest]
      cases cut : lines (s ++ ['\n']) with
      | nil =>
        cases s with
        | nil => exact (lines_ne_nil _ _ cut).elim
        | cons d s => exact (lines_ne_nil _ _ cut).elim
      | cons first more => rfl

end DotHttp.Text
