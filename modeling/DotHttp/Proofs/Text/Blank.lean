import DotHttp.Proofs.Text.Lines
import DotHttp.Text.Blank
import DotHttp.Text.Split
import DotHttp.Text.Word
import Mathlib.Data.List.DropRight
import Mathlib.Tactic.MkIffOfInductiveProp

/-!
White space at the ends of texts and between words. Cutting an end stops at the first character that
is not blank, so a text with such a character at an end keeps that end whatever is put at the other.
-/

namespace DotHttp.Text

variable {c : Char} {s t w : List Char}

theorem isBlank_of_isLineBoundary (h : isLineBoundary c = true) : isBlank c = true := by
  simp only [isLineBoundary, isBlank, Bool.or_eq_true, Bool.and_eq_true, decide_eq_true_eq,
    beq_iff_eq] at h ⊢
  omega

/-- The code points of white space. -/
def blanks : List Nat :=
  List.range' 0x09 5 ++ List.range' 0x1c 5 ++ [0x85, 0xa0, 0x1680] ++ List.range' 0x2000 11 ++
    [0x2028, 0x2029, 0x202f, 0x205f, 0x3000]

theorem isBlank_of_isWord (h : isWord c = true) : isBlank c = false := by
  have apart : ∀ n ∈ blanks, isWord (Char.ofNat n) = false := by decide +kernel
  rw [← Bool.not_eq_true]
  intro blank
  have listed : c.toNat ∈ blanks := by
    simp only [isBlank, Bool.or_eq_true, Bool.and_eq_true, decide_eq_true_eq, beq_iff_eq] at blank
    simp only [blanks, List.mem_append, List.mem_range'_1, List.mem_cons, List.not_mem_nil]
    omega
  have word := apart c.toNat listed
  rw [Char.ofNat_toNat, h] at word
  cases word

theorem stripLeft_cons (h : isBlank c = false) (s : List Char) : stripLeft (c :: s) = c :: s := by
  simp [stripLeft, h]

theorem stripLeft_space (s : List Char) : stripLeft (' ' :: s) = stripLeft s := rfl

theorem stripRight_cons (c : Char) (s : List Char) :
    stripRight (c :: s) =
      if stripRight s = [] ∧ isBlank c = true then [] else c :: stripRight s := by
  unfold stripRight
  rw [List.reverse_cons, List.dropWhile_append]
  by_cases hs : s.reverse.dropWhile isBlank = []
  · cases hc : isBlank c <;> simp [hs, hc]
  · simp [hs]

theorem stripRight_append_cons (h : isBlank c = false) (s t : List Char) :
    stripRight (s ++ c :: t) = s ++ c :: stripRight t := by
  induction s with
  | nil => simp [stripRight_cons, h]
  | cons d s ih => simp [stripRight_cons, ih]

theorem stripRight_append (h : stripRight t ≠ []) (s : List Char) :
    stripRight (s ++ t) = s ++ stripRight t := by
  induction s with
  | nil => rfl
  | cons c s ih => simp [stripRight_cons, ih, h]

theorem stripLeft_stripRight (s : List Char) : stripLeft (stripRight s) = strip s := by
  induction s with
  | nil => rfl
  | cons c s ih =>
    cases hc : isBlank c with
    | true =>
      have left : stripLeft (c :: s) = stripLeft s := by simp [stripLeft, hc]
      rw [strip, left, ← strip, ← ih, stripRight_cons]
      by_cases hs : stripRight s = []
      · simp [hs, hc]
      · simp [hs, stripLeft, hc]
    | false => simp [strip, stripLeft_cons hc, stripRight_cons, hc]

theorem strip_stripRight (s : List Char) : strip (stripRight s) = strip s := by
  have twice : stripRight (stripRight s) = stripRight s := List.rdropWhile_idempotent _ _
  rw [← stripLeft_stripRight, twice, stripLeft_stripRight]

theorem strip_sublist (s : List Char) : (strip s).Sublist s :=
  (List.rdropWhile_prefix isBlank _).sublist.trans (List.dropWhile_sublist isBlank)

theorem strip_inside (s : List Char) : strip s <:+: s :=
  (List.rdropWhile_prefix isBlank _).isInfix.trans (List.dropWhile_suffix isBlank).isInfix

theorem stripLeft_of_strip (h : strip s = s) : stripLeft s = s := by
  have cut : (strip s).length ≤ (stripLeft s).length := (List.rdropWhile_prefix isBlank _).length_le
  rw [h] at cut
  exact (List.dropWhile_suffix isBlank).eq_of_length_le cut

theorem stripRight_of_strip (h : strip s = s) : stripRight s = s := by
  rw [strip, stripLeft_of_strip h] at h
  exact h

theorem strip_strip (s : List Char) : strip (strip s) = strip s := by
  have left : stripLeft (strip s) = strip s := by
    rw [← stripLeft_stripRight]
    exact List.dropWhile_idempotent _ _
  have right : stripRight (strip s) = strip s := List.rdropWhile_idempotent _ _
  rw [strip, left, right]

theorem isBlank_of_strip_cons (h : strip (c :: s) = c :: s) : isBlank c = false := by
  have left := stripLeft_of_strip h
  rw [stripLeft, List.dropWhile_eq_self_iff] at left
  exact Bool.eq_false_iff.2 (left (by simp))

/-- What is put before a text without white space at its end is not cut at its end either. -/
theorem strip_cons_append (hc : isBlank c = false) (s : List Char) (ht : stripRight t = t)
    (nonempty : t ≠ []) : strip (c :: s ++ t) = c :: s ++ t := by
  rw [strip, List.cons_append, stripLeft_cons hc, ← List.cons_append,
    stripRight_append (by rwa [ht]), ht]

/-- A text of white space alone. -/
def Blank (s : List Char) : Prop := ∀ c ∈ s, isBlank c = true

instance (s : List Char) : Decidable (Blank s) :=
  List.decidableBAll (isBlank · = true) s

theorem exists_strip (s : List Char) :
    ∃ before after, s = before ++ strip s ++ after ∧ Blank before ∧ Blank after := by
  refine ⟨s.takeWhile isBlank, (stripLeft s).rtakeWhile isBlank, ?_,
    fun _ => List.mem_takeWhile_imp, fun _ => List.mem_rtakeWhile_imp⟩
  calc
    s = s.takeWhile isBlank ++ stripLeft s := List.takeWhile_append_dropWhile.symm
    _ = s.takeWhile isBlank ++ (strip s ++ (stripLeft s).rtakeWhile isBlank) := by
      rw [strip, stripRight]
      exact congrArg _ (List.rdropWhile_append_rtakeWhile ..).symm
    _ = _ := (List.append_assoc ..).symm

theorem stripRight_append_blank (h : Blank t) (s : List Char) : stripRight (s ++ t) = stripRight s := by
  rw [stripRight, List.reverse_append, List.dropWhile_append_of_pos, stripRight]
  intro c hc
  exact h c (List.mem_reverse.1 hc)

theorem strip_around (hs : Blank s) (ht : Blank t) (w : List Char) :
    strip (s ++ w ++ t) = strip w := by
  have left : stripLeft (s ++ w) = stripLeft w := List.dropWhile_append_of_pos hs
  rw [← stripLeft_stripRight, stripRight_append_blank ht, stripLeft_stripRight, strip, left, strip]

theorem strip_of_blank (h : Blank s) : strip s = [] := by
  have around := strip_around h (List.forall_mem_nil _) []
  rwa [List.append_nil, List.append_nil] at around

theorem stripRight_ne_nil (visible : strip s ≠ []) : stripRight s ≠ [] := by
  intro none
  rw [← stripLeft_stripRight, none] at visible
  exact visible rfl

/-- A text with at least one character and no white space. -/
@[mk_iff] structure Compact (w : List Char) : Prop where
  nonempty : w ≠ []
  solid : ∀ c ∈ w, isBlank c = false

instance (w : List Char) : Decidable (Compact w) :=
  have : Decidable (∀ c ∈ w, isBlank c = false) := List.decidableBAll _ w
  decidable_of_iff _ (compact_iff w).symm

theorem strip_of_compact (h : Compact w) : strip w = w := by
  have left : stripLeft w = w :=
    List.dropWhile_eq_self_iff.2 fun hl => by simp [h.solid _ (List.getElem_mem hl)]
  have right : stripRight w = w :=
    List.rdropWhile_eq_self_iff.2 fun hl => by simp [h.solid _ (List.getLast_mem hl)]
  rw [strip, left, right]

theorem infix_of_blank_append (compact : Compact w) (blank : Blank s) (h : w <:+: s ++ t) : w <:+: t := by
  induction s with
  | nil => exact h
  | cons c s ih =>
    obtain ⟨first, rest⟩ := List.forall_mem_cons.1 blank
    rw [List.cons_append, List.infix_cons_iff] at h
    rcases h with start | later
    · rcases List.prefix_cons_iff.1 start with none | ⟨more, parts, -⟩
      · exact (compact.nonempty none).elim
      · have solid := compact.solid c (parts ▸ List.mem_cons_self)
        rw [first] at solid
        cases solid
    · exact ih rest later

/-- A word is found in a text just if it is found between the white space at its ends. -/
theorem infix_strip (compact : Compact w) (h : w <:+: t) : w <:+: strip t := by
  obtain ⟨before, after, parts, blank, blank'⟩ := exists_strip t
  rw [parts, List.append_assoc] at h
  have left : w <:+: strip t ++ after := infix_of_blank_append compact blank h
  rw [← List.reverse_infix, List.reverse_append] at left
  have back : Compact w.reverse := by
    refine ⟨?_, ?_⟩
    · simpa using compact.nonempty
    · intro c among
      exact compact.solid c (List.mem_reverse.1 among)
  have blank'' : Blank after.reverse := fun c among => blank' c (List.mem_reverse.1 among)
  exact List.reverse_infix.1 (infix_of_blank_append back blank'' left)

theorem words_of_stripLeft_nil (h : stripLeft s = []) : words s = [] := by
  rw [words.eq_def]
  split
  · rfl
  · simp_all

theorem words_of_stripLeft_cons {r : List Char} (h : stripLeft s = c :: r) :
    words s = (c :: r.takeWhile (!isBlank ·)) :: words (r.dropWhile (!isBlank ·)) := by
  rw [words.eq_def]
  split
  · simp_all
  · next c' r' h' =>
    rw [h'] at h
    cases h
    rfl

@[simp] theorem words_nil : words [] = [] := words_of_stripLeft_nil rfl

theorem words_congr (h : stripLeft s = stripLeft t) : words s = words t := by
  cases ht : stripLeft t with
  | nil => rw [words_of_stripLeft_nil ht, words_of_stripLeft_nil (h.trans ht)]
  | cons c r => rw [words_of_stripLeft_cons ht, words_of_stripLeft_cons (h.trans ht)]

theorem words_space (s : List Char) : words (' ' :: s) = words s :=
  words_congr (stripLeft_space s)

theorem words_blank_append (h : Blank s) (t : List Char) : words (s ++ t) = words t :=
  words_congr (List.dropWhile_append_of_pos h)

theorem blank_of_words_nil (h : words s = []) : Blank s := by
  cases hs : stripLeft s with
  | nil => exact List.dropWhile_eq_nil_iff.1 hs
  | cons c r =>
    rw [words_of_stripLeft_cons hs] at h
    cases h

theorem words_append (hw : Compact w) (hs : ∀ c ∈ s.head?, isBlank c = true) :
    words (w ++ s) = w :: words s := by
  obtain ⟨nonempty, solid⟩ := hw
  cases w with
  | nil => exact (nonempty rfl).elim
  | cons c r =>
    have inner : ∀ d ∈ r, (!isBlank d) = true :=
      fun d hd => by simp [solid d (List.mem_cons_of_mem c hd)]
    have outer : s.takeWhile (!isBlank ·) = [] ∧ s.dropWhile (!isBlank ·) = s := by
      cases s with
      | nil => exact ⟨rfl, rfl⟩
      | cons d t => simp [hs d rfl]
    rw [List.cons_append, words_of_stripLeft_cons (stripLeft_cons (solid c List.mem_cons_self) _),
      List.takeWhile_append_of_pos inner, List.dropWhile_append_of_pos inner, outer.1, outer.2,
      List.append_nil]

theorem words_of_compact (hw : Compact w) : words w = [w] := by
  have := words_append (s := []) hw (by simp)
  rwa [List.append_nil, words_nil] at this

theorem words_append_space (hw : Compact w) (s : List Char) :
    words (w ++ ' ' :: s) = w :: words s := by
  rw [words_append hw (by simp [isBlank]), words_space]

theorem compact_of_mem_words (h : w ∈ words s) : Compact w := by
  induction s using words.induct with
  | case1 s hs => rw [words_of_stripLeft_nil hs] at h; cases h
  | case2 s c r hs ih =>
    rw [words_of_stripLeft_cons hs] at h
    rcases List.mem_cons.1 h with rfl | h
    · refine ⟨List.cons_ne_nil _ _, fun d hd => ?_⟩
      rcases List.mem_cons.1 hd with rfl | hd
      · have first : isBlank ((stripLeft s).head (by simp [hs])) = false :=
          List.head_dropWhile_not ..
        simpa only [hs, List.head_cons] using first
      · simpa using List.mem_takeWhile_imp hd
    · exact ih h

theorem strip_of_words (h : words s = [w]) : strip s = w := by
  have compact : Compact w := compact_of_mem_words (h ▸ List.mem_singleton_self w)
  cases hs : stripLeft s with
  | nil =>
    rw [words_of_stripLeft_nil hs] at h
    cases h
  | cons c r =>
    rw [words_of_stripLeft_cons hs, List.cons.injEq] at h
    have parts : w ++ r.dropWhile (!isBlank ·) = c :: r := by
      rw [← h.1, List.cons_append, List.takeWhile_append_dropWhile]
    calc
      strip s = strip (stripLeft s) := by
        rw [strip, strip, show stripLeft (stripLeft s) = stripLeft s from List.dropWhile_idempotent _ _]
      _ = strip ([] ++ w ++ r.dropWhile (!isBlank ·)) := by rw [hs, List.nil_append, parts]
      _ = strip w := strip_around (List.forall_mem_nil _) (blank_of_words_nil h.2) w
      _ = w := strip_of_compact compact

theorem words_append_blank (h : Blank t) (s : List Char) : words (s ++ t) = words s := by
  induction s using words.induct with
  | case1 s hs =>
    have blank : Blank (s ++ t) := List.forall_mem_append.2 ⟨List.dropWhile_eq_nil_iff.1 hs, h⟩
    rw [words_of_stripLeft_nil hs, words_of_stripLeft_nil (List.dropWhile_eq_nil_iff.2 blank)]
  | case2 s c r hs ih =>
    have left : stripLeft (s ++ t) = c :: (r ++ t) := by
      have kept : s.dropWhile isBlank = c :: r := hs
      rw [stripLeft, List.dropWhile_append, kept]
      rfl
    have outer : t.takeWhile (!isBlank ·) = [] ∧ t.dropWhile (!isBlank ·) = t := by
      cases t with
      | nil => exact ⟨rfl, rfl⟩
      | cons d t => simp [h d List.mem_cons_self]
    have parts := List.takeWhile_append_dropWhile (p := (!isBlank ·)) (l := r)
    rw [words_of_stripLeft_cons left, words_of_stripLeft_cons hs, List.takeWhile_append,
      List.dropWhile_append, outer.1, outer.2]
    cases rest : r.dropWhile (!isBlank ·) with
    | nil =>
      rw [rest, List.append_nil] at parts
      have none : words t = [] := words_of_stripLeft_nil (List.dropWhile_eq_nil_iff.2 h)
      rw [parts, if_pos rfl, List.isEmpty_nil, if_pos rfl, List.append_nil, words_nil, none]
    | cons d more =>
      rw [rest] at parts ih
      have shorter : (r.takeWhile (!isBlank ·)).length ≠ r.length := by
        intro same
        have total := congrArg List.length parts
        simp only [List.length_append, List.length_cons] at total
        omega
      rw [if_neg shorter, List.isEmpty_cons, if_neg Bool.false_ne_true, ih]

theorem words_strip (s : List Char) : words (strip s) = words s := by
  obtain ⟨before, after, parts, left, right⟩ := exists_strip s
  rw [parts, words_append_blank right, words_blank_append left, ← parts]

/-- The word that a character belongs to is the first one that what follows can change. -/
theorem words_append_cons (hc : isBlank c = false) (s : List Char) :
    ∃ ws w, w <:+ s ∧ ∀ t, words (s ++ c :: t) =
      ws ++ (w ++ c :: t.takeWhile (!isBlank ·)) :: words (t.dropWhile (!isBlank ·)) := by
  have solid : (!isBlank c) = true := by simp [hc]
  induction s using words.induct with
  | case1 s hs =>
    refine ⟨[], [], List.nil_suffix, ?_⟩
    intro t
    rw [words_blank_append (List.dropWhile_eq_nil_iff.1 hs), words_of_stripLeft_cons (stripLeft_cons hc t)]
    rfl
  | case2 s d r hs ih =>
    have kept : s.dropWhile isBlank = d :: r := hs
    have left (t : List Char) : stripLeft (s ++ c :: t) = d :: (r ++ c :: t) := by
      rw [stripLeft, List.dropWhile_append, kept]
      rfl
    have parts := List.takeWhile_append_dropWhile (p := (!isBlank ·)) (l := r)
    cases rest : r.dropWhile (!isBlank ·) with
    | nil =>
      rw [rest, List.append_nil] at parts
      refine ⟨[], d :: r, kept ▸ List.dropWhile_suffix _, ?_⟩
      intro t
      have inner : ∀ e ∈ r, (!isBlank e) = true := parts ▸ fun _ => List.mem_takeWhile_imp
      rw [words_of_stripLeft_cons (left t), List.takeWhile_append_of_pos inner,
        List.dropWhile_append_of_pos inner, List.takeWhile_cons_of_pos (p := (!isBlank ·)) solid,
        List.dropWhile_cons_of_pos (p := (!isBlank ·)) solid]
      rfl
    | cons e more =>
      rw [rest] at parts ih
      obtain ⟨ws, w, suffix, words⟩ := ih
      refine ⟨(d :: r.takeWhile (!isBlank ·)) :: ws, w, ?_, ?_⟩
      · have within := suffix.trans (rest ▸ List.dropWhile_suffix (!isBlank ·) (l := r))
        exact (within.trans (List.suffix_cons d r)).trans (kept ▸ List.dropWhile_suffix _)
      · intro t
        have inner : ∀ e ∈ r.takeWhile (!isBlank ·), (!isBlank e) = true := fun _ => List.mem_takeWhile_imp
        have stop := List.head?_dropWhile_not (!isBlank ·) r
        rw [rest] at stop
        have ends : ¬ (!isBlank e) = true := by simpa using stop
        rw [words_of_stripLeft_cons (left t)]
        generalize r.takeWhile (!isBlank ·) = first at parts inner
        rw [← parts, List.append_assoc, List.takeWhile_append_of_pos inner, List.dropWhile_append_of_pos inner,
          List.cons_append, List.takeWhile_cons_of_neg (p := (!isBlank ·)) ends,
          List.dropWhile_cons_of_neg (p := (!isBlank ·)) ends, List.append_nil, ← List.cons_append, words t]
        rfl

/-- The first of several words, the white space behind it, and a text of the other words. -/
theorem exists_first_word {ws : List (List Char)} (h : words s = w :: ws) (more : ws ≠ []) :
    ∃ gap rest, strip s = w ++ gap ++ rest ∧ gap ≠ [] ∧ Blank gap ∧ words rest = ws := by
  cases left : stripLeft s with
  | nil =>
    rw [words_of_stripLeft_nil left] at h
    cases h
  | cons c r =>
    rw [words_of_stripLeft_cons left, List.cons.injEq] at h
    obtain ⟨rfl, rfl⟩ := h
    generalize ends : r.dropWhile (!isBlank ·) = behind at more
    have visible : stripRight (stripLeft behind) ≠ [] := by
      intro none
      apply more
      rw [← words_strip, strip, none, words_nil]
    have parts : stripLeft s = c :: r.takeWhile (!isBlank ·) ++ behind.takeWhile isBlank ++
        stripLeft behind := by
      rw [left, List.append_assoc, stripLeft, List.takeWhile_append_dropWhile, ← ends,
        List.cons_append, List.takeWhile_append_dropWhile]
    refine ⟨behind.takeWhile isBlank, strip behind, ?_, ?_, ?_, words_strip behind⟩
    · rw [strip, parts, stripRight_append visible, strip]
    · cases behind with
      | nil => exact (more words_nil).elim
      | cons d behind =>
        have stop := List.head?_dropWhile_not (!isBlank ·) r
        rw [ends] at stop
        have blank : isBlank d = true := by simpa using stop
        rw [List.takeWhile_cons_of_pos blank]
        exact List.cons_ne_nil _ _
    · exact fun _ => List.mem_takeWhile_imp

theorem words_first {gap rest : List Char} (parts : strip s = w ++ gap ++ rest) (hw : Compact w)
    (hg : Blank gap) (nonempty : gap ≠ []) : words s = w :: words rest := by
  have spaced : ∀ c ∈ (gap ++ rest).head?, isBlank c = true := by
    obtain ⟨d, gap, rfl⟩ := List.exists_cons_of_ne_nil nonempty
    intro c hc
    cases hc
    exact hg d List.mem_cons_self
  rw [← words_strip, parts, List.append_assoc, words_append hw spaced, words_blank_append hg]

theorem joinWith_space_cons (w : List Char) {rest : List (List Char)} (hr : rest ≠ []) :
    joinWith [' '] (w :: rest) = w ++ ' ' :: joinWith [' '] rest := by
  rw [joinWith.eq_3 _ _ _ hr, List.append_assoc, List.singleton_append]

/-- Words with a blank between any two of them are the words of the text they make. -/
theorem words_joinWith {ws : List (List Char)} (h : ∀ w ∈ ws, Compact w) :
    words (joinWith [' '] ws) = ws := by
  induction ws with
  | nil => exact words_nil
  | cons w rest ih =>
    obtain ⟨hw, hrest⟩ := List.forall_mem_cons.1 h
    cases rest with
    | nil => exact words_of_compact hw
    | cons v rest =>
      rw [joinWith_space_cons w (by simp), words_append_space hw, ih hrest]

theorem Compact.unbroken (h : Compact w) : Unbroken w := by
  intro c hc
  rw [Bool.eq_false_iff]
  intro boundary
  exact Bool.eq_false_iff.1 (h.solid c hc) (isBlank_of_isLineBoundary boundary)

/-- Words one blank apart make a single line that has a character which is not blank at both ends. -/
theorem joinWith_solid {ws : List (List Char)} (h : ∀ w ∈ ws, Compact w) (nonempty : ws ≠ []) :
    joinWith [' '] ws ≠ [] ∧ strip (joinWith [' '] ws) = joinWith [' '] ws ∧
      Unbroken (joinWith [' '] ws) := by
  induction ws with
  | nil => exact (nonempty rfl).elim
  | cons w rest ih =>
    obtain ⟨hw, hrest⟩ := List.forall_mem_cons.1 h
    by_cases hr : rest = []
    · subst hr
      exact ⟨hw.nonempty, strip_of_compact hw, hw.unbroken⟩
    · obtain ⟨more, stripped, unbroken⟩ := ih hrest hr
      rw [joinWith_space_cons w hr]
      obtain ⟨c, w', rfl⟩ := List.exists_cons_of_ne_nil hw.nonempty
      refine ⟨by simp, ?_, ?_⟩
      · have cut := strip_cons_append (hw.solid c List.mem_cons_self) (w' ++ [' '])
          (stripRight_of_strip stripped) more
        simpa using cut
      · exact hw.unbroken.append (unbroken.cons rfl)

end DotHttp.Text
