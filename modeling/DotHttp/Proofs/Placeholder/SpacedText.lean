import DotHttp.Proofs.Placeholder.Spacing

/-!
What is cut from a text with blanks in its placeholders. Whatever looks at characters that no placeholder has
finds them at the same places, so it cuts both texts alike.
-/

namespace DotHttp.Placeholder

open DotHttp.Text

variable {name s t x y w : List Char} {p : Char → Bool}

theorem rel_map {α β γ δ : Type} {R : α → β → Prop} {S : γ → δ → Prop} {f : α → γ} {g : β → δ}
    (hS : ∀ {i j}, R i j → S (f i) (g j)) {o : Option α} {o' : Option β} (h : Option.Rel R o o') :
    Option.Rel S (o.map f) (o'.map g) := by
  cases h with
  | none => exact .none
  | some both => exact .some (hS both)

namespace Spaced

theorem nil_iff (h : Spaced name s t) : s = [] ↔ t = [] := by
  cases h <;> simp [written]

theorem head?_eq (h : Spaced name s t) : t.head? = s.head? := by
  cases h <;> rfl

theorem of_cons {c : Char} (h : Spaced name (c :: s) t) (hc : c ≠ '{') :
    ∃ t', t = c :: t' ∧ Spaced name s t' := by
  generalize text : c :: s = whole at h
  cases h with
  | nil => cases text
  | char d rest =>
    cases text
    exact ⟨_, rfl, rest⟩
  | placeholder left right rest =>
    cases text
    exact (hc rfl).elim

theorem isPrefixOf_eq (h : Spaced name s t) {start : List Char} (plain : '{' ∉ start) :
    start.isPrefixOf t = start.isPrefixOf s := by
  induction start generalizing s t with
  | nil => rfl
  | cons d start ih =>
    obtain ⟨hd, plain⟩ := List.ne_and_not_mem_of_not_mem_cons plain
    cases h with
    | nil => rfl
    | char c rest => rw [List.isPrefixOf_cons_cons, List.isPrefixOf_cons_cons, ih rest plain]
    | placeholder =>
      rw [written_append, written_append, List.isPrefixOf_cons_cons, List.isPrefixOf_cons_cons,
        beq_false_of_ne (Ne.symm hd), Bool.false_and, Bool.false_and]

theorem dropStart? (h : Spaced name s t) {start : List Char} (plain : '{' ∉ start) :
    Option.Rel (Spaced name) (Text.dropStart? start s) (Text.dropStart? start t) := by
  induction start generalizing s t with
  | nil => exact .some h
  | cons d start ih =>
    obtain ⟨hd, plain⟩ := List.ne_and_not_mem_of_not_mem_cons plain
    cases h with
    | nil => exact .none
    | char c rest =>
      rw [Text.dropStart?, Text.dropStart?]
      split
      · exact ih rest plain
      · exact .none
    | placeholder =>
      rw [written_append, written_append, Text.dropStart?, Text.dropStart?, if_neg (Ne.symm hd),
        if_neg (Ne.symm hd)]
      exact .none

theorem takeWhile_eq (h : Spaced name s t) (stop : p '{' = false) : t.takeWhile p = s.takeWhile p := by
  induction h with
  | nil => rfl
  | char c rest ih => rw [List.takeWhile_cons, List.takeWhile_cons, ih]
  | placeholder =>
    rw [written_append, written_append, List.takeWhile_cons_of_neg (by simp [stop]),
      List.takeWhile_cons_of_neg (by simp [stop])]

theorem dropWhile (h : Spaced name s t) (stop : p '{' = false) :
    Spaced name (s.dropWhile p) (t.dropWhile p) := by
  induction h with
  | nil => exact .nil
  | char c rest ih =>
    rw [List.dropWhile_cons, List.dropWhile_cons]
    split
    · exact ih
    · exact .char c rest
  | placeholder left right rest =>
    have whole : Spaced name _ _ := .placeholder left right rest
    rwa [written_append, written_append, List.dropWhile_cons_of_neg (by simp [stop]),
      List.dropWhile_cons_of_neg (by simp [stop]), ← written_append, ← written_append]

theorem stripLeft (h : Spaced name s t) : Spaced name (Text.stripLeft s) (Text.stripLeft t) :=
  h.dropWhile (by decide)

theorem stripRight (h : Spaced name s t) : Spaced name (Text.stripRight s) (Text.stripRight t) := by
  induction h with
  | nil => exact .nil
  | char c rest ih =>
    simp only [stripRight_cons, ih.nil_iff]
    split
    · exact .nil
    · exact .char c ih
  | @placeholder s t x y left right rest ih =>
    have cut (inner u : List Char) :
        Text.stripRight (written inner ++ u) = written inner ++ Text.stripRight u := by
      have braces := stripRight_append_cons (c := '}') (by decide) ('{' :: '{' :: inner ++ ['}']) u
      simpa [written] using braces
    rw [cut, cut]
    exact .placeholder left right ih

theorem strip (h : Spaced name s t) : Spaced name (Text.strip s) (Text.strip t) :=
  h.stripLeft.stripRight

/-- The last characters are the same, and one that is no brace can be cut from both texts. -/
theorem last (h : Spaced name s t) :
    t.getLast? = s.getLast? ∧ (s.getLast? ≠ some '}' → Spaced name s.dropLast t.dropLast) := by
  have ends (inner : List Char) : (written inner).getLast? = some '}' := by
    rw [written, List.getLast?_append]
    rfl
  induction h with
  | nil => exact ⟨rfl, fun _ => .nil⟩
  | @char s t c rest ih =>
    cases rest with
    | nil => exact ⟨rfl, fun _ => .nil⟩
    | char d rest =>
      refine ⟨ih.1, ?_⟩
      intro other
      exact .char c (ih.2 other)
    | placeholder =>
      rw [written_append, written_append] at ih ⊢
      refine ⟨ih.1, ?_⟩
      intro other
      exact .char c (ih.2 other)
  | @placeholder s t x y left right rest ih =>
    rw [List.getLast?_append, List.getLast?_append, ends, ends, ih.1]
    refine ⟨rfl, ?_⟩
    intro other
    cases hs : s with
    | nil =>
      rw [hs] at other
      exact (other rfl).elim
    | cons c s' =>
      have nonempty : s ≠ [] := by simp [hs]
      have nonempty' : t ≠ [] := fun none => nonempty (rest.nil_iff.2 none)
      rw [← hs, List.dropLast_append_of_ne_nil nonempty, List.dropLast_append_of_ne_nil nonempty']
      refine .placeholder left right (ih.2 ?_)
      intro brace
      rw [brace] at other
      exact other rfl

theorem eq_brace_iff (h : Spaced name s t) : ['}'] = t ↔ ['}'] = s := by
  constructor
  · rintro rfl
    cases h with
    | char c rest => rw [rest.nil_iff.2 rfl]
  · rintro rfl
    cases h with
    | char c rest => rw [rest.nil_iff.1 rfl]

/-- A character that is in neither a name nor a gap is in no placeholder, unless it is a brace. -/
theorem not_mem_written (named : Named name) (left : Gap x) (right : Gap y) {c : Char}
    (other : isWord c = false ∧ c ≠ '.' ∧ c ≠ '-') (solid : c ≠ ' ' ∧ c ≠ '\t') (brace : c ≠ '{' ∧ c ≠ '}') :
    c ∉ written name ∧ c ∉ written (x ++ name ++ y) := by
  have own := named.not_mem other
  have spaced := not_mem_spaced named left right other solid
  constructor
  · simpa [written, brace] using own
  · simpa [written, brace] using spaced

theorem suffix_iff (h : Spaced name s t) (named : Named name) :
    ['%', '}'] <:+ t ↔ ['%', '}'] <:+ s := by
  have past (w : List Char) (none : '%' ∉ w) (u : List Char) : ['%', '}'] <:+ w ++ u ↔ ['%', '}'] <:+ u := by
    induction w with
    | nil => rfl
    | cons d w ih =>
      obtain ⟨hd, none⟩ := List.ne_and_not_mem_of_not_mem_cons none
      rw [List.cons_append, List.suffix_cons_iff, ih none]
      exact or_iff_right fun same => hd (List.cons.inj same).1
  induction h with
  | nil => rfl
  | char c rest ih =>
    rw [List.suffix_cons_iff, List.suffix_cons_iff]
    refine or_congr ?_ ih
    rw [List.cons_eq_cons, List.cons_eq_cons, rest.eq_brace_iff]
  | placeholder left right rest ih =>
    obtain ⟨own, spaced⟩ := not_mem_written named left right (c := '%') (by decide) (by decide) (by decide)
    rw [past _ spaced, past _ own]
    exact ih

theorem occursIn_eq (h : Spaced name s t) (named : Named name) {needle : List Char} (slash : '/' ∈ needle)
    (plain : '{' ∉ needle ∧ '}' ∉ needle) : occursIn needle t = occursIn needle s := by
  -- What is looked for would have to go on past the braces at the end.
  have apart (w u : List Char) (none : '/' ∉ w) {n : List Char} (slash : '/' ∈ n) (unclosed : '}' ∉ n) :
      n.isPrefixOf (w ++ '}' :: u) = false := by
    induction w generalizing n with
    | nil =>
      obtain ⟨c, n, rfl⟩ := List.exists_cons_of_ne_nil (List.ne_nil_of_mem slash)
      obtain ⟨hc, -⟩ := List.ne_and_not_mem_of_not_mem_cons unclosed
      rw [List.nil_append, List.isPrefixOf_cons_cons, beq_false_of_ne (Ne.symm hc), Bool.false_and]
    | cons d w ih =>
      obtain ⟨hd, none⟩ := List.ne_and_not_mem_of_not_mem_cons none
      obtain ⟨c, n, rfl⟩ := List.exists_cons_of_ne_nil (List.ne_nil_of_mem slash)
      obtain ⟨-, unclosed⟩ := List.ne_and_not_mem_of_not_mem_cons unclosed
      rw [List.cons_append, List.isPrefixOf_cons_cons]
      by_cases same : c = d
      · rw [ih none ((List.mem_cons.1 slash).resolve_left (same ▸ hd)) unclosed, Bool.and_false]
      · rw [beq_false_of_ne same, Bool.false_and]
  have past (w u : List Char) (none : '/' ∉ w) : occursIn needle (w ++ '}' :: u) = occursIn needle u := by
    induction w with
    | nil =>
      rw [List.nil_append, occursIn, ← List.nil_append ('}' :: u), apart [] u none slash plain.2,
        Bool.false_or]
    | cons d w ih =>
      rw [List.cons_append, occursIn, ← List.cons_append, apart _ u none slash plain.2, Bool.false_or,
        ih (List.ne_and_not_mem_of_not_mem_cons none).2]
  have braces (inner u : List Char) (none : '/' ∉ written inner) :
      occursIn needle (written inner ++ u) = occursIn needle u := by
    have text : written inner ++ u = ('{' :: '{' :: inner ++ ['}']) ++ '}' :: u := by simp [written]
    rw [text]
    refine past _ u fun inside => none ?_
    simpa [written] using inside
  induction h with
  | nil => rfl
  | char c rest ih =>
    rw [occursIn, occursIn, ih, (Spaced.char c rest).isPrefixOf_eq plain.1]
  | placeholder left right rest ih =>
    obtain ⟨own, spaced⟩ := not_mem_written named left right (c := '/') (by decide) (by decide) (by decide)
    rw [braces _ _ own, braces _ _ spaced, ih]

theorem splitFirst_rel (h : Spaced name s t) (named : Named name) :
    Option.Rel (fun p q => Spaced name p.1 q.1 ∧ Spaced name p.2 q.2)
      (splitFirst ':' s) (splitFirst ':' t) := by
  have past (w u : List Char) (none : ':' ∉ w) :
      splitFirst ':' (w ++ u) = (splitFirst ':' u).map fun p => (w ++ p.1, p.2) := by
    induction w with
    | nil => simp
    | cons d w ih =>
      obtain ⟨hd, none⟩ := List.ne_and_not_mem_of_not_mem_cons none
      rw [List.cons_append, splitFirst, if_neg (Ne.symm hd), ih none, Option.map_map]
      rfl
  induction h with
  | nil => exact .none
  | char c rest ih =>
    rw [splitFirst, splitFirst]
    split
    · exact .some ⟨.nil, rest⟩
    · exact rel_map (fun both => ⟨.char c both.1, both.2⟩) ih
  | placeholder left right rest ih =>
    obtain ⟨own, spaced⟩ := not_mem_written named left right (c := ':') (by decide) (by decide) (by decide)
    rw [past _ _ own, past _ _ spaced]
    exact rel_map (fun both => ⟨.placeholder left right both.1, both.2⟩) ih

theorem unbroken_written (named : Named name) (left : Gap x) (right : Gap y) :
    Unbroken (written name) ∧ Unbroken (written (x ++ name ++ y)) := by
  have gap {z : List Char} (h : Gap z) : Unbroken z := by
    intro c hc
    rcases h c hc with rfl | rfl <;> rfl
  have braces {z : List Char} (h : Unbroken z) : Unbroken (written z) :=
    ((h.append (t := ['}', '}']) (by decide)).cons rfl).cons rfl
  exact ⟨braces named.compact.unbroken,
    braces (((gap left).append named.compact.unbroken).append (gap right))⟩

theorem lines_rel (h : Spaced name s t) (named : Named name) :
    List.Forall₂ (Spaced name) (lines s) (lines t) := by
  have first {ls ls' : List (List Char)} (h : List.Forall₂ (Spaced name) ls ls') :
      Spaced name (ls.headD []) (ls'.headD []) ∧ List.Forall₂ (Spaced name) ls.tail ls'.tail := by
    cases h with
    | nil => exact ⟨.nil, .nil⟩
    | cons first rest => exact ⟨first, rest⟩
  induction h with
  | nil =>
    rw [lines_nil]
    exact .nil
  | @char s t c rest ih =>
    by_cases boundary : isLineBoundary c = true
    · by_cases crlf : c = '\r' ∧ s.head? = some '\n'
      · obtain ⟨rfl, feed⟩ := crlf
        rw [lines_cons_return feed, lines_cons_return (rest.head?_eq.trans feed)]
        exact ih
      · have apart : c = '\r' → s.head? ≠ some '\n' := fun hc hs => crlf ⟨hc, hs⟩
        rw [lines_cons_of_boundary boundary apart, lines_cons_of_boundary boundary (rest.head?_eq ▸ apart)]
        exact .cons .nil ih
    · rw [Bool.not_eq_true] at boundary
      rw [lines_cons_of_plain boundary, lines_cons_of_plain boundary]
      exact .cons (.char c (first ih).1) (first ih).2
  | placeholder left right rest ih =>
    obtain ⟨own, spaced⟩ := unbroken_written named left right
    rw [lines_append_of_unbroken own (List.cons_ne_nil _ _),
      lines_append_of_unbroken spaced (List.cons_ne_nil _ _)]
    exact .cons (.placeholder left right (first ih).1) (first ih).2

end Spaced

/-- A text and one with more blanks in it, in which placeholders are not swallowed. -/
structure Respaced (name s t : List Char) : Prop where
  spaced : Spaced name s t
  clear : Clear name s

namespace Respaced

variable {u v : List Char}

/-- What is cut from the two texts at the same places. -/
theorem cut (h : Respaced name s t) (spaced : Spaced name u v) (within : u <:+: s) : Respaced name u v :=
  ⟨spaced, h.clear.inside within⟩

theorem of_cons {c : Char} (h : Respaced name (c :: s) t) (hc : c ≠ '{') :
    ∃ t', t = c :: t' ∧ Respaced name s t' := by
  obtain ⟨t', rfl, rest⟩ := h.spaced.of_cons hc
  exact ⟨t', rfl, h.cut rest (List.suffix_cons c s).isInfix⟩

theorem dropWhile (h : Respaced name s t) (stop : p '{' = false) :
    Respaced name (s.dropWhile p) (t.dropWhile p) :=
  h.cut (h.spaced.dropWhile stop) (List.dropWhile_suffix p).isInfix

theorem stripLeft (h : Respaced name s t) : Respaced name (Text.stripLeft s) (Text.stripLeft t) :=
  h.dropWhile (by decide)

theorem stripRight (h : Respaced name s t) : Respaced name (Text.stripRight s) (Text.stripRight t) :=
  h.cut h.spaced.stripRight (List.rdropWhile_prefix isBlank s).isInfix

theorem strip (h : Respaced name s t) : Respaced name (Text.strip s) (Text.strip t) :=
  h.cut h.spaced.strip (strip_inside s)

theorem dropStart? (h : Respaced name s t) {start : List Char} (plain : '{' ∉ start) :
    Option.Rel (Respaced name) (Text.dropStart? start s) (Text.dropStart? start t) := by
  have spaced := h.spaced.dropStart? plain
  generalize Text.dropStart? start t = o at spaced ⊢
  cases hs : Text.dropStart? start s with rw [hs] at spaced
  | none =>
    cases spaced
    exact .none
  | some rest =>
    cases spaced with
    | some spaced =>
      rw [dropStart?_eq_some_iff] at hs
      exact .some (h.cut spaced (hs ▸ List.suffix_append start rest).isInfix)

theorem splitFirst_rel (h : Respaced name s t) (named : Named name) :
    Option.Rel (fun p q => Respaced name p.1 q.1 ∧ Respaced name p.2 q.2)
      (splitFirst ':' s) (splitFirst ':' t) := by
  have spaced := h.spaced.splitFirst_rel named
  generalize splitFirst ':' t = o at spaced ⊢
  cases hs : splitFirst ':' s with rw [hs] at spaced
  | none =>
    cases spaced
    exact .none
  | some both =>
    obtain ⟨before, after⟩ := both
    cases spaced with
    | some spaced =>
      obtain ⟨parts, -⟩ := splitFirst_eq_some_iff.1 hs
      refine .some ⟨h.cut spaced.1 ?_, h.cut spaced.2 ?_⟩
      · exact parts ▸ (List.prefix_append _ _).isInfix
      · exact parts ▸ ((List.suffix_cons _ _).trans (List.suffix_append _ _)).isInfix

end Respaced

end DotHttp.Placeholder
