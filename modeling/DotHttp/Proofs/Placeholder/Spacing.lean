import DotHttp.Proofs.Placeholder.Rescan
import Mathlib.Data.List.Infix

/-!
White space within the braces of a placeholder. It is cut from the name, so a text in which the placeholders of
a known name are spaced is expanded to the same text, as long as no braces before them have swallowed them.
-/

namespace DotHttp.Placeholder

open Variable (expandChars lookup)

/-- The characters that the name of a definition is made of. -/
@[mk_iff] structure Named (name : List Char) : Prop where
  nonempty : name ≠ []
  inside : ∀ c ∈ name, Text.isWord c = true ∨ c = '.' ∨ c = '-'

instance (name : List Char) : Decidable (Named name) :=
  have : Decidable (∀ c ∈ name, Text.isWord c = true ∨ c = '.' ∨ c = '-') := List.decidableBAll _ name
  decidable_of_iff _ (named_iff name).symm

/-- Blanks on a line. -/
def Gap (s : List Char) : Prop := ∀ c ∈ s, c = ' ' ∨ c = '\t'

instance (s : List Char) : Decidable (Gap s) :=
  List.decidableBAll (fun c => c = ' ' ∨ c = '\t') s

/-- A text, and one with blanks put within the braces of some placeholders of a name. -/
inductive Spaced (name : List Char) : List Char → List Char → Prop
  | nil : Spaced name [] []
  | char {s t : List Char} (c : Char) (rest : Spaced name s t) : Spaced name (c :: s) (c :: t)
  | placeholder {s t x y : List Char} (left : Gap x) (right : Gap y) (rest : Spaced name s t) :
      Spaced name (written name ++ s) (written (x ++ name ++ y) ++ t)

/-- Somewhere in a text two braces open that no placeholder starts with. -/
def Unclosed (s : List Char) : Prop :=
  ∃ t ∈ s.tails, ['{', '{'] <+: t ∧ opening? t = none

/-- No braces that are open before a placeholder of a name swallow it. -/
def Clear (name s : List Char) : Prop :=
  ∀ before ∈ s.inits, before ++ written name <+: s → ¬ Unclosed (before ++ ['{'])

instance (s : List Char) : Decidable (Unclosed s) :=
  inferInstanceAs (Decidable (∃ t ∈ s.tails, _))

instance (name s : List Char) : Decidable (Clear name s) :=
  inferInstanceAs (Decidable (∀ before ∈ s.inits, _))

variable {vars : List Variable} {name s t a b x y inner : List Char} {value : String}

theorem Named.not_mem (h : Named name) {c : Char} (other : Text.isWord c = false ∧ c ≠ '.' ∧ c ≠ '-') :
    c ∉ name := by
  intro inside
  rcases h.inside c inside with word | rfl | rfl
  · rw [other.1] at word
    cases word
  · exact other.2.1 rfl
  · exact other.2.2 rfl

theorem Named.compact (h : Named name) : Text.Compact name := by
  refine ⟨h.nonempty, ?_⟩
  intro c hc
  rcases h.inside c hc with word | rfl | rfl
  · exact Text.isBlank_of_isWord word
  · rfl
  · rfl

theorem Gap.not_mem (h : Gap x) {c : Char} (other : c ≠ ' ' ∧ c ≠ '\t') : c ∉ x := by
  intro inside
  exact (h c inside).elim other.1 other.2

theorem Gap.blank (h : Gap x) : Text.Blank x := by
  intro c hc
  rcases h c hc with rfl | rfl <;> rfl

theorem not_mem_spaced (named : Named name) (left : Gap x) (right : Gap y) {c : Char}
    (other : Text.isWord c = false ∧ c ≠ '.' ∧ c ≠ '-') (solid : c ≠ ' ' ∧ c ≠ '\t') :
    c ∉ x ++ name ++ y := by
  rw [List.mem_append, List.mem_append]
  rintro ((inside | inside) | inside)
  · exact left.not_mem solid inside
  · exact named.not_mem other inside
  · exact right.not_mem solid inside

theorem Named.plain (named : Named name) (left : Gap x) (right : Gap y) : Plain (x ++ name ++ y) := by
  refine ⟨by simp [named.nonempty], ?_⟩
  intro c hc
  refine ⟨?_, ?_, ?_⟩
  · rintro rfl
    exact not_mem_spaced named left right (by decide) (by decide) hc
  · rintro rfl
    exact not_mem_spaced named left right (by decide) (by decide) hc
  · rintro rfl
    exact not_mem_spaced named left right (by decide) (by decide) hc

theorem Named.plain_self (named : Named name) : Plain name := by
  have whole := named.plain (x := []) (y := []) (List.forall_mem_nil _) (List.forall_mem_nil _)
  rwa [List.nil_append, List.append_nil] at whole

theorem Named.strip (named : Named name) (left : Gap x) (right : Gap y) :
    Text.strip (x ++ name ++ y) = name := by
  rw [Text.strip_around left.blank right.blank, Text.strip_of_compact named.compact]

theorem Spaced.refl (name s : List Char) : Spaced name s s := by
  induction s with
  | nil => exact .nil
  | cons c s ih => exact .char c ih

theorem Spaced.append (h : Spaced name s t) (w : List Char) : Spaced name (w ++ s) (w ++ t) := by
  induction w with
  | nil => exact h
  | cons c w ih => exact .char c ih

/-- Blanks put into one placeholder. -/
theorem spaced_single (left : Gap x) (right : Gap y) (hs : s = a ++ (written name ++ b))
    (ht : t = a ++ (written (x ++ name ++ y) ++ b)) : Spaced name s t := by
  subst hs ht
  exact (Spaced.placeholder left right (.refl name b)).append a

theorem Unclosed.of_suffix (h : Unclosed t) (suffix : t <:+ s) : Unclosed s := by
  obtain ⟨u, tail, opens, none⟩ := h
  exact ⟨u, (List.mem_tails _ _).2 (((List.mem_tails _ _).1 tail).trans suffix), opens, none⟩

theorem clear_iff : Clear name s ↔
    ∀ before after, s = before ++ (written name ++ after) → ¬ Unclosed (before ++ ['{']) := by
  constructor
  · rintro clear before after rfl
    refine clear before ((List.mem_inits _ _).2 (List.prefix_append _ _)) ?_
    rw [← List.append_assoc]
    exact List.prefix_append _ _
  · rintro clear before - ⟨after, rfl⟩
    exact clear before after (List.append_assoc _ _ _)

theorem Clear.inside (h : Clear name s) (within : t <:+: s) : Clear name t := by
  rw [clear_iff] at h ⊢
  obtain ⟨lead, trail, rfl⟩ := within
  rintro before after rfl unclosed
  refine h (lead ++ before) (after ++ trail) (by simp) (unclosed.of_suffix ?_)
  rw [List.append_assoc]
  exact List.suffix_append _ _

/-- A placeholder that is found before a brace ends before it. -/
theorem opening?_of_append_brace (h : opening? (s ++ ['{']) ≠ none) :
    ∃ inner rest, opening? s = some (inner, rest) := by
  obtain ⟨⟨inner, rest⟩, found⟩ := Option.ne_none_iff_exists'.1 h
  have text := written_of_opening? found
  rcases List.eq_nil_or_concat rest with rfl | ⟨rest, last, rfl⟩
  · rw [List.append_nil, written, show ['}', '}'] = ['}'] ++ ['}'] from rfl, ← List.append_assoc] at text
    obtain ⟨-, last⟩ := List.append_inj' text rfl
    cases last
  · rw [List.concat_eq_append, ← List.append_assoc] at text
    obtain ⟨rfl, -⟩ := List.append_inj' text rfl
    exact ⟨inner, rest, opening?_append found rest⟩

/-- Where all braces are closed, what follows is scanned as if it stood alone. -/
theorem segments_append_of_closed (closed : ¬ Unclosed (a ++ ['{'])) (t : List Char) :
    segments (a ++ '{' :: '{' :: t) = segments a ++ segments ('{' :: '{' :: t) := by
  fun_induction segments a with
  | case1 => rfl
  | case2 c r inner rest found ih =>
    have text := written_of_opening? found
    rw [← text, List.append_assoc, segments_of_opening (opening?_append found _), ih, List.cons_append]
    intro unclosed
    apply closed
    apply unclosed.of_suffix
    rw [← text, List.append_assoc]
    exact List.suffix_append _ _
  | case3 c r none ih =>
    have later : ¬ Unclosed (r ++ ['{']) := fun unclosed => closed (unclosed.of_suffix (List.suffix_cons _ _))
    have unopened : opening? (c :: (r ++ '{' :: '{' :: t)) = Option.none := by
      by_cases brace : c = '{' ∧ (r ++ ['{']).head? = some '{'
      · -- Two braces open here, so a placeholder starts with them after all.
        obtain ⟨rfl, head⟩ := brace
        obtain ⟨tail, parts⟩ := List.head?_eq_some_iff.1 head
        have starts : opening? ('{' :: r ++ ['{']) ≠ Option.none := by
          intro missing
          refine closed ⟨_, (List.mem_tails _ _).2 (List.suffix_refl _), ?_, missing⟩
          rw [List.cons_append, parts]
          exact List.prefix_append ['{', '{'] tail
        obtain ⟨inner, rest, found⟩ := opening?_of_append_brace starts
        rw [none] at found
        cases found
      · rw [Option.eq_none_iff_forall_ne_some]
        rintro ⟨inner, rest⟩ found
        obtain ⟨d, inner', s', text, -⟩ := opening?_eq_some_iff.1 found
        apply brace
        cases r with
        | nil => exact ⟨(List.cons.inj text).1, rfl⟩
        | cons e r =>
          simp only [List.cons_append, List.cons.injEq] at text
          exact ⟨text.1, by simp [text.2.1]⟩
    rw [List.cons_append, segments_of_no_opening unopened, ih later, List.cons_append]

theorem expandChars_append_of_closed (closed : ¬ Unclosed (a ++ ['{'])) (t : List Char) :
    expandChars vars (a ++ '{' :: '{' :: t) = expandChars vars a ++ expandChars vars ('{' :: '{' :: t) := by
  rw [expandChars, segments_append_of_closed closed, List.flatMap_append]
  rfl

/-- A placeholder that is not swallowed gives the value of its name. -/
theorem expandChars_around (closed : ¬ Unclosed (a ++ ['{'])) (plain : Plain inner)
    (known : lookup vars (String.ofList (Text.strip inner)) = some value) (b : List Char) :
    expandChars vars (a ++ (written inner ++ b)) =
      expandChars vars a ++ (value.toList ++ expandChars vars b) := by
  have fills : Variable.fill vars (.placeholder inner) = value.toList := by rw [Variable.fill, known]
  rw [written_append, expandChars_append_of_closed closed, ← written_append,
    expandChars_of_opening (plain.opening? b), fills]

/-- Blanks within the braces of placeholders that are not swallowed make no difference. -/
theorem Spaced.expandChars (h : Spaced name s t) (named : Named name)
    (known : lookup vars (String.ofList name) = some value) (clear : Clear name s) :
    expandChars vars t = expandChars vars s := by
  -- The characters that were passed are kept, as they tell whether braces are open.
  have along : ∀ a, Clear name (a ++ s) →
      Variable.expandChars vars (a ++ t) = Variable.expandChars vars (a ++ s) := by
    clear clear
    induction h with
    | nil =>
      intro a clear
      rfl
    | @char s t c rest ih =>
      intro a clear
      have moved := ih (a ++ [c])
      rw [List.append_assoc, List.append_assoc] at moved
      exact moved clear
    | @placeholder s t x y left right rest ih =>
      intro a clear
      have closed := clear_iff.1 clear a s rfl
      have own : Text.strip name = name := Text.strip_of_compact named.compact
      have spaced : Text.strip (x ++ name ++ y) = name := named.strip left right
      have later : Clear name s := clear.inside (List.append_assoc a _ s ▸ List.suffix_append _ s).isInfix
      have behind : Variable.expandChars vars t = Variable.expandChars vars s := ih [] later
      rw [expandChars_around closed (named.plain left right) (by rwa [spaced]),
        expandChars_around closed named.plain_self (by rwa [own]), behind]
  exact along [] clear

/-- Texts that differ do so first at a placeholder that blanks are put into. -/
theorem Spaced.exists_first (h : Spaced name s t) (differ : s ≠ t) :
    ∃ a x y b b', s = a ++ (written name ++ b) ∧ t = a ++ (written (x ++ name ++ y) ++ b') ∧
      Gap x ∧ Gap y ∧ (x ≠ [] ∨ y ≠ []) := by
  induction h with
  | nil => exact (differ rfl).elim
  | char c rest ih =>
    obtain ⟨a, x, y, b, b', rfl, rfl, more⟩ := ih fun same => differ (same ▸ rfl)
    exact ⟨c :: a, x, y, b, b', rfl, rfl, more⟩
  | @placeholder s t x y left right rest ih =>
    by_cases none : x = [] ∧ y = []
    · obtain ⟨rfl, rfl⟩ := none
      rw [List.nil_append, List.append_nil] at differ ⊢
      obtain ⟨a, x, y, b, b', rfl, rfl, more⟩ := ih fun same => differ (same ▸ rfl)
      exact ⟨written name ++ a, x, y, b, b', (List.append_assoc ..).symm, (List.append_assoc ..).symm, more⟩
    · exact ⟨[], x, y, s, t, rfl, rfl, left, right, Decidable.not_and_iff_not_or_not.1 none⟩

/-- Braces that are not closed stay at the place of a value. -/
theorem expandChars_open (closed : ¬ Unclosed (a ++ ['{'])) (none : '}' ∉ b) :
    ∃ r, expandChars vars (a ++ '{' :: '{' :: b) = expandChars vars a ++ '{' :: r := by
  have unopened : opening? ('{' :: '{' :: b) = Option.none := by
    rw [Option.eq_none_iff_forall_ne_some]
    rintro ⟨inner, rest⟩ found
    have text := written_of_opening? found
    rw [written_append, List.cons.injEq, List.cons.injEq] at text
    apply none
    rw [← text.2.2]
    simp
  refine ⟨expandChars vars ('{' :: b), ?_⟩
  rw [expandChars_append_of_closed closed, expandChars_of_no_opening unopened]

end DotHttp.Placeholder
