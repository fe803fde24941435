import DotHttp.Proofs.Placeholder.Scan
import DotHttp.Proofs.Resolution.Texts
import Mathlib.Data.List.Forall2

/-!
Templates: texts that are known as literals with placeholders between them. A scan finds just these
placeholders, so filling a template in keeps its literals and gives each placeholder what stands for it,
whatever braces that has itself.
-/

namespace DotHttp

namespace Placeholder

variable {s t : List Char}

/-- A literal is passed as it is, when it has no two opening braces and leaves none open before what
follows it. -/
theorem segments_literal (unopened : ¬ ['{', '{'] <:+: s) (apart : s.getLast? = some '{' → t = []) :
    segments (s ++ t) = s.map .char ++ segments t := by
  induction s with
  | nil => rfl
  | cons c s ih =>
    have none : opening? (c :: (s ++ t)) = none := by
      rw [Option.eq_none_iff_forall_ne_some]
      rintro ⟨inner, rest⟩ found
      obtain ⟨d, inner', r, text, -⟩ := opening?_eq_some_iff.1 found
      cases s with
      | nil =>
        cases text
        cases apart rfl
      | cons d' s =>
        rw [List.cons_append, List.cons.injEq, List.cons.injEq] at text
        obtain ⟨rfl, rfl, -⟩ := text
        exact unopened (List.prefix_append _ s).isInfix
    have later : ¬ ['{', '{'] <:+: s := fun h => unopened (List.infix_cons h)
    rw [List.cons_append, segments_of_no_opening none, ih later]
    · rfl
    · intro last
      apply apart
      cases s with
      | nil => cases last
      | cons d s => rw [List.getLast?_cons_cons, last]

end Placeholder

/-- A literal with the placeholder that follows it. -/
structure Template.Part where
  literal : List Char
  inner : List Char
  unopened : ¬ ['{', '{'] <:+: literal
  apart : literal.getLast? ≠ some '{'
  plain : Placeholder.Plain inner

/-- A text that ends in a literal, with placeholders between this and other literals. -/
structure Template where
  parts : List Template.Part
  ending : List Char
  unopened : ¬ ['{', '{'] <:+: ending

namespace Template

open DotHttp.Placeholder

/-- The text with a value in place of each placeholder. -/
def filled (t : Template) (values : List (List Char)) : List Char :=
  (List.zipWith (fun (part : Part) value => part.literal ++ value) t.parts values).flatten ++ t.ending

def text (t : Template) : List Char :=
  t.filled (t.parts.map fun part => written part.inner)

/-- A scan of a template finds its placeholders and nothing else. -/
theorem segments_text (t : Template) :
    segments t.text =
      (t.parts.flatMap fun part => part.literal.map .char ++ [.placeholder part.inner]) ++
        t.ending.map .char := by
  obtain ⟨parts, ending, unopened⟩ := t
  induction parts with
  | nil =>
    have whole := segments_literal (t := []) unopened fun _ => rfl
    rw [List.append_nil, segments, List.append_nil] at whole
    exact whole
  | cons part parts ih =>
    have first : text ⟨part :: parts, ending, unopened⟩ =
        part.literal ++ (written part.inner ++ text ⟨parts, ending, unopened⟩) := by
      simp [text, filled]
    rw [first, segments_literal part.unopened fun last => (part.apart last).elim,
      segments_of_opening (part.plain.opening? _), ih]
    simp

end Template

/-- What stands for a placeholder: the value of the last variable with its name, or the placeholder
itself when there is none. -/
inductive Variable.Stands (vars : List Variable) (inner : List Char) : List Char → Prop
  | value {before after : List Variable} {v : Variable} (among : vars = before ++ v :: after)
      (named : v.name = String.ofList (Text.strip inner))
      (last : ∀ w ∈ after, w.name ≠ String.ofList (Text.strip inner)) : Stands vars inner v.value.toList
  | itself (unknown : ∀ v ∈ vars, v.name ≠ String.ofList (Text.strip inner)) :
      Stands vars inner (Placeholder.written inner)

/-- What stands for a placeholder: the value of the reference that it reads as, or the placeholder itself
when it reads as none. -/
inductive Reference.Stands (store : Store) (inner : List Char) : List Char → Prop
  | value {ref : Reference} {value : String} (reads : parse? (String.ofList inner) = some ref)
      (known : ref.value? store = some value) : Stands store inner value.toList
  | itself (other : parse? (String.ofList inner) = none) :
      Stands store inner (Placeholder.written inner)

/-- A placeholder that reads as a reference without a value. -/
def Reference.Missing (store : Store) (inner : List Char) : Prop :=
  ∃ ref, parse? (String.ofList inner) = some ref ∧ ref.value? store = none

namespace Variable

theorem stands_fill (vars : List Variable) (inner : List Char) :
    Stands vars inner (fill vars (.placeholder inner)) := by
  cases known : lookup vars (String.ofList (Text.strip inner)) with
  | none =>
    simp only [fill, known]
    exact .itself (lookup_eq_none_iff.1 known)
  | some value =>
    obtain ⟨before, v, after, among, named, last, rfl⟩ := lookup_eq_some_iff.1 known
    simp only [fill, known]
    exact .value among named last

end Variable

namespace Template

open DotHttp.Placeholder

variable (t : Template)

theorem expandChars_text (vars : List Variable) :
    Variable.expandChars vars t.text =
      t.filled (t.parts.map fun part => Variable.fill vars (.placeholder part.inner)) := by
  have literal (s : List Char) : (s.map Segment.char).flatMap (Variable.fill vars) = s := by
    simp [List.flatMap_map, Variable.fill]
  have parts : ∀ parts : List Part,
      (parts.flatMap fun part => part.literal.map .char ++ [.placeholder part.inner]).flatMap
          (Variable.fill vars) =
        (List.zipWith (fun (part : Part) value => part.literal ++ value) parts
          (parts.map fun part => Variable.fill vars (.placeholder part.inner))).flatten := by
    intro parts
    induction parts with
    | nil => rfl
    | cons part parts ih =>
      rw [List.flatMap_cons, List.flatMap_append, List.flatMap_append, literal, ih]
      simp
  rw [Variable.expandChars, segments_text, List.flatMap_append, literal, parts, filled]

theorem filledParts_literal (store : Store) (s : List Char) (rest : List Segment) :
    Resolution.filledParts store (s.map .char ++ rest) =
      (Resolution.filledParts store rest).map (s ++ ·) := by
  induction s with
  | nil => cases h : Resolution.filledParts store rest <;> simp [h, Except.map]
  | cons c s ih =>
    rw [List.map_cons, List.cons_append, Resolution.filledParts, ih]
    cases Resolution.filledParts store rest <;> rfl

/-- A placeholder is replaced by what stands for it, unless it lacks a value. -/
theorem filledPart_placeholder (store : Store) (inner : List Char) :
    (∃ value, Reference.Stands store inner value ∧
      Resolution.filledPart store (.placeholder inner) = .ok value) ∨
    (Reference.Missing store inner ∧ Resolution.filledPart store (.placeholder inner) =
      .error (.unresolved (String.ofList (written inner)))) := by
  cases reads : Reference.parse? (String.ofList inner) with
  | none => exact .inl ⟨_, .itself reads, by simp only [Resolution.filledPart, reads]⟩
  | some ref =>
    cases known : ref.value? store with
    | none => exact .inr ⟨⟨ref, reads, known⟩, by simp only [Resolution.filledPart, reads, known]⟩
    | some value =>
      exact .inl ⟨_, .value reads known, by simp only [Resolution.filledPart, reads, known]⟩

theorem not_missing_of_stands {store : Store} {inner value : List Char}
    (h : Reference.Stands store inner value) : ¬ Reference.Missing store inner := by
  rintro ⟨ref, reads, missing⟩
  cases h with
  | value reads' known =>
    rw [reads] at reads'
    cases reads'
    rw [missing] at known
    cases known
  | itself other =>
    rw [reads] at other
    cases other

/-- What comes of the references in a template: all have values, or the first one that has none is at
fault. -/
inductive Resolved (store : Store) (t : Template) : Except Resolution.Fault (List Char) → Prop
  | all {values : List (List Char)}
      (stand : List.Forall₂ (fun part => Reference.Stands store part.inner) t.parts values) :
      Resolved store t (.ok (t.filled values))
  | missing {before after : List Part} {part : Part} (split : t.parts = before ++ part :: after)
      (known : ∀ q ∈ before, ¬ Reference.Missing store q.inner)
      (missing : Reference.Missing store part.inner) :
      Resolved store t (.error (.unresolved (String.ofList (written part.inner))))

variable {store : Store} {part : Part} {parts : List Part} {ending : List Char}
  {unopened : ¬ ['{', '{'] <:+: ending}

/-- A part with a value goes before what comes of the parts after it. -/
theorem Resolved.cons {value : List Char} {result : Except Resolution.Fault (List Char)}
    (stands : Reference.Stands store part.inner value)
    (h : Resolved store ⟨parts, ending, unopened⟩ result) :
    Resolved store ⟨part :: parts, ending, unopened⟩
      (result.map fun rest => part.literal ++ (value ++ rest)) := by
  cases h with
  | @all values stand =>
    have whole := Resolved.all (t := ⟨part :: parts, ending, unopened⟩)
      (List.Forall₂.cons stands stand)
    simpa [filled, Except.map] using whole
  | @missing before after q split known missing =>
    have later : part :: parts = (part :: before) ++ q :: after := congrArg (part :: ·) split
    refine .missing later ?_ missing
    rw [List.forall_mem_cons]
    exact ⟨not_missing_of_stands stands, known⟩

theorem resolved_filledParts (store : Store) (t : Template) :
    Resolved store t (Resolution.filledParts store (segments t.text)) := by
  rw [segments_text]
  obtain ⟨parts, ending, unopened⟩ := t
  induction parts with
  | nil =>
    have whole := filledParts_literal store ending []
    rw [List.append_nil] at whole
    rw [List.flatMap_nil, List.nil_append, whole]
    have none : Resolved store ⟨[], ending, unopened⟩ _ := .all List.Forall₂.nil
    simpa [filled, Resolution.filledParts, Except.map] using none
  | cons part parts ih =>
    rw [List.flatMap_cons, List.append_assoc, List.append_assoc, filledParts_literal,
      List.singleton_append, Resolution.filledParts]
    rcases filledPart_placeholder store part.inner with ⟨value, stands, here⟩ | ⟨missing, here⟩
    · rw [here]
      have whole := ih.cons stands
      generalize Resolution.filledParts store _ = rest at whole ⊢
      cases rest <;> exact whole
    · rw [here]
      have first : part :: parts = [] ++ part :: parts := rfl
      exact .missing first (by simp) missing

/-- A template is filled in with the values of variables, and with those of references unless one has
none. -/
theorem filled_in_place (t : Template) (vars : List Variable) (store : Store)
    (p : Resolution.Progress) :
    (∃ values, List.Forall₂ (fun part => Variable.Stands vars part.inner) t.parts values ∧
      (Variable.expand vars (String.ofList t.text)).toList = t.filled values) ∧
    Resolved store t
      ((runFrom (Resolution.references store (String.ofList t.text)) p).1.map String.toList) := by
  constructor
  · refine ⟨t.parts.map fun part => Variable.fill vars (.placeholder part.inner), ?_, ?_⟩
    · rw [List.forall₂_map_right_iff, List.forall₂_same]
      intro part _
      exact Variable.stands_fill vars part.inner
    · rw [Variable.expand, String.toList_ofList, String.toList_ofList, expandChars_text]
  · have resolved := resolved_filledParts store t
    obtain ⟨ns, fills⟩ := Resolution.runFrom_references store (String.ofList t.text)
    rw [fills, Resolution.filled, String.toList_ofList]
    cases result : Resolution.filledParts store (segments t.text) with
    | error e =>
      rw [result] at resolved
      exact resolved
    | ok s =>
      rw [result] at resolved
      simpa [Except.map] using resolved

/-- A value with the placeholder that follows it, and a brace before and behind. -/
example :
    let first : Part := ⟨['{', ' '], ['a'], by decide, by decide, by simp, by simp⟩
    let second : Part := ⟨['}'], [' ', 'b'], by decide, by decide, by simp, by simp⟩
    let t : Template := ⟨[first, second], ['{'], by decide⟩
    Variable.expand [⟨"a", "\x7b\x7bb\x7d\x7d"⟩, ⟨"b", "1"⟩] (String.ofList t.text) =
      "\x7b \x7b\x7bb\x7d\x7d\x7d1\x7b" := by decide +kernel

end Template

end DotHttp
