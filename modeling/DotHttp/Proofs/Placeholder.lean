import DotHttp.Placeholder

/-!
Placeholders that stay. Written out again, the parts of a text are the text; so a text in which no
placeholder carries the name of a variable is its own expansion.
-/

namespace DotHttp

namespace Placeholder

theorem written_of_untilClose {s inner rest : List Char} (h : untilClose s = some (inner, rest)) :
    inner ++ '}' :: '}' :: rest = s := by
  fun_induction untilClose s generalizing inner rest with
  | case1 => cases h
  | case2 r => cases h; rfl
  | case3 => cases h
  | case4 c r _ _ ih =>
    simp only [Option.map_eq_some_iff, Prod.exists, Prod.mk.injEq] at h
    obtain ⟨inner', left, h', rfl, rfl⟩ := h
    rw [List.cons_append, ih h']

theorem written_of_opening? {s inner rest : List Char} (h : opening? s = some (inner, rest)) :
    written inner ++ rest = s := by
  unfold opening? at h
  split at h
  · split at h
    · cases h
    · simp only [Option.map_eq_some_iff, Prod.exists, Prod.mk.injEq] at h
      obtain ⟨inner', left, h', rfl, rfl⟩ := h
      simpa [written] using written_of_untilClose h'
  · cases h

/-- The parts of a text, written one after the other, are the text. -/
theorem flatMap_written_segments (s : List Char) : (segments s).flatMap Segment.written = s := by
  fun_induction segments s with
  | case1 => rfl
  | case2 c r inner rest h ih =>
    rw [List.flatMap_cons, ih]
    exact written_of_opening? h
  | case3 c r h ih =>
    rw [List.flatMap_cons, ih]
    rfl

end Placeholder

/-- A part of a text that is no placeholder with the name of a variable. -/
def Segment.Silent (vars : List Variable) : Segment → Prop
  | .char _ => True
  | .placeholder inner => Variable.lookup vars (String.ofList (Text.strip inner)) = none

instance (vars : List Variable) : (part : Segment) → Decidable (part.Silent vars)
  | .char _ => inferInstanceAs (Decidable True)
  | .placeholder _ => inferInstanceAs (Decidable (_ = none))

namespace Variable

theorem lookup_eq_some_iff {vars : List Variable} {name value : String} :
    lookup vars name = some value ↔ ∃ before v after, vars = before ++ v :: after ∧ v.name = name ∧
      (∀ w ∈ after, w.name ≠ name) ∧ v.value = value := by
  simp only [lookup, Option.map_eq_some_iff, List.find?_eq_some_iff_append, decide_eq_true_eq,
    List.reverse_eq_append_iff, List.reverse_cons, List.append_assoc, List.cons_append,
    List.nil_append]
  constructor
  · rintro ⟨v, ⟨named, after, before, split, last⟩, rfl⟩
    refine ⟨before.reverse, v, after.reverse, split, named, ?_, rfl⟩
    intro w hw
    simpa using last w (List.mem_reverse.1 hw)
  · rintro ⟨before, v, after, split, named, last, rfl⟩
    refine ⟨v, ⟨named, after.reverse, before.reverse, by simpa using split, ?_⟩, rfl⟩
    intro w hw
    simpa using last w (List.mem_reverse.1 hw)

theorem lookup_eq_none_iff {vars : List Variable} {name : String} :
    lookup vars name = none ↔ ∀ v ∈ vars, v.name ≠ name := by
  simp [lookup]

/-- No placeholder of a text carries the name of a variable. -/
def Silent (vars : List Variable) (text : String) : Prop :=
  ∀ part ∈ Placeholder.segments text.toList, part.Silent vars

instance (vars : List Variable) (text : String) : Decidable (Silent vars text) :=
  inferInstanceAs (Decidable (∀ part ∈ _, Segment.Silent vars part))

theorem expand_of_silent {vars : List Variable} {text : String} (h : Silent vars text) :
    expand vars text = text := by
  have fills : ∀ part ∈ Placeholder.segments text.toList, fill vars part = part.written := by
    intro part hp
    cases part with
    | char c => rfl
    | placeholder inner =>
      have unknown : lookup vars (String.ofList (Text.strip inner)) = none := h _ hp
      simp only [fill, unknown, Segment.written]
  rw [expand, expandChars, List.flatMap_def, List.map_congr_left fills, ← List.flatMap_def,
    Placeholder.flatMap_written_segments, String.ofList_toList]

theorem silent_nil (text : String) : Silent [] text := by
  intro part _
  cases part <;> trivial

@[simp] theorem expand_nil (text : String) : expand [] text = text :=
  expand_of_silent (silent_nil text)

end Variable

end DotHttp
