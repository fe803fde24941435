import DotHttp.Proofs.Text.Blank
import DotHttp.Reference

/-!
Which texts are references. Inside of a pair of double braces, if it is there, and of white space stand a name,
a side, a part and a path with points between them. Only the path may be empty or have points of its own, so a
text has these components in one way at most.
-/

namespace DotHttp

open DotHttp.Text

theorem Side.ofWord?_eq_some_iff {s : List Char} {side : Side} :
    Side.ofWord? s = some side ↔ s = side.word.toList := by
  constructor
  · intro h
    have found := List.find?_some h
    exact (of_decide_eq_true found).symm
  · rintro rfl
    cases side <;> decide +kernel

theorem Side.exists_word {s : String} (h : s = "request" ∨ s = "response") :
    ∃ side : Side, side.word = s := by
  rcases h with rfl | rfl
  · exact ⟨.request, rfl⟩
  · exact ⟨.response, rfl⟩

theorem Part.ofWord?_eq_some_iff {s : List Char} {part : Part} :
    Part.ofWord? s = some part ↔ s = part.word.toList := by
  constructor
  · intro h
    have found := List.find?_some h
    exact (of_decide_eq_true found).symm
  · rintro rfl
    cases part <;> decide +kernel

theorem Part.exists_word {s : String} (h : s = "body" ∨ s = "headers") :
    ∃ part : Part, part.word = s := by
  rcases h with rfl | rfl
  · exact ⟨.body, rfl⟩
  · exact ⟨.headers, rfl⟩

namespace Reference

/-- What a text is without the braces around it, if there are two pairs of them, and then without the white
space at its ends. -/
inductive Bare (s : List Char) : List Char → Prop
  | braced {inner : List Char} (braces : s = ['{', '{'] ++ inner ++ ['}', '}']) : Bare s (strip inner)
  | plain (unbraced : ∀ inner, s ≠ ['{', '{'] ++ inner ++ ['}', '}']) : Bare s (strip s)

/-- A text of four components with points between them. -/
structure Dotted (s : List Char) (name side part path : String) : Prop where
  named : name ≠ ""
  undotted : '.' ∉ name.toList
  sided : side = "request" ∨ side = "response"
  parted : part = "body" ∨ part = "headers"
  joined : s = joinWith ['.'] [name.toList, side.toList, part.toList, path.toList]

variable {s b : List Char} {text name side part path : String} {ref : Reference}

theorem unbraced_of_braces (inner : List Char) :
    unbraced (['{', '{'] ++ inner ++ ['}', '}']) = inner := by
  have opened : dropStart? ['{', '{'] (['{', '{'] ++ inner ++ ['}', '}']) = some (inner ++ ['}', '}']) := by
    rw [dropStart?_eq_some_iff, List.append_assoc]
  have closed : dropEnd? ['}', '}'] (inner ++ ['}', '}']) = some inner := dropEnd?_eq_some_iff.2 rfl
  rw [unbraced, opened, Option.bind_some, closed, Option.getD_some]

theorem unbraced_of_unclosed (h : ∀ inner, s ≠ ['{', '{'] ++ inner ++ ['}', '}']) :
    unbraced s = s := by
  unfold unbraced
  cases opened : dropStart? ['{', '{'] s with
  | none => rfl
  | some t =>
    rw [Option.bind_some]
    cases closed : dropEnd? ['}', '}'] t with
    | none => rfl
    | some u =>
      rw [dropStart?_eq_some_iff] at opened
      rw [dropEnd?_eq_some_iff] at closed
      exact (h u (by rw [opened, closed, List.append_assoc])).elim

theorem bare_iff : Bare s b ↔ b = strip (unbraced s) := by
  constructor
  · rintro (@⟨inner, rfl⟩ | unbraced)
    · rw [unbraced_of_braces]
    · rw [unbraced_of_unclosed unbraced]
  · rintro rfl
    by_cases braces : ∃ inner, s = ['{', '{'] ++ inner ++ ['}', '}']
    · obtain ⟨inner, rfl⟩ := braces
      rw [unbraced_of_braces]
      exact .braced rfl
    · rw [unbraced_of_unclosed (not_exists.1 braces)]
      exact .plain (not_exists.1 braces)

/-- The points that cut a text are those between its components and those of the path. -/
theorem Dotted.pieces (h : Dotted s name side part path) :
    splitOn '.' s = name.toList :: side.toList :: part.toList :: splitOn '.' path.toList := by
  obtain ⟨-, undotted, sided, parted, rfl⟩ := h
  have whole : '.' ∉ side.toList := by rcases sided with rfl | rfl <;> decide +kernel
  have whole' : '.' ∉ part.toList := by rcases parted with rfl | rfl <;> decide +kernel
  simp only [joinWith, List.append_assoc, List.singleton_append, splitOn_append,
    splitOn_of_not_mem undotted, splitOn_of_not_mem whole, splitOn_of_not_mem whole']

theorem Dotted.unique {name' side' part' path' : String} (h : Dotted s name side part path)
    (h' : Dotted s name' side' part' path') :
    name' = name ∧ side' = side ∧ part' = part ∧ path' = path := by
  have same := h'.pieces.symm.trans h.pieces
  simp only [List.cons.injEq, String.toList_inj] at same
  obtain ⟨name, side, part, path⟩ := same
  refine ⟨name, side, part, String.toList_inj.1 ?_⟩
  rw [← joinWith_splitOn '.' path'.toList, path, joinWith_splitOn]

/-- A text reads as a reference with the components that it has. -/
theorem parse?_eq_some_iff : parse? text = some ref ↔ ref.text = text ∧
    Dotted (strip (unbraced text.toList)) ref.requestName ref.side.word ref.part.word ref.path := by
  generalize hb : strip (unbraced text.toList) = b
  constructor
  · intro h
    unfold parse? at h
    rw [hb] at h
    split at h
    · next name side part first more pieces =>
      have undotted : '.' ∉ name := not_mem_of_mem_splitOn (pieces ▸ List.mem_cons_self)
      split at h
      · cases h
      · next named =>
        obtain ⟨side', sided, rest⟩ := Option.bind_eq_some_iff.1 h
        obtain ⟨part', parted, made⟩ := Option.bind_eq_some_iff.1 rest
        cases made
        obtain rfl := Side.ofWord?_eq_some_iff.1 sided
        obtain rfl := Part.ofWord?_eq_some_iff.1 parted
        refine ⟨rfl, ?_, by rwa [String.toList_ofList], ?_, ?_, ?_⟩
        · rintro empty
          have none : name = [] := by simpa using congrArg String.toList empty
          exact named (by rw [none]; rfl)
        · cases side' <;> simp [Side.word]
        · cases part' <;> simp [Part.word]
        · rw [← joinWith_splitOn '.' b, pieces, String.toList_ofList, String.toList_ofList]
          simp only [joinWith]
    · cases h
  · rintro ⟨rfl, dotted⟩
    obtain ⟨first, more, split⟩ := List.exists_cons_of_ne_nil (splitOn_ne_nil '.' ref.path.toList)
    have pieces := dotted.pieces
    rw [split] at pieces
    have path := joinWith_splitOn '.' ref.path.toList
    rw [split] at path
    have named : ref.requestName.toList.isEmpty = false := by
      rw [List.isEmpty_eq_false_iff]
      intro none
      exact dotted.named (String.toList_inj.1 none)
    unfold parse?
    rw [hb]
    simp only [pieces]
    rw [named, if_neg Bool.false_ne_true, Side.ofWord?_eq_some_iff.2 rfl, Part.ofWord?_eq_some_iff.2 rfl, path]
    simp

theorem Dotted.exists_parse? (h : Dotted (strip (unbraced text.toList)) name side part path) :
    ∃ ref, parse? text = some ref ∧ ref.text = text ∧ ref.requestName = name ∧ ref.side.word = side ∧
      ref.part.word = part ∧ ref.path = path := by
  obtain ⟨side, rfl⟩ := Side.exists_word h.sided
  obtain ⟨part, rfl⟩ := Part.exists_word h.parted
  exact ⟨⟨text, name, side, part, path⟩, parse?_eq_some_iff.2 ⟨rfl, h⟩, rfl, rfl, rfl, rfl, rfl⟩

/-- The texts that read as references: those that, bare, are a name without points, a side, a part and a path
with points between them. A text is so in one way at most, and these are the components that are read. -/
theorem parse?_grammar (text : String) :
    ∃ b, (∀ b', Bare text.toList b' ↔ b' = b) ∧
      (parse? text ≠ none ↔ ∃ name side part path, Dotted b name side part path) ∧
      ∀ name side part path, Dotted b name side part path →
        (∃ ref, parse? text = some ref ∧ ref.text = text ∧ ref.requestName = name ∧
          ref.side.word = side ∧ ref.part.word = part ∧ ref.path = path) ∧
        ∀ name' side' part' path', Dotted b name' side' part' path' →
          name' = name ∧ side' = side ∧ part' = part ∧ path' = path := by
  refine ⟨strip (unbraced text.toList), fun _ => bare_iff, ?_, ?_⟩
  · rw [Option.ne_none_iff_exists']
    constructor
    · rintro ⟨ref, read⟩
      exact ⟨_, _, _, _, (parse?_eq_some_iff.1 read).2⟩
    · rintro ⟨name, side, part, path, dotted⟩
      obtain ⟨ref, read, -⟩ := dotted.exists_parse?
      exact ⟨ref, read⟩
  · intro name side part path dotted
    refine ⟨dotted.exists_parse?, ?_⟩
    intro name' side' part' path' dotted'
    exact dotted.unique dotted'

example : parse? "{{ a.response.body.$.x. }}" =
    some ⟨"{{ a.response.body.$.x. }}", "a", .response, .body, "$.x."⟩ := by decide +kernel

end Reference

end DotHttp
