import DotHttp.Proofs.RequestFile.RequestLine

/-!
Definitions against the variables known from the start. A definition gives its value to the first variable
of its name and a placeholder is filled with the value of the last one, so it is heeded just where these are
the same variable.
-/

namespace DotHttp.RequestFile

open DotHttp.Text

section Variables

variable {vars : List Variable} {name other value : String}

theorem lookup_cons (v : Variable) (vars : List Variable) (name : String) :
    Variable.lookup (v :: vars) name =
      (Variable.lookup vars name).or (if v.name = name then some v.value else none) := by
  simp only [Variable.lookup, List.reverse_cons, List.find?_append]
  cases vars.reverse.find? fun w => w.name = name with
  | some w => rfl
  | none => by_cases named : v.name = name <;> simp [named]

theorem lookup_isSome_iff : (Variable.lookup vars name).isSome ↔ 0 < vars.countP (·.name = name) := by
  rw [List.countP_pos_iff, ← not_iff_not, Bool.not_eq_true, Option.isSome_eq_false_iff,
    Option.isNone_iff_eq_none, Variable.lookup_eq_none_iff]
  simp

/-- A definition decides what its name stands for, unless several variables have the name. -/
theorem lookup_setVariable (name value : String) (vars : List Variable) :
    Variable.lookup (State.setVariable name value vars) name =
      if 1 < vars.countP (·.name = name) then Variable.lookup vars name else some value := by
  induction vars with
  | nil => simp [State.setVariable, Variable.lookup]
  | cons v vars ih =>
    rw [State.setVariable]
    by_cases named : v.name = name
    · have count : 1 < (v :: vars).countP (·.name = name) ↔ (Variable.lookup vars name).isSome := by
        rw [lookup_isSome_iff, List.countP_cons_of_pos (by simpa using named), Nat.lt_add_left_iff_pos]
      rw [if_pos named, lookup_cons, lookup_cons, if_pos rfl, if_pos named]
      cases found : Variable.lookup vars name with rw [found] at count
      | none => rw [if_neg fun several => Bool.false_ne_true (count.1 several), Option.none_or]
      | some w => rw [if_pos (count.2 rfl), Option.some_or, Option.some_or]
    · have count : (v :: vars).countP (·.name = name) = vars.countP (·.name = name) :=
        List.countP_cons_of_neg (by simpa using named)
      rw [if_neg named, lookup_cons, lookup_cons, if_neg named, Option.or_none, Option.or_none, ih, count]

theorem lookup_setVariable_of_ne (apart : name ≠ other) (value : String) (vars : List Variable) :
    Variable.lookup (State.setVariable name value vars) other = Variable.lookup vars other := by
  induction vars with
  | nil => simp [State.setVariable, Variable.lookup, apart]
  | cons v vars ih =>
    rw [State.setVariable]
    split
    · next named => rw [lookup_cons, lookup_cons, if_neg apart, if_neg (named ▸ apart)]
    · rw [lookup_cons, lookup_cons, ih]

theorem countP_setVariable_of_ne (apart : name ≠ other) (value : String) (vars : List Variable) :
    (State.setVariable name value vars).countP (·.name = other) = vars.countP (·.name = other) := by
  induction vars with
  | nil => simp [State.setVariable, apart]
  | cons v vars ih =>
    rw [State.setVariable]
    split
    · next named => simp [named, apart]
    · rw [List.countP_cons, List.countP_cons, ih]

/-- No definition makes a name one that several variables have. -/
theorem several_setVariable_iff (name value : String) (vars : List Variable) :
    1 < (State.setVariable name value vars).countP (·.name = name) ↔ 1 < vars.countP (·.name = name) := by
  induction vars with
  | nil => simp [State.setVariable]
  | cons v vars ih =>
    rw [State.setVariable]
    split
    · next named => simp [named]
    · next named => simpa [named] using ih

end Variables

variable {seeds : List Variable} {name value : String} {text : String} {parsed : Parsed}
  {before between after : List (List Char)} {definition raw : List Char}

/-- The name that a line gives a value to. -/
def definedName? (raw : List Char) : Option String :=
  match Line.ofText (strip raw) with
  | .definition name _ => some name
  | _ => none

theorem exists_definition (h : definedName? raw = some name) :
    ∃ value, Line.ofText (strip raw) = .definition name value := by
  unfold definedName? at h
  split at h
  · next other value kind =>
    cases h
    exact ⟨value, kind⟩
  · cases h

/-- A line that does not define a name leaves alone what it stands for. -/
theorem learn_of_undefined (h : definedName? raw ≠ some name) (vars : List Variable) :
    Variable.lookup (learn vars raw) name = Variable.lookup vars name ∧
      (learn vars raw).countP (·.name = name) = vars.countP (·.name = name) := by
  unfold learn
  split
  · next other value kind =>
    have apart : other ≠ name := fun same => h (by rw [definedName?, kind, same])
    exact ⟨lookup_setVariable_of_ne apart _ vars, countP_setVariable_of_ne apart _ vars⟩
  · exact ⟨rfl, rfl⟩

theorem lookup_learned (h : ∀ raw ∈ between, definedName? raw ≠ some name) (vars : List Variable) :
    Variable.lookup (between.foldl learn vars) name = Variable.lookup vars name := by
  induction between generalizing vars with
  | nil => rfl
  | cons raw between ih =>
    obtain ⟨first, rest⟩ := List.forall_mem_cons.1 h
    rw [List.foldl_cons, ih rest, (learn_of_undefined first vars).1]

/-- What a name stands for that several variables have is out of reach for definitions. -/
theorem several_learned (name : String) (ls : List (List Char)) (vars : List Variable) :
    (1 < (ls.foldl learn vars).countP (·.name = name) ↔ 1 < vars.countP (·.name = name)) ∧
      (1 < vars.countP (·.name = name) →
        Variable.lookup (ls.foldl learn vars) name = Variable.lookup vars name) := by
  induction ls generalizing vars with
  | nil => exact ⟨Iff.rfl, fun _ => rfl⟩
  | cons raw ls ih =>
    obtain ⟨count, found⟩ := ih (learn vars raw)
    rw [List.foldl_cons]
    by_cases defines : definedName? raw = some name
    · obtain ⟨value, kind⟩ := exists_definition defines
      have learned : learn vars raw = State.setVariable name (Variable.expand vars value) vars := by
        simp only [learn, kind]
      rw [learned] at count found ⊢
      rw [several_setVariable_iff] at count found
      refine ⟨count, fun several => ?_⟩
      rw [found several, lookup_setVariable, if_pos several]
    · obtain ⟨same, same'⟩ := learn_of_undefined defines vars
      rw [same, same'] at found
      rw [same'] at count
      exact ⟨count, found⟩

/-- What a name stands for behind its definition. -/
theorem lookup_defined (kind : Line.ofText (strip definition) = .definition name value)
    (plain : Placeholder.Free value.toList)
    (last : ∀ raw ∈ between, definedName? raw ≠ some name) (before : List (List Char)) (seeds : List Variable) :
    Variable.lookup ((before ++ definition :: between).foldl learn seeds) name =
      if 1 < seeds.countP (·.name = name) then Variable.lookup seeds name else some value := by
  obtain ⟨count, found⟩ := several_learned name before seeds
  generalize known : before.foldl learn seeds = vars at count found
  have learned : learn vars definition = State.setVariable name value vars := by
    simp only [learn, kind, Placeholder.expand_of_free plain]
  rw [List.foldl_append, List.foldl_cons, known, lookup_learned last, learned, lookup_setVariable]
  by_cases several : 1 < seeds.countP (·.name = name)
  · rw [if_pos several, if_pos (count.2 several), found several]
  · rw [if_neg several, if_neg (several ∘ count.1)]

end DotHttp.RequestFile
