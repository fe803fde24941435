import DotHttp.Proofs.Function.Passes

/-!
Calls with a text between any two of them. Each is replaced by a value of its function, and no draw is used
twice or left out.
-/

namespace DotHttp.Function

open DotHttp.Text

variable {src : Sources} {k : Nat} {starts : Function → Nat} {ss : List Slot} {prev : Option Function}
  {ending : List Char} {parts : List (List Char × Call)}

/-- A call stands where its function has come to, with its calls to the left. -/
theorem pieces_getElem? (starts : Function → Nat) (ss : List Slot) (i : Nat) : (pieces src k starts ss)[i]? =
    ss[i]?.map fun s => s.shown src k ((ss.take i).foldl (fun starts s => s.advance starts) starts) := by
  induction ss generalizing starts i with
  | nil => simp [pieces]
  | cons s ss ih =>
    cases i with
    | zero => simp [pieces]
    | succ i =>
      rw [pieces, List.getElem?_cons_succ, List.getElem?_cons_succ, ih, List.take_succ_cons, List.foldl_cons]

theorem length_pieces (starts : Function → Nat) (ss : List Slot) : (pieces src k starts ss).length = ss.length := by
  induction ss generalizing starts with
  | nil => rfl
  | cons s ss ih => rw [pieces, List.length_cons, List.length_cons, ih]

/-- Calls with a text before each of them are all placed. -/
theorem placement_of_separated (placed : ∀ s ∈ ss, s.placed = true) (apart : ∀ s ∈ ss, s.literal ≠ [])
    (prev : Option Function) : Placement prev ss := by
  induction ss generalizing prev with
  | nil => trivial
  | cons s ss ih =>
    obtain ⟨placed, later⟩ := List.forall_mem_cons.1 placed
    obtain ⟨some, apart⟩ := List.forall_mem_cons.1 apart
    exact ⟨iff_of_true placed fun none => (some none).elim, ih later apart _⟩

/-- A row of calls with the text before each of them, all of which are placed. -/
def slots (parts : List (List Char × Call)) : List Slot :=
  parts.map fun part => ⟨part.1, part.2, true⟩

theorem placement_slots (separated : ∀ part ∈ parts.tail, part.1 ≠ []) : Placement none (slots parts) := by
  cases parts with
  | nil => trivial
  | cons part parts =>
    constructor
    · exact iff_of_true rfl fun _ => by simp
    · apply placement_of_separated
      · exact List.forall_mem_map.2 fun _ _ => rfl
      · exact List.forall_mem_map.2 separated

theorem left_slots (parts : List (List Char × Call)) :
    (slots parts).filterMap Slot.left = parts.map (·.2.function) := by
  rw [slots, List.filterMap_map, ← List.filterMap_eq_map]
  rfl

/-- Calls with a text before each but the first are replaced by values of their functions. The draws are
allotted function by function in the order of the passes, and to the calls of a function from left to right. -/
theorem substitute_separated (src : Sources) (next : Nat) (fit : ∀ part ∈ parts, Literal part.1)
    (closing : '(' ∉ ending) (separated : ∀ part ∈ parts.tail, part.1 ≠ []) :
    let fs := parts.map (·.2.function)
    ∃ values : List (List Char), values.length = parts.length ∧
      substitute src next (String.ofList ((parts.flatMap fun part => part.1 ++ part.2.text) ++ ending)) =
        .ok (String.ofList ((List.zipWith (fun part v => part.1 ++ v) parts values).flatten ++ ending),
          next + drawn fs) ∧
      ∀ i f v, fs[i]? = some f → values[i]? = some v → Values src f v ∧
        f.value src (firstDraw next fs f + drawn ((fs.take i).filter (· = f))) f.bareArgument = .ok v := by
  intro fs
  have same : (slots parts).filterMap Slot.left = fs := left_slots parts
  have whole : (slots parts).flatMap (fun s => s.literal ++ s.call.text) =
      parts.flatMap fun part => part.1 ++ part.2.text := by
    rw [slots, List.flatMap_map]
  have literals : ∀ s ∈ slots parts, Literal s.literal := List.forall_mem_map.2 fit
  have made := substitute_slots src next literals closing (placement_slots separated) ⟨List.not_mem_nil, rfl⟩
  rw [same, whole, List.nil_append, List.nil_append] at made
  refine ⟨pieces src all.length (firstDraw next fs) (slots parts), ?_, ?_, ?_⟩
  · rw [length_pieces, slots, List.length_map]
  · rw [made, render, slots, List.zipWith_map_left]
  · intro i f v there place
    obtain ⟨part, here, rfl⟩ : ∃ part, parts[i]? = some part ∧ part.2.function = f := by
      rwa [List.getElem?_map, Option.map_eq_some_iff] at there
    have earlier : ((slots parts).take i).filterMap Slot.left = fs.take i := by
      rw [slots, ← List.map_take, ← slots, left_slots, List.map_take]
    have slot : (slots parts)[i]? = some ⟨part.1, part.2, true⟩ := by
      rw [slots, List.getElem?_map, here]
      rfl
    rw [pieces_getElem?, slot, Option.map_some, Slot.shown_of_placed rfl (rank_lt _), foldl_advance, earlier] at place
    cases place
    exact ⟨values_bareValue part.2.bare src _, value_bareValue part.2.bare src _⟩

/-- Two calls of a function in different letter case, around one of a function with an earlier pass. -/
theorem substitute_separated_names :
    let src : Sources := { Sources.still with draw := id }
    substitute src 0 "a Name(), number()-NAME() name" =
      .ok ("a Abigail Adkins, 0-Alexander Aguirre name", 5) := by
  intro src
  let name : Call := ⟨.fullName, "Name".toList, rfl, by decide⟩
  let number : Call := ⟨.number, "number".toList, rfl, by decide⟩
  let name' : Call := ⟨.fullName, "NAME".toList, rfl, by decide⟩
  let parts := [("a ".toList, name), (", ".toList, number), ("-".toList, name')]
  have fit : ∀ part ∈ parts, Literal part.1 := by decide
  have closing : '(' ∉ " name".toList := by decide
  have separated : ∀ part ∈ parts.tail, part.1 ≠ [] := by decide
  obtain ⟨values, length, made, each⟩ := substitute_separated src 0 fit closing separated
  obtain ⟨v, w, v', rfl⟩ := List.length_eq_three.1 length
  have first : fullName.value src 1 .none = .ok "Abigail Adkins".toList := by decide +kernel
  have second : Function.number.value src 0 .none = .ok "0".toList := by decide +kernel
  have third : fullName.value src 3 .none = .ok "Alexander Aguirre".toList := by decide +kernel
  have same : v = "Abigail Adkins".toList := Except.ok.inj ((each 0 _ v rfl rfl).2.symm.trans first)
  have same' : w = "0".toList := Except.ok.inj ((each 1 _ w rfl rfl).2.symm.trans second)
  have same'' : v' = "Alexander Aguirre".toList := Except.ok.inj ((each 2 _ v' rfl rfl).2.symm.trans third)
  subst same same' same''
  exact made

end DotHttp.Function
