import Mathlib.Data.List.Chain
import DotHttp.Proofs.Function.Passes

/-!
Calls right behind one another. The pass of a function sees the values of earlier passes, and behind a value
there is no edge of a word, so a call is left there if the call before it has been replaced already.
-/

namespace DotHttp.Function

open DotHttp.Text

variable {src : Sources} {next : Nat} {starts : Function → Nat} {prev : Option Function} {lead ending : List Char}
  {cs : List Call} {shown : List (List Char)}

/-- What stands in the places of calls in the end. A call stays as it is if the call before it is replaced and
is one of a function with an earlier pass. -/
inductive Row (src : Sources) : Option Function → List Call → List (List Char) → Prop
  | nil (prev : Option Function) : Row src prev [] []
  | kept {prev : Option Function} {g : Function} {c : Call} {cs : List Call} {shown : List (List Char)}
      (before : prev = some g) (earlier : g.rank < c.function.rank) (rest : Row src none cs shown) :
      Row src prev (c :: cs) (c.text :: shown)
  | replaced {prev : Option Function} {c : Call} {v : List Char} {cs : List Call} {shown : List (List Char)}
      (later : ∀ g ∈ prev, c.function.rank ≤ g.rank) (value : Values src c.function v)
      (rest : Row src (some c.function) cs shown) : Row src prev (c :: cs) (v :: shown)

/-- No call is one of a function with a later pass than that of the call before it. -/
def Falling (cs : List Call) : Prop := cs.IsChain fun c d => d.function.rank ≤ c.function.rank

instance (cs : List Call) : Decidable (Falling cs) :=
  inferInstanceAs (Decidable (cs.IsChain fun c d => d.function.rank ≤ c.function.rank))

/-- Calls right behind one another, told apart by whether a value is put in their place. -/
def row : Option Function → List Call → List Slot
  | _, [] => []
  | prev, c :: cs =>
    let s : Slot := ⟨[], c, prev.all fun g => c.function.rank ≤ g.rank⟩
    s :: row s.left cs

theorem placement_row (prev : Option Function) (cs : List Call) : Placement prev (row prev cs) := by
  induction cs generalizing prev with
  | nil => trivial
  | cons c cs ih =>
    refine ⟨?_, ih _⟩
    simp [Option.all_eq_true]

theorem text_row (prev : Option Function) (cs : List Call) :
    (row prev cs).flatMap (fun s => s.literal ++ s.call.text) = cs.flatMap Call.text := by
  induction cs generalizing prev with
  | nil => rfl
  | cons c cs ih => rw [row, List.flatMap_cons, List.flatMap_cons, ih, List.nil_append]

theorem literal_row (prev : Option Function) (cs : List Call) : ∀ s ∈ row prev cs, Literal s.literal := by
  induction cs generalizing prev with
  | nil => exact List.forall_mem_nil _
  | cons c cs ih => exact List.forall_mem_cons.2 ⟨⟨List.not_mem_nil, rfl⟩, ih _⟩

theorem render_row (src : Sources) (k : Nat) (starts : Function → Nat) (prev : Option Function) (cs : List Call) :
    render src k starts (row prev cs) = (pieces src k starts (row prev cs)).flatten := by
  induction cs generalizing prev starts with
  | nil => rfl
  | cons c cs ih =>
    rw [row, render_cons, pieces, List.flatten_cons, ih, List.nil_append]

theorem row_pieces (src : Sources) (starts : Function → Nat) (prev : Option Function) (cs : List Call) :
    Row src prev cs (pieces src all.length starts (row prev cs)) := by
  induction cs generalizing prev starts with
  | nil => exact .nil prev
  | cons c cs ih =>
    rw [row, pieces]
    cases place : prev.all fun g => decide (c.function.rank ≤ g.rank) with
    | true =>
      rw [Slot.shown_of_placed rfl (rank_lt _)]
      apply Row.replaced
      · simpa [Option.all_eq_true] using place
      · exact values_bareValue c.bare src _
      · exact ih _ _
    | false =>
      cases prev with
      | none => cases place
      | some g =>
        rw [Slot.shown_of_left (by simp [Slot.left])]
        apply Row.kept rfl
        · simpa using place
        · exact ih _ _

theorem Row.closed_iff (h : Row src prev cs shown) : '(' ∉ shown.flatten ↔
    (∀ g ∈ prev, ∀ c ∈ cs.head?, c.function.rank ≤ g.rank) ∧ Falling cs := by
  induction h with
  | nil prev =>
    refine iff_of_true List.not_mem_nil ⟨?_, List.IsChain.nil⟩
    intro g _ c head
    cases head
  | @kept prev g c cs shown before earlier rest ih =>
    refine iff_of_false ?_ ?_
    · intro closed
      exact closed (by simp [Call.text])
    · rintro ⟨later, -⟩
      exact absurd earlier (Nat.not_lt.2 (later g before c rfl))
  | @replaced prev c v cs shown later value rest ih =>
    have first : ∀ g ∈ prev, ∀ d ∈ (c :: cs).head?, d.function.rank ≤ g.rank := by
      intro g among d head
      cases head
      exact later g among
    rw [List.flatten_cons, List.mem_append, not_or, and_iff_right value.tidy.closed.1, ih, and_iff_right first,
      Falling, Falling, List.isChain_cons]
    simp

theorem Row.values (h : Row src prev cs shown) (closed : '(' ∉ shown.flatten) :
    List.Forall₂ (fun c v => Values src c.function v) cs shown := by
  induction h with
  | nil => exact .nil
  | kept => exact (closed (by simp [Call.text])).elim
  | replaced later value rest ih =>
    rw [List.flatten_cons, List.mem_append, not_or] at closed
    exact .cons value (ih closed.2)

theorem closed_of_values (h : List.Forall₂ (fun c v => Values src c.function v) cs shown) :
    Closed shown.flatten := by
  induction h with
  | nil => decide
  | cons value _ ih => exact value.tidy.closed.append ih

/-- All passes over calls right behind one another. -/
theorem substitute_row (src : Sources) (next : Nat) (first : Literal lead) (closing : '(' ∉ ending)
    (cs : List Call) : ∃ shown next',
      substitute src next (String.ofList (lead ++ (cs.flatMap Call.text ++ ending))) =
        .ok (String.ofList (lead ++ (shown.flatten ++ ending)), next') ∧ Row src none cs shown := by
  have made := substitute_slots src next (literal_row none cs) closing (placement_row none cs) first
  rw [text_row, render_row] at made
  exact ⟨_, _, made, row_pieces src _ none cs⟩

/-- Of calls right behind one another each is replaced just if none is of a function with a later pass than
that of the call before it. -/
theorem substitute_adjacent (src : Sources) (next : Nat) (first : Literal lead) (closing : '(' ∉ ending)
    (cs : List Call) :
    let given := substitute src next (String.ofList (lead ++ (cs.flatMap Call.text ++ ending)))
    (∃ shown next', given = .ok (String.ofList (lead ++ (shown.flatten ++ ending)), next') ∧
      Row src none cs shown) ∧
    ((∃ values next', given = .ok (String.ofList (lead ++ (values.flatten ++ ending)), next') ∧
      List.Forall₂ (fun c v => Values src c.function v) cs values ∧ Closed values.flatten) ↔ Falling cs) := by
  intro given
  obtain ⟨shown, next', made, row⟩ := substitute_row src next first closing cs
  refine ⟨⟨shown, next', made, row⟩, ?_⟩
  have falling : '(' ∉ shown.flatten ↔ Falling cs := by
    rw [row.closed_iff, and_iff_right]
    simp
  constructor
  · rintro ⟨values, next'', made', each, closed⟩
    have same : shown.flatten = values.flatten := by
      have texts := congrArg Prod.fst (Except.ok.inj (made.symm.trans made'))
      rw [String.ofList_inj, List.append_cancel_left_eq, List.append_cancel_right_eq] at texts
      exact texts
    rw [← falling, same]
    exact closed.1
  · intro fall
    have each := row.values (falling.2 fall)
    exact ⟨shown, next', made, each, closed_of_values each⟩

/-- Three calls behind a word, the pass of none of which comes before that of the next. -/
theorem substitute_adjacent_falling : ∃ (values : List (List Char)) (next' : Nat),
    substitute Sources.still 0 "id Name()guid()GUID()." =
      .ok (String.ofList ("id ".toList ++ (values.flatten ++ ".".toList)), next') ∧ Closed values.flatten := by
  let name : Call := ⟨.fullName, "Name".toList, rfl, by decide⟩
  let guid : Call := ⟨.guid, "guid".toList, rfl, by decide⟩
  let guid' : Call := ⟨.guid, "GUID".toList, rfl, by decide⟩
  have first : Literal "id ".toList := by decide
  have closing : '(' ∉ ".".toList := by decide
  have falling : Falling [name, guid, guid'] := by decide
  obtain ⟨values, next', made, -, closed⟩ :=
    (substitute_adjacent Sources.still 0 first closing [name, guid, guid']).2.2 falling
  exact ⟨values, next', made, closed⟩

/-- The call in `guid()name()` of the later pass stays. -/
theorem adjacent_call_left : ¬ ∀ (src : Sources) (next : Nat) (cs : List Call), 2 ≤ cs.length →
    ∃ values next', substitute src next (String.ofList (cs.flatMap Call.text)) =
        .ok (String.ofList values.flatten, next') ∧
      List.Forall₂ (fun c v => Values src c.function v) cs values ∧ Closed values.flatten := by
  intro claim
  let guid : Call := ⟨.guid, "guid".toList, rfl, by decide⟩
  let name : Call := ⟨.fullName, "name".toList, rfl, by decide⟩
  have first : Literal [] := by decide
  obtain ⟨values, next', made, -, closed⟩ := claim Sources.still 0 [guid, name] (by decide)
  obtain ⟨shown, next'', made', row⟩ :=
    substitute_row Sources.still 0 first List.not_mem_nil [guid, name]
  rw [List.nil_append, List.nil_append, List.append_nil, List.append_nil, made] at made'
  have same : values.flatten = shown.flatten :=
    String.ofList_inj.1 (congrArg Prod.fst (Except.ok.inj made'))
  have falling : Falling [guid, name] := (row.closed_iff.1 (same ▸ closed.1)).2
  exact absurd falling (by decide)

end DotHttp.Function
