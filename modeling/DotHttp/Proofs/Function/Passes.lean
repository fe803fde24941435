import DotHttp.Proofs.Function.Call

/-!
The passes over a row of calls with nothing between the parentheses. A pass puts a value in the place of each
call of its function, unless the call stands right behind a value that an earlier pass has put there.
-/

namespace DotHttp.Function

open DotHttp.Text

/-- The place of a function in the order of the passes. -/
def rank (f : Function) : Nat := all.idxOf f

/-- A text before a call: no parenthesis is in it, and no word at its end. -/
@[mk_iff] structure Literal (l : List Char) : Prop where
  closed : '(' ∉ l
  free : l.getLast?.any isWord = false

instance (l : List Char) : Decidable (Literal l) := decidable_of_iff _ (literal_iff l).symm

/-- A call and the text before it. A call that is placed has a value put in its place. -/
structure Slot where
  literal : List Char
  call : Call
  placed : Bool

/-- The value of a call with nothing between the parentheses. -/
def bareValue (f : Function) (src : Sources) (start : Nat) : List Char :=
  match f.value src start f.bareArgument with
  | .ok v => v
  | .error _ => []

namespace Slot

/-- The function of a call that leaves a value. -/
def left (s : Slot) : Option Function := if s.placed then some s.call.function else none

/-- What stands in the place of a call behind so many passes. -/
def shown (src : Sources) (k : Nat) (starts : Function → Nat) (s : Slot) : List Char :=
  if s.placed ∧ s.call.function.rank < k then s.call.function.bareValue src (starts s.call.function)
  else s.call.text

/-- Where the next call of each function takes its draws from, behind a call. -/
def advance (starts : Function → Nat) (s : Slot) (f : Function) : Nat :=
  starts f + if s.left = some f then f.draws else 0

end Slot

/-- What stands in the places of some calls behind so many passes. -/
def pieces (src : Sources) (k : Nat) : (Function → Nat) → List Slot → List (List Char)
  | _, [] => []
  | starts, s :: ss => s.shown src k starts :: pieces src k (s.advance starts) ss

/-- A row of calls behind so many passes. -/
def render (src : Sources) (k : Nat) (starts : Function → Nat) (ss : List Slot) : List Char :=
  (List.zipWith (fun s piece => s.literal ++ piece) ss (pieces src k starts ss)).flatten

/-- Calls are placed unless they stand right behind the value of a function with an earlier pass. -/
def Placement : Option Function → List Slot → Prop
  | _, [] => True
  | prev, s :: ss =>
    (s.placed = true ↔ (s.literal = [] → ∀ g ∈ prev, s.call.function.rank ≤ g.rank)) ∧ Placement s.left ss

variable {f : Function} {src : Sources} {before : Option Char} {k : Nat} {starts : Function → Nat}
  {s : Slot} {ss : List Slot} {prev : Option Function} {u ending : List Char}

theorem value_bareValue (bare : f.isBare = true) (src : Sources) (start : Nat) :
    f.value src start f.bareArgument = .ok (f.bareValue src start) := by
  obtain ⟨v, value, -⟩ := exists_value bare src start
  rw [bareValue, value]

theorem values_bareValue (bare : f.isBare = true) (src : Sources) (start : Nat) :
    Values src f (f.bareValue src start) := by
  obtain ⟨v, value, among⟩ := exists_value bare src start
  rw [bareValue, value]
  exact among

@[simp] theorem render_nil : render src k starts [] = [] := rfl

@[simp] theorem render_cons : render src k starts (s :: ss) =
    s.literal ++ (s.shown src k starts ++ render src k (s.advance starts) ss) := by
  simp [render, pieces]

namespace Slot

theorem shown_of_placed (placed : s.placed = true) (passed : s.call.function.rank < k) :
    s.shown src k starts = s.call.function.bareValue src (starts s.call.function) :=
  if_pos ⟨placed, passed⟩

theorem shown_of_left (h : ∀ g ∈ s.left, k ≤ g.rank) : s.shown src k starts = s.call.text := by
  apply if_neg
  rintro ⟨placed, passed⟩
  have waits := h s.call.function (by simp [left, placed])
  exact absurd passed (Nat.not_lt.2 waits)

theorem advance_of_left (h : s.left ≠ some f) : s.advance starts f = starts f := by
  rw [advance, if_neg h, Nat.add_zero]

end Slot

theorem rank_injective {f g : Function} (h : f.rank = g.rank) : f = g :=
  (List.idxOf_inj (mem_all f)).1 h

theorem rank_lt (f : Function) : f.rank < all.length :=
  List.idxOf_lt_length_iff.2 (mem_all f)

theorem Literal.low {l : List Char} (h : Literal l) : l.getLast? ≠ some '_' := by
  intro last
  have free := h.free
  rw [last] at free
  cases free

theorem Literal.at_start {l : List Char} (h : Literal l) : (edge none l).any isWord = false := by
  rw [Function.edge, Option.or_none]
  exact h.free

theorem Literal.append (h : Literal s.literal) (closed : '(' ∉ u) (low : u.getLast? ≠ some '_') :
    '(' ∉ u ++ s.literal ∧ (u ++ s.literal).getLast? ≠ some '_' := by
  have free := h.free
  constructor
  · rw [List.mem_append]
    exact not_or_intro closed h.closed
  · rw [List.getLast?_append]
    cases last : s.literal.getLast? with rw [last] at free
    | none => exact low
    | some d =>
      rintro ⟨⟩
      cases free

theorem Literal.edge_append (h : Literal s.literal) :
    (edge before (u ++ s.literal)).any isWord = (s.literal.isEmpty && (edge before u).any isWord) := by
  have free := h.free
  rw [edge, List.getLast?_append]
  cases last : s.literal.getLast? with rw [last] at free
  | none =>
    rw [List.getLast?_eq_none_iff.1 last]
    rfl
  | some d =>
    have some : s.literal ≠ [] := by
      intro none
      rw [none] at last
      cases last
    rw [List.isEmpty_eq_false_iff.2 some]
    exact free

/-- A call is placed just if the pass of its function finds the edge of a word before it. -/
theorem placed_iff (turn : s.call.function.rank = k) (literal : Literal s.literal)
    (place : s.placed = true ↔ (s.literal = [] → ∀ g ∈ prev, s.call.function.rank ≤ g.rank))
    (free : (edge before u).any isWord = prev.any (·.rank < k)) :
    s.placed = true ↔ (edge before (u ++ s.literal)).any isWord = false := by
  rw [place, turn, literal.edge_append, free, Bool.and_eq_false_imp, List.isEmpty_iff]
  cases prev <;> simp

/-- What a pass does with a call that is still written out. -/
theorem replaceFrom_slot {t : List Char} (turn : f.rank = k) (literal : Literal s.literal)
    (place : s.placed = true ↔ (s.literal = [] → ∀ g ∈ prev, s.call.function.rank ≤ g.rank))
    (closed : '(' ∉ u) (low : u.getLast? ≠ some '_') (free : (edge before u).any isWord = prev.any (·.rank < k))
    (waits : ∀ g ∈ s.left, k ≤ g.rank) :
    f.replaceFrom src before (starts f) (u ++ (s.literal ++ (s.shown src k starts ++ t))) =
      (f.replaceFrom src (some ')') (s.advance starts f) t).map
        fun (t, next) => (u ++ (s.literal ++ (s.shown src (k + 1) starts ++ t)), next) := by
  obtain ⟨closed, low⟩ := literal.append closed low
  rw [Slot.shown_of_left waits, ← List.append_assoc, replaceFrom_before closed low]
  by_cases own : s.left = some f
  · -- The call is one of the function, and the edge of a word is before it.
    obtain ⟨placed, rfl⟩ : s.placed = true ∧ s.call.function = f := by
      simpa [Slot.left] using own
    have apart := (placed_iff turn literal place free).1 placed
    rw [replaceFrom_text apart (value_bareValue s.call.bare src _),
      Slot.shown_of_placed placed (turn ▸ Nat.lt_succ_self k), Slot.advance, if_pos own]
    cases s.call.function.replaceFrom src (some ')') (starts s.call.function + s.call.function.draws) t with
    | error e => rfl
    | ok p => exact congrArg Except.ok (by simp)
  · have other : s.call.function ≠ f ∨ (edge before (u ++ s.literal)).any isWord = true := by
      by_cases same : s.call.function = f
      · right
        subst same
        rw [← Bool.not_eq_false, ← placed_iff turn literal place free]
        intro placed
        exact own (by simp [Slot.left, placed])
      · exact .inl same
    have later : ∀ g ∈ s.left, k + 1 ≤ g.rank := by
      intro g among
      apply Nat.lt_of_le_of_ne (waits g among)
      intro same
      exact own (rank_injective (turn.trans same) ▸ among)
    rw [replaceFrom_past other, Slot.shown_of_left later, Slot.advance_of_left own]
    cases f.replaceFrom src (some ')') (starts f) t with
    | error e => rfl
    | ok p => exact congrArg Except.ok (by simp)

/-- The pass of a function over a row of calls, behind the passes of the functions before it. Its calls get
their values from left to right. -/
theorem replaceFrom_render (turn : f.rank = k) (fit : ∀ s ∈ ss, Literal s.literal) (closing : '(' ∉ ending)
    (placement : Placement prev ss) (closed : '(' ∉ u) (low : u.getLast? ≠ some '_')
    (free : (edge before u).any isWord = prev.any (·.rank < k)) :
    f.replaceFrom src before (starts f) (u ++ (render src k starts ss ++ ending)) =
      .ok (u ++ (render src (k + 1) starts ss ++ ending), ss.foldl (fun starts s => s.advance starts) starts f) := by
  induction ss generalizing u before starts prev with
  | nil =>
    rw [render_nil, render_nil, List.nil_append]
    apply replaceFrom_of_no_calls
    apply calls_of_no_parenthesis
    rw [List.mem_append]
    exact not_or_intro closed closing
  | cons s ss ih =>
    obtain ⟨literal, fit⟩ := List.forall_mem_cons.1 fit
    obtain ⟨place, placement⟩ := placement
    rw [render_cons, render_cons, List.foldl_cons]
    simp only [List.append_assoc]
    by_cases waits : ∀ g ∈ s.left, k ≤ g.rank
    · have between : (edge (some ')') []).any isWord = s.left.any (·.rank < k) := by
        have close : isWord ')' = false := by decide
        cases left : s.left with rw [left] at waits
        | none => exact close
        | some g => simpa [close] using waits g rfl
      have next : f.replaceFrom src (some ')') (s.advance starts f)
          ([] ++ (render src k (s.advance starts) ss ++ ending)) = .ok _ :=
        ih fit placement List.not_mem_nil (by simp) between
      rw [replaceFrom_slot turn literal place closed low free waits]
      rw [List.nil_append] at next
      rw [next]
      rfl
    · -- The value of an earlier pass becomes a part of the text before the next call.
      obtain ⟨placed, passed⟩ : s.placed = true ∧ s.call.function.rank < k := by
        simpa [Slot.left] using waits
      have left : s.left = some s.call.function := by simp [Slot.left, placed]
      have other : s.left ≠ some f := by
        intro same
        rw [left] at same
        cases same
        exact absurd turn (Nat.ne_of_lt passed)
      have tidy := (values_bareValue s.call.bare src (starts s.call.function)).tidy
      obtain ⟨d, last, word, low'⟩ := tidy.exists_last
      generalize value : s.call.function.bareValue src (starts s.call.function) = v at tidy last
      have behind : (u ++ (s.literal ++ v)).getLast? = some d := by
        rw [List.getLast?_append, List.getLast?_append, last]
        rfl
      have closed' : '(' ∉ u ++ (s.literal ++ v) := by
        simp only [List.mem_append, not_or]
        exact ⟨closed, literal.closed, tidy.closed.1⟩
      have low'' : (u ++ (s.literal ++ v)).getLast? ≠ some '_' := by
        rw [behind]
        rintro ⟨⟩
        exact low' rfl
      have free' : (edge before (u ++ (s.literal ++ v))).any isWord = s.left.any (·.rank < k) := by
        rw [edge, behind, left]
        simp [word, passed]
      have next : f.replaceFrom src before (s.advance starts f)
          (u ++ (s.literal ++ v) ++ (render src k (s.advance starts) ss ++ ending)) = .ok _ :=
        ih fit placement closed' low'' free'
      rw [Slot.shown_of_placed placed passed, Slot.shown_of_placed placed (Nat.lt_succ_of_lt passed), value]
      simpa [Slot.advance_of_left other] using next

/-- How many draws some calls take. -/
def drawn : List Function → Nat
  | [] => 0
  | f :: fs => f.draws + drawn fs

/-- Where the first call of a function takes its draws from: behind those of the functions before it. -/
def firstDraw (next : Nat) (fs : List Function) (f : Function) : Nat :=
  next + drawn (fs.filter (·.rank < f.rank))

theorem foldl_advance (starts : Function → Nat) (ss : List Slot) (f : Function) :
    ss.foldl (fun starts s => s.advance starts) starts f =
      starts f + drawn ((ss.filterMap Slot.left).filter (· = f)) := by
  induction ss generalizing starts with
  | nil => rfl
  | cons s ss ih =>
    rw [List.foldl_cons, ih, Slot.advance, Nat.add_assoc]
    cases left : s.left with
    | none => simp [left]
    | some g =>
      by_cases same : g = f
      · subst same
        simp [left, drawn]
      · simp [left, same]

theorem drawn_filter_succ (turn : f.rank = k) (fs : List Function) :
    drawn (fs.filter (·.rank < k + 1)) = drawn (fs.filter (·.rank < k)) + drawn (fs.filter (· = f)) := by
  induction fs with
  | nil => rfl
  | cons g fs ih =>
    by_cases same : g = f
    · have here : g.rank = k := by rw [same, turn]
      rw [List.filter_cons_of_pos (by simp [here]), List.filter_cons_of_neg (by simp [here]),
        List.filter_cons_of_pos (by simpa using same), drawn, drawn, ih, Nat.add_left_comm]
    · have apart : g.rank ≠ k := fun here => same (rank_injective (here.trans turn.symm))
      rw [List.filter_cons_of_neg (p := (· = f)) (by simpa using same)]
      by_cases less : g.rank < k
      · rw [List.filter_cons_of_pos (by simpa using Nat.lt_succ_of_lt less),
          List.filter_cons_of_pos (by simpa using less), drawn, drawn, ih, Nat.add_assoc]
      · have above : ¬ g.rank < k + 1 := by omega
        rw [List.filter_cons_of_neg (by simpa using above), List.filter_cons_of_neg (by simpa using less), ih]

variable {lead : List Char} {next : Nat}

/-- The passes from one function on. -/
theorem replaceAllOf_render (fit : ∀ s ∈ ss, Literal s.literal) (closing : '(' ∉ ending)
    (placement : Placement none ss) (first : Literal lead) {done rest : List Function} (split : done ++ rest = all) :
    let fs := ss.filterMap Slot.left
    replaceAllOf src rest (next + drawn (fs.filter (·.rank < done.length)))
        (lead ++ (render src done.length (firstDraw next fs) ss ++ ending)) =
      .ok (lead ++ (render src all.length (firstDraw next fs) ss ++ ending),
        next + drawn (fs.filter (·.rank < all.length))) := by
  intro fs
  induction rest generalizing done with
  | nil =>
    rw [List.append_nil] at split
    rw [split]
    rfl
  | cons f rest ih =>
    have turn : f.rank = done.length := by
      have distinct : (done ++ f :: rest).Nodup := by
        rw [split]
        decide
      have fresh : f ∉ done := fun among =>
        (List.nodup_append.1 distinct).2.2 f among f List.mem_cons_self rfl
      rw [rank, ← split, List.idxOf_append_of_notMem fresh, List.idxOf_cons_self, Nat.add_zero]
    have passed : f.replaceFrom src none (firstDraw next fs f)
        (lead ++ (render src done.length (firstDraw next fs) ss ++ ending)) = .ok _ :=
      replaceFrom_render turn fit closing placement first.closed first.low first.at_start
    have start : firstDraw next fs f = next + drawn (fs.filter (·.rank < done.length)) := by
      rw [firstDraw, turn]
    have split' : (done ++ [f]) ++ rest = all := by
      rw [List.append_assoc]
      exact split
    have later := ih split'
    rw [foldl_advance, start, Nat.add_assoc, ← drawn_filter_succ turn] at passed
    rw [List.length_append, List.length_singleton] at later
    rw [replaceAllOf, passed]
    exact later

theorem render_start (src : Sources) (starts : Function → Nat) (ss : List Slot) :
    render src 0 starts ss = ss.flatMap fun s => s.literal ++ s.call.text := by
  induction ss generalizing starts with
  | nil => rfl
  | cons s ss ih =>
    have waits : ∀ g ∈ s.left, 0 ≤ g.rank := fun g _ => Nat.zero_le _
    rw [render_cons, ih, Slot.shown_of_left waits, List.flatMap_cons, List.append_assoc]

/-- All passes over a row of calls. -/
theorem substitute_slots (src : Sources) (next : Nat) (fit : ∀ s ∈ ss, Literal s.literal)
    (closing : '(' ∉ ending) (placement : Placement none ss) (first : Literal lead) :
    substitute src next (String.ofList (lead ++ ((ss.flatMap fun s => s.literal ++ s.call.text) ++ ending))) =
      .ok (String.ofList (lead ++ (render src all.length (firstDraw next (ss.filterMap Slot.left)) ss ++ ending)),
        next + drawn (ss.filterMap Slot.left)) := by
  let fs := ss.filterMap Slot.left
  have none : fs.filter (·.rank < ([] : List Function).length) = [] := by
    rw [List.filter_eq_nil_iff]
    intro f _
    simp
  have every : fs.filter (·.rank < all.length) = fs := by
    rw [List.filter_eq_self]
    intro f _
    exact decide_eq_true f.rank_lt
  have passes : replaceAllOf src all (next + drawn (fs.filter (·.rank < ([] : List Function).length)))
      (lead ++ (render src 0 (firstDraw next fs) ss ++ ending)) = .ok _ :=
    replaceAllOf_render fit closing placement first (List.nil_append all)
  have nothing : drawn [] = 0 := rfl
  rw [none, every, render_start, nothing, Nat.add_zero] at passes
  rw [substitute, String.toList_ofList, passes]
  rfl

end DotHttp.Function
