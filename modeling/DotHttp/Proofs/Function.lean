import DotHttp.Function
import DotHttp.Proofs.Steps
import Mathlib.Data.List.TakeWhile

/-!
The calls of built-in functions in a text. A pass replaces the calls of its function and keeps the rest;
only the number of words of the filler text can be too long for one.
-/

namespace DotHttp

/-- Sources in which nothing ever changes. -/
def Sources.still : Sources :=
  ⟨fun _ => 0, ⟨0, 0, 0, 0, 0, 0⟩, ⟨0, 0, 0, 0, 0, 0⟩⟩

namespace Function

open DotHttp.Text

/-- The arguments of the calls that the pass of a function replaces, from left to right. -/
def calls (f : Function) (before : Option Char) (s : List Char) : List Argument :=
  match s with
  | [] => []
  | c :: r =>
    match _h : f.call? before (c :: r) with
    | some (arg, rest) => arg :: calls f (some ')') rest
    | none => calls f (some c) r
termination_by s.length
decreasing_by
  · exact length_call? _h
  · simp

/-- An argument that asks for a number of words by more digits than a numeral may have. -/
def Argument.Overlong : Argument → Prop
  | .count digits => Numeral.maxDigits < digits.length
  | .none | .quoted _ => False

section

variable {f : Function} {src : Sources} {before : Option Char} {next : Nat} {c : Char}
  {r s rest : List Char} {arg : Argument}

theorem calls_of_call (h : f.call? before (c :: r) = some (arg, rest)) :
    f.calls before (c :: r) = arg :: f.calls (some ')') rest := by
  rw [calls]
  split
  · next arg' rest' h' =>
    rw [h] at h'
    cases h'
    rfl
  · next h' =>
    rw [h] at h'
    cases h'

theorem calls_of_no_call (h : f.call? before (c :: r) = none) :
    f.calls before (c :: r) = f.calls (some c) r := by
  rw [calls]
  split
  · next h' =>
    rw [h] at h'
    cases h'
  · rfl

theorem replaceFrom_of_call (h : f.call? before (c :: r) = some (arg, rest)) :
    f.replaceFrom src before next (c :: r) =
      match f.value src next arg with
      | .error e => .error e
      | .ok v =>
        (f.replaceFrom src (some ')') (next + f.draws) rest).map fun (t, next) => (v ++ t, next) := by
  rw [replaceFrom]
  split
  · next arg' rest' h' =>
    rw [h] at h'
    cases h'
    cases f.value src next arg with
    | error e => rfl
    | ok v => cases f.replaceFrom src (some ')') (next + f.draws) rest <;> rfl
  · next h' =>
    rw [h] at h'
    cases h'

theorem replaceFrom_of_no_call (h : f.call? before (c :: r) = none) :
    f.replaceFrom src before next (c :: r) =
      (f.replaceFrom src (some c) next r).map fun (t, next) => (c :: t, next) := by
  rw [replaceFrom]
  split
  · next h' =>
    rw [h] at h'
    cases h'
  · cases f.replaceFrom src (some c) next r <;> rfl

theorem quoted_of_quotedArgument? (h : quotedArgument? s = some (arg, rest)) :
    ∃ text, arg = .quoted text := by
  unfold quotedArgument? at h
  split at h
  · split at h
    · simp only [Option.bind_eq_some_iff, Option.map_eq_some_iff, Prod.mk.injEq] at h
      obtain ⟨⟨text, r⟩, -, -, -, rfl, -⟩ := h
      exact ⟨text, rfl⟩
    · cases h
  · cases h

/-- A number of words is read digit by digit. -/
theorem isDecimal_of_call? {digits : List Char}
    (h : f.call? before s = some (.count digits, rest)) : ∀ c ∈ digits, isDecimal c = true := by
  unfold call? at h
  split at h
  · cases h
  obtain ⟨r, -, read⟩ := Option.bind_eq_some_iff.1 h
  unfold argument? at read
  split at read
  · split at read
    · obtain ⟨text, ht⟩ := quoted_of_quotedArgument? read
      cases ht
    · obtain ⟨text, ht⟩ := quoted_of_quotedArgument? read
      cases ht
    · obtain ⟨text, ht⟩ := quoted_of_quotedArgument? read
      cases ht
    · simp only [countArgument?, Option.map_eq_some_iff, Prod.mk.injEq] at read
      obtain ⟨rest', -, same, -⟩ := read
      cases same
      intro c hc
      exact List.mem_takeWhile_imp hc
    · split at read <;> simp at read
  · cases read

theorem filterMap_digitValue? {digits : List Char} (h : ∀ c ∈ digits, isDecimal c = true) :
    (digits.filterMap digitValue?).length = digits.length := by
  rw [List.filterMap_length_eq_length]
  exact h

theorem wordCount_error_iff {digits : List Char} (h : ∀ c ∈ digits, isDecimal c = true) :
    (∃ e, wordCount digits = .error e) ↔ Numeral.maxDigits < digits.length := by
  unfold wordCount
  by_cases empty : digits = []
  · subst empty
    simp
  · rw [if_neg (by simpa using empty), Numeral.ofDigits, filterMap_digitValue? h]
    split
    · next short =>
      refine iff_of_false ?_ (Nat.not_lt.2 short)
      rintro ⟨e, he⟩
      cases he
    · next long => exact iff_of_true ⟨_, rfl⟩ (Nat.lt_of_not_le long)

/-- Only the filler text can lack a value. -/
theorem value_error_iff (h : f.call? before s = some (arg, rest)) (src : Sources) (next : Nat) :
    (∃ e, f.value src next arg = .error e) ↔ f = .loremIpsum ∧ arg.Overlong := by
  cases f with
  | loremIpsum =>
    cases arg with
    | count digits =>
      have mapped : (∃ e, value .loremIpsum src next (.count digits) = .error e) ↔
          ∃ e, wordCount digits = .error e := by
        simp only [value]
        cases wordCount digits <;> simp [Except.map]
      rw [mapped, wordCount_error_iff (isDecimal_of_call? h)]
      exact (and_iff_right rfl).symm
    | none | quoted => simp [value, Argument.Overlong]
  | base64 | upper | lower => cases arg <;> simp [value]
  | _ => simp [value]

/-- A pass fails only over a number of words that is too long. -/
theorem replaceFrom_error_iff (f : Function) (src : Sources) (before : Option Char) (next : Nat)
    (s : List Char) : (∃ e, f.replaceFrom src before next s = .error e) ↔
      f = .loremIpsum ∧ ∃ arg ∈ f.calls before s, arg.Overlong := by
  fun_induction calls f before s generalizing next with
  | case1 => simp [replaceFrom]
  | case2 before c r arg rest h ih =>
    rw [replaceFrom_of_call h]
    have here := value_error_iff h src next
    cases hv : f.value src next arg with
    | error e =>
      obtain ⟨lorem, long⟩ := here.1 ⟨e, hv⟩
      exact iff_of_true ⟨e, rfl⟩ ⟨lorem, arg, List.mem_cons_self, long⟩
    | ok v =>
      have fine : ¬ (f = .loremIpsum ∧ arg.Overlong) := by
        rw [← here, hv]
        rintro ⟨e, he⟩
        cases he
      dsimp only
      rw [exists_map_error, ih]
      simp only [List.mem_cons, exists_eq_or_imp, and_or_left]
      exact (or_iff_right fine).symm
  | case3 before c r h ih =>
    rw [replaceFrom_of_no_call h, exists_map_error, ih]

/-- A text without calls of a function is left as it is by its pass. -/
theorem replaceFrom_of_no_calls (h : f.calls before s = []) (src : Sources) (next : Nat) :
    f.replaceFrom src before next s = .ok (s, next) := by
  fun_induction calls f before s with
  | case1 => rw [replaceFrom]
  | case2 => cases h
  | case3 before c r none ih =>
    rw [replaceFrom_of_no_call none, ih h]
    rfl

end

theorem replaceAllOf_append (src : Sources) (fs gs : List Function) (next : Nat) (s : List Char) :
    replaceAllOf src (fs ++ gs) next s =
      match replaceAllOf src fs next s with
      | .error e => .error e
      | .ok (t, next) => replaceAllOf src gs next t := by
  induction fs generalizing next s with
  | nil => rfl
  | cons f fs ih =>
    rw [List.cons_append, replaceAllOf, replaceAllOf]
    cases f.replaceFrom src none next s with
    | error e => rfl
    | ok p => exact ih p.2 p.1

theorem replaceAllOf_ok (fs : List Function) (h : .loremIpsum ∉ fs) (src : Sources) (next : Nat)
    (s : List Char) : ∃ p, replaceAllOf src fs next s = .ok p := by
  induction fs generalizing next s with
  | nil => exact ⟨_, rfl⟩
  | cons f fs ih =>
    obtain ⟨first, rest⟩ := List.ne_and_not_mem_of_not_mem_cons h
    cases hf : f.replaceFrom src none next s with
    | error e => exact (first ((replaceFrom_error_iff f src none next s).1 ⟨e, hf⟩).1.symm).elim
    | ok p =>
      obtain ⟨q, hq⟩ := ih rest p.2 p.1
      refine ⟨q, ?_⟩
      rw [replaceAllOf, hf]
      exact hq

/-- A text that holds, after the passes of all functions before the last, a call for filler text with too
many digits. -/
def Overlong (src : Sources) (next : Nat) (text : String) : Prop :=
  ∃ s next', replaceAllOf src all.dropLast next text.toList = .ok (s, next') ∧
    ∃ arg ∈ loremIpsum.calls none s, arg.Overlong

theorem substitute_error_iff (src : Sources) (next : Nat) (text : String) :
    (∃ e, substitute src next text = .error e) ↔ Overlong src next text := by
  have last : all = all.dropLast ++ [loremIpsum] := rfl
  obtain ⟨⟨s, next'⟩, hs⟩ := replaceAllOf_ok all.dropLast (by decide) src next text.toList
  have lorem : (∃ e, replaceAllOf src [loremIpsum] next' s = .error e) ↔
      ∃ arg ∈ loremIpsum.calls none s, arg.Overlong := by
    have fails := replaceFrom_error_iff .loremIpsum src none next' s
    simp only [true_and] at fails
    rw [← fails, replaceAllOf]
    cases loremIpsum.replaceFrom src none next' s with
    | error e => exact Iff.rfl
    | ok p => exact iff_of_false (fun ⟨e, he⟩ => by cases he) (fun ⟨e, he⟩ => by cases he)
  rw [substitute, exists_map_error, last, replaceAllOf_append, hs]
  dsimp only
  rw [lorem]
  constructor
  · intro long
    exact ⟨s, next', hs, long⟩
  · rintro ⟨s', next'', hs', long⟩
    rw [hs] at hs'
    cases hs'
    exact long

/-- Whether the value of a call is told by its argument, without chance and time. -/
def isFixed : Function → Bool
  | base64 | upper | lower | loremIpsum => true
  | _ => false

theorem value_of_isFixed {f : Function} (h : f.isFixed = true) (src src' : Sources)
    (start start' : Nat) (arg : Argument) : f.value src start arg = f.value src' start' arg := by
  cases f with
  | base64 | upper | lower | loremIpsum => cases arg <;> rfl
  | _ => cases h

theorem draws_of_isFixed {f : Function} (h : f.isFixed = true) : f.draws = 0 := by
  cases f <;> first | rfl | cases h

/-- A pass of a function without chance and time gives the same text wherever it is made. -/
theorem replaceFrom_of_isFixed {f : Function} (h : f.isFixed = true) (src src' : Sources)
    (before : Option Char) (next next' : Nat) (s : List Char) :
    f.replaceFrom src before next s =
      (f.replaceFrom src' before next' s).map fun (t, _) => (t, next) := by
  fun_induction calls f before s with
  | case1 => simp [replaceFrom, Except.map]
  | case2 before c r arg rest call ih =>
    rw [replaceFrom_of_call call, replaceFrom_of_call call, value_of_isFixed h src src' next next',
      draws_of_isFixed h, Nat.add_zero, Nat.add_zero, ih]
    cases f.value src' next' arg with
    | error e => rfl
    | ok v => cases f.replaceFrom src' (some ')') next' rest <;> rfl
  | case3 before c r none ih =>
    rw [replaceFrom_of_no_call none, replaceFrom_of_no_call none, ih]
    cases f.replaceFrom src' (some c) next' r <;> rfl

/-- Whether a text comes through some passes without a call that takes chance or time. -/
def steady : List Function → List Char → Bool
  | [], _ => true
  | f :: fs, s =>
    if f.isFixed then
      match f.replaceFrom .still none 0 s with
      | .ok (t, _) => steady fs t
      | .error _ => true
    else (f.calls none s).isEmpty && steady fs s

theorem replaceAllOf_of_steady {fs : List Function} {s : List Char} (h : steady fs s = true)
    (src : Sources) (next : Nat) :
    replaceAllOf src fs next s = (replaceAllOf .still fs 0 s).map fun (t, _) => (t, next) := by
  induction fs generalizing s with
  | nil => rfl
  | cons f fs ih =>
    rw [steady] at h
    rw [replaceAllOf, replaceAllOf]
    by_cases fixed : f.isFixed = true
    · rw [if_pos fixed] at h
      rw [replaceFrom_of_isFixed fixed src .still none next 0 s]
      cases hf : f.replaceFrom .still none 0 s with
      | error e => rfl
      | ok p =>
        obtain ⟨t, next'⟩ := p
        have start := replaceFrom_of_isFixed fixed .still .still none 0 0 s
        rw [hf] at h start
        cases start
        exact ih h
    · rw [if_neg fixed, Bool.and_eq_true, List.isEmpty_iff] at h
      rw [replaceFrom_of_no_calls h.1, replaceFrom_of_no_calls h.1]
      exact ih h.2

/-- A text without calls that take chance or time is given the same values by all sources. -/
theorem substitute_of_steady {text : String} (h : steady all text.toList = true) (src : Sources)
    (next : Nat) :
    substitute src next text = (substitute .still 0 text).map fun (t, _) => (t, next) := by
  rw [substitute, substitute, replaceAllOf_of_steady h src next]
  cases replaceAllOf .still all 0 text.toList <;> rfl

/-- Whether a text does not begin with a name, up to letter case, whatever follows it. -/
def differs : List Char → List Char → Bool
  | p :: ps, c :: r => !sameLetter p c || differs ps r
  | _, _ => false

theorem dropName?_of_differs {name s : List Char} (h : differs name s = true) (t : List Char) :
    dropName? name (s ++ t) = none := by
  induction name generalizing s with
  | nil => cases h
  | cons p ps ih =>
    cases s with
    | nil => cases h
    | cons c r =>
      rw [List.cons_append, dropName?]
      by_cases same : sameLetter p c = true
      · rw [if_pos same]
        apply ih
        simpa [differs, same] using h
      · rw [if_neg same]

/-- Whether no call of a function starts in a text, whatever follows it. -/
def clear (f : Function) (before : Option Char) : List Char → Bool
  | [] => true
  | c :: r => (before.any isWord || differs f.name.toList (c :: r)) && clear f (some c) r

theorem calls_append_of_clear {f : Function} {before : Option Char} {s : List Char}
    (h : f.clear before s = true) (t : List Char) :
    f.calls before (s ++ t) = f.calls (s.foldl (fun _ c => some c) before) t := by
  induction s generalizing before with
  | nil => rfl
  | cons c r ih =>
    rw [clear, Bool.and_eq_true, Bool.or_eq_true] at h
    obtain ⟨here, later⟩ := h
    have none : f.call? before (c :: (r ++ t)) = none := by
      unfold call?
      by_cases word : before.any isWord = true
      · rw [if_pos word]
      · have apart := dropName?_of_differs (here.resolve_left word) t
        rw [List.cons_append] at apart
        rw [if_neg word, apart]
        rfl
    rw [List.cons_append, calls_of_no_call none, ih later]
    rfl

/-- A call for filler text with so many zeros. -/
def longCall (digits : Nat) : List Char :=
  "lorem_ipsum(".toList ++ (List.replicate digits '0' ++ [')'])

theorem clear_zeros (f : Function) (before : Option Char) (digits : Nat) :
    f.clear before (List.replicate digits '0' ++ [')']) = true := by
  have zero (r : List Char) : differs f.name.toList ('0' :: r) = true := by
    cases f <;> rfl
  have close : differs f.name.toList [')'] = true := by cases f <;> rfl
  induction digits generalizing before with
  | zero => simp [clear, close]
  | succ n ih => simp [List.replicate_succ, clear, zero, ih]

theorem calls_nil (f : Function) (before : Option Char) : f.calls before [] = [] := by
  rw [calls]

theorem calls_longCall {f : Function} (hf : f ∈ all.dropLast) (digits : Nat) :
    f.calls (some '/') (longCall digits) = [] := by
  have name : ∀ f ∈ all.dropLast, f.clear (some '/') "lorem_ipsum(".toList = true := by
    decide +kernel
  have rest := calls_append_of_clear (clear_zeros f (some '(') digits) []
  have last : "lorem_ipsum(".toList.foldl (fun _ c => some c) (some '/') = some '(' := rfl
  rw [List.append_nil] at rest
  have first := calls_append_of_clear (name f hf) (List.replicate digits '0' ++ [')'])
  rw [last, rest, calls_nil] at first
  unfold longCall
  exact first

theorem loremIpsum_longCall (digits : Nat) :
    loremIpsum.calls (some '/') (longCall digits) = [.count (List.replicate digits '0')] := by
  have decimal : ∀ c ∈ List.replicate digits '0', isDecimal c = true := by
    intro c hc
    rw [List.eq_of_mem_replicate hc]
    decide
  have solid : stripLeft (List.replicate digits '0' ++ [')']) =
      List.replicate digits '0' ++ [')'] := by
    cases digits <;> rfl
  have none : isDecimal ')' = false := by decide
  have argument : argument? .loremIpsum ('(' :: (List.replicate digits '0' ++ [')'])) =
      some (.count (List.replicate digits '0'), []) := by
    simp only [argument?, countArgument?, solid]
    rw [List.takeWhile_append_of_pos decimal, List.dropWhile_append_of_pos decimal]
    simp [none, closed?, stripLeft, isBlank]
  have call : loremIpsum.call? (some '/') (longCall digits) =
      some (.count (List.replicate digits '0'), []) := by
    have word : isWord '/' = false := by decide
    have name : dropName? loremIpsum.name.toList (longCall digits) =
        some ('(' :: (List.replicate digits '0' ++ [')'])) := rfl
    rw [call?, name]
    simp [word, argument]
  obtain ⟨c, r, first⟩ : ∃ c r, longCall digits = c :: r := ⟨_, _, rfl⟩
  rw [first] at call ⊢
  rw [calls_of_call call, calls]

theorem replaceAllOf_of_no_calls {fs : List Function} {s : List Char}
    (h : ∀ f ∈ fs, f.calls none s = []) (src : Sources) (next : Nat) :
    replaceAllOf src fs next s = .ok (s, next) := by
  induction fs with
  | nil => rfl
  | cons f fs ih =>
    obtain ⟨first, rest⟩ := List.forall_mem_cons.1 h
    rw [replaceAllOf, replaceFrom_of_no_calls first]
    exact ih rest

/-- A text in which a call for filler text asks for too many words by its digits, whatever they say. -/
theorem overlong_longCall {digits : Nat} (h : Numeral.maxDigits < digits) (src : Sources) (next : Nat) :
    Overlong src next (String.ofList ("https://a/".toList ++ longCall digits)) := by
  have clear : ∀ f ∈ all, f.clear none "https://a/".toList = true := by decide +kernel
  have last : "https://a/".toList.foldl (fun _ c => some c) none = some '/' := rfl
  have passes : ∀ f ∈ all.dropLast, f.calls none ("https://a/".toList ++ longCall digits) = [] := by
    intro f hf
    rw [calls_append_of_clear (clear f (List.dropLast_subset _ hf)), last, calls_longCall hf]
  have long : loremIpsum.calls none ("https://a/".toList ++ longCall digits) =
      [.count (List.replicate digits '0')] := by
    rw [calls_append_of_clear (clear .loremIpsum (by decide)), last, loremIpsum_longCall]
  refine ⟨"https://a/".toList ++ longCall digits, next, ?_, .count (List.replicate digits '0'), ?_, ?_⟩
  · rw [String.toList_ofList]
    exact replaceAllOf_of_no_calls passes src next
  · rw [long]
    exact List.mem_cons_self
  · rw [Argument.Overlong, List.length_replicate]
    exact h

end Function

end DotHttp
