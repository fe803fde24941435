import DotHttp.Duration
import DotHttp.Proofs.Numeral
import DotHttp.Proofs.Steps
import DotHttp.Proofs.Text.Blank

/-!
Durations as they are written: any number of milliseconds up to the limit, with its unit. Reading a
literal goes wrong only where its number has too many digits.
-/

namespace DotHttp.Duration

open DotHttp.Text

theorem isBlank_of_isDigit {c : Char} (h : c.isDigit = true) : isBlank c = false := by
  simp only [Char.isDigit, Bool.and_eq_true, decide_eq_true_eq, UInt32.le_iff_toNat_le] at h
  obtain ⟨low, high⟩ := h
  change 48 ≤ c.val.toNat at low
  change c.val.toNat ≤ 57 at high
  simp only [isBlank, Char.toNat]
  grind

theorem compact_toDigits (n : Nat) : Compact (Nat.toDigits 10 n) :=
  ⟨Nat.toDigits_ne_nil, fun _ hc => isBlank_of_isDigit (Numeral.isDigit_of_mem_toDigits hc)⟩

/-- The units of a literal with their milliseconds; a number without one counts `bare` of them. -/
inductive Scale (bare : Nat) : List Char → Nat → Prop
  | bare : Scale bare [] bare
  | milliseconds : Scale bare ['m', 's'] 1
  | seconds : Scale bare ['s'] 1000
  | minutes : Scale bare ['m'] 60000

theorem mem_units_iff {bare : Nat} {unit : List Char} :
    unit ∈ [] :: units.map Prod.fst ↔ ∃ factor, Scale bare unit factor := by
  constructor
  · intro h
    simp only [units, List.map_cons, List.map_nil, List.mem_cons, List.not_mem_nil, or_false] at h
    rcases h with rfl | rfl | rfl | rfl
    · exact ⟨_, .bare⟩
    · exact ⟨_, .milliseconds⟩
    · exact ⟨_, .minutes⟩
    · exact ⟨_, .seconds⟩
  · rintro ⟨factor, scale⟩
    cases scale <;> decide

/-- A number of milliseconds as it is written: digits and a unit, with white space around them. -/
inductive Literal (bare : Nat) : List Char → Nat → Prop
  | intro {before digits between unit after : List Char} {factor : Nat}
      (blank : Blank before ∧ Blank between ∧ Blank after)
      (nonempty : digits ≠ []) (all : ∀ c ∈ digits, c.isDigit = true)
      (scale : Scale bare unit factor) (amount : Nat.ofDigitChars 10 digits 0 ≤ limit)
      (total : Nat.ofDigitChars 10 digits 0 * factor ≤ limit) :
      Literal bare (before ++ digits ++ between ++ unit ++ after)
        (Nat.ofDigitChars 10 digits 0 * factor)

theorem amount?_eq_some_iff {s : List Char} {d : Nat} : amount? s = .ok (some d) ↔
    strip s ≠ [] ∧ (∀ c ∈ strip s, c.isDigit = true) ∧ (strip s).length ≤ Numeral.maxDigits ∧
      Nat.ofDigitChars 10 (strip s) 0 = d ∧ d ≤ limit := by
  unfold amount?
  dsimp only
  split
  · next other =>
    rw [Bool.or_eq_true, Bool.not_eq_true', List.isEmpty_iff, List.all_eq_false] at other
    constructor
    · intro h
      cases h
    · rintro ⟨nonempty, digits, -⟩
      obtain empty | ⟨c, hc, letter⟩ := other
      · exact (nonempty empty).elim
      · exact (letter (digits c hc)).elim
  · next shaped =>
    simp only [Bool.or_eq_true, Bool.not_eq_true', not_or, List.isEmpty_iff, Bool.not_eq_false,
      List.all_eq_true] at shaped
    obtain ⟨nonempty, digits⟩ := shaped
    have value : Numeral.valueOf (Numeral.plainDigits (strip s)) =
        Nat.ofDigitChars 10 (strip s) 0 := by
      rw [Numeral.plainDigits_of_isDigit digits, Numeral.valueOf, List.foldl_map]
      rfl
    rw [Numeral.ofDigits, Numeral.length_plainDigits digits, value]
    split
    · next few =>
      simp only [Except.map, Except.ok.injEq, Option.ite_none_right_eq_some, Option.some.injEq]
      constructor
      · rintro ⟨small, rfl⟩
        exact ⟨nonempty, digits, few, rfl, small⟩
      · rintro ⟨-, -, -, rfl, small⟩
        exact ⟨small, rfl⟩
    · next many =>
      constructor
      · intro h
        cases h
      · rintro ⟨-, -, few, -⟩
        exact (many few).elim

/-- The digits of a number up to the limit are read as the number. -/
theorem amount?_toDigits {n : Nat} (h : n ≤ limit) :
    amount? (Nat.toDigits 10 n) = .ok (some n) := by
  have short : (Nat.toDigits 10 n).length ≤ Numeral.maxDigits := by
    have twenty : (Nat.toDigits 10 n).length ≤ 20 :=
      (Nat.length_toDigits_le_iff (by decide) (by decide)).2 (Nat.lt_of_le_of_lt h (by decide))
    exact Nat.le_trans twenty (by decide)
  rw [amount?_eq_some_iff, strip_of_compact (compact_toDigits n)]
  exact ⟨Nat.toDigits_ne_nil, fun _ => Numeral.isDigit_of_mem_toDigits, short,
    Nat.ofDigitChars_toDigits (by decide) (by decide), h⟩

/-- A text of digits with white space around them ends in a digit or in white space. -/
theorem getLast_of_strip_digits {number : List Char}
    (digits : ∀ c ∈ strip number, c.isDigit = true) {c : Char} {rest : List Char}
    (h : number = rest ++ [c]) : c.isDigit = true ∨ isBlank c = true := by
  by_cases blank : isBlank c = true
  · exact .inr blank
  · left
    apply digits
    have kept : stripRight number = rest ++ [c] := by
      rw [h, stripRight_append_cons (Bool.eq_false_iff.2 blank)]
      rfl
    rw [← stripLeft_stripRight, kept]
    by_cases all : ∀ d ∈ rest, isBlank d = true
    · rw [stripLeft, List.dropWhile_append_of_pos all]
      simp [blank]
    · rw [stripLeft, List.dropWhile_append]
      split
      · simp [blank]
      · simp

theorem splitUnit_scale (bare : Nat) (s : List Char) :
    ∃ unit, s = (splitUnit bare s).1 ++ unit ∧ Scale bare unit (splitUnit bare s).2 := by
  unfold splitUnit
  generalize h : units.findSome? _ = found
  cases found with
  | none => exact ⟨[], by simp, .bare⟩
  | some found =>
    obtain ⟨⟨unit, factor⟩, hu, hf⟩ := List.exists_of_findSome?_eq_some h
    obtain ⟨number, hn, rfl⟩ := Option.map_eq_some_iff.1 hf
    refine ⟨unit, dropEnd?_eq_some_iff.1 hn, ?_⟩
    simp only [units, List.mem_cons, Prod.mk.injEq, List.not_mem_nil, or_false] at hu
    rcases hu with ⟨rfl, rfl⟩ | ⟨rfl, rfl⟩ | ⟨rfl, rfl⟩
    · exact .milliseconds
    · exact .minutes
    · exact .seconds

theorem splitUnit_of_scale {bare factor : Nat} {number unit : List Char}
    (scale : Scale bare unit factor) (digits : ∀ c ∈ strip number, c.isDigit = true) (nonempty : number ≠ []) :
    splitUnit bare (number ++ unit) = (number, factor) := by
  obtain ⟨rest, c, rfl⟩ : ∃ rest c, number = rest ++ [c] :=
    ⟨_, _, (List.dropLast_append_getLast nonempty).symm⟩
  have plain : c ≠ 'm' ∧ c ≠ 's' := by
    constructor <;> rintro rfl <;> exact absurd (getLast_of_strip_digits digits rfl) (by decide)
  cases scale <;>
    simp [splitUnit, units, dropEnd?, dropStart?, Ne.symm plain.1, Ne.symm plain.2]

theorem read_eq_some_iff {s : List Char} {bare n : Nat} : read s bare = .ok (some n) ↔
    ∃ number unit factor d, strip s = number ++ unit ∧ Scale bare unit factor ∧
      amount? number = .ok (some d) ∧ d * factor = n ∧ n ≤ limit := by
  unfold read
  dsimp only
  constructor
  · intro h
    split at h
    · cases h
    · obtain ⟨unit, split, scale⟩ := splitUnit_scale bare (strip s)
      obtain ⟨o, ho, product⟩ := map_eq_ok_iff.1 h
      obtain ⟨d, rfl, product⟩ := Option.bind_eq_some_iff.1 product
      obtain ⟨small, total⟩ := Option.ite_none_right_eq_some.1 product
      cases total
      exact ⟨_, unit, _, d, split, scale, ho, rfl, small⟩
  · rintro ⟨number, unit, factor, d, split, scale, amount, rfl, small⟩
    obtain ⟨nonempty, digits, -⟩ := amount?_eq_some_iff.1 amount
    have some_ : number ≠ [] := by
      rintro rfl
      exact nonempty rfl
    rw [split, splitUnit_of_scale scale digits some_, amount, if_neg (by simp [some_])]
    simp [Except.map, times, small]

theorem toList_milliseconds (n : Nat) :
    (toString n ++ "ms").toList = Nat.toDigits 10 n ++ ['m', 's'] := by simp

theorem compact_milliseconds (n : Nat) : Compact (toString n ++ "ms").toList := by
  rw [toList_milliseconds]
  have units : Compact ['m', 's'] := by decide
  exact ⟨by simp, List.forall_mem_append.2 ⟨(compact_toDigits n).solid, units.solid⟩⟩

/-- Every number of milliseconds up to the limit reads as itself. -/
theorem read_milliseconds {n : Nat} (h : n ≤ limit) (bare : Nat) :
    read (toString n ++ "ms").toList bare = .ok (some n) := by
  rw [read_eq_some_iff, strip_of_compact (compact_milliseconds n), toList_milliseconds]
  exact ⟨_, _, _, n, rfl, .milliseconds, amount?_toDigits h, Nat.mul_one n, h⟩

/-- A duration that is read is up to the limit. -/
theorem read_le {s : List Char} {bare n : Nat} (h : read s bare = .ok (some n)) : n ≤ limit := by
  obtain ⟨number, unit, factor, d, -, -, -, -, small⟩ := read_eq_some_iff.1 h
  exact small

/-- A literal whose number, before its unit, has more digits than a numeral may have. -/
def Overlong (s : List Char) : Prop :=
  ∃ number unit, strip s = number ++ unit ∧ unit ∈ [] :: units.map Prod.fst ∧
    (∀ c ∈ strip number, c.isDigit = true) ∧ Numeral.maxDigits < (strip number).length

theorem amount?_error_iff (s : List Char) : (∃ e, amount? s = .error e) ↔
    (∀ c ∈ strip s, c.isDigit = true) ∧ Numeral.maxDigits < (strip s).length := by
  unfold amount?
  by_cases digits : ∀ c ∈ strip s, c.isDigit = true
  · have all : (strip s).all Char.isDigit = true := List.all_eq_true.2 digits
    by_cases long : Numeral.maxDigits < (strip s).length
    · have nonempty : (strip s).isEmpty = false := by
        rw [List.isEmpty_eq_false_iff, ← List.length_pos_iff]
        omega
      have many : ¬ (strip s).length ≤ Numeral.maxDigits := by omega
      refine ⟨fun _ => ⟨digits, long⟩, fun _ => ⟨.tooManyDigits, ?_⟩⟩
      simp [all, nonempty, Numeral.plainDigits_of_isDigit digits, Numeral.ofDigits, many, Except.map]
    · refine ⟨fun ⟨e, he⟩ => ?_, fun h => (long h.2).elim⟩
      have few : (strip s).length ≤ Numeral.maxDigits := by omega
      dsimp only at he
      split at he
      · cases he
      · simp [Numeral.plainDigits_of_isDigit digits, Numeral.ofDigits, few, Except.map] at he
  · refine ⟨fun ⟨e, he⟩ => ?_, fun h => (digits h.1).elim⟩
    have some : (strip s).all Char.isDigit = false := by
      rw [List.all_eq_false]
      simpa using digits
    simp [some] at he

theorem ne_nil_of_overlong {number : List Char} (long : Numeral.maxDigits < (strip number).length) :
    number ≠ [] := by
  rintro rfl
  exact absurd long (by decide)

/-- Reading a literal fails only where its number is too long to be looked at. -/
theorem read_error_iff (s : List Char) (bare : Nat) :
    (∃ e, read s bare = .error e) ↔ Overlong s := by
  unfold read Overlong
  dsimp only
  by_cases empty : strip s = []
  · -- Nothing is left to hold a digit.
    refine ⟨fun ⟨e, he⟩ => ?_, fun ⟨number, unit, split, _, _, long⟩ => ?_⟩
    · simp [empty] at he
    · rw [empty] at split
      exact (ne_nil_of_overlong long (List.append_eq_nil_iff.1 split.symm).1).elim
  · rw [if_neg (by simpa using empty), exists_map_error, amount?_error_iff]
    constructor
    · rintro ⟨digits, long⟩
      obtain ⟨unit, split, scale⟩ := splitUnit_scale bare (strip s)
      exact ⟨_, unit, split, mem_units_iff.2 ⟨_, scale⟩, digits, long⟩
    · rintro ⟨number, unit, split, hu, digits, long⟩
      obtain ⟨factor, scale⟩ := mem_units_iff.1 hu
      rw [split, splitUnit_of_scale scale digits (ne_nil_of_overlong long)]
      exact ⟨digits, long⟩

/-- Cutting the ends of a literal leaves its number and its unit. -/
theorem strip_number_unit {bare factor : Nat} {before digits between unit after : List Char}
    (hb : Blank before) (hi : Blank between) (ha : Blank after) (nonempty : digits ≠ [])
    (all : ∀ c ∈ digits, c.isDigit = true) (scale : Scale bare unit factor) :
    ∃ number, strip (before ++ digits ++ between ++ unit ++ after) = number ++ unit ∧
      strip number = digits := by
  have solid : Compact digits := ⟨nonempty, fun c hc => isBlank_of_isDigit (all c hc)⟩
  have number : strip (digits ++ between) = digits := by
    have cut := strip_around (s := []) (fun _ hc => (List.not_mem_nil hc).elim) hi digits
    rw [List.nil_append] at cut
    rw [cut, strip_of_compact solid]
  by_cases bare_ : unit = []
  · subst bare_
    refine ⟨digits, ?_, strip_of_compact solid⟩
    rw [List.append_nil, List.append_assoc _ between, strip_around hb, strip_of_compact solid,
      List.append_nil]
    exact List.forall_mem_append.2 ⟨hi, ha⟩
  · refine ⟨digits ++ between, ?_, number⟩
    have ending : stripRight unit = unit := by cases scale <;> rfl
    obtain ⟨c, rest, rfl⟩ := List.exists_cons_of_ne_nil nonempty
    have cut := strip_cons_append (solid.solid c List.mem_cons_self) (rest ++ between) ending bare_
    rw [List.append_assoc before, List.append_assoc before, strip_around hb ha]
    simpa using cut

theorem read_eq_some_iff_literal {s : List Char} (short : s.length ≤ Numeral.maxDigits)
    {bare n : Nat} : read s bare = .ok (some n) ↔ Literal bare s n := by
  rw [read_eq_some_iff]
  constructor
  · rintro ⟨number, unit, factor, d, split, scale, amount, rfl, small⟩
    obtain ⟨nonempty, digits, -, rfl, le⟩ := amount?_eq_some_iff.1 amount
    obtain ⟨before, after, around, hb, ha⟩ := exists_strip s
    obtain ⟨before', between, inside, hb', hi⟩ := exists_strip number
    have whole : s = before ++ before' ++ strip number ++ between ++ unit ++ after := by
      rw [around, split]
      nth_rewrite 1 [inside]
      simp only [List.append_assoc]
    rw [whole]
    exact .intro ⟨List.forall_mem_append.2 ⟨hb, hb'⟩, hi, ha⟩ nonempty digits scale le small
  · rintro ⟨⟨hb, hi, ha⟩, nonempty, all, scale, amount, total⟩
    obtain ⟨number, split, rfl⟩ := strip_number_unit hb hi ha nonempty all scale
    have few : (strip number).length ≤ Numeral.maxDigits := by
      simp only [List.length_append] at short
      omega
    exact ⟨number, _, _, _, split, scale,
      amount?_eq_some_iff.2 ⟨nonempty, all, few, rfl, amount⟩, rfl, total⟩

/-- A text with no more characters than a numeral may have digits is read: as the number of
milliseconds that it is a literal of, and as no duration if there is none. -/
theorem read_literal {s : List Char} (short : s.length ≤ Numeral.maxDigits) (bare : Nat) :
    ∃ o, read s bare = .ok o ∧ (∀ n, o = some n ↔ Literal bare s n) ∧ ∀ n ∈ o, n ≤ limit := by
  cases h : read s bare with
  | error e =>
    obtain ⟨number, unit, split, -, -, long⟩ := (read_error_iff s bare).1 ⟨e, h⟩
    have cut := (strip_sublist s).length_le
    have inner := (strip_sublist number).length_le
    rw [split, List.length_append] at cut
    omega
  | ok o =>
    refine ⟨o, rfl, fun n => ?_, ?_⟩
    · rw [← read_eq_some_iff_literal short, h, Except.ok.injEq]
    · rintro n rfl
      exact read_le h

/-- The most minutes that a duration can have, with white space wherever it may stand. -/
theorem read_literal_minutes :
    let s := "\u00a0307445734561825 \t m\u2003".toList
    s.length ≤ Numeral.maxDigits ∧ read s 1000 = .ok (some 18446744073709500000) ∧
      ∃ o, read s 1000 = .ok o ∧ (∀ n, o = some n ↔ Literal 1000 s n) ∧ ∀ n ∈ o, n ≤ limit := by
  intro s
  have short : s.length ≤ Numeral.maxDigits := by decide
  exact ⟨short, by decide +kernel, read_literal short 1000⟩

end DotHttp.Duration
