import DotHttp.Json.Reader
import DotHttp.Proofs.Numeral
import DotHttp.Proofs.Steps
import Mathlib.Data.List.TakeDrop
import Mathlib.Data.List.TakeWhile

/-!
Strings, numbers and words as they are read. What was read is read again with anything else behind it, as
long as that does not carry a number on.
-/

namespace DotHttp.Json

variable {c : Char} {s r rest used ds : List Char}

/-- A text that does not carry on a number before it. -/
def Apart (r : List Char) : Prop :=
  ∀ c ∈ r.head?, c.isDigit = false ∧ c ≠ '.' ∧ c ≠ 'e' ∧ c ≠ 'E'

theorem skipSpace_cons (h : isSpace c = false) (r : List Char) : skipSpace (c :: r) = c :: r := by
  simp [skipSpace, h]

theorem skipSpace_append (h : ∀ d ∈ s, isSpace d = true) (r : List Char) :
    skipSpace (s ++ r) = skipSpace r :=
  List.dropWhile_append_of_pos h

/-- What space is passed at the start of a text. -/
theorem exists_skipSpace (s : List Char) :
    ∃ space, s = space ++ skipSpace s ∧ ∀ d ∈ space, isSpace d = true :=
  ⟨s.takeWhile isSpace, List.takeWhile_append_dropWhile.symm, fun _ hd => List.mem_takeWhile_imp hd⟩

theorem isSpace_of_skipSpace (h : skipSpace s = c :: r) : isSpace c = false := by
  have first : isSpace ((skipSpace s).head (by simp [h])) = false := List.head_dropWhile_not ..
  simpa only [h, List.head_cons] using first

/-- A text behind space is found again behind that space when its first character is kept. -/
theorem exists_space (h : skipSpace s = c :: r) :
    ∃ space, s = space ++ c :: r ∧ (∀ d ∈ space, isSpace d = true) ∧
      ∀ r', skipSpace (space ++ c :: r') = c :: r' := by
  obtain ⟨space, split, spaces⟩ := exists_skipSpace s
  refine ⟨space, by rw [split, h], spaces, ?_⟩
  intro r'
  rw [skipSpace_append spaces, skipSpace_cons (isSpace_of_skipSpace h)]

theorem apart_of_isSpace (h : isSpace c = true) (r : List Char) : Apart (c :: r) := by
  rintro d ⟨⟩
  simp only [isSpace, Bool.or_eq_true, decide_eq_true_eq] at h
  rcases h with ((rfl | rfl) | rfl) | rfl <;> decide

theorem Apart.space (hr : Apart r) (hs : ∀ d ∈ s, isSpace d = true) : Apart (s ++ r) := by
  cases s with
  | nil => exact hr
  | cons d s => exact apart_of_isSpace (hs d List.mem_cons_self) _

theorem ne_of_isDigit {d : Char} (hc : c.isDigit = true) (hd : d.isDigit = false) : c ≠ d := by
  rintro rfl
  rw [hc] at hd
  cases hd

section Strings

variable {opening : Nat} {ps : List Piece}

/-- The pieces of a string are read again whatever follows its closing quote. -/
theorem pieces_local (h : pieces opening s = .ok (ps, rest)) :
    ∃ used, s = used ++ rest ∧ ∀ opening r, pieces opening (used ++ r) = .ok (ps, r) := by
  fun_induction pieces opening s generalizing ps with
  | case1 | case3 | case4 | case6 | case7 | case9 => cases h
  | case2 r =>
    cases h
    exact ⟨['"'], rfl, fun _ _ => by simp [pieces]⟩
  | case5 a b c d e r n hn ih =>
    obtain ⟨⟨ps, left⟩, found, same⟩ := map_eq_ok_iff.1 h
    cases same
    obtain ⟨used, split, again⟩ := ih found
    refine ⟨'\\' :: 'u' :: a :: b :: c :: d :: used, by simp [split], ?_⟩
    intro opening r'
    -- The string goes on behind the escape, for it has a closing quote there.
    cases used with
    | nil =>
      have ends := again 0 []
      rw [List.nil_append, pieces] at ends
      cases ends
    | cons x used =>
      have later := again opening r'
      simp only [List.cons_append] at later ⊢
      rw [pieces_unit hn, later]
      rfl
  | case8 c r _ _ x hx ih =>
    obtain ⟨⟨ps, left⟩, found, same⟩ := map_eq_ok_iff.1 h
    cases same
    obtain ⟨used, rfl, again⟩ := ih found
    refine ⟨'\\' :: c :: used, rfl, ?_⟩
    intro opening r'
    rw [List.cons_append, List.cons_append, pieces_escape hx, again]
    rfl
  | case10 c r hq hb₁ _ _ hb₂ hc ih =>
    have hb : c ≠ '\\' := by
      intro hb
      cases r with
      | nil => exact hb₁ hb rfl
      | cons d t => exact hb₂ d t hb rfl
    obtain ⟨⟨ps, left⟩, found, same⟩ := map_eq_ok_iff.1 h
    cases same
    obtain ⟨used, rfl, again⟩ := ih found
    refine ⟨c :: used, rfl, ?_⟩
    intro opening r'
    rw [List.cons_append, pieces_plain hq hb hc, again]
    rfl

theorem readString_local {text : Symbols} (h : readString opening s = .ok (text, rest)) :
    ∃ used, s = used ++ rest ∧ ∀ opening r, readString opening (used ++ r) = .ok (text, r) := by
  obtain ⟨⟨ps, left⟩, found, same⟩ := map_eq_ok_iff.1 h
  cases same
  obtain ⟨used, split, again⟩ := pieces_local found
  refine ⟨used, split, ?_⟩
  intro opening r
  rw [readString, again]
  rfl

end Strings

section Numbers

theorem takeDigits_append (hs : ∀ d ∈ ds, d.isDigit = true)
    (hr : ∀ d ∈ r.head?, d.isDigit = false) : takeDigits (ds ++ r) = (ds, r) := by
  rw [takeDigits, List.span_eq_takeWhile_dropWhile, List.takeWhile_append_of_pos hs,
    List.dropWhile_append_of_pos hs]
  cases r with
  | nil => simp
  | cons d r => simp [hr d rfl]

theorem of_takeDigits (h : takeDigits s = (ds, r)) : s = ds ++ r ∧ ∀ d ∈ ds, d.isDigit = true := by
  rw [takeDigits, List.span_eq_takeWhile_dropWhile] at h
  cases h
  exact ⟨List.takeWhile_append_dropWhile.symm, fun _ hd => List.mem_takeWhile_imp hd⟩

theorem takeDigits_digit (h : c.isDigit = true) (s r : List Char) :
    takeDigits (c :: s) ≠ ([], r) := by
  simp [takeDigits, List.span_eq_takeWhile_dropWhile, h]

theorem wholePart?_local {whole : List Char} (h : wholePart? s = some (whole, rest)) :
    s = whole ++ rest ∧ whole ≠ [] ∧ (∀ d ∈ whole, d.isDigit = true) ∧
      ∀ r, (∀ d ∈ r.head?, d.isDigit = false) → wholePart? (whole ++ r) = some (whole, r) := by
  cases s with
  | nil => cases h
  | cons c s =>
    rw [wholePart?] at h
    split at h
    · next zero =>
      cases h
      subst zero
      exact ⟨rfl, by simp, by simp, fun r _ => rfl⟩
    · next other =>
      split at h
      · next digit =>
        obtain ⟨split, digits⟩ := of_takeDigits (Option.some.inj h)
        cases whole with
        | nil =>
          exact (takeDigits_digit digit s rest (Option.some.inj h)).elim
        | cons d whole =>
          obtain ⟨rfl, rfl⟩ := List.cons.inj split
          refine ⟨rfl, by simp, digits, ?_⟩
          intro r hr
          rw [List.cons_append, wholePart?, if_neg other, if_pos digit, ← List.cons_append,
            takeDigits_append digits hr]
      · cases h

theorem fractionPart_none (h : ∀ d ∈ r.head?, d ≠ '.') : fractionPart r = ([], r) := by
  cases r with
  | nil => rfl
  | cons d r => exact fractionPart.eq_2 _ fun _ _ hd => h d rfl (List.cons.inj hd).1

theorem fractionPart_local {fraction : List Char} (h : fractionPart s = (fraction, rest)) :
    ∃ used, s = used ++ rest ∧ (∀ d ∈ used.head?, d = '.') ∧
      ∀ r, (∀ d ∈ r.head?, d.isDigit = false ∧ d ≠ '.') →
        fractionPart (used ++ r) = (fraction, r) := by
  have none : ∀ r, (∀ d ∈ r.head?, d.isDigit = false ∧ d ≠ '.') → fractionPart r = ([], r) :=
    fun r hr => fractionPart_none fun d hd => (hr d hd).2
  unfold fractionPart at h
  split at h
  · next d t =>
    split at h
    · next digit =>
      obtain ⟨split, digits⟩ := of_takeDigits h
      refine ⟨'.' :: fraction, by rw [split, List.cons_append], by simp, ?_⟩
      intro r hr
      cases fraction with
      | nil =>
        exact (takeDigits_digit digit t rest h).elim
      | cons x fraction =>
        rw [List.cons_append, List.cons_append, fractionPart, if_pos (digits x List.mem_cons_self),
          ← List.cons_append, takeDigits_append digits fun d hd => (hr d hd).1]
    · cases h
      exact ⟨[], rfl, by simp, none⟩
  · cases h
    exact ⟨[], rfl, by simp, none⟩

/-- The sign of an exponent, and what follows it. -/
def exponentSign : List Char → Bool × List Char
  | '+' :: t => (false, t)
  | '-' :: t => (true, t)
  | t => (false, t)

theorem exponentSign_digit (h : c.isDigit = true) (r : List Char) :
    exponentSign (c :: r) = (false, c :: r) := by
  apply exponentSign.eq_3
  · rintro t ⟨⟩
    cases h
  · rintro t ⟨⟩
    cases h

theorem exponentSign_local (s : List Char) : ∃ sign, s = sign ++ (exponentSign s).2 ∧
    ∀ d r, d.isDigit = true → exponentSign (sign ++ d :: r) = ((exponentSign s).1, d :: r) := by
  fun_cases exponentSign s with
  | case1 t => exact ⟨['+'], rfl, fun _ _ _ => rfl⟩
  | case2 t => exact ⟨['-'], rfl, fun _ _ _ => rfl⟩
  | case3 => exact ⟨[], rfl, fun _ _ hd => exponentSign_digit hd _⟩

theorem exponentPart_cons (h : (c = 'e' || c = 'E') = true) (s : List Char) :
    exponentPart (c :: s) =
      match takeDigits (exponentSign s).2 with
      | ([], _) => (none, c :: s)
      | (ds, rest) => (some ((exponentSign s).1, ds), rest) := by
  simp only [exponentPart, h, if_true]
  rfl

theorem exponentPart_none (h : Apart r) : exponentPart r = (none, r) := by
  cases r with
  | nil => rfl
  | cons d r => simp [exponentPart, (h d rfl).2.2]

theorem exponentPart_local {exponent : Option (Bool × List Char)}
    (h : exponentPart s = (exponent, rest)) :
    ∃ used, s = used ++ rest ∧ (∀ d ∈ used.head?, d = 'e' ∨ d = 'E') ∧
      ∀ r, Apart r → exponentPart (used ++ r) = (exponent, r) := by
  cases s with
  | nil =>
    cases h
    exact ⟨[], rfl, by simp, fun _ => exponentPart_none⟩
  | cons e t =>
    by_cases he : (e = 'e' || e = 'E') = true
    · rw [exponentPart_cons he] at h
      obtain ⟨sign, signed, again⟩ := exponentSign_local t
      split at h
      · cases h
        exact ⟨[], rfl, by simp, fun _ => exponentPart_none⟩
      · next ds left nonempty found =>
        cases h
        obtain ⟨split, digits⟩ := of_takeDigits found
        refine ⟨e :: (sign ++ ds), by rw [signed, split]; simp, by simpa using he, ?_⟩
        intro r hr
        cases ds with
        | nil => exact (nonempty rfl).elim
        | cons d ds =>
          have more := takeDigits_append digits fun x hx => (hr x hx).1
          rw [List.cons_append, List.append_assoc, exponentPart_cons he, List.cons_append,
            again d _ (digits d List.mem_cons_self), ← List.cons_append, more]
    · rw [Bool.not_eq_true] at he
      simp only [exponentPart, he, Bool.false_eq_true, if_false] at h
      cases h
      exact ⟨[], rfl, by simp, fun _ => exponentPart_none⟩

/-- The text of a number after its sign. -/
def numberBody (negative : Bool) (s : List Char) : Option (NumberText × List Char) :=
  (wholePart? s).map fun (whole, r) =>
    (⟨negative, whole, (fractionPart r).1, (exponentPart (fractionPart r).2).1⟩,
      (exponentPart (fractionPart r).2).2)

theorem numberText?_minus (s : List Char) : numberText? ('-' :: s) = numberBody true s := rfl

theorem numberText?_plain (h : s.head? ≠ some '-') : numberText? s = numberBody false s := by
  unfold numberText?
  split
  next negative body sign =>
    split at sign
    · exact (h rfl).elim
    · cases sign
      rfl

theorem numberBody_local {negative : Bool} {t : NumberText}
    (h : numberBody negative s = some (t, rest)) :
    ∃ used, s = used ++ rest ∧ (∃ c more, used = c :: more ∧ c.isDigit = true) ∧
      ∀ r, Apart r → numberBody negative (used ++ r) = some (t, r) := by
  obtain ⟨⟨whole, r₁⟩, found, same⟩ := Option.map_eq_some_iff.1 h
  cases hf : fractionPart r₁ with
  | mk fraction r₂ =>
    cases he : exponentPart r₂ with
    | mk exponent r₃ =>
      simp only [hf, he, Prod.mk.injEq] at same
      obtain ⟨rfl, rfl⟩ := same
      obtain ⟨rfl, nonempty, digits, wholeAgain⟩ := wholePart?_local found
      obtain ⟨point, rfl, pointed, fractionAgain⟩ := fractionPart_local hf
      obtain ⟨power, rfl, powered, exponentAgain⟩ := exponentPart_local he
      refine ⟨whole ++ (point ++ power), by simp, ?_, ?_⟩
      · obtain ⟨c, more, rfl⟩ := List.exists_cons_of_ne_nil nonempty
        exact ⟨c, _, rfl, digits c List.mem_cons_self⟩
      · intro r hr
        -- What follows each part of the number does not carry that part on.
        have afterFraction : ∀ d ∈ (power ++ r).head?, d.isDigit = false ∧ d ≠ '.' := by
          cases power with
          | nil => exact fun d hd => ⟨(hr d hd).1, (hr d hd).2.1⟩
          | cons e power =>
            rintro d ⟨⟩
            rcases powered e rfl with rfl | rfl <;> decide
        have afterWhole : ∀ d ∈ (point ++ (power ++ r)).head?, d.isDigit = false := by
          cases point with
          | nil => exact fun d hd => (afterFraction d hd).1
          | cons e point =>
            rintro d ⟨⟩
            rw [pointed e rfl]
            rfl
        rw [List.append_assoc, List.append_assoc, numberBody, wholeAgain _ afterWhole]
        simp only [Option.map_some, fractionAgain _ afterFraction, exponentAgain r hr]

/-- A number is read again. It begins with a digit, or with a minus sign and a digit. -/
theorem numberText?_local {t : NumberText} (h : numberText? s = some (t, rest)) :
    ∃ used, s = used ++ rest ∧
      (∃ c more, c.isDigit = true ∧ (used = c :: more ∨ used = '-' :: c :: more)) ∧
      ∀ r, Apart r → numberText? (used ++ r) = some (t, r) := by
  by_cases minus : s.head? = some '-'
  · cases s with
    | nil => cases minus
    | cons c s =>
      cases minus
      rw [numberText?_minus] at h
      obtain ⟨used, rfl, ⟨c, more, rfl, digit⟩, again⟩ := numberBody_local h
      exact ⟨'-' :: c :: more, rfl, ⟨c, more, digit, .inr rfl⟩, again⟩
  · rw [numberText?_plain minus] at h
    obtain ⟨used, rfl, ⟨c, more, rfl, digit⟩, again⟩ := numberBody_local h
    refine ⟨c :: more, rfl, ⟨c, more, digit, .inl rfl⟩, ?_⟩
    intro r hr
    rw [numberText?_plain, again r hr]
    exact minus

/-- The digits of a number that was read, before its point. -/
theorem whole_of_numberText? {t : NumberText} (h : numberText? s = some (t, rest)) :
    t.whole ≠ [] ∧ ∀ d ∈ t.whole, d.isDigit = true := by
  obtain ⟨⟨whole, r⟩, found, same⟩ := Option.map_eq_some_iff.1 h
  cases same
  obtain ⟨-, nonempty, digits, -⟩ := wholePart?_local found
  exact ⟨nonempty, digits⟩

end Numbers

/-- The word that a text begins with, with its value. -/
def keyword? (s : List Char) : Option (Json × List Char) :=
  keywords.findSome? fun (w, v) => (Text.dropStart? w s).map fun rest => (v, rest)

theorem keyword?_local {v : Json} (h : keyword? s = some (v, rest)) :
    ∃ used, s = used ++ rest ∧ used ≠ [] ∧ ∀ r, keyword? (used ++ r) = some (v, r) := by
  obtain ⟨⟨w, v'⟩, listed, found⟩ := List.exists_of_findSome?_eq_some h
  obtain ⟨rest', dropped, same⟩ := Option.map_eq_some_iff.1 found
  cases same
  refine ⟨w, Text.dropStart?_eq_some_iff.1 dropped, ?_⟩
  simp only [keywords, List.mem_cons, Prod.mk.injEq, List.not_mem_nil, or_false] at listed
  rcases listed with ⟨rfl, rfl⟩ | ⟨rfl, rfl⟩ | ⟨rfl, rfl⟩ | ⟨rfl, rfl⟩ | ⟨rfl, rfl⟩ | ⟨rfl, rfl⟩ <;>
    exact ⟨by decide, fun _ => rfl⟩

theorem keyword?_of_numberText? {t : NumberText} (h : numberText? s = some (t, rest)) :
    keyword? s = none := by
  obtain ⟨used, rfl, ⟨c, more, digit, begins⟩, -⟩ := numberText?_local h
  have letter (d : Char) (hd : d.isDigit = false) : d ≠ c := (ne_of_isDigit digit hd).symm
  have n := letter 'n' rfl
  have t := letter 't' rfl
  have f := letter 'f' rfl
  have N := letter 'N' rfl
  have I := letter 'I' rfl
  have minus := letter '-' rfl
  rcases begins with rfl | rfl <;>
    simp [keyword?, keywords, Text.dropStart?, n, t, f, N, I, minus]

theorem readPlain_of_keyword {v : Json} (h : keyword? s = some (v, rest)) :
    readPlain s = .ok (v, rest) := by
  rw [readPlain, ← keyword?, h]

theorem readPlain_of_number {t : NumberText} (h : numberText? s = some (t, rest)) :
    readPlain s = t.value.map fun v => (v, rest) := by
  rw [readPlain, ← keyword?, keyword?_of_numberText? h, h]

/-- A value without parts is read again, from a first character that opens nothing. -/
theorem readPlain_local {v : Json} (h : readPlain s = .ok (v, rest)) :
    ∃ used, s = used ++ rest ∧ used ≠ [] ∧
      ∀ r, Apart r → readPlain (used ++ r) = .ok (v, r) := by
  cases hk : keyword? s with
  | some found =>
    obtain ⟨v', rest'⟩ := found
    rw [readPlain_of_keyword hk] at h
    cases h
    obtain ⟨used, split, nonempty, again⟩ := keyword?_local hk
    exact ⟨used, split, nonempty, fun r _ => readPlain_of_keyword (again r)⟩
  | none =>
    cases hn : numberText? s with
    | none =>
      rw [readPlain, ← keyword?, hk, hn] at h
      cases h
    | some found =>
      obtain ⟨t, rest'⟩ := found
      rw [readPlain_of_number hn] at h
      obtain ⟨v', value, same⟩ := map_eq_ok_iff.1 h
      cases same
      obtain ⟨used, split, ⟨c, more, -, begins⟩, again⟩ := numberText?_local hn
      refine ⟨used, split, ?_, ?_⟩
      · rcases begins with rfl | rfl <;> simp
      · intro r hr
        rw [readPlain_of_number (again r hr), value]
        rfl

/-- A value without parts that is no string. A whole number has no more digits than a numeral may have. -/
inductive Scalar : Json → Prop
  | null : Scalar .null
  | bool (b : Bool) : Scalar (.bool b)
  | integer {n : Int} (short : (Nat.toDigits 10 n.natAbs).length ≤ Numeral.maxDigits) :
      Scalar (.integer n)
  | number (x : Binary64) : Scalar (.number x)

theorem natAbs_signed (negative : Bool) (n : Nat) : (Binary64.signed negative n).natAbs = n := by
  cases negative <;> simp [Binary64.signed]

theorem scalar_of_value {t : NumberText} {v : Json} (nonempty : t.whole ≠ [])
    (digits : ∀ d ∈ t.whole, d.isDigit = true) (h : t.value = .ok v) : Scalar v := by
  unfold NumberText.value at h
  split at h
  · rw [Numeral.ofDigits, Numeral.length_plainDigits digits] at h
    split at h
    · next n few =>
      split at few
      · next fits =>
        cases few
        cases h
        apply Scalar.integer
        rw [natAbs_signed]
        exact Nat.le_trans (Numeral.length_toDigits_valueOf digits nonempty) fits
      · cases few
    · cases h
  · cases h
    exact .number _

theorem scalar_of_readPlain {v : Json} (h : readPlain s = .ok (v, rest)) : Scalar v := by
  cases hk : keyword? s with
  | some found =>
    rw [readPlain_of_keyword hk] at h
    cases h
    obtain ⟨⟨w, v'⟩, listed, found⟩ := List.exists_of_findSome?_eq_some hk
    obtain ⟨_, -, same⟩ := Option.map_eq_some_iff.1 found
    cases same
    simp only [keywords, List.mem_cons, Prod.mk.injEq, List.not_mem_nil, or_false] at listed
    rcases listed with ⟨-, rfl⟩ | ⟨-, rfl⟩ | ⟨-, rfl⟩ | ⟨-, rfl⟩ | ⟨-, rfl⟩ | ⟨-, rfl⟩
    · exact .null
    · exact .bool true
    · exact .bool false
    · exact .number .nan
    · exact .number (.infinite false)
    · exact .number (.infinite true)
  | none =>
    cases hn : numberText? s with
    | none =>
      rw [readPlain, ← keyword?, hk, hn] at h
      cases h
    | some found =>
      rw [readPlain_of_number hn] at h
      obtain ⟨v', valued, same⟩ := map_eq_ok_iff.1 h
      cases same
      obtain ⟨nonempty, digits⟩ := whole_of_numberText? hn
      exact scalar_of_value nonempty digits valued

end DotHttp.Json
