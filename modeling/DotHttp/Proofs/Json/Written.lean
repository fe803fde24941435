import DotHttp.Json.Writer
import DotHttp.Proofs.Json.Distinct

/-!
Strings and whole numbers as they are written. A character is written as itself, by a short escape or by
one or two code units, and each of these is read as that character again.
-/

namespace DotHttp.Json

variable {opening : Nat} {c : Char} {r : List Char}

section Strings

theorem hexValue?_hexDigit : ∀ n < 16, hexValue? (Text.hexDigit n) = some n := by decide

/-- The four digits of a code unit are read as the unit. -/
theorem unitOf?_hexDigits {n : Nat} (h : n < 0x10000) :
    ∃ a b d e, Text.hexDigits 4 n = [a, b, d, e] ∧ unitOf? a b d e = some n := by
  have digit (m : Nat) : hexValue? (Text.hexDigit (m % 16)) = some (m % 16) :=
    hexValue?_hexDigit _ (Nat.mod_lt _ (by decide))
  refine ⟨_, _, _, _, rfl, ?_⟩
  simp only [unitOf?, digit, Option.bind_eq_bind, Option.bind_some, Option.some.injEq]
  omega

/-- Pieces of a string that are joined to a symbol, whatever pieces follow them. -/
def Spells (x : Symbol) (ps : List Piece) : Prop :=
  ∀ qs, joinHalves (ps ++ qs) = x :: joinHalves qs

theorem spells_char (c : Char) : Spells (.char c) [.char c] := by
  intro qs
  cases qs <;> simp [joinHalves, Piece.symbol]

theorem spells_unit {n : Nat} (high : isHighHalf n = false) (low : isLowHalf n = false) :
    Spells (.char (Char.ofNat n)) [.unit n] := by
  have symbol : Piece.symbol (.unit n) = .char (Char.ofNat n) := by simp [Piece.symbol, high, low]
  intro qs
  cases qs with
  | nil => simp [joinHalves, symbol]
  | cons q qs =>
    cases q with
    | char d => simp [joinHalves, symbol]
    | unit m => simp [joinHalves, symbol, high]

theorem spells_pair {n m : Nat} (high : isHighHalf n = true) (low : isLowHalf m = true) :
    Spells (.char (Char.ofNat (0x10000 + (n - 0xd800) * 0x400 + (m - 0xdc00)))) [.unit n, .unit m] := by
  intro qs
  simp [joinHalves, high, low]

/-- A text that is read, within a string, as pieces that are joined to a symbol. -/
def Reads (x : Symbol) (s : List Char) : Prop :=
  ∃ ps, Spells x ps ∧ ∀ opening d r,
    pieces opening (s ++ d :: r) = (pieces opening (d :: r)).map fun (qs, left) => (ps ++ qs, left)

theorem pieces_escapeUnit {n : Nat} (h : n < 0x10000) (d : Char) (r : List Char) :
    pieces opening (escapeUnit n ++ d :: r) =
      (pieces opening (d :: r)).map fun (qs, left) => (.unit n :: qs, left) := by
  obtain ⟨a, b, e, f, digits, value⟩ := unitOf?_hexDigits h
  rw [escapeUnit, digits]
  exact pieces_unit value r

theorem reads_escape {x : Char} (h : escaped? c = some x) : Reads (.char x) ['\\', c] :=
  ⟨[.char x], spells_char x, fun _ _ _ => pieces_escape h _⟩

theorem reads_plain (hq : c ≠ '"') (hb : c ≠ '\\') (hc : 32 ≤ c.toNat) : Reads (.char c) [c] :=
  ⟨[.char c], spells_char c, fun _ _ _ => pieces_plain hq hb (Nat.not_lt.2 hc) _⟩

theorem not_surrogate (c : Char) : c.toNat < 0xd800 ∨ 0xdfff < c.toNat ∧ c.toNat < 0x110000 :=
  c.valid

theorem reads_units (c : Char) : Reads (.char c) ((units c.toNat).flatMap escapeUnit) := by
  have valid := not_surrogate c
  unfold units
  split
  · next single =>
    have spells := spells_unit (n := c.toNat) (by simp [isHighHalf]; omega)
      (by simp [isLowHalf]; omega)
    rw [Char.ofNat_toNat] at spells
    rw [List.flatMap_singleton]
    exact ⟨_, spells, fun _ d r => pieces_escapeUnit single d r⟩
  · next pair =>
    generalize hn : 0xd800 + (c.toNat - 0x10000) / 0x400 = n
    generalize hm : 0xdc00 + (c.toNat - 0x10000) % 0x400 = m
    have joined : 0x10000 + (n - 0xd800) * 0x400 + (m - 0xdc00) = c.toNat := by omega
    have spells := spells_pair (n := n) (m := m) (by simp [isHighHalf]; omega)
      (by simp [isLowHalf]; omega)
    rw [joined, Char.ofNat_toNat] at spells
    refine ⟨_, spells, ?_⟩
    intro opening d r
    have written : [n, m].flatMap escapeUnit ++ d :: r = escapeUnit n ++ (escapeUnit m ++ d :: r) := by
      simp
    have first : pieces opening (escapeUnit n ++ (escapeUnit m ++ d :: r)) = _ :=
      pieces_escapeUnit (by omega) '\\' _
    have second : pieces opening (escapeUnit m ++ d :: r) = _ := pieces_escapeUnit (by omega) d r
    rw [written, first]
    change (pieces opening (escapeUnit m ++ d :: r)).map _ = _
    rw [second]
    cases pieces opening (d :: r) <;> rfl

/-- Every character is read again as it is written. -/
theorem reads_writeChar (c : Char) : Reads (.char c) (writeChar c) := by
  unfold writeChar
  split
  · next h =>
    subst h
    exact reads_escape rfl
  split
  · next h =>
    subst h
    exact reads_escape rfl
  split
  · next h =>
    subst h
    exact reads_escape rfl
  split
  · next h =>
    subst h
    exact reads_escape rfl
  split
  · next h =>
    subst h
    exact reads_escape rfl
  split
  · next h =>
    rw [← Char.ofNat_toNat c, h]
    exact reads_escape rfl
  split
  · next h =>
    rw [← Char.ofNat_toNat c, h]
    exact reads_escape rfl
  split
  · next hq hb _ _ _ _ _ h =>
    simp only [Bool.and_eq_true, decide_eq_true_eq] at h
    exact reads_plain hq hb h.1
  · exact reads_units c

theorem pieces_flatMap {s : Symbols} (whole : s.Whole) : ∃ ps, joinHalves ps = s ∧
    ∀ opening r, pieces opening (s.flatMap writeSymbol ++ '"' :: r) = .ok (ps, r) := by
  induction s with
  | nil => exact ⟨[], rfl, fun _ _ => by simp [pieces]⟩
  | cons x s ih =>
    obtain ⟨⟨c, rfl⟩, later⟩ := List.forall_mem_cons.1 whole
    obtain ⟨ps, spells, reads⟩ := reads_writeChar c
    obtain ⟨qs, joined, rest⟩ := ih later
    refine ⟨ps ++ qs, by rw [spells, joined], ?_⟩
    intro opening r
    have further := rest opening r
    -- The string goes on behind the character, if only with its closing quote.
    obtain ⟨d, t, ht⟩ : ∃ d t, s.flatMap writeSymbol ++ '"' :: r = d :: t := by
      cases s.flatMap writeSymbol <;> exact ⟨_, _, rfl⟩
    rw [List.flatMap_cons, List.append_assoc]
    rw [ht] at further ⊢
    rw [writeSymbol, reads, further]
    rfl

/-- A string without lone halves is read again as it is written. -/
theorem readString_flatMap {s : Symbols} (whole : s.Whole) (opening : Nat) (r : List Char) :
    readString opening (s.flatMap writeSymbol ++ '"' :: r) = .ok (s, r) := by
  obtain ⟨ps, joined, reads⟩ := pieces_flatMap whole
  rw [readString, reads, ← joined]
  rfl

end Strings

section Numbers

theorem toList_toString (n : Int) : (toString n).toList =
    if n < 0 then '-' :: Nat.toDigits 10 n.natAbs else Nat.toDigits 10 n.natAbs := by
  cases n with
  | ofNat m => simp [Int.toString_eq_repr, Int.repr]
  | negSucc m => simp [Int.toString_eq_repr, Int.repr]

theorem wholePart?_toDigits (n : Nat) (hr : Apart r) :
    wholePart? (Nat.toDigits 10 n ++ r) = some (Nat.toDigits 10 n, r) := by
  rcases Nat.eq_zero_or_pos n with rfl | positive
  · rfl
  · have digits : ∀ d ∈ Nat.toDigits 10 n, d.isDigit = true :=
      fun d => Numeral.isDigit_of_mem_toDigits
    have first := Numeral.head?_toDigits positive
    have taken := takeDigits_append digits fun d hd => (hr d hd).1
    obtain ⟨d, ds, split⟩ := List.exists_cons_of_ne_nil (Nat.toDigits_ne_nil (n := n) (b := 10))
    rw [split] at digits first taken ⊢
    have nonzero : d ≠ '0' := fun h => first (congrArg some h)
    rw [List.cons_append, wholePart?, if_neg nonzero, if_pos (digits d List.mem_cons_self),
      ← List.cons_append, taken]

/-- The digits of a number are read as a number without fraction and exponent. -/
theorem numberBody_toDigits (negative : Bool) (n : Nat) (hr : Apart r) :
    numberBody negative (Nat.toDigits 10 n ++ r) =
      some (⟨negative, Nat.toDigits 10 n, [], none⟩, r) := by
  rw [numberBody, wholePart?_toDigits n hr]
  simp only [Option.map_some, fractionPart_none fun d hd => (hr d hd).2.1, exponentPart_none hr]

/-- A whole number is read again as it is written, if its digits are not too many. -/
theorem readPlain_toString {n : Int}
    (short : (Nat.toDigits 10 n.natAbs).length ≤ Numeral.maxDigits) (hr : Apart r) :
    readPlain ((toString n).toList ++ r) = .ok (.integer n, r) := by
  have value (negative : Bool) : NumberText.value ⟨negative, Nat.toDigits 10 n.natAbs, [], none⟩ =
      .ok (.integer (Binary64.signed negative n.natAbs)) := by
    simp only [NumberText.value, Numeral.ofDigits,
      Numeral.length_plainDigits fun c => Numeral.isDigit_of_mem_toDigits, if_pos short,
      Numeral.valueOf_toDigits]
  rw [toList_toString]
  by_cases negative : n < 0
  · have number := (numberText?_minus _).trans (numberBody_toDigits true n.natAbs hr)
    have same : Binary64.signed true n.natAbs = n := by
      simp only [Binary64.signed, if_true, Int.ofNat_eq_natCast]
      omega
    rw [if_pos negative, List.cons_append, readPlain_of_number number, value, same]
    rfl
  · have unsigned : (Nat.toDigits 10 n.natAbs ++ r).head? ≠ some '-' := by
      obtain ⟨d, ds, split⟩ :=
        List.exists_cons_of_ne_nil (Nat.toDigits_ne_nil (n := n.natAbs) (b := 10))
      have digit : d.isDigit = true := Numeral.isDigit_of_mem_toDigits (split ▸ List.mem_cons_self)
      rw [split]
      rintro ⟨⟩
      cases digit
    have number := (numberText?_plain unsigned).trans (numberBody_toDigits false n.natAbs hr)
    have same : Binary64.signed false n.natAbs = n := by
      simp only [Binary64.signed, Bool.false_eq_true, if_false, Int.ofNat_eq_natCast]
      omega
    rw [if_neg negative, readPlain_of_number number, value, same]
    rfl

end Numbers

end DotHttp.Json
