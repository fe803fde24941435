import DotHttp.Number.Numeral

/-!
Whole numbers as they are written: by their digits, the first of which is no zero but that of zero itself.
-/

namespace DotHttp.Numeral

theorem isDigit_of_mem_toDigits {n : Nat} {c : Char} (h : c ∈ Nat.toDigits 10 n) :
    c.isDigit = true :=
  Nat.isDigit_of_mem_toDigits (by decide) (by decide) h

theorem head?_toDigits {n : Nat} (h : 0 < n) : (Nat.toDigits 10 n).head? ≠ some '0' := by
  induction n using Nat.strongRecOn with
  | ind n ih =>
    by_cases small : n < 10
    · have digit : ∀ m < 10, 0 < m → m.digitChar ≠ '0' := by decide
      rw [Nat.toDigits_of_lt_base small, List.head?_cons, Ne, Option.some.injEq]
      exact digit n small h
    · have first := ih (n / 10) (by omega) (by omega)
      obtain ⟨c, ds, digits⟩ :=
        List.exists_cons_of_ne_nil (Nat.toDigits_ne_nil (n := n / 10) (b := 10))
      rw [digits] at first
      rw [Nat.toDigits_of_base_le (by decide) (Nat.le_of_not_lt small), digits]
      exact first

/-- The digits of a number are read as the number. -/
theorem valueOf_toDigits (n : Nat) : valueOf (plainDigits (Nat.toDigits 10 n)) = n := by
  rw [plainDigits_of_isDigit fun c => isDigit_of_mem_toDigits, valueOf, List.foldl_map]
  exact Nat.ofDigitChars_toDigits (by decide) (by decide)

/-- Numbers that are written alike are the same. -/
theorem toString_injective {m n : Nat} (h : toString m = toString n) : m = n := by
  have digits : Nat.toDigits 10 m = Nat.toDigits 10 n := by
    rw [← Nat.toList_repr, ← Nat.toList_repr]
    exact congrArg String.toList h
  rw [← valueOf_toDigits m, digits, valueOf_toDigits]

theorem length_plainDigits {s : List Char} (h : ∀ c ∈ s, c.isDigit = true) :
    (plainDigits s).length = s.length := by
  rw [plainDigits_of_isDigit h, List.length_map]

theorem valueOf_lt {digits : List Nat} (h : ∀ d ∈ digits, d < 10) :
    valueOf digits < Nat.pow 10 digits.length := by
  have step : ∀ n, digits.foldl (fun n d => 10 * n + d) n < (n + 1) * Nat.pow 10 digits.length := by
    induction digits with
    | nil => simp
    | cons d ds ih =>
      intro n
      obtain ⟨here, later⟩ := List.forall_mem_cons.1 h
      calc
        (d :: ds).foldl (fun n d => 10 * n + d) n < (10 * n + d + 1) * Nat.pow 10 ds.length :=
          ih later (10 * n + d)
        _ ≤ (n + 1) * 10 * Nat.pow 10 ds.length := Nat.mul_le_mul_right _ (by omega)
        _ = (n + 1) * Nat.pow 10 (d :: ds).length := by
          rw [Nat.mul_assoc, Nat.mul_comm 10]
          rfl
  simpa [valueOf] using step 0

/-- A number that was read has no more digits than were read. -/
theorem length_toDigits_valueOf {s : List Char} (h : ∀ c ∈ s, c.isDigit = true) (nonempty : s ≠ []) :
    (Nat.toDigits 10 (valueOf (plainDigits s))).length ≤ s.length := by
  rw [Nat.length_toDigits_le_iff (by decide) (List.length_pos_iff.2 nonempty),
    ← length_plainDigits h]
  apply valueOf_lt
  rw [plainDigits_of_isDigit h]
  intro d hd
  obtain ⟨c, hc, rfl⟩ := List.mem_map.1 hd
  have digit := h c hc
  simp only [Char.isDigit, Bool.and_eq_true, decide_eq_true_eq, UInt32.le_iff_toNat_le] at digit
  have high : c.toNat ≤ 57 := digit.2
  omega

end DotHttp.Numeral
