import DotHttp.Text.LetterCase

/-!
Letter case of whole texts, character by character: no other character becomes a parenthesis, and how many
characters one becomes does not hang on those around it.
-/

namespace DotHttp.Text

variable {c : Char} {n : Nat} {s : List Char} {shifts : List Shift}

theorem eq_of_ofNat (h : Char.ofNat n = '(') : n = 40 := by
  by_cases valid : n.isValidChar
  · have made : Char.ofNat n = Char.ofNatAux n valid := dif_pos valid
    exact congrArg Char.toNat (made.symm.trans h)
  · have made : Char.ofNat n = '\x00' := dif_neg valid
    cases made.symm.trans h

/-- Letters are moved past the parentheses. -/
theorem eq_of_shiftChar (h : shiftChar shifts c = '(') (past : ∀ s ∈ shifts, 40 < s.first + s.offset) : c = '(' := by
  unfold shiftChar at h
  split at h
  · next s found =>
    have known := past s (List.mem_of_find?_eq_some found)
    have covered := List.find?_some found
    rw [Shift.covers, Bool.and_eq_true, Bool.and_eq_true, decide_eq_true_eq] at covered
    have code := eq_of_ofNat h
    omega
  · exact h

theorem upperShifts_past : ∀ s ∈ upperShifts, 40 < s.first + s.offset := by
  decide +kernel

theorem lowerShifts_past : ∀ s ∈ lowerShifts, 40 < s.first + s.offset := by
  decide +kernel

theorem not_mem_wideUpper (n : Nat) : 40 ∉ wideUpper n := by
  unfold wideUpper
  split <;> decide

theorem ascii_of_code (h : c.toNat < 128) {P : Char → Prop} (each : ∀ n < 128, P (Char.ofNat n)) : P c := by
  rw [← Char.ofNat_toNat c]
  exact each _ h

theorem eq_of_mem_upperChar (h : '(' ∈ upperChar c) : c = '(' := by
  unfold upperChar at h
  split at h
  · next small =>
    have each : ∀ n < 128, '(' ∈ [(Char.ofNat n).toUpper] → Char.ofNat n = '(' := by decide
    exact ascii_of_code (P := fun c => '(' ∈ [c.toUpper] → c = '(') small each h
  · split at h
    · exact eq_of_shiftChar (List.mem_singleton.1 h).symm upperShifts_past
    · obtain ⟨k, among, same⟩ := List.mem_map.1 h
      exact absurd (eq_of_ofNat same ▸ among) (not_mem_wideUpper _)

/-- Upper case puts no parenthesis in a text. -/
theorem paren_of_upper (h : '(' ∈ upper s) : '(' ∈ s := by
  obtain ⟨c, among, made⟩ := List.mem_flatMap.1 h
  exact eq_of_mem_upperChar made ▸ among

/-- How many characters one becomes in lower case. -/
def lowerWidth (c : Char) : Nat :=
  if c = 'İ' then 2 else 1

/-- What stands for a character in lower case, whatever is around it. -/
theorem exists_small (before : List Char) (c : Char) (s : List Char) :
    ∃ small, lowerFrom before (c :: s) = small ++ lowerFrom (c :: before) s ∧ small.length = lowerWidth c ∧
      ('(' ∈ small → c = '(') := by
  refine ⟨_, rfl, ?_⟩
  by_cases ascii : c.toNat < 128
  · have other : c ≠ 'İ' := by
      rintro rfl
      exact absurd ascii (by decide)
    have each : ∀ n < 128, '(' ∈ [(Char.ofNat n).toLower] → Char.ofNat n = '(' := by decide
    rw [if_pos ascii, lowerWidth, if_neg other]
    exact ⟨rfl, ascii_of_code (P := fun c => '(' ∈ [c.toLower] → c = '(') ascii each⟩
  rw [if_neg ascii]
  by_cases sigma : c = 'Σ'
  · subst sigma
    rw [if_pos rfl]
    split <;> exact ⟨rfl, fun among => absurd among (by decide)⟩
  rw [if_neg sigma]
  by_cases dotted : c = 'İ'
  · rw [if_pos dotted, lowerWidth, if_pos dotted]
    exact ⟨rfl, fun among => absurd among (by decide)⟩
  · rw [if_neg dotted, lowerWidth, if_neg dotted]
    exact ⟨rfl, fun among => eq_of_shiftChar (List.mem_singleton.1 among).symm lowerShifts_past⟩

/-- Nor does lower case. -/
theorem paren_of_lowerFrom {before : List Char} (h : '(' ∈ lowerFrom before s) : '(' ∈ s := by
  induction s generalizing before with
  | nil => cases h
  | cons c s ih =>
    obtain ⟨small, made, -, here⟩ := exists_small before c s
    rw [made] at h
    rcases List.mem_append.1 h with first | later
    · exact List.mem_cons.2 (.inl (here first).symm)
    · exact List.mem_cons_of_mem c (ih later)

/-- How many characters a text becomes, if each becomes so many. -/
def totalWidth (width : Char → Nat) : List Char → Nat
  | [] => 0
  | c :: s => width c + totalWidth width s

theorem length_upper (s : List Char) : (upper s).length = totalWidth (fun c => (upperChar c).length) s := by
  induction s with
  | nil => rfl
  | cons c s ih => rw [upper, List.flatMap_cons, List.length_append, ← upper, ih, totalWidth]

theorem length_lowerFrom (before s : List Char) : (lowerFrom before s).length = totalWidth lowerWidth s := by
  induction s generalizing before with
  | nil => rfl
  | cons c s ih =>
    obtain ⟨small, made, width, -⟩ := exists_small before c s
    rw [made, List.length_append, width, ih, totalWidth]

end DotHttp.Text
