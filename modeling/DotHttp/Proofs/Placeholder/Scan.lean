import DotHttp.Proofs.Placeholder

/-!
How a text is scanned for placeholders. Whether one starts at a place is decided by the two opening
braces there and the first two closing braces after them on the line, so a placeholder that was found
once is found again whatever follows it.
-/

namespace DotHttp.Placeholder

variable {c : Char} {s t inner rest : List Char}

theorem segments_of_opening (h : opening? s = some (inner, rest)) :
    segments s = .placeholder inner :: segments rest := by
  cases s with
  | nil => cases h
  | cons c r =>
    rw [segments]
    split
    · next h' =>
      rw [h] at h'
      cases h'
      rfl
    · next h' =>
      rw [h] at h'
      cases h'

theorem segments_of_no_opening (h : opening? (c :: s) = none) :
    segments (c :: s) = .char c :: segments s := by
  rw [segments]
  split
  · next h' =>
    rw [h] at h'
    cases h'
  · rfl

/-- Closing braces that are found are found as well from a character before them on the line. -/
theorem exists_untilClose_cons (hc : c ≠ '\n') (h : untilClose s = some (inner, rest)) :
    ∃ inner' rest', untilClose (c :: s) = some (inner', rest') := by
  by_cases closes : c = '}' ∧ ∃ r, s = '}' :: r
  · obtain ⟨rfl, r, rfl⟩ := closes
    exact ⟨[], r, rfl⟩
  · refine ⟨c :: inner, rest, ?_⟩
    rw [untilClose.eq_3 _ _ fun r hb hr => closes ⟨hb, r, hr⟩, if_neg hc, h]
    rfl

theorem untilClose_of_cons (hc : c ≠ '\n') (h : untilClose (c :: s) = none) :
    untilClose s = none := by
  cases hs : untilClose s with
  | none => rfl
  | some found =>
    obtain ⟨inner, rest, closed⟩ := exists_untilClose_cons hc hs
    rw [h] at closed
    cases closed

/-- What is before the closing braces stays so whatever follows them. -/
theorem untilClose_append (h : untilClose s = some (inner, rest)) (t : List Char) :
    untilClose (inner ++ '}' :: '}' :: t) = some (inner, t) := by
  fun_induction untilClose s generalizing inner rest with
  | case1 => cases h
  | case2 r =>
    cases h
    rfl
  | case3 => cases h
  | case4 c r apart hc ih =>
    simp only [Option.map_eq_some_iff, Prod.exists, Prod.mk.injEq] at h
    obtain ⟨inner', left, found, rfl, rfl⟩ := h
    have text := written_of_untilClose found
    -- The text begins as it did, so its first two characters do not close it either.
    have apart' : ∀ r', c = '}' → inner' ++ '}' :: '}' :: t = '}' :: r' → False := by
      intro r' hb hr
      cases inner' with
      | nil => exact apart _ hb text.symm
      | cons d inner' =>
        cases hr
        exact apart _ hb text.symm
    rw [List.cons_append, untilClose.eq_3 _ _ apart', if_neg hc, ih found]
    rfl

theorem opening?_eq_some_iff : opening? s = some (inner, rest) ↔
    ∃ c inner' s', s = '{' :: '{' :: c :: s' ∧ c ≠ '\n' ∧ untilClose s' = some (inner', rest) ∧
      inner = c :: inner' := by
  constructor
  · intro h
    unfold opening? at h
    split at h
    · next c s' =>
      split at h
      · cases h
      · next hc =>
        simp only [Option.map_eq_some_iff, Prod.exists, Prod.mk.injEq] at h
        obtain ⟨inner', rest', found, rfl, rfl⟩ := h
        exact ⟨c, inner', s', rfl, hc, found, rfl⟩
    · cases h
  · rintro ⟨c, inner', s', rfl, hc, found, rfl⟩
    rw [opening?, if_neg hc, found]
    rfl

/-- A placeholder that was found is found again whatever follows it. -/
theorem opening?_append (h : opening? s = some (inner, rest)) (t : List Char) :
    opening? (written inner ++ t) = some (inner, t) := by
  obtain ⟨c, inner', s', -, hc, found, rfl⟩ := opening?_eq_some_iff.1 h
  refine opening?_eq_some_iff.2 ⟨c, inner', inner' ++ '}' :: '}' :: t, ?_, hc, ?_, rfl⟩
  · simp [written]
  · exact untilClose_append found t

theorem opening?_of_ne_brace (h : c ≠ '{') (s : List Char) : opening? (c :: s) = none := by
  rw [Option.eq_none_iff_forall_ne_some]
  rintro ⟨inner, rest⟩ found
  obtain ⟨_, _, _, hs, -⟩ := opening?_eq_some_iff.1 found
  cases hs
  exact h rfl

/-- Where a placeholder starts, closing braces are found on the line. -/
theorem exists_untilClose_of_opening? (h : opening? s = some (inner, rest)) :
    ∃ inner' rest', untilClose s = some (inner', rest') := by
  obtain ⟨c, inner', s', rfl, hc, found, -⟩ := opening?_eq_some_iff.1 h
  obtain ⟨_, _, found⟩ := exists_untilClose_cons hc found
  obtain ⟨_, _, found⟩ := exists_untilClose_cons (c := '{') (by decide) found
  exact exists_untilClose_cons (by decide) found

/-- No placeholder starts right behind a brace that starts none itself. -/
theorem opening?_of_brace (h : opening? ('{' :: s) = none) : opening? s = none := by
  rw [Option.eq_none_iff_forall_ne_some] at h ⊢
  rintro ⟨inner, rest⟩ found
  obtain ⟨c, inner', s', rfl, hc, closed, -⟩ := opening?_eq_some_iff.1 found
  obtain ⟨inner'', rest', closed'⟩ := exists_untilClose_cons hc closed
  exact h _ (opening?_eq_some_iff.2 ⟨'{', inner'', c :: s', rfl, by decide, closed', rfl⟩)

/-- A text without an opening brace is passed as it is. -/
theorem segments_append_of_no_brace (h : '{' ∉ s) (t : List Char) :
    segments (s ++ t) = s.map .char ++ segments t := by
  induction s with
  | nil => rfl
  | cons c s ih =>
    obtain ⟨hc, hs⟩ := List.ne_and_not_mem_of_not_mem_cons h
    rw [List.cons_append, segments_of_no_opening (opening?_of_ne_brace (Ne.symm hc) _), ih hs]
    rfl

/-- A text without placeholders. -/
def Free (s : List Char) : Prop := ∀ inner, Segment.placeholder inner ∉ segments s

theorem free_iff (s : List Char) : Free s ↔ ∀ t, t <:+ s → opening? t = none := by
  unfold Free
  fun_induction segments s with
  | case1 => simp [opening?]
  | case2 c r inner rest h ih =>
    refine iff_of_false ?_ ?_
    · intro none
      exact none inner List.mem_cons_self
    · intro none
      rw [none _ List.suffix_rfl] at h
      cases h
  | case3 c r h ih => simp [List.suffix_cons_iff, forall_eq_or_imp, h, ih]

theorem Free.of_infix (h : Free s) (part : t <:+: s) : Free t := by
  rw [free_iff] at h ⊢
  intro u suffix
  rw [Option.eq_none_iff_forall_ne_some]
  rintro ⟨inner, rest⟩ found
  obtain ⟨before, after, rfl⟩ := part
  obtain ⟨start, rfl⟩ := suffix
  have again := opening?_append found (rest ++ after)
  rw [← List.append_assoc, written_of_opening? found, h _ ⟨before ++ start, by simp⟩] at again
  cases again

theorem free_of_no_brace (h : '{' ∉ s) : Free s := by
  intro inner among
  have whole := segments_append_of_no_brace h []
  rw [List.append_nil, segments, List.append_nil] at whole
  rw [whole] at among
  simp at among

/-- The inside of a placeholder in which no other braces and no line end are. -/
structure Plain (inner : List Char) : Prop where
  nonempty : inner ≠ []
  clean : ∀ c ∈ inner, c ≠ '{' ∧ c ≠ '}' ∧ c ≠ '\n'

theorem untilClose_of_clean (h : ∀ c ∈ s, c ≠ '}' ∧ c ≠ '\n') (t : List Char) :
    untilClose (s ++ '}' :: '}' :: t) = some (s, t) := by
  induction s with
  | nil => rfl
  | cons c s ih =>
    obtain ⟨⟨hb, hn⟩, rest⟩ := List.forall_mem_cons.1 h
    rw [List.cons_append, untilClose.eq_3 _ _ fun _ hc => (hb hc).elim, if_neg hn, ih rest]
    rfl

theorem Plain.opening? (h : Plain inner) (t : List Char) :
    opening? (written inner ++ t) = some (inner, t) := by
  obtain ⟨nonempty, clean⟩ := h
  cases inner with
  | nil => exact (nonempty rfl).elim
  | cons c r =>
    obtain ⟨⟨-, -, hn⟩, rest⟩ := List.forall_mem_cons.1 clean
    have closes := untilClose_of_clean (fun d hd => (rest d hd).2) t
    refine opening?_eq_some_iff.2 ⟨c, r, r ++ '}' :: '}' :: t, ?_, hn, closes, rfl⟩
    simp [written]

end DotHttp.Placeholder
