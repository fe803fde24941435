import DotHttp.Proofs.Json.Local

/-!
Documents that cannot even be refused: where a value is due there stands a whole number with too many
digits. What is before it is refused by itself at its end, for there a value is missing.
-/

namespace DotHttp.Json

variable {c : Char} {s t r rest : List Char} {e : Stop}

/-- Reading stops at the end of a text, because a value is due there. -/
def awaiting : Stop := .malformed .expectingValue 0

/-- A text that begins with a whole number that has too many digits. -/
def BeginsOverlong (s : List Char) : Prop :=
  ∃ number rest, numberText? s = some (number, rest) ∧ number.fraction = [] ∧
    number.exponent = none ∧ Numeral.maxDigits < number.whole.length

theorem beginsOverlong_of_digits {ds : List Char}
    (digits : ∀ d ∈ ds, d.isDigit = true) (first : ds.head? ≠ some '0')
    (long : Numeral.maxDigits < ds.length) (apart : Apart r) : BeginsOverlong (ds ++ r) := by
  have unread : fractionPart r = ([], r) := fractionPart_none fun d hd => (apart d hd).2.1
  cases ds with
  | nil => cases long
  | cons d ds =>
    have digit := digits d List.mem_cons_self
    have unsigned : (d :: ds ++ r).head? ≠ some '-' := by
      rintro ⟨⟩
      cases digit
    have nonzero : d ≠ '0' := by
      rintro rfl
      exact first rfl
    have whole : wholePart? (d :: ds ++ r) = some (d :: ds, r) := by
      rw [List.cons_append, wholePart?, if_neg nonzero, if_pos digit, ← List.cons_append,
        takeDigits_append digits fun x hx => (apart x hx).1]
    refine ⟨⟨false, d :: ds, [], none⟩, r, ?_, rfl, rfl, long⟩
    rw [numberText?_plain unsigned, numberBody, whole]
    simp only [Option.map_some, unread, exponentPart_none apart]

/-- The value of a number is missing only if it is a whole one with too many digits. -/
theorem value_error_iff {number : NumberText} (digits : ∀ d ∈ number.whole, d.isDigit = true) :
    number.value = .error e ↔ e = .tooManyDigits ∧ number.fraction = [] ∧
      number.exponent = none ∧ Numeral.maxDigits < number.whole.length := by
  unfold NumberText.value
  split
  · next fraction exponent =>
    rw [Numeral.ofDigits, Numeral.length_plainDigits digits]
    by_cases few : number.whole.length ≤ Numeral.maxDigits
    · simp [few, Nat.not_lt.2 few]
    · simp [few, Nat.lt_of_not_le few, fraction, exponent, eq_comm]
  · next other =>
    constructor
    · intro h
      cases h
    · rintro ⟨-, fraction, exponent, -⟩
      exact (other fraction exponent).elim

/-- A text at which a value is due but not found, and why: nothing is left, or the number there has too
many digits. -/
inductive Unread : List Char → Stop → Prop
  | ended : Unread [] awaiting
  | overlong {number : List Char} (h : BeginsOverlong number) : Unread number .tooManyDigits

/-- The failures of the reader at such texts. -/
def Stop.Due (e : Stop) : Prop :=
  e = awaiting ∨ e = .tooManyDigits

@[simp] theorem due_malformed {fault : Fault} {left : Nat} :
    (Stop.malformed fault left).Due ↔ fault = .expectingValue ∧ left = 0 := by
  simp [Stop.Due, awaiting]

theorem readPlain_of_unread (h : Unread s e) : readPlain s = .error e := by
  cases h with
  | ended => rfl
  | overlong h =>
    obtain ⟨number, rest, found, fraction, exponent, long⟩ := h
    have value : number.value = .error .tooManyDigits :=
      (value_error_iff (whole_of_numberText? found).2).2 ⟨rfl, fraction, exponent, long⟩
    rw [readPlain_of_number found, value]
    rfl

theorem unread_of_readPlain (h : readPlain s = .error e) (due : e.Due) : Unread s e := by
  cases hk : keyword? s with
  | some found =>
    rw [readPlain_of_keyword hk] at h
    cases h
  | none =>
    cases hn : numberText? s with
    | none =>
      rw [readPlain, ← keyword?, hk, hn] at h
      cases h
      obtain rfl : s = [] := by simpa using due
      exact .ended
    | some found =>
      obtain ⟨number, rest⟩ := found
      rw [readPlain_of_number hn, map_eq_error_iff] at h
      obtain ⟨rfl, fraction, exponent, long⟩ := (value_error_iff (whole_of_numberText? hn).2).1 h
      exact .overlong ⟨number, rest, hn, fraction, exponent, long⟩

/-- What has no value does not begin like anything else that is read. -/
theorem Unread.head?_ne (h : Unread s e) (hd : c.isDigit = false) (hm : c ≠ '-') :
    s.head? ≠ some c := by
  intro first
  cases h with
  | ended => cases first
  | overlong h =>
    obtain ⟨number, rest, found, -⟩ := h
    obtain ⟨used, rfl, ⟨d, more, digit, begins⟩, -⟩ := numberText?_local found
    rcases begins with rfl | rfl
    · cases first
      rw [hd] at digit
      cases digit
    · cases first
      exact hm rfl

theorem Unread.plain (h : Unread s e) : ∀ c ∈ s.head?, isSpace c = false ∧ opens c = false := by
  intro c first
  have other {d : Char} (hd : d.isDigit = false) (hm : d ≠ '-') : c ≠ d := by
    rintro rfl
    exact h.head?_ne hd hm first
  simp [isSpace, opens, other]

theorem readValue_of_unread (h : Unread s e) (f : Nat) : readValue (f + 1) s = .error e := by
  rw [readValue_plain f fun c hc => (h.plain c hc).2]
  exact readPlain_of_unread h

section Stalling

variable {α : Type} {close : Char} {build : List α → Json} {f : Nat}

/-- Where a reader stops because a value is due but not found, any other text without a value stops it
there too, given fuel enough to come to it. -/
def Stalls (k : Nat) (read : Nat → List Char → Except Stop (α × List Char)) (f : Nat) : Prop :=
  ∀ s e, read f s = .error e → e.Due →
    ∃ before t, s = before ++ t ∧ Unread t e ∧
      ∀ t' e' f', Unread t' e' → 2 * before.length + k ≤ f' → read f' (before ++ t') = .error e'

theorem Stalls.succ {k : Nat} {read body : Nat → List Char → Except Stop (α × List Char)}
    (step : ∀ f s, read (f + 1) s = body f s) (h : Stalls k body f) :
    Stalls (k + 1) read (f + 1) := by
  intro s e stopped due
  rw [step] at stopped
  obtain ⟨before, t, split, unread, again⟩ := h s e stopped due
  refine ⟨before, t, split, unread, ?_⟩
  intro t' e' f' unread' enough
  cases f' with
  | zero => omega
  | succ g =>
    rw [step]
    exact again t' e' g unread' (by omega)

theorem exists_space_before {before : List Char} (h : skipSpace s = before ++ t) :
    ∃ space, s = space ++ (before ++ t) ∧
      ∀ t' e', Unread t' e' → skipSpace (space ++ (before ++ t')) = before ++ t' := by
  obtain ⟨space, split, spaces⟩ := exists_skipSpace s
  rw [h] at split
  refine ⟨space, split, ?_⟩
  intro t' e' unread
  rw [skipSpace_append spaces]
  cases before with
  | nil =>
    cases t' with
    | nil => rfl
    | cons c t' => exact skipSpace_cons (unread.plain c rfl).1 _
  | cons c before => exact skipSpace_cons (isSpace_of_skipSpace h) _

section Parts

variable {part : Nat → List Char → Except Stop (α × List Char)}
  {more : Nat → List Char → Except Stop (List α × List Char)}

theorem thenParts_stalls (hcomma : close ≠ ',') (hlocal : Local 0 Apart part f)
    (hpart : Stalls 1 part f) (hmore : Stalls 2 more f) :
    Stalls 1 (fun g => thenParts close (part g) (more g)) f := by
  intro s e h due
  rcases bind_eq_error_iff.1 h with first | ⟨⟨a, r⟩, first, further⟩
  · obtain ⟨before, t, split, unread, again⟩ := hpart s e first due
    refine ⟨before, t, split, unread, ?_⟩
    intro t' e' f' unread' enough
    dsimp only [thenParts]
    rw [again t' e' f' unread' enough]
    rfl
  · obtain ⟨used, rfl, nonempty, again⟩ := hlocal s a r first
    rcases afterPart_error further with ⟨n, rfl⟩ | ⟨r', comma, later⟩
    · simp at due
    · obtain ⟨space, rfl, spaces, spaced⟩ := exists_space comma
      obtain ⟨before, t, start, unread, again'⟩ := hmore _ e later due
      obtain ⟨space', rfl, spaced'⟩ := exists_space_before start
      refine ⟨used ++ (space ++ ',' :: (space' ++ before)), t, by simp, unread, ?_⟩
      intro t' e' f' unread' enough
      simp only [List.length_cons, List.length_append] at enough
      have read := again f' (space ++ ',' :: (space' ++ (before ++ t'))) (by omega)
        (Apart.space (by rintro d ⟨⟩; decide) spaces)
      have readMore := again' t' e' f' unread' (by omega)
      simp only [List.append_assoc, List.cons_append]
      rw [thenParts_of_part read, spaced, afterPart_comma hcomma, spaced' t' e' unread', readMore]
      rfl

theorem inside_stalls (hclose : close.isDigit = false ∧ close ≠ '-') (hmore : Stalls 2 more f) :
    Stalls 2 (fun g s => inside close build (more g) (skipSpace s)) f := by
  intro s e h due
  dsimp only [inside] at h
  split at h
  · cases h
  · next goesOn =>
    obtain ⟨before, t, start, unread, again⟩ := hmore _ e (map_eq_error_iff.1 h) due
    obtain ⟨space, rfl, spaced⟩ := exists_space_before start
    refine ⟨space ++ before, t, by simp, unread, ?_⟩
    intro t' e' f' unread' enough
    rw [List.length_append] at enough
    have unclosed : (before ++ t').head? ≠ some close := by
      cases before with
      | nil => exact unread'.head?_ne hclose.1 hclose.2
      | cons c before =>
        rw [start] at goesOn
        exact goesOn
    dsimp only
    rw [List.append_assoc, spaced t' e' unread', inside, if_neg unclosed,
      again t' e' f' unread' (by omega)]
    rfl

end Parts

theorem not_due_of_pieces {opening : Nat} (h : pieces opening s = .error e) : ¬ e.Due := by
  fun_induction pieces opening s with
  | case2 => cases h
  | case5 a b c d x r n hn ih => exact ih (map_eq_error_iff.1 h)
  | case8 c r _ _ x hx ih => exact ih (map_eq_error_iff.1 h)
  | case10 c r _ _ _ _ _ _ ih => exact ih (map_eq_error_iff.1 h)
  | _ =>
    cases h
    simp

theorem readField_stalls (hvalue : Stalls 1 readValue f) : Stalls 1 readField f := by
  intro s e h due
  unfold readField at h
  split at h
  · next r =>
    rcases bind_eq_error_iff.1 h with unnamed | ⟨⟨name, r'⟩, named, valued⟩
    · exact (not_due_of_pieces (map_eq_error_iff.1 unnamed) due).elim
    · obtain ⟨used, rfl, nameAgain⟩ := readString_local named
      dsimp only at valued
      unfold fieldValue at valued
      split at valued
      · next r₂ colon =>
        obtain ⟨space, rfl, -, spaced⟩ := exists_space colon
        obtain ⟨before, t, start, unread, again⟩ :=
          hvalue _ e (map_eq_error_iff.1 valued) due
        obtain ⟨space', rfl, spaced'⟩ := exists_space_before start
        refine ⟨'"' :: (used ++ (space ++ ':' :: (space' ++ before))), t, by simp, unread, ?_⟩
        intro t' e' f' unread' enough
        simp only [List.length_cons, List.length_append] at enough
        simp only [List.append_assoc, List.cons_append]
        rw [readField_of_name (nameAgain _ _), spaced, fieldValue, spaced' t' e' unread', again t' e' f' unread' (by omega)]
        rfl
      · cases valued
        simp at due
  · cases h
    simp at due

theorem readValue_stalls (hitems : Stalls 2 readItems f) (hfields : Stalls 2 readFields f) :
    Stalls 1 readValue (f + 1) := by
  intro s e h due
  have fueled {f' n : Nat} (h : 2 * (n + 1) + 1 ≤ f') : ∃ g, f' = g + 1 ∧ 2 * n + 2 ≤ g :=
    ⟨f' - 1, by omega, by omega⟩
  cases start s with
  | string s =>
    rw [readValue_string, map_eq_error_iff] at h
    exact (not_due_of_pieces (map_eq_error_iff.1 h) due).elim
  | array s =>
    rw [readValue_array] at h
    obtain ⟨before, t, rfl, unread, again⟩ := inside_stalls (by decide) hitems _ e h due
    refine ⟨'[' :: before, t, rfl, unread, ?_⟩
    intro t' e' f' unread' enough
    obtain ⟨g, rfl, within⟩ := fueled enough
    rw [List.cons_append, readValue_array]
    exact again t' e' g unread' within
  | object s =>
    rw [readValue_object] at h
    obtain ⟨before, t, rfl, unread, again⟩ := inside_stalls (by decide) hfields _ e h due
    refine ⟨'{' :: before, t, rfl, unread, ?_⟩
    intro t' e' f' unread' enough
    obtain ⟨g, rfl, within⟩ := fueled enough
    rw [List.cons_append, readValue_object]
    exact again t' e' g unread' within
  | plain plain =>
    rw [readValue_plain f plain] at h
    refine ⟨[], s, rfl, unread_of_readPlain h due, ?_⟩
    intro t' e' f' unread' enough
    obtain ⟨g, rfl⟩ : ∃ g, f' = g + 1 := ⟨f' - 1, by omega⟩
    exact readValue_of_unread unread' g

theorem read_stalls (f : Nat) :
    Stalls 1 readValue f ∧ Stalls 2 readItems f ∧ Stalls 2 readFields f := by
  induction f with
  | zero =>
    refine ⟨?_, ?_, ?_⟩
    · intro s e h due
      cases h
      obtain rfl : s = [] := by simpa using due
      refine ⟨[], [], rfl, .ended, ?_⟩
      intro t' e' f' unread' enough
      obtain ⟨g, rfl⟩ : ∃ g, f' = g + 1 := ⟨f' - 1, by omega⟩
      exact readValue_of_unread unread' g
    · intro s e h due
      cases h
      obtain rfl : s = [] := by simpa using due
      refine ⟨[], [], rfl, .ended, ?_⟩
      intro t' e' f' unread' enough
      obtain ⟨g, rfl⟩ : ∃ g, f' = g + 2 := ⟨f' - 2, by omega⟩
      rw [List.nil_append, readItems_succ, thenParts, readValue_of_unread unread']
      rfl
    · intro s e h due
      cases h
      simp at due
  | succ f ih =>
    obtain ⟨value, items, fields⟩ := ih
    obtain ⟨valueLocal, -, -⟩ := read_local f
    refine ⟨readValue_stalls items fields, ?_, ?_⟩
    · exact .succ readItems_succ (thenParts_stalls (by decide) valueLocal value items)
    · exact .succ readFields_succ
        (thenParts_stalls (by decide) (readField_local valueLocal) (readField_stalls value) fields)

theorem readDocument_stalls (h : readDocument s = .error e) (due : e.Due) :
    ∃ before t, s = before ++ t ∧ Unread t e ∧
      ∀ t' e', Unread t' e' → readDocument (before ++ t') = .error e' := by
  unfold readDocument at h
  split at h
  · cases h
    simp at due
  · next unmarked =>
    rcases bind_eq_error_iff.1 h with stopped | ⟨⟨v, r⟩, -, extra⟩
    · obtain ⟨valueStalls, -, -⟩ := read_stalls (2 * s.length + 2)
      obtain ⟨before, t, start, unread, again⟩ := valueStalls _ e stopped due
      obtain ⟨space, rfl, spaced⟩ := exists_space_before start
      refine ⟨space ++ before, t, by simp, unread, ?_⟩
      intro t' e' unread'
      have unmarked' : (space ++ before ++ t').head? ≠ some (Char.ofNat 0xfeff) := by
        cases hb : space ++ before with
        | nil => exact unread'.head?_ne (by decide) (by decide)
        | cons c more =>
          rw [← List.append_assoc, hb] at unmarked
          exact unmarked
      rw [readDocument, if_neg unmarked', List.append_assoc, spaced t' e' unread',
        again t' e' _ unread' (by simp only [List.length_append]; omega)]
      rfl
    · dsimp only at extra
      split at extra
      · cases extra
      · cases extra
        simp at due

end Stalling

theorem parse_eq_error_iff {err : ReadError} :
    parse s = .error err ↔ ∃ e, readDocument s = .error e ∧ e.error s = err := by
  rw [parse]
  cases readDocument s <;> simp [Except.mapError]

/-- A document is refused at its end for want of a value exactly if its reader stops so. -/
theorem parse_awaiting_iff :
    parse s = .error (.malformed .expectingValue (Place.at s s.length)) ↔
      readDocument s = .error awaiting := by
  rw [parse_eq_error_iff]
  constructor
  · rintro ⟨e, stopped, same⟩
    cases s with
    | nil => rfl
    | cons c s =>
      cases e with
      | tooManyDigits => cases same
      | malformed fault left =>
        simp only [Stop.error, ReadError.malformed.injEq, Place.at, Place.mk.injEq,
          List.length_cons] at same
        obtain ⟨rfl, -, -, offset⟩ := same
        obtain rfl : left = 0 := by omega
        exact stopped
  · intro stopped
    exact ⟨awaiting, stopped, rfl⟩

/-- A document in which a whole number with too many digits stands where a value is due: what is before
the number is refused at its end, for want of a value. -/
def Overlong (text : List Char) : Prop :=
  ∃ before number, text = before ++ number ∧ BeginsOverlong number ∧
    parse before = .error (.malformed .expectingValue (Place.at before before.length))

/-- Only such documents are neither read nor refused with a place. -/
theorem parse_tooManyDigits_iff (text : List Char) :
    parse text = .error .tooManyDigits ↔ Overlong text := by
  constructor
  · intro h
    obtain ⟨e, stopped, same⟩ := parse_eq_error_iff.1 h
    cases e with
    | malformed fault left => cases same
    | tooManyDigits =>
      obtain ⟨before, number, rfl, unread, again⟩ := readDocument_stalls stopped (.inr rfl)
      refine ⟨before, number, rfl, ?_, ?_⟩
      · cases unread with
        | overlong h => exact h
      · rw [parse_awaiting_iff, ← List.append_nil before]
        exact again [] awaiting .ended
  · rintro ⟨before, number, rfl, long, refused⟩
    rw [parse_awaiting_iff] at refused
    obtain ⟨before', t, rfl, unread, again⟩ := readDocument_stalls refused (.inl rfl)
    cases unread with
    | ended =>
      rw [parse_eq_error_iff, List.append_nil]
      exact ⟨.tooManyDigits, again number .tooManyDigits (.overlong long), rfl⟩

end DotHttp.Json
