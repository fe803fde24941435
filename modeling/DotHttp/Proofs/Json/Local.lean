import DotHttp.Proofs.Json.Scalar

/-!
The reader of values, put together from readers of their parts. Like strings and numbers every value is
read again from its own characters, for reading looks at nothing behind it but what ends a number.
-/

namespace DotHttp.Json

variable {c : Char} {s r rest : List Char}

section Parts

variable {α : Type} {close : Char} {build : List α → Json}

/-- What follows a part of an array or of an object: its end, or a comma and further parts. -/
def afterPart (close : Char) (more : List Char → Except Stop (List α × List Char)) (a : α) :
    List Char → Except Stop (List α × List Char)
  | [] => .error (.malformed .expectingComma 0)
  | c :: r =>
    if c = close then .ok ([a], r)
    else if c = ',' then (more (skipSpace r)).map fun (as, rest) => (a :: as, rest)
    else .error (.malformed .expectingComma (r.length + 1))

/-- The parts of an array or of an object, from its first one on. -/
def thenParts (close : Char) (part : List Char → Except Stop (α × List Char))
    (more : List Char → Except Stop (List α × List Char)) (s : List Char) :
    Except Stop (List α × List Char) :=
  part s >>= fun (a, r) => afterPart close more a (skipSpace r)

/-- An array or an object after its opening character. -/
def inside (close : Char) (build : List α → Json)
    (more : List Char → Except Stop (List α × List Char)) (s : List Char) :
    Except Stop (Json × List Char) :=
  if s.head? = some close then .ok (build [], s.tail)
  else (more s).map fun (as, rest) => (build as, rest)

variable {more : List Char → Except Stop (List α × List Char)} {a : α} {as : List α}

theorem thenParts_of_part {part : List Char → Except Stop (α × List Char)}
    (h : part s = .ok (a, r)) :
    thenParts close part more s = afterPart close more a (skipSpace r) := by
  rw [thenParts, h]
  rfl

theorem afterPart_close (more : List Char → Except Stop (List α × List Char)) (a : α)
    (r : List Char) : afterPart close more a (close :: r) = .ok ([a], r) := by
  rw [afterPart, if_pos rfl]

theorem afterPart_comma (h : close ≠ ',') (r : List Char) :
    afterPart close more a (',' :: r) =
      (more (skipSpace r)).map fun (as, rest) => (a :: as, rest) := by
  rw [afterPart, if_neg (Ne.symm h), if_pos rfl]

theorem afterPart_other (h : ∀ r, s ≠ close :: r) (h' : ∀ r, s ≠ ',' :: r) :
    afterPart close more a s = .error (.malformed .expectingComma s.length) := by
  cases s with
  | nil => rfl
  | cons c s =>
    have hc : c ≠ close := fun hc => h s (hc ▸ rfl)
    have hc' : c ≠ ',' := fun hc => h' s (hc ▸ rfl)
    rw [afterPart, if_neg hc, if_neg hc', List.length_cons]

theorem afterPart_ok (h : afterPart close more a s = .ok (as, rest)) :
    s = close :: rest ∧ as = [a] ∨
      ∃ r as', s = ',' :: r ∧ more (skipSpace r) = .ok (as', rest) ∧ as = a :: as' := by
  cases s with
  | nil => cases h
  | cons c s =>
    rw [afterPart] at h
    split at h
    · next hc =>
      cases h
      exact .inl ⟨by rw [hc], rfl⟩
    · split at h
      · next hc =>
        obtain ⟨⟨as', rest'⟩, found, same⟩ := map_eq_ok_iff.1 h
        cases same
        exact .inr ⟨s, as', by rw [hc], found, rfl⟩
      · cases h

theorem afterPart_error {e : Stop} (h : afterPart close more a s = .error e) :
    (∃ n, e = .malformed .expectingComma n) ∨
      ∃ r, s = ',' :: r ∧ more (skipSpace r) = .error e := by
  cases s with
  | nil =>
    cases h
    exact .inl ⟨_, rfl⟩
  | cons c s =>
    rw [afterPart] at h
    split at h
    · cases h
    · split at h
      · next hc => exact .inr ⟨s, by rw [hc], map_eq_error_iff.1 h⟩
      · cases h
        exact .inl ⟨_, rfl⟩

end Parts

/-- What follows the name of a field. -/
def fieldValue (fuel : Nat) (name : Symbols) : List Char → Except Stop ((Symbols × Json) × List Char)
  | ':' :: r => (readValue fuel (skipSpace r)).map fun (value, rest) => ((name, value), rest)
  | r => .error (.malformed .expectingColon r.length)

/-- A field of an object. -/
def readField (fuel : Nat) : List Char → Except Stop ((Symbols × Json) × List Char)
  | '"' :: r =>
    readString (r.length + 1) r >>= fun (name, rest) => fieldValue fuel name (skipSpace rest)
  | s => .error (.malformed .expectingName s.length)

theorem readField_of_name {f : Nat} {name : Symbols}
    (h : readString (s.length + 1) s = .ok (name, r)) :
    readField f ('"' :: s) = fieldValue f name (skipSpace r) := by
  rw [readField, h]
  rfl

theorem readItems_succ (f : Nat) (s : List Char) :
    readItems (f + 1) s = thenParts ']' (readValue f) (readItems f) s := by
  rw [readItems, thenParts]
  congr 1
  funext part
  obtain ⟨item, r⟩ := part
  dsimp only
  split
  · next h => rw [h, afterPart_close]
  · next h =>
    rw [h, afterPart_comma (by decide)]
    cases readItems f (skipSpace _) <;> rfl
  · next h h' => rw [afterPart_other h h']

theorem readFields_succ (f : Nat) (s : List Char) :
    readFields (f + 1) s = thenParts '}' (readField f) (readFields f) s := by
  by_cases named : ∃ r, s = '"' :: r
  · obtain ⟨r, rfl⟩ := named
    rw [readFields, thenParts, readField, bind_assoc, List.length_cons]
    congr 1
    funext part
    obtain ⟨name, r⟩ := part
    dsimp only
    split
    · next h =>
      rw [h, fieldValue]
      cases readValue f (skipSpace _) with
      | error e => rfl
      | ok p =>
        obtain ⟨value, r⟩ := p
        change _ = afterPart '}' (readFields f) (name, value) (skipSpace r)
        dsimp only [bind, Except.bind]
        split
        · next h => rw [h, afterPart_close]
        · next h =>
          rw [h, afterPart_comma (by decide)]
          cases readFields f (skipSpace _) <;> rfl
        · next h h' => rw [afterPart_other h h']
    · next h => rw [fieldValue.eq_2 _ _ _ h]; rfl
  · have unnamed : ∀ r, s = '"' :: r → False := fun r hr => named ⟨r, hr⟩
    rw [readFields.eq_3 _ _ unnamed, thenParts, readField.eq_2 _ _ unnamed]
    rfl

theorem readValue_string (f : Nat) (r : List Char) :
    readValue (f + 1) ('"' :: r) =
      (readString (r.length + 1) r).map fun (text, rest) => (.string text, rest) := by
  rw [readValue, List.length_cons]

theorem readValue_array (f : Nat) (r : List Char) :
    readValue (f + 1) ('[' :: r) = inside ']' .array (readItems f) (skipSpace r) := by
  rw [readValue, inside]
  split
  · next h =>
    rw [h]
    rfl
  · next h =>
    rw [if_neg]
    intro first
    obtain ⟨rest, hr⟩ := List.head?_eq_some_iff.1 first
    exact h rest hr

theorem readValue_object (f : Nat) (r : List Char) :
    readValue (f + 1) ('{' :: r) = inside '}' ofFields (readFields f) (skipSpace r) := by
  rw [readValue, inside]
  split
  · next h =>
    rw [h]
    rfl
  · next h =>
    rw [if_neg]
    intro first
    obtain ⟨rest, hr⟩ := List.head?_eq_some_iff.1 first
    exact h rest hr

/-- Whether a character opens a string, an array or an object. -/
def opens (c : Char) : Bool :=
  c = '"' || c = '[' || c = '{'

theorem readValue_plain (f : Nat) (h : ∀ c ∈ s.head?, opens c = false) :
    readValue (f + 1) s = readPlain s := by
  apply readValue.eq_5
  · rintro r rfl
    exact Bool.noConfusion (h _ rfl)
  · rintro r rfl
    exact Bool.noConfusion (h _ rfl)
  · rintro r rfl
    exact Bool.noConfusion (h _ rfl)

/-- How a value begins. -/
inductive Start : List Char → Prop
  | string (r : List Char) : Start ('"' :: r)
  | array (r : List Char) : Start ('[' :: r)
  | object (r : List Char) : Start ('{' :: r)
  | plain {s : List Char} (h : ∀ c ∈ s.head?, opens c = false) : Start s

theorem start (s : List Char) : Start s := by
  cases s with
  | nil =>
    apply Start.plain
    rintro c ⟨⟩
  | cons c s =>
    by_cases string : c = '"'
    · subst string
      exact .string s
    by_cases array : c = '['
    · subst array
      exact .array s
    by_cases object : c = '{'
    · subst object
      exact .object s
    apply Start.plain
    rintro d ⟨⟩
    simp [opens, string, array, object]

section Locality

variable {α : Type} {close : Char} {build : List α → Json} {f : Nat} {follows : List Char → Prop}

/-- What a reader has read it reads again with anything behind it that may follow, given fuel for all but
`k` of the characters. -/
def Local (k : Nat) (follows : List Char → Prop)
    (read : Nat → List Char → Except Stop (α × List Char)) (f : Nat) : Prop :=
  ∀ s a rest, read f s = .ok (a, rest) →
    ∃ used, s = used ++ rest ∧ used ≠ [] ∧
      ∀ f' r, used.length ≤ f' + k → follows r → read f' (used ++ r) = .ok (a, r)

theorem Local.succ {read body : Nat → List Char → Except Stop (α × List Char)}
    (step : ∀ f s, read (f + 1) s = body f s) (h : Local 1 follows body f) :
    Local 0 follows read (f + 1) := by
  intro s a rest found
  rw [step] at found
  obtain ⟨used, split, nonempty, again⟩ := h s a rest found
  refine ⟨used, split, nonempty, ?_⟩
  intro f' r enough hr
  cases f' with
  | zero =>
    have none := List.length_pos_iff.2 nonempty
    omega
  | succ g =>
    rw [step]
    exact again g r enough hr

section Parts

variable {part : Nat → List Char → Except Stop (α × List Char)}
  {more : Nat → List Char → Except Stop (List α × List Char)}

theorem thenParts_local (hclose : ∀ r, Apart (close :: r)) (hcomma : close ≠ ',')
    (hpart : Local 0 Apart part f) (hmore : Local 0 (fun _ => True) more f) :
    Local 1 (fun _ => True) (fun g => thenParts close (part g) (more g)) f := by
  intro s as rest h
  obtain ⟨⟨a, r₁⟩, first, further⟩ := bind_eq_ok_iff.1 h
  obtain ⟨used, rfl, nonempty, again⟩ := hpart _ _ _ first
  rcases afterPart_ok further with ⟨ended, rfl⟩ | ⟨r₂, as', comma, found, rfl⟩
  · obtain ⟨space, rfl, spaces, spaced⟩ := exists_space ended
    refine ⟨used ++ (space ++ [close]), by simp, by simp, ?_⟩
    intro f' r enough _
    simp only [List.length_append, List.length_singleton] at enough
    have read := again f' (space ++ close :: r) (by omega) ((hclose r).space spaces)
    simp only [List.append_assoc, List.singleton_append]
    rw [thenParts_of_part read, spaced, afterPart_close]
  · obtain ⟨space, rfl, spaces, spaced⟩ := exists_space comma
    obtain ⟨used', start, nonempty', again'⟩ := hmore _ _ _ found
    obtain ⟨c, used', rfl⟩ := List.exists_cons_of_ne_nil nonempty'
    obtain ⟨space', rfl, -, spaced'⟩ := exists_space start
    refine ⟨used ++ (space ++ ',' :: (space' ++ c :: used')), by simp, by simp, ?_⟩
    intro f' r enough _
    simp only [List.length_append, List.length_cons] at enough
    have read := again f' (space ++ ',' :: (space' ++ c :: (used' ++ r))) (by omega)
      (Apart.space (by rintro d ⟨⟩; decide) spaces)
    have readMore := again' f' r (by simp only [List.length_cons]; omega) trivial
    simp only [List.append_assoc, List.cons_append]
    rw [thenParts_of_part read, spaced, afterPart_comma hcomma, spaced', ← List.cons_append, readMore]
    rfl

theorem inside_local (hmore : Local 0 (fun _ => True) more f) :
    Local 0 (fun _ => True) (fun g s => inside close build (more g) (skipSpace s)) f := by
  intro s v rest h
  dsimp only [inside] at h
  split at h
  · next ended =>
    obtain ⟨rest', closed⟩ := List.head?_eq_some_iff.1 ended
    obtain ⟨space, rfl, -, spaced⟩ := exists_space closed
    rw [closed] at h
    cases h
    refine ⟨space ++ [close], by simp, by simp, ?_⟩
    intro f' r _ _
    simp only [List.append_assoc, List.singleton_append]
    rw [spaced, inside, List.head?_cons, if_pos rfl, List.tail_cons]
  · next goesOn =>
    obtain ⟨⟨as, rest'⟩, found, same⟩ := map_eq_ok_iff.1 h
    cases same
    obtain ⟨used, start, nonempty, again⟩ := hmore _ _ _ found
    obtain ⟨c, used, rfl⟩ := List.exists_cons_of_ne_nil nonempty
    obtain ⟨space, rfl, -, spaced⟩ := exists_space start
    refine ⟨space ++ c :: used, by simp, by simp, ?_⟩
    intro f' r enough _
    rw [List.length_append] at enough
    have read := again f' r (by omega) trivial
    have unclosed : (c :: (used ++ r)).head? ≠ some close := by
      rw [start] at goesOn
      exact goesOn
    simp only [List.append_assoc, List.cons_append]
    rw [spaced, inside, if_neg unclosed, ← List.cons_append, read]
    rfl

end Parts

theorem readField_local (hvalue : Local 0 Apart readValue f) : Local 0 Apart readField f := by
  intro s field rest h
  unfold readField at h
  split at h
  · next r =>
    obtain ⟨⟨name, r₁⟩, named, valued⟩ := bind_eq_ok_iff.1 h
    obtain ⟨used, rfl, nameAgain⟩ := readString_local named
    dsimp only at valued
    unfold fieldValue at valued
    split at valued
    · next r₂ colon =>
      obtain ⟨⟨value, r₃⟩, found, same⟩ := map_eq_ok_iff.1 valued
      cases same
      obtain ⟨space, rfl, -, spaced⟩ := exists_space colon
      obtain ⟨used', start, nonempty, again⟩ := hvalue _ _ _ found
      obtain ⟨c, used', rfl⟩ := List.exists_cons_of_ne_nil nonempty
      obtain ⟨space', rfl, -, spaced'⟩ := exists_space start
      refine ⟨'"' :: (used ++ (space ++ ':' :: (space' ++ c :: used'))), by simp, by simp, ?_⟩
      intro f' r enough hr
      simp only [List.length_append, List.length_cons] at enough
      have read := again f' r (by simp only [List.length_cons]; omega) hr
      simp only [List.append_assoc, List.cons_append]
      rw [readField_of_name (nameAgain _ _), spaced, fieldValue, spaced', ← List.cons_append, read]
      rfl
    · cases valued
  · cases h

theorem readValue_local (hitems : Local 0 (fun _ => True) readItems f)
    (hfields : Local 0 (fun _ => True) readFields f) : Local 0 Apart readValue (f + 1) := by
  intro s v rest h
  have fueled {f' n : Nat} (h : n + 1 ≤ f' + 0) : ∃ g, f' = g + 1 ∧ n ≤ g + 0 :=
    ⟨f' - 1, by omega, by omega⟩
  cases start s with
  | string s =>
    rw [readValue_string] at h
    obtain ⟨⟨text, r⟩, found, same⟩ := map_eq_ok_iff.1 h
    cases same
    obtain ⟨used, rfl, again⟩ := readString_local found
    refine ⟨'"' :: used, rfl, by simp, ?_⟩
    intro f' r enough _
    obtain ⟨g, rfl, -⟩ := fueled enough
    rw [List.cons_append, readValue_string, again]
    rfl
  | array s =>
    rw [readValue_array] at h
    obtain ⟨used, rfl, -, again⟩ := inside_local hitems _ _ _ h
    refine ⟨'[' :: used, rfl, by simp, ?_⟩
    intro f' r enough _
    obtain ⟨g, rfl, within⟩ := fueled enough
    rw [List.cons_append, readValue_array]
    exact again g r within trivial
  | object s =>
    rw [readValue_object] at h
    obtain ⟨used, rfl, -, again⟩ := inside_local hfields _ _ _ h
    refine ⟨'{' :: used, rfl, by simp, ?_⟩
    intro f' r enough _
    obtain ⟨g, rfl, within⟩ := fueled enough
    rw [List.cons_append, readValue_object]
    exact again g r within trivial
  | plain plain =>
    rw [readValue_plain f plain] at h
    obtain ⟨used, rfl, nonempty, again⟩ := readPlain_local h
    refine ⟨used, rfl, nonempty, ?_⟩
    intro f' r enough hr
    obtain ⟨c, used, rfl⟩ := List.exists_cons_of_ne_nil nonempty
    obtain ⟨g, rfl, -⟩ := fueled enough
    have same : ∀ d ∈ (c :: used ++ r).head?, opens d = false := plain
    rw [readValue_plain g same, again r hr]

/-- Every value is read again from its own characters, whatever ends it. -/
theorem read_local (f : Nat) : Local 0 Apart readValue f ∧ Local 0 (fun _ => True) readItems f ∧
    Local 0 (fun _ => True) readFields f := by
  have closes {close : Char} (h : close.isDigit = false ∧ close ≠ '.' ∧ close ≠ 'e' ∧ close ≠ 'E')
      (r : List Char) : Apart (close :: r) := by
    rintro d ⟨⟩
    exact h
  induction f with
  | zero =>
    refine ⟨?_, ?_, ?_⟩
    · intro s v rest h
      cases h
    · intro s items rest h
      cases h
    · intro s fields rest h
      cases h
  | succ f ih =>
    obtain ⟨value, items, fields⟩ := ih
    refine ⟨readValue_local items fields, ?_, ?_⟩
    · exact .succ readItems_succ (thenParts_local (closes (by decide)) (by decide) value items)
    · exact .succ readFields_succ
        (thenParts_local (closes (by decide)) (by decide) (readField_local value) fields)

end Locality

/-- A document is one value with nothing but space around it. -/
theorem parse_eq_ok_iff {v : Json} : parse s = .ok v ↔ s.head? ≠ some (Char.ofNat 0xfeff) ∧
    ∃ r, readValue (2 * s.length + 2) (skipSpace s) = .ok (v, r) ∧ skipSpace r = [] := by
  have stopped (d : Except Stop Json) : d.mapError (Stop.error s) = .ok v ↔ d = .ok v := by
    cases d <;> simp [Except.mapError]
  rw [parse, stopped, readDocument]
  split
  · next mark => simp [mark]
  · next unmarked =>
    simp only [bind_eq_ok_iff, Prod.exists, ne_eq, unmarked, not_false_eq_true, true_and]
    constructor
    · rintro ⟨value, r, found, ended⟩
      split at ended
      · next none =>
        cases ended
        exact ⟨r, found, none⟩
      · cases ended
    · rintro ⟨r, found, none⟩
      exact ⟨v, r, found, by rw [none]⟩

end DotHttp.Json
