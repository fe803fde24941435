import DotHttp.Proofs.Json.Written

/-!
Documents read again as they are written. A document that was read keeps its data when it is written and
read once more, in either form: its fields with their order, its strings and its whole numbers. Left aside
are numbers with a fraction and lone halves of surrogate pairs.
-/

namespace DotHttp.Json

variable {s r : List Char} {v : Json} {style : Style}

section Documents

/-- A document of whole numbers, and of strings without lone halves. -/
inductive Whole : Json → Prop
  | null : Whole .null
  | bool (b : Bool) : Whole (.bool b)
  | integer (n : Int) : Whole (.integer n)
  | string {s : Symbols} (whole : s.Whole) : Whole (.string s)
  | array {items : List Json} (each : ∀ v ∈ items, Whole v) : Whole (.array items)
  | object {fields : List (Symbols × Json)} (names : ∀ field ∈ fields, field.1.Whole)
      (each : ∀ field ∈ fields, Whole field.2) : Whole (.object fields)

theorem whole_string {s : Symbols} : Whole (.string s) ↔ s.Whole :=
  ⟨fun | .string whole => whole, .string⟩

theorem whole_array {items : List Json} : Whole (.array items) ↔ ∀ v ∈ items, Whole v :=
  ⟨fun | .array each => each, .array⟩

theorem whole_object {fields : List (Symbols × Json)} :
    Whole (.object fields) ↔
      (∀ field ∈ fields, field.1.Whole) ∧ ∀ field ∈ fields, Whole field.2 :=
  ⟨fun | .object names each => ⟨names, each⟩, fun h => .object h.1 h.2⟩

/-- A whole document as one is read: no number has too many digits, and no object a name twice. -/
inductive Lasting : Json → Prop
  | null : Lasting .null
  | bool (b : Bool) : Lasting (.bool b)
  | integer {n : Int} (short : (Nat.toDigits 10 n.natAbs).length ≤ Numeral.maxDigits) :
      Lasting (.integer n)
  | string {s : Symbols} (whole : s.Whole) : Lasting (.string s)
  | array {items : List Json} (each : ∀ v ∈ items, Lasting v) : Lasting (.array items)
  | object {fields : List (Symbols × Json)} (distinct : (fields.map Prod.fst).Nodup)
      (names : ∀ field ∈ fields, field.1.Whole) (each : ∀ field ∈ fields, Lasting field.2) :
      Lasting (.object fields)

theorem lasting_scalar (h : Scalar v) (whole : v.Whole) : Lasting v := by
  cases h with
  | null => exact .null
  | bool b => exact .bool b
  | integer short => exact .integer short
  | number x => cases whole

theorem lasting_ofFields {fields : List (Symbols × Json)}
    (h : ∀ field ∈ fields, field.2.Whole → Lasting field.2) (whole : (ofFields fields).Whole) :
    Lasting (ofFields fields) := by
  obtain ⟨known, same, distinct, among⟩ := ofFields_eq fields
  rw [same, whole_object] at whole
  rw [same]
  obtain ⟨names, each⟩ := whole
  apply Lasting.object distinct names
  intro field hf
  exact h field (among field hf) (each field hf)

theorem lasting_parse (h : parse s = .ok v) (whole : v.Whole) : Lasting v := by
  refine parse_forall (P := fun v => v.Whole → Lasting v) (fun _ => lasting_scalar) ?_ ?_
    (fun _ => lasting_ofFields) h whole
  · intro s whole
    exact .string (whole_string.1 whole)
  · intro items each whole
    exact .array fun v hv => each v hv (whole_array.1 whole v hv)

theorem putField_fresh {name : Symbols} {fields : List (Symbols × Json)}
    (h : name ∉ fields.map Prod.fst) (value : Json) :
    putField name value fields = fields ++ [(name, value)] := by
  induction fields with
  | nil => rfl
  | cons first fields ih =>
    obtain ⟨n, v⟩ := first
    rw [List.map_cons, List.mem_cons, not_or] at h
    rw [putField, if_neg (Ne.symm h.1), ih h.2, List.cons_append]

theorem putAll_of_nodup {fields known : List (Symbols × Json)}
    (h : ((known ++ fields).map Prod.fst).Nodup) : putAll fields known = known ++ fields := by
  induction fields generalizing known with
  | nil => exact (List.append_nil known).symm
  | cons field fields ih =>
    have fresh : field.1 ∉ known.map Prod.fst := by
      rw [List.map_append, List.map_cons] at h
      intro again
      exact List.disjoint_of_nodup_append h again List.mem_cons_self
    rw [List.append_cons] at h ⊢
    rw [putAll, List.foldl_cons, putField_fresh fresh]
    exact ih h

/-- Fields with different names are an object's fields as they are. -/
theorem ofFields_of_nodup {fields : List (Symbols × Json)} (h : (fields.map Prod.fst).Nodup) :
    ofFields fields = .object fields :=
  congrArg object (putAll_of_nodup h)

end Documents

section Texts

variable {α : Type} {close : Char} {a : α} {as : List α}

/-- A text that is read as a value, given fuel for each of its characters, before anything that does not
carry on a number. -/
def ReadAs (read : Nat → List Char → Except Stop (α × List Char)) (text : List Char) (a : α) : Prop :=
  ∀ f r, text.length ≤ f → Apart r → read f (text ++ r) = .ok (a, r)

theorem ReadAs.cons {read body : Nat → List Char → Except Stop (α × List Char)} {c : Char}
    {text : List Char} (step : ∀ f s, read (f + 1) (c :: s) = body f s) (h : ReadAs body text a) :
    ReadAs read (c :: text) a := by
  intro f r enough apart
  rw [List.length_cons] at enough
  cases f with
  | zero => omega
  | succ f =>
    rw [List.cons_append, step]
    exact h f r (by omega) apart

/-- A character that ends an array or an object. -/
def Closing (c : Char) : Prop :=
  c = ']' ∨ c = '}'

instance : DecidablePred Closing :=
  fun c => inferInstanceAs (Decidable (c = ']' ∨ c = '}'))

theorem Closing.solid (h : Closing close) : isSpace close = false := by
  rcases h with rfl | rfl <;> decide

theorem Closing.ne_comma (h : Closing close) : close ≠ ',' := by
  rcases h with rfl | rfl <;> decide

theorem Closing.apart (h : Closing close) (r : List Char) : Apart (close :: r) := by
  rintro d ⟨⟩
  rcases h with rfl | rfl <;> decide

/-- A text whose first character is no space, and closes nothing. -/
def Begins (text : List Char) : Prop :=
  ∃ c t, text = c :: t ∧ isSpace c = false ∧ ¬ Closing c ∧ c ≠ Char.ofNat 0xfeff

theorem Begins.skipSpace (h : Begins s) (r : List Char) : skipSpace (s ++ r) = s ++ r := by
  obtain ⟨c, t, rfl, solid, -⟩ := h
  exact skipSpace_cons solid _

theorem Begins.unclosed (h : Begins s) (closing : Closing close) (r : List Char) :
    (s ++ r).head? ≠ some close := by
  obtain ⟨c, t, rfl, -, other, -⟩ := h
  rintro ⟨⟩
  exact other closing

theorem Begins.unmarked (h : Begins s) : s.head? ≠ some (Char.ofNat 0xfeff) := by
  obtain ⟨c, t, rfl, -, -, other⟩ := h
  rintro ⟨⟩
  exact other rfl

theorem Begins.append (h : Begins s) (r : List Char) : Begins (s ++ r) := by
  obtain ⟨c, t, rfl, first⟩ := h
  exact ⟨c, t ++ r, rfl, first⟩

/-- The first character of a whole number. -/
theorem exists_cons_toString (n : Int) :
    ∃ c t, (toString n).toList = c :: t ∧ (c = '-' ∨ c.isDigit = true) := by
  obtain ⟨d, ds, digits⟩ :=
    List.exists_cons_of_ne_nil (Nat.toDigits_ne_nil (n := n.natAbs) (b := 10))
  have digit : d.isDigit = true :=
    Numeral.isDigit_of_mem_toDigits (digits ▸ List.mem_cons_self)
  rw [toList_toString, digits]
  split
  · exact ⟨'-', d :: ds, rfl, .inl rfl⟩
  · exact ⟨d, ds, rfl, .inr digit⟩

theorem begins_toString (n : Int) : Begins (toString n).toList := by
  obtain ⟨c, t, text, minus | digit⟩ := exists_cons_toString n
  · exact ⟨c, t, text, by rw [minus]; decide⟩
  · have other (d : Char) (hd : d.isDigit = false) : c ≠ d := ne_of_isDigit digit hd
    exact ⟨c, t, text, by simp [isSpace, other], by simp [Closing, other], other _ rfl⟩

section Parts

variable {part : Nat → List Char → Except Stop (α × List Char)}
  {more : Nat → List Char → Except Stop (List α × List Char)} {build : List α → Json}
  {text : α → List Char} {line ending : List Char}

/-- The parts of an array or of an object up to its end: each part but the first on a line of its own after
a comma. -/
def enclosed (text : α → List Char) (line ending : List Char) (close : Char) : α → List α → List Char
  | a, [] => text a ++ (ending ++ [close])
  | a, b :: as => text a ++ ',' :: (line ++ enclosed text line ending close b as)

theorem begins_enclosed (h : Begins (text a)) : Begins (enclosed text line ending close a as) := by
  cases as <;> exact h.append _

/-- Parts are read one after the other, up to the character behind them. -/
theorem readAs_enclosed (closing : Closing close)
    (step : ∀ f s, more (f + 1) s = thenParts close (part f) (more f) s)
    (spaces : ∀ c ∈ line, isSpace c = true) (ended : ∀ c ∈ ending, isSpace c = true)
    (each : ∀ b ∈ a :: as, Begins (text b) ∧ ReadAs part (text b) b) :
    ReadAs more (enclosed text line ending close a as) (a :: as) := by
  -- A step costs one unit of fuel, and the comma or the end behind a part pays for it.
  induction as generalizing a with
  | nil =>
    intro f r enough apart
    simp only [enclosed, List.append_assoc, List.singleton_append, List.length_append,
      List.length_singleton] at enough ⊢
    cases f with
    | zero => omega
    | succ f =>
      have first := (each a List.mem_cons_self).2 f (ending ++ close :: r) (by omega)
        ((closing.apart r).space ended)
      rw [step, thenParts_of_part first, skipSpace_append ended, skipSpace_cons closing.solid,
        afterPart_close]
  | cons b as ih =>
    intro f r enough apart
    simp only [enclosed, List.append_assoc, List.cons_append, List.length_append,
      List.length_cons] at enough ⊢
    cases f with
    | zero => omega
    | succ f =>
      have first := (each a List.mem_cons_self).2 f
        (',' :: (line ++ (enclosed text line ending close b as ++ r))) (by omega)
        (by rintro d ⟨⟩; decide)
      have begins : Begins (enclosed text line ending close b as) :=
        begins_enclosed (each b (List.mem_cons_of_mem a List.mem_cons_self)).1
      have later := ih (List.forall_mem_cons.1 each).2 f r (by omega) apart
      rw [step, thenParts_of_part first, skipSpace_cons (by decide), afterPart_comma closing.ne_comma,
        skipSpace_append spaces, begins.skipSpace, later]
      rfl

theorem readAs_inside (closing : Closing close)
    (step : ∀ f s, more (f + 1) s = thenParts close (part f) (more f) s)
    (spaces : ∀ c ∈ line, isSpace c = true) (ended : ∀ c ∈ ending, isSpace c = true)
    (each : ∀ b ∈ a :: as, Begins (text b) ∧ ReadAs part (text b) b) :
    ReadAs (fun f s => inside close build (more f) (skipSpace s))
      (line ++ enclosed text line ending close a as) (build (a :: as)) := by
  have begins : Begins (enclosed text line ending close a as) :=
    begins_enclosed (each a List.mem_cons_self).1
  intro f r enough apart
  rw [List.length_append] at enough
  have parts := readAs_enclosed closing step spaces ended each f r (by omega) apart
  dsimp only
  rw [List.append_assoc, skipSpace_append spaces, begins.skipSpace, inside,
    if_neg (begins.unclosed closing r), parts]
  rfl

end Parts

theorem readAs_string {s : Symbols} (whole : s.Whole) :
    ReadAs readValue (writeString s) (.string s) := by
  have text : writeString s = '"' :: (s.flatMap writeSymbol ++ ['"']) := rfl
  rw [text]
  apply ReadAs.cons readValue_string
  intro f r _ _
  simp only [List.append_assoc, List.singleton_append, readString_flatMap whole]
  rfl

theorem readAs_plain {c : Char} {t : List Char} (first : opens c = false)
    (h : ∀ r, Apart r → readPlain (c :: (t ++ r)) = .ok (v, r)) : ReadAs readValue (c :: t) v := by
  have plain (f : Nat) (s : List Char) : readValue (f + 1) (c :: s) = readPlain (c :: s) := by
    apply readValue_plain
    rintro d ⟨⟩
    exact first
  apply ReadAs.cons plain
  intro f r _ apart
  exact h r apart

end Texts

section Styles

/-- A style that has its commas and colons, and nothing but space beside them. -/
structure Style.Spaced (style : Style) : Prop where
  newline : ∀ level, ∀ c ∈ style.newline level, isSpace c = true
  comma : style.comma = [',']
  colon : ∃ space, style.colon = ':' :: space ∧ ∀ c ∈ space, isSpace c = true

theorem compact_spaced : compact.Spaced where
  newline _ _ h := by cases h
  comma := rfl
  colon := ⟨[], rfl, List.forall_mem_nil _⟩

theorem wide_spaced : wide.Spaced where
  newline level c h := by
    rcases List.mem_cons.1 h with rfl | blank
    · rfl
    · rw [List.eq_of_mem_replicate blank]
      rfl
  comma := rfl
  colon := ⟨[' '], rfl, List.forall_mem_singleton.2 rfl⟩

theorem writeItems_enclosed (spaced : style.Spaced) (level : Nat) (ending : List Char) (close : Char)
    (item : Json) (items : List Json) :
    write style level item ++ (writeItems style level items ++ (ending ++ [close])) =
      enclosed (write style level) (style.newline level) ending close item items := by
  induction items generalizing item with
  | nil => rw [writeItems, List.nil_append, enclosed]
  | cons item' items ih =>
    rw [writeItems, enclosed, ← ih, spaced.comma]
    simp only [List.append_assoc, List.cons_append, List.nil_append]

theorem writeFields_enclosed (spaced : style.Spaced) (level : Nat) (ending : List Char) (close : Char)
    (field : Symbols × Json) (fields : List (Symbols × Json)) :
    writeField style level field ++ (writeFields style level fields ++ (ending ++ [close])) =
      enclosed (writeField style level) (style.newline level) ending close field fields := by
  induction fields generalizing field with
  | nil => rw [writeFields, List.nil_append, enclosed]
  | cons field' fields ih =>
    rw [writeFields, enclosed, ← ih, spaced.comma]
    simp only [List.append_assoc, List.cons_append, List.nil_append]

theorem begins_write (h : Lasting v) (style : Style) (level : Nat) : Begins (write style level v) := by
  cases h with
  | null =>
    rw [write]
    exact ⟨'n', _, rfl, by decide⟩
  | bool b => cases b <;> rw [write] <;> exact ⟨_, _, rfl, by decide⟩
  | integer short =>
    rw [write]
    exact begins_toString _
  | string whole =>
    rw [write]
    exact ⟨'"', _, rfl, by decide⟩
  | @array items each => cases items <;> rw [write] <;> exact ⟨'[', _, rfl, by decide⟩
  | @object fields distinct names each =>
    cases fields <;> rw [write] <;> exact ⟨'\x7b', _, rfl, by decide⟩

theorem begins_writeField (style : Style) (level : Nat) (field : Symbols × Json) :
    Begins (writeField style level field) := by
  rw [writeField]
  exact ⟨'"', _, rfl, by decide⟩

theorem readAs_writeField (spaced : style.Spaced) {name : Symbols} {level : Nat} (whole : name.Whole)
    (begins : Begins (write style level v)) (h : ReadAs readValue (write style level v) v) :
    ReadAs readField (writeField style level (name, v)) (name, v) := by
  obtain ⟨space, colon, spaces⟩ := spaced.colon
  intro f r enough apart
  simp only [writeField, writeString, colon, List.cons_append, List.append_assoc, List.nil_append,
    List.length_cons, List.length_append] at enough ⊢
  have named := readString_flatMap whole
  rw [readField_of_name (named _ _), skipSpace_cons (by decide), fieldValue, skipSpace_append spaces,
    begins.skipSpace, h f r (by omega) apart]
  rfl

/-- Whatever is written in such a style is read again. -/
theorem readAs_write (spaced : style.Spaced) (h : Lasting v) (level : Nat) :
    ReadAs readValue (write style level v) v := by
  induction h generalizing level with
  | null =>
    rw [write]
    exact readAs_plain rfl fun r _ => readPlain_of_keyword rfl
  | bool b =>
    cases b with
    | false =>
      rw [write]
      exact readAs_plain rfl fun r _ => readPlain_of_keyword rfl
    | true =>
      rw [write]
      exact readAs_plain rfl fun r _ => readPlain_of_keyword rfl
  | @integer n short =>
    rw [write]
    have reads (r : List Char) (apart : Apart r) := readPlain_toString short apart
    obtain ⟨c, t, text, first⟩ := exists_cons_toString n
    rw [text] at reads ⊢
    refine readAs_plain ?_ reads
    rcases first with rfl | digit
    · rfl
    · simp [opens, ne_of_isDigit digit]
  | string whole =>
    rw [write]
    exact readAs_string whole
  | @array items each ih =>
    cases items with
    | nil =>
      rw [write]
      exact .cons readValue_array fun _ _ _ _ => rfl
    | cons item items =>
      have parts (b : Json) (hb : b ∈ item :: items) :
          Begins (write style (level + 1) b) ∧ ReadAs readValue (write style (level + 1) b) b :=
        ⟨begins_write (each b hb) style (level + 1), ih b hb (level + 1)⟩
      simp only [write, List.cons_append, List.append_assoc, writeItems_enclosed spaced]
      exact .cons readValue_array
        (readAs_inside (.inl rfl) readItems_succ (spaced.newline _) (spaced.newline _) parts)
  | @object fields distinct names each ih =>
    cases fields with
    | nil =>
      rw [write]
      exact .cons readValue_object fun _ _ _ _ => rfl
    | cons field fields =>
      have parts (b : Symbols × Json) (hb : b ∈ field :: fields) :
          Begins (writeField style (level + 1) b) ∧
            ReadAs readField (writeField style (level + 1) b) b :=
        ⟨begins_writeField style (level + 1) b, readAs_writeField spaced (names b hb)
          (begins_write (each b hb) style (level + 1)) (ih b hb (level + 1))⟩
      simp only [write, List.cons_append, List.append_assoc, writeFields_enclosed spaced]
      rw [← ofFields_of_nodup distinct]
      exact .cons readValue_object
        (readAs_inside (.inr rfl) readFields_succ (spaced.newline _) (spaced.newline _) parts)

/-- A document is read again as it is written. -/
theorem parse_write (spaced : style.Spaced) (h : Lasting v) : parse (write style 0 v) = .ok v := by
  have reads := readAs_write spaced h 0
  have begins := begins_write h style 0
  rw [parse_eq_ok_iff]
  refine ⟨begins.unmarked, [], ?_, rfl⟩
  rw [← List.append_nil (write style 0 v), begins.skipSpace]
  apply reads
  · simp
    omega
  · rintro c ⟨⟩

end Styles

section Example

/-- A text with a name given twice, a character of two code units, escapes, and empty parts. -/
def nestedText : String :=
  "\x7b\"a\": true, \"a\": \x7b\"b\": \x7b\"c\": \"𝄞\\t\\\"\", \"d\": [null, [], \x7b\x7d]\x7d\x7d\x7d"

/-- What `nestedText` has under its name. -/
def nestedFields : List (Symbols × Json) :=
  [(.ofString "b", .object
    [(.ofString "c", .string (.ofString "𝄞\t\"")),
      (.ofString "d", .array [.null, .array [], .object []])])]

theorem parse_nestedText :
    parse nestedText.toList = .ok (.object [(.ofString "a", .object nestedFields)]) := by
  rw [parse_eq_ok_iff]
  exact ⟨by decide, [], by cbv, rfl⟩

theorem whole_nestedText {document : Json} (h : parse nestedText.toList = .ok document) :
    document.Whole := by
  cases parse_nestedText.symm.trans h
  simp [whole_object, whole_array, whole_string, nestedFields, Symbols.whole_ofString, Whole.null]

end Example

end DotHttp.Json
