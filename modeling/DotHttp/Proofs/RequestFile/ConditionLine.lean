import DotHttp.Proofs.JsonPath
import DotHttp.Proofs.Reference
import DotHttp.Proofs.RequestFile.Naming

/-!
Lines with a condition. The part of an answer that the line names is its first word, and the words behind it
are what is expected: not the rest of the line as it stands, but its words one blank apart.
-/

namespace DotHttp.RequestFile

open DotHttp.Text

variable {s : State} {line : Nat} {raw : List Char} {c : Condition} {negated : Bool}
  {word value : String}

/-- Reading a line adds a condition to the directives that wait, and does nothing else. -/
def State.Asks (s : State) (line : Nat) (raw : List Char) (c : Condition) : Prop :=
  s.readLine line raw =
    .ok { s with pending := { s.pending with conditions := s.pending.conditions ++ [c] } }

theorem asks_iff {negated : Bool} {word value : String} (outside : s.inScript = false)
    (script : opensScript (strip raw) = false)
    (kind : Line.ofText (strip raw) = .directive (.condition negated) word value) :
    s.Asks line raw c ↔ Condition.parse? (s.expand value) negated = some c := by
  rw [State.Asks, readLine_of_kind outside script kind, State.heed, State.direct]
  cases Condition.parse? (s.expand value) negated with
  | none => simp
  | some d => simp [State.mk.injEq, Pending.mk.injEq]

theorem words_ne_nil {s : List Char} (trimmed : Trimmed s) : words s ≠ [] := by
  intro none
  obtain ⟨c, more, rfl⟩ := List.exists_cons_of_ne_nil trimmed.nonempty
  have blank := blank_of_words_nil none c List.mem_cons_self
  rw [isBlank_of_strip_cons trimmed.stripped] at blank
  cases blank

/-- A text that is a directive does not open a script block. -/
theorem IsDirective.opensScript {text : List Char} {keyword : Keyword}
    (h : IsDirective text keyword word value) : opensScript text = false := by
  obtain ⟨-, lead, rest, rfl, before, -, -⟩ := h
  cases before with
  | bare undefined => rfl
  | comment comment blank =>
    rcases comment with rfl | ⟨nonempty, comment⟩
    · rfl
    · obtain ⟨c, more, rfl⟩ := List.exists_cons_of_ne_nil nonempty
      rw [comment c List.mem_cons_self]
      rfl

/-- What a line says of a value in the body of an answer: the name of the request, a path, and the expected
text behind some white space. -/
structure SaysBody (value name path expected : String) : Prop where
  parts : ∃ gap, value.toList = name.toList ++ ".response.body.$.".toList ++ path.toList ++ gap ++
    expected.toList ∧ gap ≠ [] ∧ Blank gap
  word : Compact name.toList
  undotted : '.' ∉ name.toList
  solid : ∀ c ∈ path.toList, isBlank c = false
  trimmed : Trimmed expected.toList

variable {name path expected : String}

theorem SaysBody.words (h : SaysBody value name path expected) :
    words value.toList = (name.toList ++ ".response.body.".toList ++ ("$." ++ path).toList) ::
      words expected.toList := by
  obtain ⟨gap, parts, nonempty, blank⟩ := h.parts
  have middle : Compact ".response.body.$.".toList := by decide +kernel
  have first : Compact (name.toList ++ ".response.body.$.".toList ++ path.toList) := by
    refine ⟨by simp, ?_⟩
    exact List.forall_mem_append.2 ⟨List.forall_mem_append.2 ⟨h.word.solid, middle.solid⟩, h.solid⟩
  have spaced : ∀ c ∈ (gap ++ expected.toList).head?, isBlank c = true := by
    obtain ⟨d, more, rfl⟩ := List.exists_cons_of_ne_nil nonempty
    rintro c ⟨⟩
    exact blank d List.mem_cons_self
  have whole : ".response.body.$.".toList = ".response.body.".toList ++ "$.".toList := by
    decide +kernel
  rw [parts, List.append_assoc _ gap, words_append first spaced, words_blank_append blank, whole,
    String.toList_append]
  simp only [List.append_assoc]

/-- The latest answer under a name has a JSON body with a string at a path. -/
def Finds (store : Store) (name path : String) (found : Symbols) : Prop :=
  ∃ x o body, store.Latest name x ∧ x.outcome = some o ∧ o.body = some body ∧
    JsonPath.Leads body ("$." ++ path) (.string found)

/-- A condition is met by just the answers whose string at a path is a text, up to the white space at its
ends, or, if it is negated, by just the others. -/
def Compares (c : Condition) (name path : String) (negated : Bool) (text : List Char) : Prop :=
  ∀ store found, Finds store name path found →
    ((c.evaluate store).met = true ↔ (strip found.toString.toList = text ↔ negated = false))

theorem compares_expected (kind : c.kind = .bodyPath) (leads : c.path = some ("$." ++ path)) :
    Compares c c.requestName path c.negated (strip c.expected.toList) := by
  rintro store found ⟨x, o, body, latest, answered, held, names, document, named, parsed, there⟩
  have outcome : store.outcome? c.requestName = some o := by rw [latest.outcome?, answered]
  have value : JsonPath.extract? body ("$." ++ path) = some found.toString := by
    rw [JsonPath.extract?_of_parse named parsed, there]
    rfl
  have compared : (c.compare o).2 = (found.toString.stripBlank == c.expected.stripBlank) := by
    simp only [Condition.compare, kind, held, leads, Option.getD_some, value]
  have same : found.toString.stripBlank = c.expected.stripBlank ↔
      strip found.toString.toList = strip c.expected.toList := by
    rw [← String.toList_inj, String.toList_stripBlank, String.toList_stripBlank]
  rw [Condition.evaluate, outcome, ← same]
  simp only [compared]
  cases c.negated <;> simp

theorem exists_finds (name path text : String) :
    ∃ store, Finds store name path (Symbols.ofString text) := by
  obtain ⟨body, leads⟩ := JsonPath.exists_leads path (.string (Symbols.whole_ofString text))
  obtain ⟨x, o, latest, answered, -, held⟩ := Resolution.latest_oneAnswer name 200 body
  exact ⟨_, x, o, body, latest, answered, held, leads⟩

/-- Of two texts without white space at their ends a condition is about one only. -/
theorem Compares.unique {text text' : List Char} (stripped : strip text' = text')
    (h : Compares c name path negated text) (h' : Compares c name path negated text') : text = text' := by
  obtain ⟨store, finds⟩ := exists_finds name path (String.ofList text')
  have met := h store _ finds
  rw [h' store _ finds, Symbols.toString_ofString, String.toList_ofList, stripped] at met
  cases negated <;> simp_all

/-- A line with a condition on the body of an answer is read to one that is about the words of its rest, put
one blank apart; so it is about the rest itself just where this makes no difference. -/
theorem body_condition_compares_words (line : Nat) (outside : s.inScript = false)
    (directive : IsDirective (strip raw) (.condition negated) word value)
    (silent : Variable.Silent s.definitions value) (said : SaysBody value name path expected) :
    ∃ c, s.Asks line raw c ∧
      Compares c name path negated (joinWith [' '] (words expected.toList)) ∧
      (Compares c name path negated expected.toList ↔
        joinWith [' '] (words expected.toList) = expected.toList) := by
  have kind := ofText_eq_directive_iff.2 directive
  have visible := words_ne_nil said.trimmed
  have read : Condition.parse? value negated = _ :=
    Condition.parse?_bodyPath said.word.nonempty said.undotted visible said.words
  have compact : ∀ w ∈ words expected.toList, Compact w := fun w => compact_of_mem_words
  have joined := (joinWith_solid compact visible).2.1
  rw [String.ofList_toList, String.ofList_toList, ← Variable.expand_of_silent silent] at read
  let c : Condition := ⟨name, .bodyPath, String.ofList (joinWith [' '] (words expected.toList)), negated,
    some ("$." ++ path)⟩
  have about : Compares c name path negated (joinWith [' '] (words expected.toList)) := by
    have whole : Compares c name path negated (strip c.expected.toList) := compares_expected rfl rfl
    rwa [String.toList_ofList, joined] at whole
  refine ⟨c, (asks_iff outside directive.opensScript kind).2 read, about, ?_⟩
  constructor
  · exact about.unique said.trimmed.stripped
  · intro same
    exact same ▸ about

/-- Two words far behind the name of a value, which are expected one blank apart. -/
theorem body_condition_compares_words_apart :
    let raw := "// @if-not: a.response.body.$.s \t x y ".toList
    ∃ c, (State.start []).Asks 1 raw c ∧ Compares c "a" "s" true "x y".toList := by
  intro raw
  have directive : IsDirective (strip raw) (.condition true) "if-not" "a.response.body.$.s \t x y" :=
    ofText_eq_directive_iff.1 (by decide +kernel)
  have solid := (show Compact "s".toList by decide).solid
  have said : SaysBody "a.response.body.$.s \t x y" "a" "s" "x y" :=
    ⟨⟨" \t ".toList, by decide +kernel, by decide, by decide +kernel⟩, by decide, by decide, solid,
      by decide +kernel⟩
  obtain ⟨c, asks, about, -⟩ :=
    body_condition_compares_words (s := .start []) 1 rfl directive (Variable.silent_nil _) said
  have same : joinWith [' '] (words "x y".toList) = "x y".toList := by decide +kernel
  exact ⟨c, asks, same ▸ about⟩

/-- Two blanks between the words of what is expected: a string that has both does not meet the condition. -/
theorem spaced_string_unmet :
    let value := "a.response.body.$.s x  y"
    let store := Resolution.oneAnswer "a" 200 "\x7b\"s\": \"x  y\"\x7d"
    SaysBody value "a" "s" "x  y" ∧ Finds store "a" "s" (.ofString "x  y") ∧
      ∃ c, (State.start []).Asks 1 (directiveLine "if" value) c ∧ ¬ (c.evaluate store).met = true := by
  intro value store
  have solid := (show Compact "s".toList by decide).solid
  have said : SaysBody value "a" "s" "x  y" :=
    ⟨⟨" ".toList, by decide +kernel, by decide, by decide +kernel⟩, by decide, by decide, solid,
      by decide +kernel⟩
  have known : ("if", Keyword.condition false) ∈ keywords := by decide
  have written : Value value.toList := by decide +kernel
  obtain ⟨script, kind⟩ := kind_directiveLine known written
  have asks : (State.start []).Asks 1 (directiveLine "if" value)
      ⟨"a", .bodyPath, "x y", false, some "$.s"⟩ := by
    rw [asks_iff rfl script kind, State.expand, State.start, Variable.expand_nil]
    decide +kernel
  have leads : JsonPath.Leads "\x7b\"s\": \"x  y\"\x7d" "$.s" (.string (.ofString "x  y")) := by
    refine ⟨[.ofString "s"], .object [(.ofString "s", .string (.ofString "x  y"))], by decide +kernel,
      ?_, rfl⟩
    rw [Json.parse_eq_ok_iff]
    exact ⟨by decide, [], by cbv, rfl⟩
  obtain ⟨x, o, latest, answered, -, held⟩ :=
    Resolution.latest_oneAnswer "a" 200 "\x7b\"s\": \"x  y\"\x7d"
  exact ⟨said, ⟨x, o, _, latest, answered, held, leads⟩, _, asks, by decide +kernel⟩

end DotHttp.RequestFile
