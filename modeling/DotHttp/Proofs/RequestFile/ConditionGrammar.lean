import DotHttp.Proofs.RequestFile.ConditionLine
import DotHttp.Proofs.RequestFile.Fault

/-!
Which texts are conditions. What is compared is the status of an answer or a value at a path in its body, and
any word is taken for a path: one that does not begin with a dollar sign and a point leads to nothing, so a
condition with it is met by no answer, and by every answer if it is negated.
-/

namespace DotHttp.Condition

open DotHttp.Text

/-- What stands behind the name of a request in a condition on the answer to it. -/
inductive Part (paths : String → Prop) : List Char → Prop
  | status : Part paths ".response.status".toList
  | body {path : String} (solid : ∀ c ∈ path.toList, isBlank c = false) (allowed : paths path) :
      Part paths (".response.body.".toList ++ path.toList)

/-- A text that, up to the white space around it, is a part of an answer, white space, and what is expected. -/
inductive Says (paths : String → Prop) (text : List Char) : Prop
  | intro {name part gap expected : List Char} (written : strip text = name ++ part ++ gap ++ expected)
      (named : Compact name) (undotted : '.' ∉ name) (part : Part paths part) (spaced : gap ≠ [])
      (blank : Blank gap) (visible : ¬ Blank expected)

/-- A path to a field. -/
def Rooted (path : String) : Prop :=
  ∃ fields, path = "$." ++ fields ∧ fields ≠ ""

variable {paths : String → Prop} {text : String} {negated : Bool} {c : Condition} {part : List Char}

theorem Part.solid (h : Part paths part) : ∀ c ∈ part, isBlank c = false := by
  cases h with
  | status =>
    have fixed : Compact ".response.status".toList := by decide +kernel
    exact fixed.solid
  | body solid allowed =>
    have fixed : Compact ".response.body.".toList := by decide +kernel
    exact List.forall_mem_append.2 ⟨fixed.solid, solid⟩

/-- The description of a condition that was read is a name and a part of an answer. -/
theorem exists_part (read : parse? text negated = some c) (allowed : ∀ p ∈ c.path, paths p) :
    ∃ part, Part paths part ∧ c.describe.toList = c.requestName.toList ++ part := by
  rcases (writable_of_parse? read).part with ⟨kind, -⟩ | ⟨p, kind, path, solid⟩
  · refine ⟨_, .status, ?_⟩
    rw [describe, kind, String.toList_append]
  · refine ⟨_, .body solid (allowed p (by rw [path]; rfl)), ?_⟩
    rw [describe, kind, path, Option.getD_some, String.toList_append, String.toList_append,
      List.append_assoc]

/-- The texts that say a condition are those that are read, and their paths are those of the conditions. -/
theorem says_iff (negated : Bool) : Says paths text.toList ↔
    ∃ c, parse? text negated = some c ∧ ∀ p ∈ c.path, paths p := by
  constructor
  · rintro @⟨name, part, gap, expected, written, named, undotted, asked, spaced, blank, visible⟩
    have word : Compact (name ++ part) :=
      ⟨by simp [named.nonempty], List.forall_mem_append.2 ⟨named.solid, asked.solid⟩⟩
    have hw := words_first written word blank spaced
    have more : words expected ≠ [] := fun none => visible (blank_of_words_nil none)
    cases asked with
    | status =>
      refine ⟨_, parse?_status named.nonempty undotted more hw, ?_⟩
      intro p hp
      cases hp
    | @body path solid allowed =>
      rw [← List.append_assoc] at hw
      refine ⟨_, parse?_bodyPath named.nonempty undotted more hw, ?_⟩
      intro p hp
      cases hp
      rwa [String.ofList_toList]
  · intro ⟨c, read, allowed⟩
    obtain ⟨part, asked, described⟩ := exists_part read allowed
    obtain ⟨named, undotted, -⟩ := writable_of_parse? read
    obtain ⟨ws, hw, nonempty, -⟩ := words_of_parse? read
    obtain ⟨gap, rest, written, spaced, blank, behind⟩ := exists_first_word hw nonempty
    rw [described] at written
    refine .intro written named undotted asked spaced blank ?_
    intro none
    apply nonempty
    rw [← behind]
    exact words_of_stripLeft_nil (List.dropWhile_eq_nil_iff.2 none)

/-- A path that does not begin at the document finds nothing. -/
theorem extract?_of_unrooted {path : String} (h : ¬ "$.".toList <+: path.toList) (body : String) :
    JsonPath.extract? body path = none := by
  have none : dropStart? ['$', '.'] path.toList = none := by
    rw [Option.eq_none_iff_forall_ne_some]
    intro rest found
    exact h ⟨rest, (dropStart?_eq_some_iff.1 found).symm⟩
  rw [JsonPath.extract?, JsonPath.names?, none]
  rfl

/-- Whether a condition on the body of an answer depends on the answer is told by how its path begins. -/
theorem met_by_none_iff {p : String} (kind : c.kind = .bodyPath) (path : c.path = some p) :
    (∀ (store : Store) o, store.outcome? c.requestName = some o → (c.evaluate store).met = c.negated) ↔
      ¬ "$.".toList <+: p.toList := by
  constructor
  · rintro fixed ⟨fields, begins⟩
    obtain rfl : p = "$." ++ String.ofList fields := by
      apply String.toList_inj.1
      rw [String.toList_append, ← begins]
      exact congrArg _ String.toList_ofList.symm
    -- An answer with just the expected text there decides otherwise.
    obtain ⟨store, finds⟩ :=
      RequestFile.exists_finds c.requestName (String.ofList fields) c.expected
    have met := RequestFile.compares_expected kind path store _ finds
    obtain ⟨x, o, -, latest, answered, -⟩ := finds
    have outcome : store.outcome? c.requestName = some o := by rw [latest.outcome?, answered]
    rw [Symbols.toString_ofString, fixed store o outcome] at met
    cases negated : c.negated <;> simp [negated] at met
  · intro unrooted store o outcome
    have differs : (c.compare o).2 = false := by
      simp only [compare, kind, path, Option.getD_some]
      split
      · rfl
      · rw [extract?_of_unrooted unrooted]
    rw [evaluate, outcome]
    simp only [differs]
    cases c.negated <;> rfl

end DotHttp.Condition

namespace DotHttp.RequestFile

open DotHttp.Text DotHttp.Condition

/-- The texts that are read as conditions: those that say one, whatever the path is. Of these the ones with a
path to a field are what is meant by a condition; a path of another kind finds nothing. A line with any other
text is refused. -/
theorem condition_grammar (negated : Bool) :
    (∀ text : String, (∃ c, parse? text negated = some c) ↔ Says (fun _ => True) text.toList) ∧
    (∀ text c, parse? text negated = some c →
      (Says Rooted text.toList ↔ ∀ p ∈ c.path, Rooted p) ∧
      ∀ p ∈ c.path, (∀ (store : Store) o, store.outcome? c.requestName = some o →
        (c.evaluate store).met = negated) ↔ ¬ "$.".toList <+: p.toList) ∧
    ∀ vars text before raw after s word value, lines text.toList = before ++ raw :: after →
      readLines 1 (.start vars) before = .ok s → s.inScript = false →
      IsDirective (strip raw) (.condition negated) word value →
      ((∃ notes, parse vars text =
          .error ⟨.malformed (before.length + 1) (.invalidCondition word value), notes⟩) ↔
        ¬ Says (fun _ => True) (s.expand value).toList) := by
  refine ⟨?_, ?_, ?_⟩
  · intro text
    rw [says_iff negated]
    simp
  · intro text c read
    obtain ⟨ws, -, -, -, same⟩ := words_of_parse? read
    constructor
    · rw [says_iff negated, read]
      simp
    · intro p path
      obtain ⟨-, ⟨-, none⟩ | ⟨q, kind, some⟩⟩ := form_of_parse? read
      · rw [none] at path
        cases path
      · rw [← met_by_none_iff kind path, same]
  · intro vars text before raw after s word value split reached outside directive
    have kind := ofText_eq_directive_iff.2 directive
    rw [refused_at_iff split reached, readLine_of_kind outside directive.opensScript kind, State.heed,
      State.direct, says_iff negated]
    cases parse? (s.expand value) negated <;> simp

theorem not_rooted_x : ¬ Rooted "x" := by
  intro ⟨fields, same, _⟩
  have first := congrArg (·.toList.head?) same
  rw [String.toList_append] at first
  cases first

/-- A path without the document before it: a condition that no answer meets and, negated, every answer does,
and a line that is refused as it has nothing behind its path. -/
theorem condition_grammar_rootless :
    let text := "a.response.body.x \t 1"
    let file := "GET https://a\n@if-not a.response.body.$.x\n"
    (∃ c, parse? text true = some c ∧ Says (fun _ => True) text.toList ∧ ¬ Says Rooted text.toList ∧
      ∀ (store : Store) o, store.outcome? c.requestName = some o → (c.evaluate store).met = true) ∧
    ¬ Says (fun _ => True) "a.response.body.$.x".toList ∧
    ∃ notes, parse [] file =
      .error ⟨.malformed 2 (.invalidCondition "if-not" "a.response.body.$.x"), notes⟩ := by
  intro text file
  obtain ⟨grammar, meaning, refused⟩ := condition_grammar true
  let c : Condition := ⟨"a", .bodyPath, "1", true, some "x"⟩
  have read : parse? text true = some c := by decide +kernel
  obtain ⟨proper, met⟩ := meaning text c read
  have rootless : ¬ Says Rooted text.toList := by
    rw [proper]
    intro rooted
    exact not_rooted_x (rooted "x" rfl)
  have unsaid : ¬ Says (fun _ => True) "a.response.body.$.x".toList := by
    rw [← grammar]
    intro ⟨d, found⟩
    have unread : parse? "a.response.body.$.x" true = none := by decide +kernel
    rw [unread] at found
    cases found
  refine ⟨⟨c, read, (grammar text).1 ⟨c, read⟩, rootless, (met "x" rfl).2 (by decide +kernel)⟩, unsaid, ?_⟩
  have split : lines file.toList = ["GET https://a".toList] ++ "@if-not a.response.body.$.x".toList :: [] := by
    decide +kernel
  have directive : IsDirective (strip "@if-not a.response.body.$.x".toList) (.condition true) "if-not"
      "a.response.body.$.x" := ofText_eq_directive_iff.1 (by decide +kernel)
  let get : Request := ⟨"GET", "https://a", none, [], none, [], [], none, none, none, none, none⟩
  let s : State := ⟨[], [], some get, false, [], .empty, false, [], []⟩
  have reached : readLines 1 (.start []) ["GET https://a".toList] = .ok s := by decide +kernel
  rw [← Variable.expand_nil "a.response.body.$.x"] at unsaid
  exact (refused [] file _ _ _ s _ _ split reached rfl directive).2 unsaid

/-- A path without the document before it is accepted. -/
theorem rootless_path_accepted : ¬ ∀ (text : String) (negated : Bool),
    (∃ c, parse? text negated = some c) ↔ Says Rooted text.toList := by
  intro accepted
  have read : parse? "a.response.body.x 1" false = some ⟨"a", .bodyPath, "1", false, some "x"⟩ := by
    decide +kernel
  obtain ⟨c, same, rooted⟩ := (says_iff false).1 ((accepted "a.response.body.x 1" false).1 ⟨_, read⟩)
  rw [read] at same
  cases same
  exact not_rooted_x (rooted "x" rfl)

end DotHttp.RequestFile
