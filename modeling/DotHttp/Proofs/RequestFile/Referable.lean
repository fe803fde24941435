import DotHttp.Proofs.Reference
import DotHttp.Proofs.RequestFile.ConditionLine

/-!
Names that can be asked for. A directive takes any text of a line as a name, but references and conditions
are cut at points, placeholders at closing braces and the words of a condition at white space; so not every
name that is given finds its request again.
-/

namespace DotHttp

open DotHttp.Text

namespace RequestFile

section Definitions

variable {vars : List Variable} {ls : List (List Char)}

/-- Variables whose names have no asterisk, as the path of a whole body has. -/
def Starless (vars : List Variable) : Prop :=
  ∀ v ∈ vars, '*' ∉ v.name.toList

theorem starless_of_definition? {s name value : List Char} (h : definition? s = some (name, value)) :
    '*' ∉ name := by
  unfold definition? at h
  split at h
  · next c r =>
    split at h
    · next first =>
      dsimp only at h
      split at h
      · cases h
        intro star
        rcases List.mem_cons.1 star with rfl | later
        · simp [isLatin] at first
        · have inside := List.mem_takeWhile_imp later
          revert inside
          decide +kernel
      · cases h
    · cases h
  · cases h

theorem definition?_of_ofText {s : List Char} {name value : String}
    (h : Line.ofText s = .definition name value) :
    ∃ n v, definition? s = some (n, v) ∧ name = String.ofList n := by
  unfold Line.ofText at h
  split at h
  · cases h
  split at h
  · split at h
    · split at h <;> cases h
    · cases h
  split at h
  · split at h
    · next n v found =>
      cases h
      exact ⟨n, v, found, rfl⟩
    · split at h
      · cases h
      · split at h <;> cases h
  · split at h
    · cases h
    · split at h <;> cases h

theorem mem_setVariable {name value : String} {v : Variable}
    (h : v ∈ State.setVariable name value vars) : v.name = name ∨ v ∈ vars := by
  induction vars with
  | nil =>
    rw [State.setVariable, List.mem_singleton] at h
    exact .inl (congrArg Variable.name h)
  | cons w vars ih =>
    rw [State.setVariable] at h
    split at h
    · rcases List.mem_cons.1 h with rfl | later
      · exact .inl rfl
      · exact .inr (List.mem_cons_of_mem _ later)
    · rcases List.mem_cons.1 h with rfl | later
      · exact .inr List.mem_cons_self
      · exact (ih later).imp_right (List.mem_cons_of_mem _)

theorem Starless.learn (h : Starless vars) (raw : List Char) : Starless (learn vars raw) := by
  unfold RequestFile.learn
  split
  · next name value kind =>
    obtain ⟨n, v, found, rfl⟩ := definition?_of_ofText kind
    intro w hw
    rcases mem_setVariable hw with named | known
    · rw [named, String.toList_ofList]
      exact starless_of_definition? found
    · exact h w known
  · exact h

theorem starless_of_readLines {s : State} (h : readLines 1 (.start []) ls = .ok s) :
    Starless s.definitions := by
  rw [(gathered_of_readLines h).known]
  generalize unscripted false ls = ls
  induction ls using List.reverseRecOn with
  | nil => exact List.forall_mem_nil _
  | append_singleton ls raw ih =>
    rw [List.foldl_append]
    exact ih.learn raw

end Definitions

section Placeholders

open DotHttp.Placeholder DotHttp.Reference

/-- Variables of a file do not take the place of a reference to a whole body. -/
theorem expand_bodyPlaceholder {vars : List Variable} {name before : String} (starless : Starless vars)
    (ended : Ended before.toList) (whole : Whole name) (trimmed : Trimmed name.toList)
    (after : String) :
    Variable.expand vars (before ++ bodyPlaceholder name ++ after) =
      Variable.expand vars before ++ bodyPlaceholder name ++ Variable.expand vars after := by
  have hn : '\n' ∉ name.toList := fun h => absurd (trimmed.unbroken _ h) (by decide)
  have star : '*' ∈ strip (toBody name) := by
    rw [strip_toBody trimmed.nonempty trimmed.stripped, toBody]
    exact List.mem_append_right _ (by decide +kernel)
  have unknown : Variable.lookup vars (String.ofList (strip (toBody name))) = none := by
    rw [Variable.lookup_eq_none_iff]
    intro v hv named
    apply starless v hv
    rw [named, String.toList_ofList]
    exact star
  have stays : Variable.fill vars (.placeholder (toBody name)) = written (toBody name) := by
    simp only [Variable.fill, unknown]
  rw [Variable.expand, Variable.expandChars, segments_bodyPlaceholder ended whole.unclosed
    trimmed.nonempty hn, List.flatMap_append, List.flatMap_cons, stays, Variable.expand,
    Variable.expandChars, Variable.expand, Variable.expandChars, bodyPlaceholder,
    ← String.ofList_append, ← String.ofList_append, List.append_assoc]

end Placeholders

section Conditions

variable {name : String} {s : State} {line : Nat} {raw : List Char} {c : Condition}

/-- A name that is the first word of a condition up to its point. -/
structure Worded (name : String) : Prop where
  undotted : '.' ∉ name.toList
  solid : ∀ c ∈ name.toList, isBlank c = false
  colon : name.toList.head? ≠ some ':'

/-- The line with the condition that the answer to a request has a status. -/
def statusLine (name status : String) : List Char :=
  directiveLine "if" (name ++ ".response.status " ++ status)

/-- What a directive holds whose value stands behind a blank; the value may begin with a colon. -/
theorem kind_directiveLine_holds {word value : String} {keyword : Keyword}
    (known : (word, keyword) ∈ keywords) (trimmed : Trimmed value.toList) :
    opensScript (strip (directiveLine word value)) = false ∧
      ∃ held, Line.ofText (strip (directiveLine word value)) = .directive keyword word held ∧
        Holds (' ' :: value.toList) held.toList := by
  obtain ⟨held, holds⟩ : ∃ held : String, Holds (' ' :: value.toList) held.toList :=
    ⟨.ofList _, holds_iff.2 String.toList_ofList.symm⟩
  have directive : IsDirective (directiveLine word value) keyword word held :=
    ⟨known, ['#'] ++ [' '], ' ' :: value.toList, by simp [directiveLine],
      .comment (.inr ⟨by decide, by simp⟩) (by decide), by simp [inWord, isWord], holds⟩
  rw [strip_directiveLine word trimmed.nonempty trimmed.stripped]
  exact ⟨rfl, _, ofText_eq_directive_iff.2 directive, holds⟩

theorem compact_toString (n : Int) : Compact (toString n).toList := by
  cases n with
  | ofNat m => simpa [Int.toString_eq_repr, Int.repr] using Duration.compact_toDigits m
  | negSucc m =>
    have digits := Duration.compact_toDigits (m + 1)
    refine ⟨by simp [Int.toString_eq_repr, Int.repr], ?_⟩
    simpa [Int.toString_eq_repr, Int.repr, isBlank] using digits.solid

/-- The words of a condition with the status after a name: the first holds the name, the others the status. -/
theorem words_status {name status : List Char} (solid : ∀ c ∈ name, isBlank c = false) :
    words (name ++ ".response.status ".toList ++ status) =
      (name ++ ".response.status".toList) :: words status := by
  have spaced : ".response.status ".toList = ".response.status".toList ++ [' '] := by decide +kernel
  have tail : Compact ".response.status".toList := by decide +kernel
  have compact : Compact (name ++ ".response.status".toList) :=
    ⟨by simp, List.forall_mem_append.2 ⟨solid, tail.solid⟩⟩
  rw [spaced, ← List.append_assoc, List.append_assoc, List.singleton_append,
    words_append_space compact]

/-- A status is one word, so putting the words of a text one blank apart makes no difference to it. -/
theorem toString_eq_joined_iff {status : List Char} (stripped : strip status = status) (n : Int) :
    (toString n).toList = joinWith [' '] (words status) ↔ (toString n).toList = status := by
  have compact := compact_toString n
  constructor
  · intro same
    have one : words status = [(toString n).toList] := by
      rw [← words_of_compact compact, same, words_joinWith fun w => compact_of_mem_words]
    rw [← stripped, strip_of_words one]
  · intro same
    rw [← same, words_of_compact compact, joinWith]

theorem met_status_iff {store : Store} {x : Context} {o : Outcome} {expected : List Char}
    (latest : store.Latest name x) (answered : x.outcome = some o) (stripped : strip expected = expected) :
    ((⟨name, .status, String.ofList expected, false, none⟩ : Condition).evaluate store).met = true ↔
      (toString o.status).toList = expected := by
  have found : store.outcome? name = some o := by rw [latest.outcome?, answered]
  simp [Condition.evaluate, found, Condition.compare, String.stripBlank, stripped,
    ← String.toList_inj]

/-- A condition on the status of an answer is read, and is about the latest answer under the name. -/
def State.AsksStatus (s : State) (line : Nat) (name status : String) : Prop :=
  ∃ c, s.Asks line (statusLine name status) c ∧
    ∀ (store : Store) x o, store.Latest name x → x.outcome = some o →
      ((c.evaluate store).met = true ↔ toString o.status = status)

theorem toList_statusValue (name status : String) : (name ++ ".response.status " ++ status).toList =
    name.toList ++ ".response.status ".toList ++ status.toList := by
  rw [String.toList_append, String.toList_append]

theorem strip_statusValue {name status : List Char} (first : ∀ c ∈ name.head?, isBlank c = false)
    (hs : Trimmed status) : strip (name ++ ".response.status ".toList ++ status) =
      name ++ ".response.status ".toList ++ status := by
  have dotted : ".response.status ".toList = '.' :: "response.status ".toList := by decide +kernel
  have right := stripRight_of_strip hs.stripped
  cases name with
  | nil =>
    rw [dotted]
    exact strip_cons_append rfl _ right hs.nonempty
  | cons c name => exact strip_cons_append (first c rfl) (name ++ _) right hs.nonempty

theorem trimmed_statusValue {status : String} (trimmed : Trimmed name.toList)
    (hs : Trimmed status.toList) : Trimmed (name ++ ".response.status " ++ status).toList := by
  have first : ∀ c ∈ name.toList.head?, isBlank c = false := by
    intro c hc
    obtain ⟨more, split⟩ := List.head?_eq_some_iff.1 hc
    exact isBlank_of_strip_cons (split ▸ trimmed.stripped)
  rw [toList_statusValue]
  exact ⟨(trimmed.unbroken.append (by decide +kernel)).append hs.unbroken, by simp,
    strip_statusValue first hs⟩

theorem Worded.asksStatus (h : Worded name) (trimmed : Trimmed name.toList) {status : String}
    (hs : Trimmed status.toList) (outside : s.inScript = false)
    (silent : Variable.Silent s.definitions (name ++ ".response.status " ++ status)) (line : Nat) :
    s.AsksStatus line name status := by
  have value := trimmed_statusValue trimmed hs
  have colon : (name ++ ".response.status " ++ status).toList.head? ≠ some ':' := by
    rw [toList_statusValue, List.append_assoc, List.head?_append_of_ne_nil _ trimmed.nonempty]
    exact h.colon
  have known : ("if", Keyword.condition false) ∈ keywords := by decide
  obtain ⟨script, kind⟩ := kind_directiveLine known
    ⟨value.unbroken, value.nonempty, value.stripped, colon⟩
  have hw := (congrArg words (toList_statusValue name status)).trans (words_status h.solid)
  have read : Condition.parse? (name ++ ".response.status " ++ status) false = _ :=
    Condition.parse?_status trimmed.nonempty h.undotted (words_ne_nil hs) hw
  rw [String.ofList_toList, ← Variable.expand_of_silent silent] at read
  refine ⟨_, (asks_iff outside script kind).2 read, ?_⟩
  intro store x o latest answered
  have compact : ∀ w ∈ words status.toList, Compact w := fun w => compact_of_mem_words
  have joined := (joinWith_solid compact (words_ne_nil hs)).2.1
  rw [met_status_iff latest answered joined, toString_eq_joined_iff hs.stripped, String.toList_inj]

/-- The name that a condition is read to have, where it is the one that stands in its line. -/
theorem worded_of_parse? {status held : String} (hs : Trimmed status.toList)
    (holds : Holds (' ' :: (name ++ ".response.status " ++ status).toList) held.toList)
    (read : Condition.parse? held false = some c) (named : c.requestName = name) : Worded name := by
  obtain ⟨first, ws, rest, hw, cut⟩ := Condition.requestName_of_parse? read
  rw [named] at cut
  obtain ⟨parts, undotted⟩ := splitFirst_eq_some_iff.1 cut
  have compact : Compact first := compact_of_mem_words (hw ▸ List.mem_cons_self)
  have solid : ∀ c ∈ name.toList, isBlank c = false :=
    fun c hc => compact.solid c (parts ▸ List.mem_append_left _ hc)
  refine ⟨undotted, solid, ?_⟩
  intro colon
  obtain ⟨more, split⟩ := List.head?_eq_some_iff.1 colon
  rw [split] at solid undotted cut
  obtain ⟨-, solid⟩ := List.forall_mem_cons.1 solid
  -- The colon is passed over, so the line is read as one for the name without it.
  have passed : held.toList = more ++ ".response.status ".toList ++ status.toList := by
    rw [← holds_iff.1 holds, toList_statusValue, split, stripLeft_space, List.cons_append,
      List.cons_append, stripLeft_cons (by decide)]
    exact strip_statusValue (fun c hc => solid c (List.mem_of_mem_head? hc)) hs
  rw [passed, words_status solid] at hw
  obtain rfl : more ++ ".response.status".toList = first := (List.cons.inj hw).1
  have dotted : ".response.status".toList = '.' :: "response.status".toList := by decide +kernel
  rw [dotted, splitFirst_append fun h => undotted (List.mem_cons_of_mem _ h)] at cut
  exact List.cons_ne_self ':' more (Prod.mk.inj (Option.some.inj cut)).1.symm

/-- Conditions on the status can be about just the names that are the first word up to its point. -/
theorem asksStatus_iff (trimmed : Trimmed name.toList) :
    (∀ (s : State) line status, s.inScript = false → Trimmed status.toList →
      Variable.Silent s.definitions (name ++ ".response.status " ++ status) →
      s.AsksStatus line name status) ↔ Worded name := by
  constructor
  · intro works
    have hs : Trimmed "200".toList := by decide
    obtain ⟨c, asks, met⟩ := works (.start []) 1 "200" rfl hs (Variable.silent_nil _)
    have known : ("if", Keyword.condition false) ∈ keywords := by decide
    obtain ⟨script, held, kind, holds⟩ :=
      kind_directiveLine_holds known (trimmed_statusValue trimmed hs)
    have read := (asks_iff rfl script kind).1 asks
    rw [State.expand, State.start, Variable.expand_nil] at read
    refine worded_of_parse? hs holds read ?_
    -- An answer under the name meets the condition, so this is the name that the condition has.
    by_contra other
    obtain ⟨x, o, latest, answered, status, -⟩ := Resolution.latest_oneAnswer name 200 ""
    have sent := (met _ x o latest answered).2 (by rw [status]; rfl)
    rw [Condition.evaluate, Store.outcome?, Resolution.get?_oneAnswer other] at sent
    cases sent
  · intro worded s line status outside hs silent
    exact worded.asksStatus trimmed hs outside silent line

end Conditions

section Names

open DotHttp.Placeholder DotHttp.Reference

/-- A placeholder for the body of the answer to a request with a name is passed on by the reading of its file
and is replaced by the body. -/
structure Answers (name : String) (before after : String) : Prop where
  kept : ∀ ls s, readLines 1 (.start []) ls = .ok s →
    s.expand (before ++ bodyPlaceholder name ++ after) =
      s.expand before ++ bodyPlaceholder name ++ s.expand after
  replaced : ∀ (store : Store) x o b p, store.Latest name x → x.outcome = some o →
    o.body = some b →
    (runFrom (Resolution.references store (before ++ bodyPlaceholder name ++ after)) p).1 = (do
      let s ← Resolution.filled store before
      let t ← Resolution.filled store after
      pure (s ++ b ++ t))

variable {name : String}

theorem answers_iff (trimmed : Trimmed name.toList) :
    (∀ before after : String, Ended before.toList → Answers name before after) ↔ Whole name := by
  constructor
  · intro works
    by_contra cut
    have given (body : String) :
        Resolution.filled (Resolution.oneAnswer name 200 body) (bodyPlaceholder name) = .ok body := by
      have ended : Ended "".toList := ended_of_literal (by decide) (by decide)
      obtain ⟨x, o, latest, answered, -, held⟩ := Resolution.latest_oneAnswer name 200 body
      have replaced := (works "" "" ended).replaced _ x o body ⟨0, []⟩ latest answered held
      obtain ⟨ns, fills⟩ := Resolution.runFrom_references (Resolution.oneAnswer name 200 body)
        ("" ++ bodyPlaceholder name ++ "")
      have empty : Resolution.filled (Resolution.oneAnswer name 200 body) "" = .ok "" :=
        Resolution.filled_of_no_brace _ (by decide)
      rw [fills, String.empty_append, String.append_empty, empty] at replaced
      simpa [bind, Except.bind, pure, Except.pure] using replaced
    have same := Resolution.filled_oneAnswer cut 200 "a" "b" (bodyPlaceholder name)
    rw [given, given] at same
    exact absurd (Except.ok.inj same) (by decide)
  · intro whole before after ended
    have hn : '\n' ∉ name.toList := fun h => absurd (trimmed.unbroken _ h) (by decide)
    refine ⟨?_, ?_⟩
    · intro ls s read
      exact expand_bodyPlaceholder (starless_of_readLines read) ended whole trimmed after
    · intro store x o b p latest answered body
      obtain ⟨ns, fills⟩ := Resolution.runFrom_references store
        (before ++ bodyPlaceholder name ++ after)
      rw [fills, Resolution.filled_bodyPlaceholder ended whole trimmed.nonempty hn trimmed.stripped
        after latest answered body]

/-- The names of requests that placeholders, and that conditions, can ask for. -/
theorem names_referable {known : List Variable} {text : String} {parsed : Parsed}
    (h : parse known text = .ok parsed) {r : Request} (hr : r ∈ parsed.requests)
    (named : r.name = some name) :
    ((∀ before after : String, Ended before.toList → Answers name before after) ↔
      '.' ∉ name.toList ∧ ¬ ['}', '}'] <:+: name.toList.tail) ∧
    ((∀ (s : State) line status, s.inScript = false → Trimmed status.toList →
        Variable.Silent s.definitions (name ++ ".response.status " ++ status) →
        s.AsksStatus line name status) ↔
      '.' ∉ name.toList ∧ (∀ c ∈ name.toList, isBlank c = false) ∧
        name.toList.head? ≠ some ':') := by
  have trimmed := trimmed_of_named h hr named
  constructor
  · rw [answers_iff trimmed]
    exact ⟨fun ⟨undotted, unclosed⟩ => ⟨undotted, unclosed⟩,
      fun ⟨undotted, unclosed⟩ => ⟨undotted, unclosed⟩⟩
  · rw [asksStatus_iff trimmed]
    exact ⟨fun ⟨undotted, solid, colon⟩ => ⟨undotted, solid, colon⟩,
      fun ⟨undotted, solid, colon⟩ => ⟨undotted, solid, colon⟩⟩

/-- The name of a request with a blank in it: placeholders can ask for it and conditions cannot. -/
theorem names_referable_spaced :
    let name := "my login"
    ∃ parsed, parse [] "# @name my login\nGET https://a\n" = .ok parsed ∧
      (∃ r ∈ parsed.requests, r.name = some name) ∧
      Answers name "Bearer " "" ∧
      ¬ ∀ (s : State) line status, s.inScript = false → Trimmed status.toList →
        Variable.Silent s.definitions (name ++ ".response.status " ++ status) →
        s.AsksStatus line name status := by
  intro name
  let r : Request :=
    ⟨"GET", "https://a", some name, [], none, [], [], none, none, none, none, none⟩
  have parsed : parse [] "# @name my login\nGET https://a\n" = .ok ⟨[r], []⟩ := by decide +kernel
  have there : r ∈ [r] := List.mem_singleton_self r
  obtain ⟨placeholders, conditions⟩ := names_referable parsed there rfl
  have ended : Ended "Bearer ".toList := ended_of_literal (by decide +kernel) (by decide +kernel)
  refine ⟨_, parsed, ⟨r, there, rfl⟩, ?_, ?_⟩
  · exact placeholders.2 (by decide +kernel) "Bearer " "" ended
  · rw [conditions]
    rintro ⟨-, solid, -⟩
    exact absurd (solid ' ' (by decide +kernel)) (by decide)

/-- A name with a point in it is given to a request whose answer neither a placeholder nor a condition finds. -/
theorem dotted_name_lost :
    (∃ parsed, parse [] "# @name a.b\nGET https://a\n" = .ok parsed ∧
      ∃ r ∈ parsed.requests, r.name = some "a.b") ∧
    (∃ (store : Store) (x : Context) (o : Outcome), store.Latest "a.b" x ∧ x.outcome = some o ∧
      o.body = some "tok" ∧
      (runFrom (Resolution.references store (bodyPlaceholder "a.b")) ⟨0, []⟩).1 =
        .ok (bodyPlaceholder "a.b")) ∧
    parse [] "# @name a.b\nGET https://a\n\n###\n# @if a.b.response.status 200\nGET https://b\n" =
      .error ⟨.malformed 5 (.invalidCondition "if" "a.b.response.status 200"), []⟩ := by
  refine ⟨?_, ?_, by decide +kernel⟩
  · let r : Request :=
      ⟨"GET", "https://a", some "a.b", [], none, [], [], none, none, none, none, none⟩
    have parsed : parse [] "# @name a.b\nGET https://a\n" = .ok ⟨[r], []⟩ := by decide +kernel
    exact ⟨_, parsed, r, List.mem_singleton_self r, rfl⟩
  · obtain ⟨x, o, latest, answered, -, body⟩ := Resolution.latest_oneAnswer "a.b" 200 "tok"
    exact ⟨_, x, o, latest, answered, body, by decide +kernel⟩

end Names

end RequestFile

end DotHttp
