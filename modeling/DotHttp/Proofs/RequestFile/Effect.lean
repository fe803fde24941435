import DotHttp.Proofs.RequestFile.Script

/-!
What the lines of a file come to. A line either adds to what is read, and what it adds to a request is
there in the end, or it is passed over.
-/

namespace DotHttp.RequestFile

open DotHttp.Text

/-- A line in a script block that this line or a later one closes. -/
def ClosedScript (before : List (List Char)) (raw : List Char) (after : List (List Char)) : Prop :=
  ScriptLine before raw ∧ ∃ closing ∈ raw :: after, closesScript (strip closing) = true

/-- A line that begins with an at sign and is neither a definition nor a directive. -/
def Ignored (raw : List Char) : Prop :=
  (strip raw).head? = some '@' ∧ definition? (strip raw) = none ∧ directive? (strip raw) = none

/-- The directives that wait, after one more is added to them. -/
inductive Directed (s : State) : Keyword → String → Pending → Prop
  | name {value : String} (nonempty : value ≠ "") :
      Directed s .name value { s.pending with name := some value }
  | dependsOn {value : String} (nonempty : value ≠ "") :
      Directed s .dependsOn value { s.pending with dependsOn := some value }
  | condition {negated : Bool} {value : String} {c : Condition}
      (read : Condition.parse? (s.expand value) negated = some c) :
      Directed s (.condition negated) value
        { s.pending with conditions := s.pending.conditions ++ [c] }
  | timeout {value : String} {n : Nat} (read : Duration.read value.toList 1000 = .ok (some n)) :
      Directed s .timeout value { s.pending with timeout := some n }
  | connectionTimeout {value : String} {n : Nat}
      (read : Duration.read value.toList 1000 = .ok (some n)) :
      Directed s .connectionTimeout value { s.pending with connectionTimeout := some n }
  | preDelay {value : String} {n : Nat} (read : Duration.read value.toList 1 = .ok (some n)) :
      Directed s .preDelay value { s.pending with preDelay := some n }
  | postDelay {value : String} {n : Nat} (read : Duration.read value.toList 1 = .ok (some n)) :
      Directed s .postDelay value { s.pending with postDelay := some n }

/-- What a line adds to a state. -/
inductive Effect (s : State) (raw : List Char) : State → Prop
  | defines {name value : String}
      (kind : Line.ofText (strip raw) = .definition name value) :
      Effect s raw
        { s with definitions := State.setVariable name (s.expand value) s.definitions }
  | directs {keyword : Keyword} {word value : String} {p : Pending}
      (kind : Line.ofText (strip raw) = .directive keyword word value)
      (directed : Directed s keyword value p) :
      Effect s raw { s with pending := p }
  | asserts {kind : Assertion.Kind} {word expected : String} {r : Request}
      (line : Line.ofText (strip raw) = .assertion kind word expected)
      (current : s.current = some r) :
      Effect s raw { s with current := some { r with
        assertions := r.assertions ++ [⟨kind, s.expand expected⟩] } }
  | begins {text : List Char} {url : String} {s' : State} {r : Request}
      (kind : Line.ofText (strip raw) = .request text)
      (words : State.url? (State.splitMethod (words text)).2 = some url)
      (current : s'.current = some r)
      (method : r.method = s.expand (State.splitMethod (Text.words text)).1)
      (target : r.url = s.expand url)
      (finished : s'.requests = s.finish.requests) :
      Effect s raw s'
  | header {text name value : List Char} {r : Request}
      (kind : Line.ofText (strip raw) = .content text)
      (current : s.current = some r)
      (parts : splitFirst ':' text = some (name, value)) :
      Effect s raw { s with current := some { r with headers := r.headers ++
        [⟨s.expand (String.ofList (strip name)), s.expand (String.ofList (strip value))⟩] } }
  | body {text : List Char} {r : Request}
      (kind : Line.ofText (strip raw) = .content text)
      (current : s.current = some r) :
      Effect s raw { s with
        inBody := true
        body := s.body ++ [s.expand (String.ofList (stripRight raw))] }

/-- What reading a line can come to. -/
inductive Course (s : State) (raw : List Char) : State → Prop
  | script (within : (opensScript (strip raw) || s.inScript) = true) :
      Course s raw { s with inScript := !closesScript (strip raw) }
  | blank (kind : Line.ofText (strip raw) = .blank) : Course s raw s.skipLine
  | comment (kind : Line.ofText (strip raw) = .comment) : Course s raw s
  | ignored (outside : (opensScript (strip raw) || s.inScript) = false)
      (kind : Line.ofText (strip raw) = .ignored) : Course s raw s
  | effect {s' : State} (outside : (opensScript (strip raw) || s.inScript) = false)
      (effect : Effect s raw s') : Course s raw s'

/-- What a state holds of requests is there in the end: the finished ones as they are, and the one that
lines are added to with more of its own lines. -/
structure Kept (s : State) (requests : List Request) : Prop where
  finished : s.requests <+: requests
  current : ∀ r ∈ s.current, ∃ headers assertions body,
    requests[s.requests.length]? = some { r with
      headers := r.headers ++ headers
      assertions := r.assertions ++ assertions
      body := State.bodyText (s.body ++ body) }

variable {s s' : State} {line : Nat} {raw : List Char} {requests : List Request}

theorem Kept.of_same (h : Kept s' requests) (hr : s'.requests = s.requests)
    (hc : s'.current = s.current) (hb : s'.body = s.body) : Kept s requests := by
  refine ⟨hr ▸ h.finished, ?_⟩
  rw [← hr, ← hc, ← hb]
  exact h.current

/-- Lines of the body that come later stand after those that are there. -/
theorem Kept.of_body (h : Kept s' requests) (hr : s'.requests = s.requests)
    (hc : s'.current = s.current) {added : List String} (hb : s'.body = s.body ++ added) :
    Kept s requests := by
  refine ⟨hr ▸ h.finished, ?_⟩
  intro r hm
  obtain ⟨headers, assertions, body, at_⟩ := h.current r (hc ▸ hm)
  refine ⟨headers, assertions, added ++ body, ?_⟩
  rw [← hr, at_, hb, List.append_assoc]

/-- A request that has got more headers and assertions since. -/
theorem Kept.of_current (h : Kept s' requests) (headers : List Header)
    (assertions : List Assertion) {r : Request} (hc : s.current = some r)
    (hr : s'.requests = s.requests)
    (hc' : s'.current = some { r with
      headers := r.headers ++ headers, assertions := r.assertions ++ assertions })
    (hb : s'.body = s.body) : Kept s requests := by
  refine ⟨hr ▸ h.finished, ?_⟩
  intro r' hm
  obtain rfl : r = r' := Option.some.inj (hc.symm.trans hm)
  obtain ⟨moreHeaders, moreAssertions, body, at_⟩ := h.current _ hc'
  refine ⟨headers ++ moreHeaders, assertions ++ moreAssertions, body, ?_⟩
  rw [← hr, at_, hb, List.append_assoc, List.append_assoc]

theorem Kept.of_skipLine (h : Kept s.skipLine requests) : Kept s requests := by
  unfold State.skipLine at h
  split at h
  · exact h.of_body rfl rfl rfl
  · split at h
    · exact h.of_same rfl rfl rfl
    · exact h

theorem Kept.of_finish (h : s.finish.requests <+: requests) : Kept s requests := by
  rw [State.finish_requests] at h
  refine ⟨(List.prefix_append _ _).trans h, ?_⟩
  intro r hr
  obtain ⟨more, rfl⟩ := h
  rw [Option.mem_def.1 hr]
  exact ⟨[], [], [], by simp⟩

theorem duration_ok {word value : String} {bare n : Nat}
    (h : State.duration line word value bare = .ok n) :
    Duration.read value.toList bare = .ok (some n) := by
  unfold State.duration at h
  split at h
  · cases h
  · cases h
  · next m hm =>
    cases h
    exact hm

theorem directed_of_direct {keyword : Keyword} {word value : String}
    (h : s.direct line keyword word value = .ok s') :
    ∃ p, s' = { s with pending := p } ∧ Directed s keyword value p := by
  have timed {bare : Nat} {set : Nat → State} (hd : (State.duration line word value bare >>=
      fun n => Except.ok (set n)) = .ok s') :
      ∃ n, Duration.read value.toList bare = .ok (some n) ∧ s' = set n := by
    cases hn : State.duration line word value bare with
    | error e =>
      rw [hn] at hd
      cases hd
    | ok n =>
      rw [hn] at hd
      cases hd
      exact ⟨n, duration_ok hn, rfl⟩
  cases keyword with
  | name =>
    simp only [State.direct] at h
    split at h
    · cases h
    · next nonempty =>
      cases h
      exact ⟨_, rfl, .name nonempty⟩
  | dependsOn =>
    simp only [State.direct] at h
    split at h
    · cases h
    · next nonempty =>
      cases h
      exact ⟨_, rfl, .dependsOn nonempty⟩
  | condition negated =>
    simp only [State.direct] at h
    split at h
    · cases h
    · next c read =>
      cases h
      exact ⟨_, rfl, .condition read⟩
  | timeout =>
    obtain ⟨n, read, rfl⟩ := timed h
    exact ⟨_, rfl, .timeout read⟩
  | connectionTimeout =>
    obtain ⟨n, read, rfl⟩ := timed h
    exact ⟨_, rfl, .connectionTimeout read⟩
  | preDelay =>
    obtain ⟨n, read, rfl⟩ := timed h
    exact ⟨_, rfl, .preDelay read⟩
  | postDelay =>
    obtain ⟨n, read, rfl⟩ := timed h
    exact ⟨_, rfl, .postDelay read⟩

theorem effect_of_beginRequest {text : List Char} (hk : Line.ofText (strip raw) = .request text)
    (h : s.beginRequest line text = .ok s') : Effect s raw s' := by
  simp only [State.beginRequest, State.expand, State.finish_definitions] at h
  split at h
  · cases h
  · next url hu =>
    cases h
    exact .begins hk hu rfl rfl rfl rfl

theorem effect_of_addContent {text : List Char} (hk : Line.ofText (strip raw) = .content text)
    (h : s.addContent line raw text = .ok s') : Effect s raw s' := by
  simp only [State.addContent] at h
  split at h
  · cases h
  · next r hr =>
    split at h
    · next name value parts =>
      split at parts
      · cases parts
      · cases h
        exact .header hk hr parts
    · cases h
      exact .body hk hr

/-- The line tells what reading it comes to. -/
theorem course_of_readLine (h : s.readLine line raw = .ok s') : Course s raw s' := by
  rw [State.readLine_eq] at h
  split at h
  · next within =>
    cases h
    exact .script within
  · next outside =>
    rw [Bool.not_eq_true] at outside
    cases hk : Line.ofText (strip raw) with rw [hk] at h
    | blank =>
      cases h
      exact .blank hk
    | comment =>
      cases h
      exact .comment hk
    | ignored =>
      cases h
      exact .ignored outside hk
    | directive keyword word value =>
      obtain ⟨p, rfl, directed⟩ := directed_of_direct h
      exact .effect outside (.directs hk directed)
    | unknownDirective word => cases h
    | definition name value =>
      cases h
      exact .effect outside (.defines hk)
    | assertion kind word expected =>
      simp only [State.heed, State.addAssertion] at h
      split at h
      · cases h
      · next r current =>
        cases h
        exact .effect outside (.asserts hk current)
    | request text => exact .effect outside (effect_of_beginRequest hk h)
    | content text => exact .effect outside (effect_of_addContent hk h)

/-- What a line adds is added to what the state before it held. -/
theorem Kept.of_effect (h : Kept s' requests) (effect : Effect s raw s') : Kept s requests := by
  cases effect with
  | defines | directs => exact h.of_same rfl rfl rfl
  | @asserts kind word expected r line current =>
    refine h.of_current [] [⟨kind, s.expand expected⟩] current rfl ?_ rfl
    rw [List.append_nil]
  | begins kind words current method target finished =>
    apply Kept.of_finish
    rw [← finished]
    exact h.finished
  | @header text name value r kind current parts =>
    refine h.of_current [⟨s.expand (String.ofList (strip name)),
      s.expand (String.ofList (strip value))⟩] [] current rfl ?_ rfl
    rw [List.append_nil]
  | body kind current => exact h.of_body rfl rfl rfl

theorem Kept.of_course (h : Kept s' requests) (course : Course s raw s') : Kept s requests := by
  cases course with
  | script => exact h.of_same rfl rfl rfl
  | blank => exact h.of_skipLine
  | comment | ignored => exact h
  | effect outside effect => exact h.of_effect effect

/-- Reading on loses nothing that the state held. -/
theorem kept_of_readLines {ls : List (List Char)} (h : readLines line s ls = .ok s') :
    Kept s s'.finish.requests := by
  induction ls generalizing line s with
  | nil =>
    cases h
    exact .of_finish List.prefix_rfl
  | cons raw rest ih =>
    simp only [readLines] at h
    cases hr : s.readLine line raw with
    | error e =>
      rw [hr] at h
      cases h
    | ok s₁ =>
      rw [hr] at h
      exact (ih h).of_course (course_of_readLine hr)

/-- A text says what kind of line it is, by its first characters. -/
theorem visible_kind (visible : strip raw ≠ []) (remark : isComment (strip raw) = false) :
    Line.ofText (strip raw) ≠ .blank ∧ Line.ofText (strip raw) ≠ .comment ∧
      (Line.ofText (strip raw) = .ignored ↔ Ignored raw) := by
  have nonempty : ¬ (strip raw).isEmpty = true := by
    rw [List.isEmpty_iff]
    exact visible
  unfold Line.ofText Ignored
  rw [if_neg nonempty, if_neg (Bool.eq_false_iff.1 remark)]
  split
  · next sign =>
    split
    · next defined => simp [defined]
    · next undefined =>
      split
      · next undirected => simp [sign, undefined, undirected]
      · next directed => split <;> simp [directed]
  · next sign =>
    split
    · simp [sign]
    · split <;> simp [sign]

theorem Effect.not_ignored (h : Effect s raw s') : Line.ofText (strip raw) ≠ .ignored := by
  cases h <;> simp_all

/-- In a text that is read, a line that is neither blank nor a comment nor in a closed script block adds
to what is read, and what it adds to a request is there in the end. Only a line with an at sign that
says nothing, and one in a script block that is never closed, are passed over. -/
theorem parse_keeps_lines {vars : List Variable} {text : String} {p : Parsed}
    {before after : List (List Char)} {raw : List Char} (hp : parse vars text = .ok p)
    (split : lines text.toList = before ++ raw :: after) (visible : strip raw ≠ [])
    (remark : isComment (strip raw) = false) (unclosed : ¬ ClosedScript before raw after) :
    ∃ s s', readLines 1 (.start vars) before = .ok s ∧
      s.readLine (before.length + 1) raw = .ok s' ∧ Kept s' p.requests ∧
      ((Effect s raw s' ∧ ¬ ScriptLine before raw ∧ ¬ Ignored raw) ∨
        (s' = { s with inScript := s'.inScript } ∧
          (ScriptLine before raw ∧ (∀ later ∈ raw :: after, closesScript (strip later) = false) ∨
            Ignored raw))) := by
  obtain ⟨last, read, rfl⟩ : ∃ last, readText vars text = .ok last ∧ last.result = p := by
    unfold parse at hp
    cases hr : readText vars text with
    | error e =>
      rw [hr] at hp
      cases hp
    | ok last =>
      rw [hr] at hp
      exact ⟨last, rfl, Except.ok.inj hp⟩
  rw [readText, split] at read
  obtain ⟨s, s', reached, here, rest⟩ := readLines_through read
  rw [Nat.add_comm] at here
  refine ⟨s, s', reached, here, kept_of_readLines rest, ?_⟩
  obtain ⟨blank, comment, ignored⟩ := visible_kind visible remark
  have block := readLines_scriptLine reached raw
  cases course_of_readLine here with
  | script within =>
    right
    refine ⟨rfl, .inl ⟨block.1 within, ?_⟩⟩
    intro later hl
    rw [← Bool.not_eq_true]
    intro closes
    exact unclosed ⟨block.1 within, later, hl, closes⟩
  | blank kind => exact (blank kind).elim
  | comment kind => exact (comment kind).elim
  | ignored outside kind => exact .inr ⟨rfl, .inr (ignored.1 kind)⟩
  | effect outside effect =>
    left
    refine ⟨effect, ?_, ?_⟩
    · rw [← block, outside]
      exact Bool.false_ne_true
    · rw [← ignored]
      exact effect.not_ignored

/-- A header that uses a variable. -/
theorem parse_keeps_header :
    let text := "@kind = text/plain\nGET https://a\nAccept: \x7b\x7bkind\x7d\x7d\n\nbody\n"
    let before := ["@kind = text/plain".toList, "GET https://a".toList]
    let raw := "Accept: \x7b\x7bkind\x7d\x7d".toList
    let after := [[], "body".toList]
    ∃ p, parse [] text = .ok p ∧ lines text.toList = before ++ raw :: after ∧ strip raw ≠ [] ∧
      isComment (strip raw) = false ∧ ¬ ClosedScript before raw after ∧
      ∃ s s', readLines 1 (.start []) before = .ok s ∧
        s.readLine (before.length + 1) raw = .ok s' ∧ Kept s' p.requests ∧
        ((Effect s raw s' ∧ ¬ ScriptLine before raw ∧ ¬ Ignored raw) ∨
          (s' = { s with inScript := s'.inScript } ∧
            (ScriptLine before raw ∧
              (∀ later ∈ raw :: after, closesScript (strip later) = false) ∨ Ignored raw))) := by
  intro text before raw after
  let get : Request := ⟨"GET", "https://a", none, [⟨"Accept", "text/plain"⟩], some "body", [], [],
    none, none, none, none, none⟩
  have hp : parse [] text = .ok ⟨[get], []⟩ := by decide +kernel
  have split : lines text.toList = before ++ raw :: after := by decide +kernel
  have visible : strip raw ≠ [] := by decide +kernel
  have remark : isComment (strip raw) = false := by decide +kernel
  have unclosed : ¬ ClosedScript before raw after := by
    rintro ⟨-, closing, hc, closes⟩
    have none : ∀ closing ∈ raw :: after, closesScript (strip closing) = false := by decide +kernel
    rw [none closing hc] at closes
    cases closes
  exact ⟨_, hp, split, visible, remark, unclosed,
    parse_keeps_lines hp split visible remark unclosed⟩

/-- A line whose at sign has no letter after it is lost without a word. -/
theorem parse_loses_line : ¬ ∀ (vars : List Variable) (text : String) (p : Parsed)
    (before after : List (List Char)) (raw : List Char), parse vars text = .ok p →
      lines text.toList = before ++ raw :: after → strip raw ≠ [] →
      isComment (strip raw) = false → ¬ ClosedScript before raw after →
      ∃ s s', readLines 1 (.start vars) before = .ok s ∧
        s.readLine (before.length + 1) raw = .ok s' ∧ Effect s raw s' := by
  intro keeps
  let get : Request := ⟨"GET", "https://a", none, [], none, [], [], none, none, none, none, none⟩
  let raw := "@1 lost".toList
  have unclosed : ¬ ClosedScript [] raw ["GET https://a".toList] := by
    rintro ⟨opens | inside, -⟩
    · have none : opensScript (strip raw) = false := by decide +kernel
      rw [none] at opens
      cases opens
    · exact not_inScript_nil inside
  obtain ⟨s, s', -, -, effect⟩ := keeps [] "@1 lost\nGET https://a\n" ⟨[get], []⟩ []
    ["GET https://a".toList] raw (by decide +kernel) (by decide +kernel) (by decide +kernel)
    (by decide +kernel) unclosed
  have ignored : Line.ofText (strip raw) = .ignored := by decide +kernel
  exact effect.not_ignored ignored

end DotHttp.RequestFile
