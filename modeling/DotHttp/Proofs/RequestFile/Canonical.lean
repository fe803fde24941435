import DotHttp.Proofs.Placeholder
import DotHttp.Proofs.RequestFile.Reading
import DotHttp.Proofs.RequestFile.Written
import DotHttp.Proofs.Text.Lines

/-!
Request files say what was written. The lines of a request are read one kind after the other, and
after each kind the state holds what was written so far, so that nothing is left over for the next
request.
-/

namespace DotHttp.RequestFile

open DotHttp.Text

/-- Lines that are read in every state of one kind, and lead to one of another. -/
def Reads (P : State → Prop) (ls : List (List Char)) (Q : State → Prop) : Prop :=
  ∀ s line, P s → ∃ s', readLines line s ls = .ok s' ∧ Q s'

section

variable {P Q R : State → Prop} {ls ls' : List (List Char)} {raw : List Char}

theorem Reads.nil (h : ∀ s, P s → Q s) : Reads P [] Q := fun s _ hs => ⟨s, rfl, h s hs⟩

theorem Reads.append (h : Reads P ls Q) (h' : Reads Q ls' R) : Reads P (ls ++ ls') R := by
  intro s line hs
  obtain ⟨s₁, h₁, hs₁⟩ := h s line hs
  obtain ⟨s₂, h₂, hs₂⟩ := h' s₁ (line + ls.length) hs₁
  exact ⟨s₂, by rw [readLines_append, h₁]; exact h₂, hs₂⟩

theorem Reads.single (h : ∀ s line, P s → ∃ s', s.readLine line raw = .ok s' ∧ Q s') :
    Reads P [raw] Q := by
  intro s line hs
  obtain ⟨s', hr, hs'⟩ := h s line hs
  exact ⟨s', by rw [readLines, hr]; rfl, hs'⟩

theorem Reads.cons (h : Reads P [raw] Q) (h' : Reads Q ls R) : Reads P (raw :: ls) R :=
  h.append h'

theorem Reads.weaken (h : Reads P ls Q) (hQ : ∀ s, Q s → R s) : Reads P ls R := by
  intro s line hs
  obtain ⟨s', hr, hs'⟩ := h s line hs
  exact ⟨s', hr, hQ s' hs'⟩

theorem Reads.forall (h : ∀ raw ∈ ls, Reads P [raw] P) : Reads P ls P := by
  induction ls with
  | nil => exact .nil fun _ hs => hs
  | cons raw rest ih =>
    obtain ⟨first, rest⟩ := List.forall_mem_cons.1 h
    exact first.cons (ih rest)

/-- Lines each of which adds one thing to those that the state holds. -/
theorem Reads.map {α : Type} {as : List α} {line : α → List Char} (P : List α → State → Prop)
    (h : ∀ a ∈ as, ∀ held, Reads (P held) [line a] (P (held ++ [a]))) (held : List α) :
    Reads (P held) (as.map line) (P (held ++ as)) := by
  induction as generalizing held with
  | nil =>
    rw [List.append_nil]
    exact .nil fun _ hs => hs
  | cons a rest ih =>
    obtain ⟨first, rest⟩ := List.forall_mem_cons.1 h
    rw [List.append_cons]
    exact (first held).cons (ih rest (held ++ [a]))

end

/-- Between two requests: some are done, and some directives wait for the next. -/
structure Waiting (done : List Request) (p : Pending) (s : State) : Prop where
  definitions : s.definitions = []
  inScript : s.inScript = false
  pending : s.pending = p
  settled : s.Settled
  finished : s.finish.requests = done

/-- In a request, after some that are done: what it has so far, and the lines of its body. -/
structure Holding (done : List Request) (q : Request) (inBody : Bool) (body : List String)
    (s : State) : Prop where
  definitions : s.definitions = []
  inScript : s.inScript = false
  pending : s.pending = .empty
  requests : s.requests = done
  current : s.current = some q
  inBody : s.inBody = inBody
  body : s.body = body

/-- At the end of a request, where only blank lines can come to its body. -/
structure Ending (done : List Request) (q : Request) (body : Option String) (s : State) : Prop where
  definitions : s.definitions = []
  inScript : s.inScript = false
  pending : s.pending = .empty
  requests : s.requests = done
  current : s.current = some q
  body : State.bodyText s.body = body

variable {done : List Request} {p p' : Pending} {q : Request} {inBody : Bool} {body : List String}
  {text : Option String} {s : State} {raw : List Char}

theorem Holding.ending (h : Holding done q inBody body s) :
    Ending done q (State.bodyText body) s :=
  ⟨h.definitions, h.inScript, h.pending, h.requests, h.current, by rw [h.body]⟩

theorem Ending.waiting (h : Ending done q text s) :
    Waiting (done ++ [{ q with body := text }]) .empty s where
  definitions := h.definitions
  inScript := h.inScript
  pending := h.pending
  settled := fun hn => by rw [h.current] at hn; cases hn
  finished := by rw [State.finish_requests, h.current, h.requests, h.body]; rfl

theorem readLine_of_kind {kind : Line} (outside : s.inScript = false)
    (script : opensScript (strip raw) = false) (hk : Line.ofText (strip raw) = kind) (line : Nat) :
    s.readLine line raw = s.heed line raw kind := by
  rw [State.readLine_eq, script, outside, hk]
  rfl

theorem reads_idle_waiting (h : Idle raw) : Reads (Waiting done p) [raw] (Waiting done p) := by
  apply Reads.single
  intro s line hs
  obtain ⟨script, blank | comment⟩ := h.kind
  · obtain ⟨definitions, pending, inScript⟩ := State.skipLine_outside s
    refine ⟨s.skipLine, readLine_of_kind hs.inScript script blank line, ?_⟩
    exact
      { definitions := definitions.trans hs.definitions
        inScript := inScript.trans hs.inScript
        pending := pending.trans hs.pending
        settled := hs.settled.skipLine
        finished := (State.skipLine_requests s).trans hs.finished }
  · exact ⟨s, readLine_of_kind hs.inScript script comment line, hs⟩

theorem reads_idle_ending (h : Idle raw) :
    Reads (Ending done q text) [raw] (Ending done q text) := by
  apply Reads.single
  intro s line hs
  obtain ⟨script, blank | comment⟩ := h.kind
  · refine ⟨s.skipLine, readLine_of_kind hs.inScript script blank line, ?_⟩
    cases hb : s.inBody with
    | true =>
      have skipped : s.skipLine = { s with body := s.body ++ [""] } := by simp [State.skipLine, hb]
      rw [skipped]
      exact { hs with body := (bodyText_append_blank _).trans hs.body }
    | false =>
      have skipped : s.skipLine = { s with inBody := true } := by
        simp [State.skipLine, hb, hs.current]
      rw [skipped]
      exact { hs with }
  · exact ⟨s, readLine_of_kind hs.inScript script comment line, hs⟩

theorem reads_directive {value : String} (word : String) (keyword : Keyword)
    (hw : (word, keyword) ∈ keywords) (hv : Value value.toList)
    (h : ∀ (s : State) (line : Nat), s.definitions = [] → s.pending = p →
      s.direct line keyword word value = .ok { s with pending := p' }) :
    Reads (Waiting done p) [directiveLine word value] (Waiting done p') := by
  apply Reads.single
  intro s line hs
  obtain ⟨script, kind⟩ := kind_directiveLine hw hv
  refine ⟨{ s with pending := p' }, ?_, ?_⟩
  · rw [readLine_of_kind hs.inScript script kind]
    exact h s line hs.definitions hs.pending
  · have finished := hs.finished
    rw [State.finish_requests] at finished
    exact
      { definitions := hs.definitions, inScript := hs.inScript, pending := rfl
        settled := hs.settled
        finished := (State.finish_requests _).trans finished }

theorem reads_optional {α : Type} {o : Option α} {line : α → List Char} (done : List Request)
    (set : Option α → Pending)
    (h : ∀ a ∈ o, Reads (Waiting done (set none)) [line a] (Waiting done (set (some a)))) :
    Reads (Waiting done (set none)) (o.map line).toList (Waiting done (set o)) := by
  cases o with
  | none => exact .nil fun _ hs => hs
  | some a => exact h a rfl

theorem reads_duration {o : Option Nat} (done : List Request) (word : String) (keyword : Keyword)
    (set : Option Nat → Pending) (hw : (word, keyword) ∈ keywords)
    (ho : ∀ n ∈ o, n ≤ Duration.limit)
    (h : ∀ (s : State) (line n : Nat) (value : String), s.pending = set none →
      (∀ bare, State.duration line word value bare = .ok n) →
      s.direct line keyword word value = .ok { s with pending := set (some n) }) :
    Reads (Waiting done (set none)) (o.map (durationLine word)).toList (Waiting done (set o)) := by
  apply reads_optional done set
  intro n hn
  apply reads_directive word keyword hw (value_milliseconds n)
  intro s line hd hp
  apply h s line n _ hp
  intro bare
  simp only [State.duration, Duration.read_milliseconds (ho n hn)]

theorem reads_condition {c : Condition} (h : ReadCondition c) (cs : List Condition) :
    Reads (Waiting done { p with conditions := cs }) [conditionLine c]
      (Waiting done { p with conditions := cs ++ [c] }) := by
  have known : (if c.negated then "if-not" else "if", Keyword.condition c.negated) ∈ keywords := by
    cases c.negated <;> decide
  apply reads_directive _ _ known h.value
  intro s line hd hp
  obtain ⟨text, read⟩ := h.read
  simp only [State.direct, State.expand, hd, Variable.expand_nil, Condition.parse?_describe read,
    hp]

theorem reads_conditions {cs : List Condition} (h : ∀ c ∈ cs, ReadCondition c) :
    Reads (Waiting done { p with conditions := [] }) (cs.map conditionLine)
      (Waiting done { p with conditions := cs }) :=
  Reads.map (fun held => Waiting done { p with conditions := held })
    (fun c hc => reads_condition (h c hc)) []

/-- What the directives of a request leave waiting. -/
def announced (r : Request) : Pending :=
  ⟨r.name, r.dependsOn, r.conditions, r.timeout, r.connectionTimeout, r.preDelay, r.postDelay⟩

theorem reads_directives (done : List Request) {r : Request} (hr : Writable r) :
    Reads (Waiting done .empty) (directiveLines r) (Waiting done (announced r)) := by
  have filled {v : String} (h : Value v.toList) : v ≠ "" := fun he => h.nonempty (by rw [he]; rfl)
  -- One stage for each directive; the values set before it are already there.
  have name := reads_optional done (fun o => ⟨o, none, [], none, none, none, none⟩)
    fun n hn => reads_directive "name" .name (by decide) (hr.name n hn)
      fun s line hd hp => by simp [State.direct, filled (hr.name n hn), hp]
  have dependsOn := reads_optional done (fun o => ⟨r.name, o, [], none, none, none, none⟩)
    fun n hn => reads_directive "dependsOn" .dependsOn (by decide) (hr.dependsOn n hn)
      fun s line hd hp => by simp [State.direct, filled (hr.dependsOn n hn), hp]
  have timeout := reads_duration done "timeout" .timeout
    (fun o => ⟨r.name, r.dependsOn, [], o, none, none, none⟩) (by decide) hr.timeout
    fun s line n value hp hd => by simp only [State.direct, hd, hp]; rfl
  have connectionTimeout := reads_duration done "connection-timeout" .connectionTimeout
    (fun o => ⟨r.name, r.dependsOn, [], r.timeout, o, none, none⟩) (by decide) hr.connectionTimeout
    fun s line n value hp hd => by simp only [State.direct, hd, hp]; rfl
  have preDelay := reads_duration done "pre-delay" .preDelay
    (fun o => ⟨r.name, r.dependsOn, [], r.timeout, r.connectionTimeout, o, none⟩) (by decide)
    hr.preDelay fun s line n value hp hd => by simp only [State.direct, hd, hp]; rfl
  have postDelay := reads_duration done "post-delay" .postDelay
    (fun o => ⟨r.name, r.dependsOn, [], r.timeout, r.connectionTimeout, r.preDelay, o⟩) (by decide)
    hr.postDelay fun s line n value hp hd => by simp only [State.direct, hd, hp]; rfl
  exact (((((name.append dependsOn).append timeout).append connectionTimeout).append
    preDelay).append postDelay).append (reads_conditions (p := announced r) hr.conditions)

/-- The request of a request line, before any other line of it is read. -/
def opened (r : Request) : Request :=
  { r with headers := [], body := none, assertions := [] }

theorem reads_requestLine (done : List Request) {r : Request} (hr : Writable r) :
    Reads (Waiting done (announced r)) [requestLine r] (Holding done (opened r) false []) := by
  apply Reads.single
  intro s line hs
  obtain ⟨script, kind, words⟩ := kind_requestLine hr
  have version : "HTTP/".toList.isPrefixOf r.url.toList = false := by
    rw [Bool.eq_false_iff, ne_eq, List.isPrefixOf_iff_prefix]
    exact hr.version
  have method : methods.contains r.method = true := List.contains_iff_mem.2 hr.method
  have split : State.splitMethod (Text.words (requestLine r)) = (r.method, [r.url.toList]) := by
    rw [words, State.splitMethod, String.ofList_toList, if_pos method]
  have url : State.url? [r.url.toList] = some r.url := by
    simp only [State.url?, version, Bool.false_eq_true, if_false, String.ofList_toList]
  obtain ⟨body, inBody⟩ := hs.settled.finish
  have begun : s.beginRequest line (requestLine r) = .ok { s.finish with
      current := some (opened r)
      pending := .empty
      names := s.finish.names ++ r.name.toList
      notes := s.finish.notes ++ s.finish.nameNotes line } := by
    simp only [State.beginRequest, split, url, State.expand, State.finish_definitions,
      hs.definitions, Variable.expand_nil, State.finish_pending, hs.pending]
    rfl
  refine ⟨_, (readLine_of_kind hs.inScript script kind line).trans begun, ?_⟩
  exact
    { definitions := by simp [hs.definitions], inScript := by simp [hs.inScript], pending := rfl
      requests := hs.finished, current := rfl, inBody := inBody, body := body }

theorem reads_header {h : Header} (hp : PlainHeader h) (held : List Header) :
    Reads (Holding done { q with headers := held } false []) [headerLine h]
      (Holding done { q with headers := held ++ [h] } false []) := by
  apply Reads.single
  intro s line hs
  obtain ⟨script, kind⟩ := hp.plain.kind
  obtain ⟨rest, parts, value⟩ := hp.parts
  refine ⟨{ s with current := some { q with headers := held ++ [h] } }, ?_, ?_⟩
  · rw [readLine_of_kind hs.inScript script kind]
    simp [State.heed, State.addContent, hs.current, hs.inBody, parts, State.expand, hs.definitions,
      hp.name, value]
  · exact { hs with current := rfl }

theorem reads_headers {hs : List Header} (hp : ∀ h ∈ hs, PlainHeader h) :
    Reads (Holding done { q with headers := [] } false []) (hs.map headerLine)
      (Holding done { q with headers := hs } false []) :=
  Reads.map (fun held => Holding done { q with headers := held } false [])
    (fun h hh => reads_header (hp h hh)) []

theorem reads_blank : Reads (Holding done q false []) [[]] (Holding done q true []) := by
  apply Reads.single
  intro s line hs
  refine ⟨{ s with inBody := true }, ?_, { hs with inBody := rfl }⟩
  rw [readLine_nil hs.inScript, State.skipLine, hs.inBody, hs.current]
  rfl

theorem reads_bodyLine (h : BodyLine raw) (held : List (List Char)) :
    Reads (Holding done q true (held.map String.ofList)) [raw]
      (Holding done q true ((held ++ [raw]).map String.ofList)) := by
  apply Reads.single
  intro s line hs
  refine ⟨{ s with inBody := true, body := s.body ++ [String.ofList raw] }, ?_,
    { hs with inBody := rfl, body := by rw [hs.body, List.map_append]; rfl }⟩
  rcases h with rfl | ⟨plain, ending⟩
  · rw [readLine_nil hs.inScript, State.skipLine, hs.inBody]
    rfl
  · obtain ⟨script, kind⟩ := plain.kind
    rw [readLine_of_kind hs.inScript script kind]
    simp [State.heed, State.addContent, hs.current, hs.inBody, State.expand, hs.definitions, ending]

theorem reads_bodyLines {ls : List (List Char)} (h : ∀ line ∈ ls, BodyLine line) :
    Reads (Holding done q true []) ls (Holding done q true (ls.map String.ofList)) := by
  have all := Reads.map (fun held => Holding done q true (held.map String.ofList))
    (fun line hl => reads_bodyLine (h line hl)) []
  rwa [List.map_id'] at all

theorem reads_assertion {a : Assertion} (h : AssertionLine a raw) :
    Reads (Ending done q text) [raw]
      (Ending done { q with assertions := q.assertions ++ [a] } text) := by
  apply Reads.single
  intro s line hs
  obtain ⟨script, kind⟩ := h.kind
  refine ⟨{ s with current := some { q with assertions := q.assertions ++ [a] } }, ?_,
    { hs with current := rfl }⟩
  rw [readLine_of_kind hs.inScript script kind]
  simp [State.heed, State.addAssertion, hs.current, State.expand, hs.definitions]

theorem reads_assertions {as : List Assertion} {marks : List (List Char)}
    (h : List.Forall₂ AssertionLine as marks) :
    Reads (Ending done q text) marks
      (Ending done { q with assertions := q.assertions ++ as } text) := by
  induction h generalizing q with
  | nil => exact .nil fun _ hs => by rwa [List.append_nil]
  | @cons a raw as marks first _ ih =>
    have all := (reads_assertion (q := q) first).cons ih
    rwa [List.append_assoc] at all

theorem intercalate_ofList (pieces : List (List Char)) :
    "\n".intercalate (pieces.map String.ofList) = String.ofList (joinWith ['\n'] pieces) := by
  induction pieces with
  | nil => rfl
  | cons piece rest ih =>
    cases rest with
    | nil => simp [joinWith]
    | cons next rest =>
      rw [joinWith.eq_3 _ _ _ (by simp), String.ofList_append, String.ofList_append, ← ih,
        List.map_cons, List.map_cons, String.intercalate_cons_cons]

theorem isBlankLine_of_bodyLine {line : List Char} (h : BodyLine line) (nonempty : line ≠ []) :
    State.isBlankLine (String.ofList line) = false := by
  obtain rfl | ⟨plain, -⟩ := h
  · exact (nonempty rfl).elim
  · have visible := plain.visible
    simpa [State.isBlankLine, String.stripBlank] using visible

/-- Neither end of a body is taken for a blank line. -/
theorem bodyText_of_plain {b : String} (h : PlainBody b) :
    State.bodyText ((splitOn '\n' b.toList).map String.ofList) = some b := by
  have whole := intercalate_ofList (splitOn '\n' b.toList)
  rw [joinWith_splitOn, String.ofList_toList] at whole
  have nonempty := splitOn_ne_nil '\n' b.toList
  obtain ⟨lines, first, last⟩ := h
  generalize splitOn '\n' b.toList = pieces at *
  have right : ((pieces.map String.ofList).reverse.dropWhile State.isBlankLine).reverse =
      pieces.map String.ofList := by
    refine List.rdropWhile_eq_self_iff.2 fun hl => ?_
    rw [List.getLast_map]
    refine Bool.eq_false_iff.1 (isBlankLine_of_bodyLine (lines _ (List.getLast_mem nonempty)) ?_)
    rw [List.getLast?_eq_some_getLast nonempty] at last
    exact fun he => last (congrArg some he)
  have left : (pieces.map String.ofList).dropWhile State.isBlankLine =
      pieces.map String.ofList := by
    obtain ⟨piece, rest, rfl⟩ := List.exists_cons_of_ne_nil nonempty
    rw [List.map_cons, List.dropWhile_cons_of_neg]
    refine Bool.eq_false_iff.1 (isBlankLine_of_bodyLine (lines piece List.mem_cons_self) ?_)
    exact fun he => first (congrArg some he)
  simp only [State.bodyText, right, left]
  split
  · next hn => exact (nonempty (List.map_eq_nil_iff.1 hn)).elim
  · rw [whole]

theorem reads_body {r : Request} (hr : Writable r) :
    Reads (Holding done q false []) (bodyLines r.body) (Ending done q r.body) := by
  cases hb : r.body with
  | none => exact .nil fun s hs => hs.ending
  | some b =>
    have plain := hr.body b hb
    apply (reads_blank.cons (reads_bodyLines plain.lines)).weaken
    intro s hs
    exact bodyText_of_plain plain ▸ hs.ending

/-- The lines of a request are read as the request, and leave nothing behind. -/
theorem reads_written {r : Request} {ls : List (List Char)} (hr : Writable r) (hw : Written r ls) :
    Reads (Waiting done .empty) ls (Waiting (done ++ [r]) .empty) := by
  obtain ⟨idle, idle', assertions⟩ := hw
  refine (Reads.forall fun line hl => reads_idle_waiting (idle line hl)).append ?_
  refine (reads_directives done hr).append ?_
  refine (reads_requestLine done hr).cons ?_
  refine (reads_headers (q := opened r) hr.headers).append ?_
  refine (reads_body hr).append ?_
  refine (Reads.forall fun line hl => reads_idle_ending (idle' line hl)).append ?_
  exact (reads_assertions assertions).weaken fun s hs => hs.waiting

theorem reads_all {rs : List Request} {blocks : List (List (List Char))}
    (hr : ∀ r ∈ rs, Writable r) (hw : List.Forall₂ Written rs blocks) :
    Reads (Waiting done .empty) blocks.flatten (Waiting (done ++ rs) .empty) := by
  induction hw generalizing done with
  | nil => exact .nil fun _ hs => by rwa [List.append_nil]
  | @cons r block rs blocks first _ ih =>
    obtain ⟨hr, rest⟩ := List.forall_mem_cons.1 hr
    have head : Reads (Waiting done .empty) block (Waiting (done ++ [r]) .empty) :=
      reads_written hr first
    have all := head.append (ih rest)
    rwa [List.append_assoc] at all

theorem written_unbroken {rs : List Request} {blocks : List (List (List Char))}
    (hr : ∀ r ∈ rs, Writable r) (hw : List.Forall₂ Written rs blocks) :
    ∀ line ∈ blocks.flatten, Unbroken line := by
  induction hw with
  | nil => simp
  | cons first _ ih =>
    obtain ⟨hr, rest⟩ := List.forall_mem_cons.1 hr
    exact List.forall_mem_append.2 ⟨first.unbroken hr, ih rest⟩

theorem lines_fileText {ls : List (List Char)} (h : ∀ line ∈ ls, Unbroken line) :
    lines (fileText ls).toList = ls := by
  rw [fileText, String.toList_ofList]
  induction ls with
  | nil => exact lines_nil
  | cons line rest ih =>
    obtain ⟨first, rest⟩ := List.forall_mem_cons.1 h
    rw [List.flatMap_cons, List.append_assoc, List.singleton_append, lines_of_plain first, ih rest]

theorem readLine_nil_requests (s : State) (line : Nat) :
    ∃ s', s.readLine line [] = .ok s' ∧ s'.finish.requests = s.finish.requests := by
  cases hi : s.inScript with
  | false => exact ⟨s.skipLine, readLine_nil hi line, State.skipLine_requests s⟩
  | true =>
    refine ⟨{ s with inScript := true }, ?_, by rw [State.finish_requests, State.finish_requests]⟩
    rw [State.readLine_eq, hi]
    rfl

/-- Whether the last line has a line feed at its end makes no difference to the requests. -/
theorem parse_final_newline (vars : List Variable) (text : String) :
    (parse vars (text ++ "\n")).map (·.requests) = (parse vars text).map (·.requests) := by
  obtain ⟨between, hb, joined⟩ := lines_append_newline text.toList []
  have written : (text ++ "\n").toList = text.toList ++ ['\n'] := by simp
  simp only [parse, readText, written, joined, lines_nil, List.append_nil]
  rw [readLines_append]
  cases readLines 1 (.start vars) (lines text.toList) with
  | error e => rfl
  | ok s =>
    obtain rfl | rfl := hb
    · rfl
    · obtain ⟨s', read, requests⟩ := readLine_nil_requests s (1 + (lines text.toList).length)
      simp only [readLines, read]
      exact congrArg Except.ok requests

/-- Requests that are written down one after the other are read as they were written. -/
theorem parse_written {rs : List Request} {blocks : List (List (List Char))}
    {closing : List (List Char)} {text : String} (hr : ∀ r ∈ rs, Writable r)
    (hw : List.Forall₂ Written rs blocks) (hc : ∀ line ∈ closing, Idle line)
    (ht : text = fileText (blocks.flatten ++ closing) ∨
      text ++ "\n" = fileText (blocks.flatten ++ closing)) :
    ∃ p, parse [] text = .ok p ∧ p.requests = rs := by
  have unbroken : ∀ line ∈ blocks.flatten ++ closing, Unbroken line :=
    List.forall_mem_append.2 ⟨written_unbroken hr hw, fun line hl => (hc line hl).unbroken⟩
  have start : Waiting [] .empty (.start []) := ⟨rfl, rfl, rfl, fun _ => ⟨rfl, rfl⟩, rfl⟩
  obtain ⟨s, read, waiting⟩ := ((reads_all hr hw).append
    (Reads.forall fun line hl => reads_idle_waiting (hc line hl))) _ 1 start
  have whole : (parse [] (fileText (blocks.flatten ++ closing))).map (·.requests) = .ok rs := by
    rw [parse, readText, lines_fileText unbroken, read]
    exact congrArg Except.ok waiting.finished
  have parsed : (parse [] text).map (·.requests) = .ok rs := by
    rcases ht with rfl | ht
    · exact whole
    · rw [← parse_final_newline, ht, whole]
  cases hp : parse [] text with
  | error e => rw [hp] at parsed; cases parsed
  | ok p => rw [hp] at parsed; exact ⟨p, rfl, Except.ok.inj parsed⟩

/-- The first request has a body with an empty line, the second waits for what it answers. -/
theorem parse_written_two :
    let login : Request :=
      { method := "POST", url := "/in", name := some "in", headers := [⟨"A", "text/plain"⟩]
        body := some "[\n\n  GETTING 1\n]", assertions := [⟨.status, "200"⟩, ⟨.body, " a "⟩]
        conditions := [], dependsOn := none
        timeout := some 1500, connectionTimeout := none, preDelay := none, postDelay := none }
    let account : Request :=
      { method := "GET", url := "/me", name := none, headers := [], body := none
        assertions := [⟨.headers, ""⟩]
        conditions := [⟨"in", .bodyPath, "a b", true, some "role"⟩], dependsOn := some "in"
        timeout := none, connectionTimeout := none, preDelay := none, postDelay := none }
    let text := "# @name in\n# @timeout 1500ms\nPOST /in\nA: text/plain\n\n[\n\n  GETTING 1\n]\n" ++
      "\nEXPECTED_RESPONSE_STATUS 200\n> EXPECTED_RESPONSE_BODY \" a \"\n\n###\n" ++
      "# @dependsOn in\n# @if-not in.response.body.role a b\nGET /me\nEXPECTED_RESPONSE_HEADERS"
    ∃ p, parse [] text = .ok p ∧ p.requests = [login, account] := by
  intro login account text
  have none : ∀ line ∈ ([] : List (List Char)), Idle line := by simp
  have blank : ∀ line ∈ [([] : List Char)], Idle line := by decide
  have separator : ∀ line ∈ [[], "###".toList], Idle line := by decide
  have bare : [] ∈ leads := by decide
  have marked : ['>', ' '] ∈ leads := by decide
  have first : Written login _ := .intro none blank
    (.cons (.bare .status bare (by decide) (by decide) (by decide) (by simp))
      (.cons (.quoted .body marked (by decide)) .nil))
  have second : Written account _ := .intro separator none (.cons (.alone .headers bare) .nil)
  exact parse_written (by decide +kernel) (.cons first (.cons second .nil)) none
    (.inr (by decide +kernel))

end DotHttp.RequestFile
