import DotHttp.Proofs.Placeholder.Rescan
import DotHttp.Proofs.RequestFile.Attachment

/-!
What a request line says. Whether a line begins a request is told by a method at its start or by the name of
the protocol anywhere in it, but only a method is read as one: a line that begins with another word is a
request for that word.
-/

namespace DotHttp.RequestFile

open DotHttp.Text

variable {vars : List Variable} {text : String} {parsed : Parsed} {before after ls : List (List Char)}
  {raw s t : List Char} {line : Nat}

theorem text_of_request (kind : Line.ofText s = .request t) : t = s ∧ isRequestLine s = true := by
  unfold Line.ofText at kind
  split at kind
  · cases kind
  split at kind
  · split at kind
    · split at kind <;> cases kind
    · cases kind
  split at kind
  · split at kind
    · cases kind
    · split at kind
      · cases kind
      · split at kind <;> cases kind
  · split at kind
    · cases kind
    · split at kind
      · next request =>
        cases kind
        exact ⟨rfl, request⟩
      · cases kind

/-- A request line without a method has the name of the protocol in it. -/
theorem protocol_of_request {first : List Char} {rest : List (List Char)} (request : isRequestLine s = true)
    (ws : words s = first :: rest) (other : String.ofList first ∉ methods) : "HTTP/".toList <:+: s := by
  rw [isRequestLine, Bool.or_eq_true, occursIn_iff] at request
  rcases request with protocol | method
  · exact protocol
  · obtain ⟨m, known, begins⟩ := List.any_eq_true.1 method
    obtain ⟨more, rfl⟩ := List.isPrefixOf_iff_prefix.1 begins
    have compact := (method_spelling m known).1
    rw [List.append_assoc, List.singleton_append, words_append_space compact] at ws
    cases ws
    rw [String.ofList_toList] at other
    exact (other known).elim

theorem exists_of_unscripted {inside : Bool} (split : unscripted inside ls = before ++ raw :: after) :
    ∃ earlier later, ls = earlier ++ raw :: later ∧ unscripted inside earlier = before ∧
      unscripted inside (earlier ++ [raw]) = before ++ [raw] := by
  induction ls generalizing inside before with
  | nil => simp [unscripted] at split
  | cons x xs ih =>
    rw [unscripted] at split
    cases script : opensScript (strip x) || inside with
    | true =>
      simp only [script, if_true, List.nil_append] at split
      obtain ⟨earlier, later, rfl, same, own⟩ := ih split
      refine ⟨x :: earlier, later, rfl, ?_, ?_⟩
      · simpa [unscripted, script] using same
      · simpa [unscripted, script] using own
    | false =>
      simp only [script, Bool.false_eq_true, if_false, Bool.false_and] at split
      cases before with
      | nil =>
        cases split
        exact ⟨[], xs, rfl, rfl, by simp [unscripted, script]⟩
      | cons y before =>
        rw [List.singleton_append, List.cons_append] at split
        obtain ⟨rfl, rest⟩ := List.cons.inj split
        obtain ⟨earlier, later, rfl, same, own⟩ := ih rest
        refine ⟨x :: earlier, later, rfl, ?_, ?_⟩
        · simpa [unscripted, script] using same
        · simpa [unscripted, script] using own

/-- A line outside of script blocks is read in a state that the lines before it tell, and what it adds there
is kept. -/
theorem parse_open (h : parse vars text = .ok parsed) (split : openLines text = before ++ raw :: after) :
    ∃ s s' line, Gathered vars before s ∧ (opensScript (strip raw) || s.inScript) = false ∧
      s.readLine line raw = .ok s' ∧ Kept s' parsed.requests := by
  obtain ⟨last, read, rfl⟩ := exists_readText h
  obtain ⟨earlier, later, parts, same, own⟩ := exists_of_unscripted split
  rw [parts] at read
  obtain ⟨s, s', reached, here, rest⟩ := readLines_through read
  have gathered := gathered_of_readLines reached
  rw [same] at gathered
  refine ⟨s, s', _, gathered, ?_, here, kept_of_readLines rest⟩
  have more := unscripted_readLines reached [raw]
  rw [show (State.start vars).inScript = false from rfl, own, same, List.append_cancel_left_eq] at more
  cases script : opensScript (strip raw) || s.inScript with
  | false => rfl
  | true => simp [unscripted, script] at more

/-- The method and the URL in the words of a request line. -/
inductive Target : List (List Char) → String → String → Prop
  | method {first second : List Char} {more : List (List Char)} (listed : String.ofList first ∈ methods)
      (apart : ¬ "HTTP/".toList <+: second) :
      Target (first :: second :: more) (String.ofList first) (String.ofList second)
  | url {first : List Char} {rest : List (List Char)} (unlisted : String.ofList first ∉ methods)
      (apart : ¬ "HTTP/".toList <+: first) : Target (first :: rest) "GET" (String.ofList first)

variable {ws : List (List Char)} {method url : String}

theorem target_of_words (h : State.url? (State.splitMethod ws).2 = some url) :
    Target ws (State.splitMethod ws).1 url := by
  cases ws with
  | nil => cases h
  | cons first rest =>
    by_cases listed : String.ofList first ∈ methods
    · have parts : State.splitMethod (first :: rest) = (String.ofList first, rest) :=
        if_pos (List.contains_iff_mem.2 listed)
      rw [parts] at h ⊢
      cases rest with
      | nil => cases h
      | cons second more =>
        simp only [State.url?] at h
        split at h
        · cases h
        · next apart =>
          cases h
          exact .method listed (apart ∘ List.isPrefixOf_iff_prefix.2)
    · have parts : State.splitMethod (first :: rest) = ("GET", first :: rest) :=
        if_neg fun contains => listed (List.contains_iff_mem.1 contains)
      rw [parts] at h ⊢
      simp only [State.url?] at h
      split at h
      · cases h
      · next apart =>
        cases h
        exact .url listed (apart ∘ List.isPrefixOf_iff_prefix.2)

theorem Target.words (h : Target ws method url) :
    (State.splitMethod ws).1 = method ∧ State.url? (State.splitMethod ws).2 = some url := by
  cases h with
  | @method first second more listed apart =>
    have parts : State.splitMethod (first :: second :: more) = (String.ofList first, second :: more) :=
      if_pos (List.contains_iff_mem.2 listed)
    rw [parts]
    exact ⟨rfl, if_neg (apart ∘ List.isPrefixOf_iff_prefix.1)⟩
  | @url first rest unlisted apart =>
    have parts : State.splitMethod (first :: rest) = ("GET", first :: rest) :=
      if_neg fun contains => unlisted (List.contains_iff_mem.1 contains)
    rw [parts]
    exact ⟨rfl, if_neg (apart ∘ List.isPrefixOf_iff_prefix.1)⟩

theorem target_iff : Target ws method url ↔
    (State.splitMethod ws).1 = method ∧ State.url? (State.splitMethod ws).2 = some url := by
  constructor
  · exact Target.words
  · rintro ⟨rfl, found⟩
    exact target_of_words found

instance (ws : List (List Char)) (method url : String) : Decidable (Target ws method url) :=
  decidable_of_iff _ target_iff.symm

theorem Target.no_brace (h : Target ws method url) : '{' ∉ method.toList := by
  have plain : ∀ m ∈ methods, '{' ∉ m.toList := by decide +kernel
  cases h with
  | method listed => exact plain _ listed
  | url => exact plain "GET" (by decide)

theorem Target.unique {method' url' : String} (h : Target ws method url) (h' : Target ws method' url') :
    method = method' ∧ url = url' := by
  obtain ⟨same, target⟩ := h.words
  obtain ⟨same', target'⟩ := h'.words
  exact ⟨same.symm.trans same', Option.some.inj (target.symm.trans target')⟩

/-- The state behind a line that begins a request. -/
def State.begins (s : State) (line : Nat) (method url : String) : State :=
  let s := s.finish
  let p := s.pending
  { s with
    current := some {
      method := method
      url := url
      name := p.name
      headers := []
      body := none
      assertions := []
      conditions := p.conditions
      dependsOn := p.dependsOn
      timeout := p.timeout
      connectionTimeout := p.connectionTimeout
      preDelay := p.preDelay
      postDelay := p.postDelay }
    pending := .empty
    names := s.names ++ p.name.toList
    notes := s.notes ++ s.nameNotes line }

theorem finish_expand (s : State) (text : String) : s.finish.expand text = s.expand text := by
  rw [State.expand, State.finish_definitions, State.expand]

theorem beginRequest_eq_ok_iff {s s' : State} {text : List Char} : s.beginRequest line text = .ok s' ↔
    ∃ method url, Target (words text) method url ∧ s' = s.begins line method (s.expand url) := by
  have plain {method url : String} (target : Target (words text) method url) : s.expand method = method :=
    Placeholder.expand_of_no_brace target.no_brace
  unfold State.beginRequest
  simp only [finish_expand]
  constructor
  · intro begun
    split at begun
    · cases begun
    · next url found =>
      have target := target_of_words found
      rw [plain target] at begun
      cases begun
      exact ⟨_, url, target, rfl⟩
  · intro ⟨method, url, target, same⟩
    obtain ⟨rfl, found⟩ := target.words
    rw [found, plain target, same]
    rfl

/-- The request that a line begins is the one behind those that lines before it begin. -/
theorem exists_begun (h : parse vars text = .ok parsed) (split : openLines text = before ++ raw :: after)
    (begins : beginsRequest raw = true) :
    ∃ r url, parsed.requests[before.countP beginsRequest]? = some r ∧ isRequestLine (strip raw) = true ∧
      Target (words raw) r.method url ∧ r.url = Variable.expand (before.foldl learn vars) url := by
  obtain ⟨s, s', line, gathered, outside, here, kept⟩ := parse_open h split
  rw [State.readLine_eq, outside, if_neg Bool.false_ne_true] at here
  unfold beginsRequest at begins
  split at begins
  · next text kind =>
    rw [kind] at here
    obtain ⟨rfl, request⟩ := text_of_request kind
    cases effect_of_beginRequest kind here with
    | defines other | directs other | asserts other | header other | body other =>
      rw [kind] at other
      cases other
    | @begins text url _ r kind' words current method target finished =>
      rw [kind] at kind'
      cases kind'
      have place : s'.requests.length = before.countP beginsRequest := by
        rw [finished, ← List.length_map announced, s.finish_begun, gathered.each]
      obtain ⟨headers, assertions, body, there⟩ := kept.current r current
      rw [place] at there
      have said := target_of_words words
      rw [State.expand, Placeholder.expand_of_no_brace said.no_brace] at method
      rw [← method, words_strip] at said
      rw [State.expand, gathered.known] at target
      exact ⟨_, url, there, request, said, target⟩
  · cases begins

/-- The method of a request is the first word of its line if that is one of the methods, and the URL is then
the second word. Any other first word is the URL itself, with another method than the written one; so where
more words stand behind it, method and URL are the first two just if the first is a method, or if both come
to the method that is put there. -/
theorem request_words (h : parse vars text = .ok parsed) (split : openLines text = before ++ raw :: after)
    (begins : beginsRequest raw = true) :
    let known := before.foldl learn vars
    ∃ r first rest, parsed.requests[before.countP beginsRequest]? = some r ∧
      (words raw).map String.ofList = first :: rest ∧
      (first ∈ methods → ∃ second more, rest = second :: more ∧ ¬ "HTTP/".toList <+: second.toList ∧
        r.method = first ∧ r.url = Variable.expand known second) ∧
      (first ∉ methods → "HTTP/".toList <:+: strip raw ∧ ¬ "HTTP/".toList <+: first.toList ∧
        r.method = "GET" ∧ r.url = Variable.expand known first) ∧
      ∀ second more, rest = second :: more →
        (r.method = Variable.expand known first ∧ r.url = Variable.expand known second ↔
          first ∈ methods ∨
            (Variable.expand known first = "GET" ∧ Variable.expand known second = "GET")) := by
  intro known
  obtain ⟨r, url, there, request, said, target⟩ := exists_begun h split begins
  obtain ⟨method, same⟩ : ∃ method, method = r.method := ⟨_, rfl⟩
  rw [← same] at said
  cases hw : words raw with rw [hw] at said
  | nil => cases said
  | cons first rest =>
    refine ⟨r, _, _, there, rfl, ?_⟩
    have plain := said.no_brace
    cases said with
    | @method _ second more listed apart =>
      have expanded : Variable.expand known (String.ofList first) = String.ofList first :=
        Placeholder.expand_of_no_brace plain
      refine ⟨?_, (absurd listed ·), ?_⟩
      · intro _
        refine ⟨_, _, rfl, ?_, same.symm, target⟩
        rwa [@String.toList_ofList second]
      · intro second' more' behind
        cases behind
        exact iff_of_true ⟨same.symm.trans expanded.symm, target⟩ (.inl listed)
    | url unlisted apart =>
      have protocol := protocol_of_request request ((words_strip raw).trans hw) unlisted
      refine ⟨(absurd · unlisted), ?_, ?_⟩
      · intro _
        refine ⟨protocol, ?_, same.symm, target⟩
        rwa [@String.toList_ofList first]
      · intro second more behind
        rw [← same, target]
        constructor
        · intro ⟨first', second'⟩
          exact .inr ⟨first'.symm, second'.symm.trans first'.symm⟩
        · intro written
          obtain ⟨first', second'⟩ := written.resolve_left unlisted
          exact ⟨first'.symm, first'.trans second'.symm⟩

/-- A method in lower case, below a variable that is the URL. -/
theorem request_words_lowercase :
    let text := "@h = https://a\nget {{h}}/x HTTP/1.1\n"
    let before := ["@h = https://a".toList]
    let raw := "get {{h}}/x HTTP/1.1".toList
    ∃ parsed r, parse [] text = .ok parsed ∧ openLines text = before ++ raw :: [] ∧
      beginsRequest raw = true ∧ parsed.requests[before.countP beginsRequest]? = some r ∧
      r.method = "GET" ∧ r.url = "get" ∧
      Variable.expand (before.foldl learn []) "{{h}}/x" = "https://a/x" := by
  intro text before raw
  let get : Request := ⟨"GET", "get", none, [], none, [], [], none, none, none, none, none⟩
  have read : parse [] text = .ok ⟨[get], []⟩ := by decide +kernel
  have split : openLines text = before ++ raw :: [] := by decide +kernel
  have begins : beginsRequest raw = true := by decide +kernel
  have cut : (words raw).map String.ofList = ["get", "{{h}}/x", "HTTP/1.1"] := by decide +kernel
  obtain ⟨r, first, rest, there, ws, -, other, -⟩ := request_words read split begins
  rw [cut] at ws
  cases ws
  obtain ⟨-, -, method, url⟩ := other (by decide)
  have word : Variable.expand (before.foldl learn []) "get" = "get" :=
    Placeholder.expand_of_no_brace (by decide)
  exact ⟨_, r, read, split, begins, there, method, url.trans word, by decide +kernel⟩

/-- A request line whose first two words are not the method and the URL of its request. -/
theorem lowercase_method_replaced : ¬ ∀ (vars : List Variable) (text : String) (parsed : Parsed)
    (before after : List (List Char)) (raw : List Char) (first second : String) (more : List String),
      parse vars text = .ok parsed → openLines text = before ++ raw :: after → beginsRequest raw = true →
      (words raw).map String.ofList = first :: second :: more → ¬ "HTTP/".toList <+: second.toList →
      ∃ r, parsed.requests[before.countP beginsRequest]? = some r ∧
        r.method = Variable.expand (before.foldl learn vars) first ∧
        r.url = Variable.expand (before.foldl learn vars) second := by
  intro claim
  let get : Request := ⟨"GET", "get", none, [], none, [], [], none, none, none, none, none⟩
  let raw := "get https://a HTTP/1.1".toList
  obtain ⟨r, there, method, -⟩ := claim [] "get https://a HTTP/1.1\n" ⟨[get], []⟩ [] [] raw "get" "https://a"
    ["HTTP/1.1"] (by decide +kernel) (by decide +kernel) (by decide +kernel) (by decide +kernel)
    (by decide +kernel)
  cases there
  have same : Variable.expand [] "get" = "get" := Variable.expand_nil "get"
  rw [show ([] : List (List Char)).foldl learn [] = [] from rfl, same] at method
  revert method
  decide

end DotHttp.RequestFile
