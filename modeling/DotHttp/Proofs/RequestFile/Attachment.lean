import DotHttp.Proofs.RequestFile.Canonical
import DotHttp.Proofs.RequestFile.DirectiveLine
import DotHttp.Proofs.RequestFile.Undirected

/-!
Which directives a request gets: those on the lines outside of script blocks since the request line
before its own. Whatever else stands on these lines takes no part in it, and a directive takes no
part in anything else.
-/

namespace DotHttp.RequestFile

open DotHttp.Text

/-- The lines behind the last request line. -/
def sinceRequest (ls : List (List Char)) : List (List Char) :=
  ls.rtakeWhile (!beginsRequest ·)

/-- The lines up to the last request line. -/
def uptoRequest (ls : List (List Char)) : List (List Char) :=
  ls.rdropWhile (!beginsRequest ·)

variable {vars : List Variable} {ls : List (List Char)} {raw : List Char} {p : Pending}

/-- The directives of the requests begun so far. -/
def State.begun (s : State) : List Pending :=
  (s.requests ++ s.current.toList).map announced

variable {s s' : State} {line : Nat}

theorem State.finish_begun (s : State) : s.finish.requests.map announced = s.begun := by
  rw [finish_requests, begun]
  cases s.current <;> simp [announced]

/-- What a line outside of script blocks does to the directives. -/
inductive Turn (s : State) (raw : List Char) (s' : State) : Prop
  | directive {keyword : Keyword} {word value : String}
      (kind : Line.ofText (strip raw) = .directive keyword word value)
      (directed : Directed s keyword value s'.pending) (begun : s'.begun = s.begun) : Turn s raw s'
  | request (kind : beginsRequest raw = true) (pending : s'.pending = .empty)
      (begun : s'.begun = s.begun ++ [s.pending]) : Turn s raw s'
  | other (kind : beginsRequest raw = false ∧ givesDirective raw = false)
      (pending : s'.pending = s.pending) (begun : s'.begun = s.begun) : Turn s raw s'

theorem begun_skipLine (s : State) : s.skipLine.begun = s.begun := by
  unfold State.skipLine
  split
  · rfl
  · split <;> rfl

theorem plain_of_kind {kind : Line} (hk : Line.ofText (strip raw) = kind)
    (request : ∀ text, kind ≠ .request text)
    (directive : ∀ keyword word value, kind ≠ .directive keyword word value) :
    beginsRequest raw = false ∧ givesDirective raw = false := by
  subst hk
  constructor
  · unfold beginsRequest
    split
    · next text begins => exact (request text begins).elim
    · rfl
  · rw [← Bool.not_eq_true, givesDirective_iff]
    rintro ⟨keyword, word, value, directs⟩
    exact directive keyword word value directs

theorem turn_of_heed (h : s.heed line raw (Line.ofText (strip raw)) = .ok s') :
    s'.definitions = learn s.definitions raw ∧ Turn s raw s' := by
  rw [learn]
  cases hk : Line.ofText (strip raw) with rw [hk] at h
  | blank =>
    cases h
    obtain ⟨definitions, pending, -⟩ := State.skipLine_outside s
    exact ⟨definitions, .other (plain_of_kind hk (by simp) (by simp)) pending (begun_skipLine s)⟩
  | comment | ignored =>
    cases h
    exact ⟨rfl, .other (plain_of_kind hk (by simp) (by simp)) rfl rfl⟩
  | directive keyword word value =>
    obtain ⟨p, rfl, directed⟩ := directed_of_direct h
    exact ⟨rfl, .directive hk directed rfl⟩
  | unknownDirective word => cases h
  | definition name value =>
    cases h
    exact ⟨rfl, .other (plain_of_kind hk (by simp) (by simp)) rfl rfl⟩
  | assertion kind word expected =>
    simp only [State.heed, State.addAssertion] at h
    split at h
    · cases h
    · next r current =>
      cases h
      refine ⟨rfl, .other (plain_of_kind hk (by simp) (by simp)) rfl ?_⟩
      simp [State.begun, current, announced]
  | request text =>
    simp only [State.heed, State.beginRequest] at h
    split at h
    · cases h
    · cases h
      refine ⟨by simp, .request (by rw [beginsRequest, hk]) rfl ?_⟩
      rw [← State.finish_begun s, State.begun]
      simp [announced]
  | content text =>
    simp only [State.heed, State.addContent] at h
    split at h
    · cases h
    · next r current =>
      split at h <;> cases h
      · refine ⟨rfl, .other (plain_of_kind hk (by simp) (by simp)) rfl ?_⟩
        simp [State.begun, current, announced]
      · exact ⟨rfl, .other (plain_of_kind hk (by simp) (by simp)) rfl rfl⟩

theorem sinceRequest_concat (ls : List (List Char)) (raw : List Char) :
    sinceRequest (ls ++ [raw]) = if beginsRequest raw then [] else sinceRequest ls ++ [raw] := by
  rw [sinceRequest, List.rtakeWhile_concat]
  cases beginsRequest raw <;> rfl

theorem uptoRequest_concat (ls : List (List Char)) (raw : List Char) :
    uptoRequest (ls ++ [raw]) = if beginsRequest raw then ls ++ [raw] else uptoRequest ls := by
  rw [uptoRequest, List.rdropWhile_concat]
  cases beginsRequest raw <;> rfl

/-- The directives for a request line that comes next, told by the lines outside of script blocks
before it. -/
def Due (vars : List Variable) (before : List (List Char)) (p : Pending) : Prop :=
  Attached ((uptoRequest before).foldl learn vars) (sinceRequest before) p

/-- What has been read of some lines outside of script blocks. -/
structure Gathered (vars : List Variable) (ls : List (List Char)) (s : State) : Prop where
  known : s.definitions = ls.foldl learn vars
  waiting : Due vars ls s.pending
  each : s.begun.length = ls.countP beginsRequest
  due : ∀ before raw after, ls = before ++ raw :: after → beginsRequest raw = true →
    ∃ p, s.begun[before.countP beginsRequest]? = some p ∧ Due vars before p

theorem Gathered.start (vars : List Variable) : Gathered vars [] (.start vars) :=
  ⟨rfl, .nil vars, rfl, fun before raw after split => by simp at split⟩

theorem learn_since (vars : List Variable) (ls : List (List Char)) :
    (sinceRequest ls).foldl learn ((uptoRequest ls).foldl learn vars) = ls.foldl learn vars := by
  rw [← List.foldl_append, uptoRequest, sinceRequest, List.rdropWhile_append_rtakeWhile]

/-- A line that begins no request stands behind the same request line. -/
theorem Due.concat (same : beginsRequest raw = false)
    (h : Attached ((uptoRequest ls).foldl learn vars) (sinceRequest ls ++ [raw]) p) :
    Due vars (ls ++ [raw]) p := by
  rwa [Due, uptoRequest_concat, sinceRequest_concat, same]

/-- A line of a list that one is added to is that one or stood there already. -/
theorem split_concat {before after : List (List Char)} {last : List Char}
    (split : ls ++ [last] = before ++ raw :: after) :
    (ls = before ∧ last = raw) ∨ ∃ between, ls = before ++ raw :: between := by
  rcases List.eq_nil_or_concat after with rfl | ⟨between, x, rfl⟩
  · obtain ⟨same, last⟩ := List.append_inj' split rfl
    exact .inl ⟨same, List.singleton_inj.1 last⟩
  · rw [List.concat_eq_append, ← List.cons_append, ← List.append_assoc] at split
    exact .inr ⟨between, (List.append_inj' split rfl).1⟩

theorem Gathered.turn (h : Gathered vars ls s) (known : s'.definitions = learn s.definitions raw)
    (turn : Turn s raw s') : Gathered vars (ls ++ [raw]) s' := by
  have knows : s'.definitions = (ls ++ [raw]).foldl learn vars := by
    rw [known, h.known, List.foldl_append]
    rfl
  -- A line that begins no request leaves those begun as they are.
  have still (kind : beginsRequest raw = false) (begun : s'.begun = s.begun)
      (waiting : Due vars (ls ++ [raw]) s'.pending) : Gathered vars (ls ++ [raw]) s' := by
    refine ⟨knows, waiting, ?_, ?_⟩
    · rw [begun, h.each, List.countP_append, List.countP_singleton, kind]
      rfl
    · intro before request after split begins
      rcases split_concat split with ⟨-, rfl⟩ | ⟨between, rfl⟩
      · rw [kind] at begins
        cases begins
      · rw [begun]
        exact h.due before request between rfl begins
  cases turn with
  | directive kind directed begun =>
    have same : beginsRequest raw = false := by rw [beginsRequest, kind]
    have known : s.definitions =
        (sinceRequest ls).foldl learn ((uptoRequest ls).foldl learn vars) := by
      rw [learn_since, h.known]
    exact still same begun (.concat same (h.waiting.directive known kind directed))
  | other kind pending begun =>
    refine still kind.1 begun (.concat kind.1 ?_)
    rw [pending]
    exact h.waiting.other kind.2
  | request kind pending begun =>
    refine ⟨knows, ?_, ?_, ?_⟩
    · rw [Due, pending, sinceRequest_concat, if_pos kind]
      exact .nil _
    · rw [begun, List.length_append, h.each, List.countP_append, List.countP_singleton, kind]
      rfl
    · intro before request after split begins
      rcases split_concat split with ⟨rfl, -⟩ | ⟨between, rfl⟩
      · refine ⟨s.pending, ?_, h.waiting⟩
        rw [begun, ← h.each, List.getElem?_concat_length]
      · obtain ⟨p, found, due⟩ := h.due before request between rfl begins
        obtain ⟨within, -⟩ := List.getElem?_eq_some_iff.1 found
        refine ⟨p, ?_, due⟩
        rw [begun, List.getElem?_append_left within, found]

theorem unscripted_readLines {xs : List (List Char)} (h : readLines line s xs = .ok s')
    (ys : List (List Char)) :
    unscripted s.inScript (xs ++ ys) = unscripted s.inScript xs ++ unscripted s'.inScript ys := by
  induction xs generalizing line s with
  | nil =>
    cases h
    rfl
  | cons raw xs ih =>
    simp only [readLines] at h
    cases hr : s.readLine line raw with rw [hr] at h
    | error e => cases h
    | ok s₁ =>
      have rest := ih h
      rw [State.readLine_inScript hr] at rest
      simp only [List.cons_append, unscripted, rest, List.append_assoc]

/-- The lines outside of script blocks tell what waits and which directives the requests got. -/
theorem gathered_of_readLines (h : readLines 1 (.start vars) ls = .ok s) :
    Gathered vars (unscripted false ls) s := by
  induction ls using List.reverseRecOn generalizing s with
  | nil =>
    cases h
    exact .start vars
  | append_singleton ls raw ih =>
    obtain ⟨s₁, s₂, before, here, after⟩ := readLines_through h
    cases after
    have gathered := ih before
    have more := unscripted_readLines before [raw]
    rw [show (State.start vars).inScript = false from rfl] at more
    rw [more]
    rw [State.readLine_eq] at here
    split at here
    · next script =>
      cases here
      simp only [unscripted, script, if_true, List.append_nil]
      exact ⟨gathered.known, gathered.waiting, gathered.each, gathered.due⟩
    · next script =>
      rw [Bool.not_eq_true] at script
      simp only [unscripted, script, Bool.false_eq_true, if_false, List.append_nil]
      obtain ⟨known, turn⟩ := turn_of_heed here
      exact gathered.turn known turn

theorem requests_due {text : String} {parsed : Parsed} (h : parse vars text = .ok parsed) :
    parsed.requests.length = (openLines text).countP beginsRequest ∧
      ∀ before raw after, openLines text = before ++ raw :: after → beginsRequest raw = true →
        ∃ r, parsed.requests[before.countP beginsRequest]? = some r ∧
          Due vars before (announced r) := by
  obtain ⟨s, read, rfl⟩ := exists_readText h
  have gathered := gathered_of_readLines read
  have begun : s.result.requests.map announced = s.begun := s.finish_begun
  constructor
  · rw [← List.length_map announced, begun]
    exact gathered.each
  · intro before raw after split begins
    obtain ⟨p, found, due⟩ := gathered.due before raw after split begins
    rw [← begun, List.getElem?_map] at found
    obtain ⟨r, there, rfl⟩ := Option.map_eq_some_iff.1 found
    exact ⟨r, there, due⟩

theorem exists_request {k : Nat} (h : k < ls.countP beginsRequest) :
    ∃ before raw after, ls = before ++ raw :: after ∧ beginsRequest raw = true ∧
      before.countP beginsRequest = k := by
  induction ls generalizing k with
  | nil => simp at h
  | cons x xs ih =>
    cases begins : beginsRequest x with
    | false =>
      have other : ¬ beginsRequest x = true := by simp [begins]
      rw [List.countP_cons_of_neg other] at h
      obtain ⟨before, raw, after, rfl, request, count⟩ := ih h
      exact ⟨x :: before, raw, after, rfl, request,
        (List.countP_cons_of_neg other).trans count⟩
    | true =>
      rw [List.countP_cons_of_pos begins] at h
      cases k with
      | zero => exact ⟨[], x, xs, rfl, begins, rfl⟩
      | succ k =>
        obtain ⟨before, raw, after, rfl, request, count⟩ := ih (Nat.lt_of_succ_lt_succ h)
        exact ⟨x :: before, raw, after, rfl, request, by rw [List.countP_cons_of_pos begins, count]⟩

theorem eq_of_undirected {r r' : Request} (same : undirected r = undirected r')
    (directives : announced r = announced r') : r = r' := by
  cases r
  cases r'
  cases same
  cases directives
  rfl

/-- Texts that differ in directives only, and in these behind the last request line only, have the
same requests. -/
theorem requests_trailing {text text' : String} {parsed parsed' : Parsed}
    {upto rest rest' : List (List Char)} (h : parse vars text = .ok parsed)
    (h' : parse vars text' = .ok parsed') (split : openLines text = upto ++ rest)
    (split' : openLines text' = upto ++ rest')
    (last : ∀ raw ∈ rest ++ rest', beginsRequest raw = false)
    (same : withoutDirectives rest' = withoutDirectives rest) :
    parsed'.requests = parsed.requests := by
  obtain ⟨each, due⟩ := requests_due h
  obtain ⟨each', due'⟩ := requests_due h'
  obtain ⟨none, none'⟩ := List.forall_mem_append.1 last
  have count {rest : List (List Char)} (none : ∀ raw ∈ rest, beginsRequest raw = false) :
      (upto ++ rest).countP beginsRequest = upto.countP beginsRequest := by
    have zero : rest.countP beginsRequest = 0 := List.countP_eq_zero.2 (by simpa using none)
    rw [List.countP_append, zero, Nat.add_zero]
  rw [split, count none] at each
  rw [split', count none'] at each'
  have undirecteds : parsed'.requests.map undirected = parsed.requests.map undirected := by
    refine requests_undirected h h' ?_
    rw [split, split', withoutDirectives, withoutDirectives, List.filter_append, List.filter_append]
    exact congrArg _ same
  apply List.ext_getElem?
  intro k
  by_cases within : k < upto.countP beginsRequest
  · obtain ⟨before, raw, after, rfl, begins, rfl⟩ := exists_request within
    obtain ⟨r, found, directives⟩ := due before raw (after ++ rest) (by simp [split]) begins
    obtain ⟨r', found', directives'⟩ := due' before raw (after ++ rest') (by simp [split']) begins
    have undirected : undirected r' = undirected r := by
      have there := congrArg (·[before.countP beginsRequest]?) undirecteds
      simpa only [List.getElem?_map, found, found', Option.map_some, Option.some.injEq] using there
    rw [found, found', eq_of_undirected undirected (directives'.unique directives)]
  · rw [List.getElem?_eq_none (by omega), List.getElem?_eq_none (by omega)]

/-- Each request gets the directives since the request line before its own, each value from the last
line that gives it, and all conditions. Nothing else depends on directives, and those behind the
last request line are of no use. -/
theorem parse_attaches {text : String} {parsed : Parsed} (h : parse vars text = .ok parsed) :
    (∀ s keyword word value,
      Line.ofText s = .directive keyword word value ↔ IsDirective s keyword word value) ∧
    parsed.requests.length = (openLines text).countP beginsRequest ∧
    (∀ before raw after, openLines text = before ++ raw :: after → beginsRequest raw = true →
      ∃ r, parsed.requests[before.countP beginsRequest]? = some r ∧
        Attached ((uptoRequest before).foldl learn vars) (sinceRequest before) (announced r)) ∧
    ∀ text' parsed', parse vars text' = .ok parsed' →
      (withoutDirectives (openLines text') = withoutDirectives (openLines text) →
        parsed'.requests.map undirected = parsed.requests.map undirected) ∧
      ∀ upto rest rest', openLines text = upto ++ rest → openLines text' = upto ++ rest' →
        (∀ raw ∈ rest ++ rest', beginsRequest raw = false) →
        withoutDirectives rest' = withoutDirectives rest → parsed'.requests = parsed.requests := by
  obtain ⟨each, due⟩ := requests_due h
  refine ⟨fun s keyword word value => ofText_eq_directive_iff, each, due, ?_⟩
  intro text' parsed' h'
  exact ⟨requests_undirected h h', fun upto rest rest' split split' last same =>
    requests_trailing h h' split split' last same⟩

/-- Directives before, within and behind two requests, one of them in a script block. -/
theorem parse_attaches_two :
    let vars := [⟨"n", "200"⟩]
    let first := ["# @name a", "@timeout 5", "// @timeout 9", "GET a", "A: b", "@name lost", "",
      "# @if a.response.status \x7b\x7bn\x7d\x7d"].map String.toList
    let script := ["> \x7b%", "# @post-delay 9", "%\x7d"].map String.toList
    let second := ["@connectionTimeout 3s", "body", "## @name b", "# @connection-timeout: 5ms"].map
      String.toList
    let text (rest : List (List Char)) :=
      fileText (first ++ script ++ second ++ "GET b".toList :: rest)
    let before := first ++ second
    ∃ p p', parse vars (text ["@timeout 1".toList]) = .ok p ∧ parse vars (text []) = .ok p' ∧
      p'.requests = p.requests ∧
      ∃ r, p.requests[1]? = some r ∧
        Attached ((uptoRequest before).foldl learn vars) (sinceRequest before) (announced r) ∧
        announced r = ⟨some "b", none, [⟨"a", .status, "200", false, none⟩], none, some 5, none,
          none⟩ := by
  intro vars first script second text before
  let a : Request :=
    ⟨"GET", "a", some "a", [⟨"A", "b"⟩], some "body", [], [], none, some 9000, none, none, none⟩
  let b : Request :=
    ⟨"GET", "b", some "b", [], none, [], [⟨"a", .status, "200", false, none⟩], none, none, some 5,
      none, none⟩
  let shared := first ++ script ++ second ++ ["GET b".toList]
  have cut {rest : List (List Char)} (unbroken : ∀ line ∈ rest, Unbroken line) :
      lines (text rest).toList = shared ++ rest := by
    have short : ∀ line ∈ shared, Unbroken line := by decide +kernel
    rw [← lines_fileText (List.forall_mem_append.2 ⟨short, unbroken⟩), List.append_assoc]
    rfl
  have last : ∀ line ∈ ["@timeout 1".toList], Unbroken line := by decide +kernel
  have read : parse vars (text ["@timeout 1".toList]) = .ok ⟨[a, b], [.directivesIgnored]⟩ := by
    rw [parse, readText, cut last]
    decide +kernel
  have read' : parse vars (text []) = .ok ⟨[a, b], []⟩ := by
    rw [parse, readText, cut (List.forall_mem_nil _)]
    decide +kernel
  let upto := before ++ ["GET b".toList]
  have split : openLines (text ["@timeout 1".toList]) = upto ++ ["@timeout 1".toList] := by
    rw [openLines, cut last]
    decide +kernel
  have split' : openLines (text []) = upto ++ [] := by
    rw [openLines, cut (List.forall_mem_nil _)]
    decide +kernel
  obtain ⟨-, -, due, others⟩ := parse_attaches read
  obtain ⟨-, trailing⟩ := others _ _ read'
  obtain ⟨r, found, directives⟩ := due before "GET b".toList ["@timeout 1".toList]
    (by rw [split, List.append_assoc]; rfl) (by decide +kernel)
  have second : before.countP beginsRequest = 1 := by decide +kernel
  rw [second] at found
  cases found
  exact ⟨_, _, read, read', trailing upto _ _ split split' (by decide +kernel) (by decide +kernel),
    b, rfl, directives, rfl⟩

end DotHttp.RequestFile
