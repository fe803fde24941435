import DotHttp.Proofs.Condition
import DotHttp.Proofs.Duration
import DotHttp.RequestFile
import Mathlib.Data.List.Infix
import Mathlib.Tactic.FinCases

/-!
Requests as they are written in a request file, line by line, and what kind of line each of these is
taken for. The kinds are tried in a fixed order; a line is written so that none tried earlier takes
it.
-/

namespace DotHttp

open DotHttp.Text

def Assertion.Kind.keyword : Assertion.Kind → String
  | .status => "EXPECTED_RESPONSE_STATUS"
  | .body => "EXPECTED_RESPONSE_BODY"
  | .headers => "EXPECTED_RESPONSE_HEADERS"

namespace RequestFile

/-- What a line of a header or a body does not begin with. -/
def reserved : List (List Char) :=
  ["#".toList, "//".toList, "@".toList, "> \x7b%".toList] ++ methods.map fun m => m.toList ++ [' ']

/-- An optional mark before the keyword of an assertion. -/
def leads : List (List Char) := [[], ['>', ' ']]

/-- One line that can only be a header or belong to a body. -/
@[mk_iff] structure Plain (line : List Char) : Prop where
  unbroken : Unbroken line
  visible : strip line ≠ []
  starts : ∀ start ∈ reserved, ¬ start <+: strip line
  version : ¬ "HTTP/".toList <:+: strip line
  keywords : ∀ entry ∈ assertionWords, ∀ lead ∈ leads,
    strip line ≠ lead ++ entry.1.toList ∧ ¬ lead ++ entry.1.toList ++ [' '] <+: strip line

instance (line : List Char) : Decidable (Plain line) := decidable_of_iff _ (plain_iff line).symm

/-- A line that is blank, or a comment without an at sign. -/
@[mk_iff] structure Idle (line : List Char) : Prop where
  unbroken : Unbroken line
  silent : strip line = [] ∨ (isComment (strip line) = true ∧ '@' ∉ line)

instance (line : List Char) : Decidable (Idle line) := decidable_of_iff _ (idle_iff line).symm

/-- One line of text that a directive can have as its value. -/
@[mk_iff] structure Value (value : List Char) : Prop where
  unbroken : Unbroken value
  nonempty : value ≠ []
  stripped : strip value = value
  colon : value.head? ≠ some ':'

instance (value : List Char) : Decidable (Value value) := decidable_of_iff _ (value_iff value).symm

def directiveLine (word value : String) : List Char :=
  "# @".toList ++ word.toList ++ ' ' :: value.toList

def headerLine (h : Header) : List Char :=
  h.name.toList ++ ':' :: ' ' :: h.value.toList

/-- The lines of a body, after a blank one. -/
def bodyLines : Option String → List (List Char)
  | none => []
  | some b => [] :: splitOn '\n' b.toList

/-- The line of an assertion: its keyword alone, or the expected text after it, in quotes or bare. -/
inductive AssertionLine : Assertion → List Char → Prop
  | alone (kind : Assertion.Kind) {lead : List Char} (hl : lead ∈ leads) :
      AssertionLine ⟨kind, ""⟩ (lead ++ kind.keyword.toList)
  | bare (kind : Assertion.Kind) {lead : List Char} {expected : String} (hl : lead ∈ leads)
      (unbroken : Unbroken expected.toList) (nonempty : expected.toList ≠ [])
      (stripped : strip expected.toList = expected.toList)
      (unquoted : ∀ inner, expected.toList ≠ '"' :: inner ++ ['"']) :
      AssertionLine ⟨kind, expected⟩ (lead ++ kind.keyword.toList ++ ' ' :: expected.toList)
  | quoted (kind : Assertion.Kind) {lead : List Char} {expected : String} (hl : lead ∈ leads)
      (unbroken : Unbroken expected.toList) :
      AssertionLine ⟨kind, expected⟩
        (lead ++ kind.keyword.toList ++ ' ' :: ('"' :: expected.toList ++ ['"']))

/-- A line of a body that is kept as it is. -/
def BodyLine (line : List Char) : Prop :=
  line = [] ∨ (Plain line ∧ stripRight line = line)

instance (line : List Char) : Decidable (BodyLine line) :=
  inferInstanceAs (Decidable (line = [] ∨ (Plain line ∧ stripRight line = line)))

/-- A header with a name and a value that stand on one plain line. -/
@[mk_iff] structure PlainHeader (h : Header) : Prop where
  plain : Plain (headerLine h)
  colon : ':' ∉ h.name.toList
  name : strip h.name.toList = h.name.toList
  value : strip h.value.toList = h.value.toList

instance (h : Header) : Decidable (PlainHeader h) := decidable_of_iff _ (plainHeader_iff h).symm

/-- A condition as it is read, on a request whose name does not begin with a colon. -/
structure ReadCondition (c : Condition) : Prop where
  read : ∃ text, Condition.parse? text c.negated = some c
  colon : c.requestName.toList.head? ≠ some ':'

theorem readCondition_iff (c : Condition) : ReadCondition c ↔
    Condition.parse? (c.describe ++ " " ++ c.expected) c.negated = some c ∧
      c.requestName.toList.head? ≠ some ':' :=
  ⟨fun h => ⟨h.read.elim fun _ => Condition.parse?_describe, h.colon⟩, fun h => ⟨⟨_, h.1⟩, h.2⟩⟩

instance (c : Condition) : Decidable (ReadCondition c) :=
  decidable_of_iff _ (readCondition_iff c).symm

/-- A body whose lines are kept as they are, without a blank one at either end. -/
@[mk_iff] structure PlainBody (b : String) : Prop where
  lines : ∀ line ∈ splitOn '\n' b.toList, BodyLine line
  first : (splitOn '\n' b.toList).head? ≠ some []
  last : (splitOn '\n' b.toList).getLast? ≠ some []

instance (b : String) : Decidable (PlainBody b) := decidable_of_iff _ (plainBody_iff b).symm

/-- A request that can be written down. -/
@[mk_iff] structure Writable (r : Request) : Prop where
  method : r.method ∈ methods
  url : Compact r.url.toList
  version : ¬ "HTTP/".toList <+: r.url.toList
  name : ∀ n ∈ r.name, Value n.toList
  dependsOn : ∀ n ∈ r.dependsOn, Value n.toList
  timeout : ∀ n ∈ r.timeout, n ≤ Duration.limit
  connectionTimeout : ∀ n ∈ r.connectionTimeout, n ≤ Duration.limit
  preDelay : ∀ n ∈ r.preDelay, n ≤ Duration.limit
  postDelay : ∀ n ∈ r.postDelay, n ≤ Duration.limit
  conditions : ∀ c ∈ r.conditions, ReadCondition c
  headers : ∀ h ∈ r.headers, PlainHeader h
  body : ∀ b ∈ r.body, PlainBody b

instance (r : Request) : Decidable (Writable r) := decidable_of_iff _ (writable_iff r).symm

def durationLine (word : String) (milliseconds : Nat) : List Char :=
  directiveLine word (toString milliseconds ++ "ms")

def conditionLine (c : Condition) : List Char :=
  directiveLine (if c.negated then "if-not" else "if") (c.describe ++ " " ++ c.expected)

/-- The lines of the directives of a request. -/
def directiveLines (r : Request) : List (List Char) :=
  (r.name.map (directiveLine "name")).toList ++
    (r.dependsOn.map (directiveLine "dependsOn")).toList ++
    (r.timeout.map (durationLine "timeout")).toList ++
    (r.connectionTimeout.map (durationLine "connection-timeout")).toList ++
    (r.preDelay.map (durationLine "pre-delay")).toList ++
    (r.postDelay.map (durationLine "post-delay")).toList ++
    r.conditions.map conditionLine

def requestLine (r : Request) : List Char :=
  r.method.toList ++ ' ' :: r.url.toList

/-- The lines of a request: directives, request line, headers, body and assertions. Idle lines may
stand before the first directive and before the assertions. -/
inductive Written (r : Request) : List (List Char) → Prop
  | intro {before between marks : List (List Char)}
      (idle : ∀ line ∈ before, Idle line) (idle' : ∀ line ∈ between, Idle line)
      (assertions : List.Forall₂ AssertionLine r.assertions marks) :
      Written r (before ++ (directiveLines r ++ (requestLine r :: (r.headers.map headerLine ++
        (bodyLines r.body ++ (between ++ marks))))))

/-- The text of some lines, each with a line feed at its end. -/
def fileText (lines : List (List Char)) : String :=
  String.ofList (lines.flatMap (· ++ ['\n']))

variable {line s : List Char}

theorem assertion?_eq_none (h : ∀ entry ∈ assertionWords, ∀ lead ∈ leads,
    s ≠ lead ++ entry.1.toList ∧ ¬ lead ++ entry.1.toList ++ [' '] <+: s) :
    assertion? s = none := by
  -- With or without the mark, the text that is looked at comes after one of the leads.
  obtain ⟨lead, hl, split⟩ : ∃ lead ∈ leads, s = lead ++ (dropStart? ['>', ' '] s).getD s := by
    cases hd : dropStart? ['>', ' '] s with
    | none => exact ⟨[], by simp [leads], rfl⟩
    | some r => exact ⟨['>', ' '], by simp [leads], dropStart?_eq_some_iff.1 hd⟩
  refine List.findSome?_eq_none_iff.2 fun ⟨word, kind⟩ hw => ?_
  obtain ⟨alone, followed⟩ := h (word, kind) hw lead hl
  dsimp only
  cases hd : dropStart? word.toList ((dropStart? ['>', ' '] s).getD s) with
  | none => rfl
  | some rest =>
    rw [dropStart?_eq_some_iff] at hd
    rw [hd] at split
    cases rest with
    | nil => exact (alone (by simpa using split)).elim
    | cons c rest =>
      by_cases hc : c = ' '
      · subst hc
        exact (followed ⟨rest, by simp [split]⟩).elim
      · simp [hc]

theorem Plain.kind (h : Plain line) :
    opensScript (strip line) = false ∧ Line.ofText (strip line) = .content (strip line) := by
  have starts (start : List Char) (hs : start ∈ reserved) :
      start.isPrefixOf (strip line) = false := by
    rw [← Bool.not_eq_true, List.isPrefixOf_iff_prefix]
    exact h.starts start hs
  have script : opensScript (strip line) = false := starts _ (by simp [reserved])
  have comment : isComment (strip line) = false := by
    rw [isComment, starts _ (by simp [reserved]), starts _ (by simp [reserved])]
    rfl
  have sign : ¬ (strip line).head? = some '@' := by
    intro hs
    obtain ⟨rest, hr⟩ := List.head?_eq_some_iff.1 hs
    exact h.starts ['@'] (by simp [reserved]) ⟨rest, hr.symm⟩
  have request : isRequestLine (strip line) = false := by
    rw [isRequestLine, Bool.or_eq_false_iff]
    refine ⟨?_, List.any_eq_false.2 fun m hm => ?_⟩
    · rw [← Bool.not_eq_true, occursIn_iff]
      exact h.version
    · rw [starts _ (List.mem_append_right _ (List.mem_map_of_mem hm))]
      simp
  refine ⟨script, ?_⟩
  rw [Line.ofText, if_neg (by simpa using h.visible), if_neg (by simp [comment]), if_neg sign,
    assertion?_eq_none h.keywords]
  simp [request]

theorem mem_of_commentDirective? {t : List Char} (h : commentDirective? s = some t) : '@' ∈ s := by
  obtain ⟨r, body, signed⟩ := Option.bind_eq_some_iff.1 h
  have sign : '@' ∈ r := by
    split at signed
    · next t' ht =>
      have first : '@' ∈ stripLeft r := by rw [ht]; exact List.mem_cons_self
      exact (List.dropWhile_sublist isBlank).mem first
    · cases signed
  split at body
  · cases body
    exact List.mem_cons_of_mem _ ((List.dropWhile_sublist _).mem sign)
  · cases body
    exact List.mem_cons_of_mem _ (List.mem_cons_of_mem _ sign)
  · cases body

theorem opensScript_of_isComment (h : isComment s = true) : opensScript s = false := by
  cases s with
  | nil => rfl
  | cons c s =>
    have first : c = '#' ∨ c = '/' := by
      simp only [isComment, List.isPrefixOf, Bool.or_eq_true, Bool.and_eq_true, beq_iff_eq] at h
      exact h.imp (·.1.symm) (·.1.symm)
    rcases first with rfl | rfl <;> rfl

theorem Idle.kind (h : Idle line) : opensScript (strip line) = false ∧
    (Line.ofText (strip line) = .blank ∨ Line.ofText (strip line) = .comment) := by
  rcases h.silent with hs | ⟨hc, sign⟩
  · exact ⟨by rw [hs]; rfl, .inl (by rw [hs]; rfl)⟩
  · have none : commentDirective? (strip line) = none := by
      rw [Option.eq_none_iff_forall_ne_some]
      intro t ht
      exact sign ((strip_sublist line).mem (mem_of_commentDirective? ht))
    have visible : ¬ (strip line).isEmpty = true := by
      intro he
      rw [List.isEmpty_iff.1 he] at hc
      cases hc
    refine ⟨opensScript_of_isComment hc, .inr ?_⟩
    rw [Line.ofText, if_neg visible, if_pos hc, none]
    rfl

/-- The words of directives begin with a letter, go on in the same way, and are known. -/
theorem keyword_spelling : ∀ entry ∈ keywords, ∃ c r, entry.1.toList = c :: r ∧ isLatin c = true ∧
    r.all (fun x => isWord x || x = '-') = true ∧ Keyword.ofWord? entry.1 = some entry.2 := by
  intro entry h
  fin_cases h <;> exact ⟨_, _, rfl, by decide, by decide, by decide⟩

theorem directive?_written {c : Char} {r value : List Char} (hc : isLatin c = true)
    (hr : r.all (fun x => isWord x || x = '-') = true) (hv : Value value) :
    directive? ('@' :: c :: (r ++ ' ' :: value)) = some (c :: r, value) := by
  rw [List.all_eq_true] at hr
  have rest : stripLeft ((r ++ ' ' :: value).dropWhile fun x => isWord x || x = '-') = value := by
    rw [List.dropWhile_append_of_pos hr, List.dropWhile_cons_of_neg (by decide), stripLeft_space,
      stripLeft_of_strip hv.stripped]
  have word : (r ++ ' ' :: value).takeWhile (fun x => isWord x || x = '-') = r := by
    rw [List.takeWhile_append_of_pos hr, List.takeWhile_cons_of_neg (by decide), List.append_nil]
  simp only [directive?, hc, if_true, rest, word]
  split
  · next t => exact (hv.colon rfl).elim
  · rw [hv.stripped]

theorem strip_directiveLine (word : String) {value : String} (nonempty : value.toList ≠ [])
    (stripped : strip value.toList = value.toList) :
    strip (directiveLine word value) = directiveLine word value := by
  have cut := strip_cons_append (c := '#') rfl (' ' :: '@' :: word.toList ++ [' '])
    (stripRight_of_strip stripped) nonempty
  simpa [directiveLine] using cut

theorem kind_directiveLine {word value : String} {keyword : Keyword}
    (hw : (word, keyword) ∈ keywords) (hv : Value value.toList) :
    opensScript (strip (directiveLine word value)) = false ∧
      Line.ofText (strip (directiveLine word value)) = .directive keyword word value := by
  obtain ⟨c, r, spelling, latin, inner, known⟩ := keyword_spelling _ hw
  have written : directiveLine word value =
      '#' :: ' ' :: '@' :: c :: (r ++ ' ' :: value.toList) := by
    rw [directiveLine, spelling]
    simp
  have found : commentDirective? (directiveLine word value) =
      some ('@' :: c :: (r ++ ' ' :: value.toList)) := by
    rw [written]
    rfl
  rw [strip_directiveLine word hv.nonempty hv.stripped]
  refine ⟨by rw [written]; rfl, ?_⟩
  rw [Line.ofText, if_neg (by simp [written]), if_pos (by rw [written]; rfl), found,
    Option.bind_some, directive?_written latin inner hv]
  have back : String.ofList (c :: r) = word := by rw [← spelling, String.ofList_toList]
  simp only [back, known, String.ofList_toList]

theorem value_milliseconds (n : Nat) : Value (toString n ++ "ms").toList := by
  have compact := Duration.compact_milliseconds n
  refine ⟨compact.unbroken, compact.nonempty, strip_of_compact compact, ?_⟩
  obtain ⟨d, ds, hd⟩ := List.exists_cons_of_ne_nil (Nat.toDigits_ne_nil (n := n) (b := 10))
  have digit : d.isDigit = true :=
    Numeral.isDigit_of_mem_toDigits (n := n) (hd ▸ List.mem_cons_self)
  rw [Duration.toList_milliseconds, hd]
  rintro ⟨⟩
  cases digit

theorem ReadCondition.value {c : Condition} (h : ReadCondition c) :
    Value (c.describe ++ " " ++ c.expected).toList := by
  obtain ⟨text, read⟩ := h.read
  obtain ⟨ws, hw, nonempty, expected, -⟩ := Condition.words_of_parse? read
  have compact : ∀ w ∈ c.describe.toList :: ws, Compact w :=
    fun w hm => compact_of_mem_words (hw ▸ hm)
  have written : (c.describe ++ " " ++ c.expected).toList =
      joinWith [' '] (c.describe.toList :: ws) := by
    simp [joinWith_space_cons _ nonempty, expected]
  obtain ⟨filled, stripped, unbroken⟩ := joinWith_solid compact (List.cons_ne_nil _ _)
  rw [written]
  refine ⟨unbroken, filled, stripped, ?_⟩
  obtain ⟨more, described⟩ : ∃ more, c.describe.toList = c.requestName.toList ++ '.' :: more := by
    unfold Condition.describe
    cases c.kind <;> exact ⟨_, by simp; rfl⟩
  have colon := h.colon
  rw [joinWith_space_cons _ nonempty, described]
  cases hn : c.requestName.toList with
  | nil => simp
  | cons d ds =>
    rw [hn] at colon
    simpa using colon

/-- The methods begin with none of the characters at which other lines are told apart. -/
theorem method_spelling : ∀ m ∈ methods, Compact m.toList ∧
    ∃ c r, m.toList = c :: r ∧ c ∉ ['#', '/', '@', '>', 'E'] := by
  intro m h
  fin_cases h <;> exact ⟨by decide, _, _, rfl, by decide⟩

theorem lead_spelling : ∀ entry ∈ assertionWords, ∀ lead ∈ leads,
    (lead ++ entry.1.toList).head? = some '>' ∨ (lead ++ entry.1.toList).head? = some 'E' := by
  decide

theorem assertion?_cons_eq_none {c : Char} (h : c ∉ ['#', '/', '@', '>', 'E']) (s : List Char) :
    assertion? (c :: s) = none := by
  apply assertion?_eq_none
  intro entry he lead hl
  have first := lead_spelling entry he lead hl
  obtain ⟨d, t, hd⟩ : ∃ d t, lead ++ entry.1.toList = d :: t := by
    cases hs : lead ++ entry.1.toList with
    | nil => simp [hs] at first
    | cons d t => exact ⟨d, t, rfl⟩
  have apart : c ≠ d := by
    rintro rfl
    rw [hd] at first
    rcases first with hc | hc <;> cases hc <;> simp at h
  rw [hd]
  exact ⟨fun hs => apart (List.cons_eq_cons.1 hs).1,
    fun ⟨t', ht⟩ => apart (List.cons_eq_cons.1 ht).1.symm⟩

theorem kind_requestLine {r : Request} (hr : Writable r) :
    opensScript (strip (requestLine r)) = false ∧
      Line.ofText (strip (requestLine r)) = .request (requestLine r) ∧
      words (requestLine r) = [r.method.toList, r.url.toList] := by
  obtain ⟨compact, c, rest, spelling, first⟩ := method_spelling r.method hr.method
  have written : requestLine r = c :: (rest ++ ' ' :: r.url.toList) := by
    simp [requestLine, spelling]
  have solid : isBlank c = false := compact.solid c (spelling ▸ List.mem_cons_self)
  have stripped : strip (requestLine r) = requestLine r := by
    have cut := strip_cons_append solid (rest ++ [' '])
      (stripRight_of_strip (strip_of_compact hr.url)) hr.url.nonempty
    rw [written]
    simpa using cut
  have request : isRequestLine (requestLine r) = true := by
    rw [isRequestLine, Bool.or_eq_true, List.any_eq_true]
    refine .inr ⟨r.method, hr.method, List.isPrefixOf_iff_prefix.2 ⟨r.url.toList, ?_⟩⟩
    simp [requestLine]
  have others : c ≠ '#' ∧ c ≠ '/' ∧ c ≠ '@' ∧ c ≠ '>' ∧ c ≠ 'E' := by simpa using first
  obtain ⟨hash, slash, sign, mark, -⟩ := others
  rw [stripped]
  refine ⟨?_, ?_, ?_⟩
  · rw [written]
    simp [opensScript, List.isPrefixOf, Ne.symm mark]
  · have comment : isComment (requestLine r) = false := by
      rw [written]
      simp [isComment, List.isPrefixOf, Ne.symm hash, Ne.symm slash]
    rw [Line.ofText, if_neg (by simp [written]), if_neg (by simp [comment]),
      if_neg (by simp [written, sign]), written, assertion?_cons_eq_none first, ← written]
    simp [request]
  · rw [requestLine, words_append_space compact, words_of_compact hr.url]

theorem unquote_quoted (inner : List Char) : unquote ('"' :: inner ++ ['"']) = inner := by
  have ends : dropEnd? ['"'] (inner ++ ['"']) = some inner := dropEnd?_eq_some_iff.2 rfl
  simp [unquote, ends]

theorem unquote_of_unquoted (h : ∀ inner, s ≠ '"' :: inner ++ ['"']) : unquote s = s := by
  unfold unquote
  split
  · next r =>
    cases hd : dropEnd? ['"'] r with
    | none => rfl
    | some inner => exact (h inner (by rw [dropEnd?_eq_some_iff.1 hd]; rfl)).elim
  · rfl

theorem assertion?_alone (kind : Assertion.Kind) {lead : List Char} (hl : lead ∈ leads) :
    assertion? (lead ++ kind.keyword.toList) = some (kind, kind.keyword, []) := by
  fin_cases hl <;> cases kind <;> rfl

theorem assertion?_followed (kind : Assertion.Kind) {lead : List Char} (hl : lead ∈ leads)
    (r : List Char) : assertion? (lead ++ kind.keyword.toList ++ ' ' :: r) =
      some (kind, kind.keyword, unquote (strip r)) := by
  fin_cases hl <;> cases kind <;> rfl

/-- Past its lead and keyword, an assertion is no other kind of line, whatever follows. -/
theorem kind_of_assertion? (kind : Assertion.Kind) {lead tail expected : List Char}
    (hl : lead ∈ leads)
    (h : assertion? (lead ++ kind.keyword.toList ++ tail) = some (kind, kind.keyword, expected)) :
    opensScript (lead ++ kind.keyword.toList ++ tail) = false ∧
      Line.ofText (lead ++ kind.keyword.toList ++ tail) =
        .assertion kind kind.keyword (String.ofList expected) := by
  have apart : opensScript (lead ++ kind.keyword.toList ++ tail) = false ∧
      (lead ++ kind.keyword.toList ++ tail).isEmpty = false ∧
      isComment (lead ++ kind.keyword.toList ++ tail) = false ∧
      (lead ++ kind.keyword.toList ++ tail).head? ≠ some '@' := by
    fin_cases hl <;> cases kind <;> exact ⟨rfl, rfl, rfl, by simp [Assertion.Kind.keyword]⟩
  obtain ⟨script, nonempty, comment, sign⟩ := apart
  refine ⟨script, ?_⟩
  rw [Line.ofText, if_neg (Bool.eq_false_iff.1 nonempty), if_neg (Bool.eq_false_iff.1 comment),
    if_neg sign, h]

theorem strip_lead_append (kind : Assertion.Kind) {lead tail : List Char} (hl : lead ∈ leads)
    (ht : stripRight tail = tail) (nonempty : tail ≠ []) :
    strip (lead ++ kind.keyword.toList ++ tail) = lead ++ kind.keyword.toList ++ tail := by
  have opening : ∃ c r, lead ++ kind.keyword.toList = c :: r ∧ isBlank c = false := by
    fin_cases hl <;> cases kind <;> exact ⟨_, _, rfl, by decide⟩
  obtain ⟨c, r, hc, solid⟩ := opening
  rw [hc]
  exact strip_cons_append solid r ht nonempty

theorem AssertionLine.stripped {a : Assertion} (h : AssertionLine a line) : strip line = line := by
  cases h with
  | alone kind hl => fin_cases hl <;> cases kind <;> decide
  | bare kind hl unbroken nonempty stripped unquoted =>
    have ending := stripRight_of_strip stripped
    exact strip_lead_append kind hl (by simp [stripRight_cons, ending, nonempty]) (by simp)
  | @quoted kind lead expected hl unbroken =>
    have ending : stripRight (' ' :: '"' :: expected.toList ++ ['"']) =
        ' ' :: '"' :: expected.toList ++ ['"'] := stripRight_append_cons rfl _ []
    exact strip_lead_append kind hl ending (by simp)

theorem AssertionLine.kind {a : Assertion} (h : AssertionLine a line) :
    opensScript (strip line) = false ∧
      Line.ofText (strip line) = .assertion a.kind a.kind.keyword a.expected := by
  rw [h.stripped]
  cases h with
  | @alone kind lead hl =>
    have found := assertion?_alone kind hl
    rw [← List.append_nil (lead ++ _)] at found ⊢
    exact kind_of_assertion? kind hl found
  | @bare kind lead expected hl unbroken nonempty stripped unquoted =>
    have found := kind_of_assertion? kind hl (assertion?_followed kind hl expected.toList)
    rwa [stripped, unquote_of_unquoted unquoted, String.ofList_toList] at found
  | @quoted kind lead expected hl unbroken =>
    have stripped : strip ('"' :: expected.toList ++ ['"']) = '"' :: expected.toList ++ ['"'] :=
      strip_cons_append rfl expected.toList rfl (by simp)
    have found := kind_of_assertion? kind hl
      (assertion?_followed kind hl ('"' :: expected.toList ++ ['"']))
    rwa [stripped, unquote_quoted, String.ofList_toList] at found

theorem AssertionLine.unbroken {a : Assertion} (h : AssertionLine a line) : Unbroken line := by
  have opening (kind : Assertion.Kind) {lead : List Char} (hl : lead ∈ leads) :
      Unbroken (lead ++ kind.keyword.toList) := by
    fin_cases hl <;> cases kind <;> decide
  cases h with
  | alone kind hl => exact opening kind hl
  | bare kind hl unbroken => exact (opening kind hl).append (unbroken.cons rfl)
  | quoted kind hl unbroken =>
    exact (opening kind hl).append (((unbroken.cons rfl).append (by decide)).cons rfl)

theorem assertionLines_unbroken {as : List Assertion} {marks : List (List Char)}
    (h : List.Forall₂ AssertionLine as marks) : ∀ line ∈ marks, Unbroken line := by
  induction h with
  | nil => simp
  | cons first _ ih => exact List.forall_mem_cons.2 ⟨first.unbroken, ih⟩

theorem directiveLine_unbroken {word value : String} (keyword : Keyword)
    (hw : (word, keyword) ∈ keywords) (hv : Value value.toList) :
    Unbroken (directiveLine word value) := by
  have spelling : ∀ entry ∈ keywords, Unbroken entry.1.toList := by decide
  have start : Unbroken "# @".toList := by decide
  exact (start.append (spelling _ hw)).append (hv.unbroken.cons rfl)

theorem directiveLines_unbroken {r : Request} (hr : Writable r) :
    ∀ line ∈ directiveLines r, Unbroken line := by
  have optional {α : Type} {o : Option α} {line : α → List Char} (h : ∀ a ∈ o, Unbroken (line a)) :
      ∀ l ∈ (o.map line).toList, Unbroken l := by
    cases o with
    | none => simp
    | some a => simpa using h
  have duration {o : Option Nat} {word : String} (keyword : Keyword)
      (hw : (word, keyword) ∈ keywords) : ∀ l ∈ (o.map (durationLine word)).toList, Unbroken l :=
    optional fun n _ => directiveLine_unbroken keyword hw (value_milliseconds n)
  have condition : ∀ l ∈ r.conditions.map conditionLine, Unbroken l := by
    rw [List.forall_mem_map]
    intro c hc
    refine directiveLine_unbroken (.condition c.negated) ?_ (hr.conditions c hc).value
    cases c.negated <;> decide
  simp only [directiveLines, List.forall_mem_append]
  exact ⟨⟨⟨⟨⟨⟨optional fun n hn => directiveLine_unbroken .name (by decide) (hr.name n hn),
    optional fun n hn => directiveLine_unbroken .dependsOn (by decide) (hr.dependsOn n hn)⟩,
    duration .timeout (by decide)⟩, duration .connectionTimeout (by decide)⟩,
    duration .preDelay (by decide)⟩, duration .postDelay (by decide)⟩, condition⟩

theorem Written.unbroken {r : Request} {ls : List (List Char)} (hr : Writable r)
    (hw : Written r ls) : ∀ line ∈ ls, Unbroken line := by
  obtain ⟨idle, idle', assertions⟩ := hw
  have request : Unbroken (requestLine r) :=
    (method_spelling _ hr.method).1.unbroken.append (hr.url.unbroken.cons rfl)
  have body : ∀ line ∈ bodyLines r.body, Unbroken line := by
    cases hb : r.body with
    | none => simp [bodyLines]
    | some b =>
      refine List.forall_mem_cons.2 ⟨by decide, fun line hl => ?_⟩
      obtain rfl | ⟨plain, -⟩ := (hr.body b hb).lines line hl
      · decide
      · exact plain.unbroken
  simp only [List.forall_mem_append, List.forall_mem_cons, List.forall_mem_map]
  exact ⟨fun line hl => (idle line hl).unbroken, directiveLines_unbroken hr, request,
    fun h hh => (hr.headers h hh).plain.unbroken, body,
    fun line hl => (idle' line hl).unbroken, assertionLines_unbroken assertions⟩

theorem PlainHeader.parts {h : Header} (hp : PlainHeader h) :
    ∃ rest, splitFirst ':' (strip (headerLine h)) = some (h.name.toList, rest) ∧
      strip rest = h.value.toList := by
  refine ⟨stripRight (' ' :: h.value.toList), ?_, ?_⟩
  · have left : stripLeft (headerLine h) = headerLine h := by
      have name := stripLeft_of_strip hp.name
      unfold headerLine
      cases hn : h.name.toList with
      | nil => rfl
      | cons c n =>
        rw [hn] at name
        have first : isBlank c = false := by
          simpa using List.dropWhile_eq_self_iff.1 name (Nat.succ_pos _)
        exact stripLeft_cons first _
    rw [strip, left, headerLine, stripRight_append_cons rfl, splitFirst_append hp.colon]
  · rw [strip_stripRight, strip, stripLeft_space, ← strip, hp.value]

end RequestFile

end DotHttp
