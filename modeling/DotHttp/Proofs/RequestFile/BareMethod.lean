import DotHttp.Proofs.Placeholder.Rescan
import DotHttp.Proofs.RequestFile.Attachment
import DotHttp.Proofs.RequestFile.Fault

/-!
Lines with a method and nothing else. The blank that a method needs behind it is gone with the white space
at the end of the line, so no request begins there: before the first request the line is refused as text that
belongs to none, and behind it the line belongs to a body.
-/

namespace DotHttp.RequestFile

open DotHttp.Text

variable {vars : List Variable} {text : String} {parsed : Parsed} {before after ls : List (List Char)}
  {raw : List Char} {m : String}

theorem dropWhile_append_cons {α : Type} {p : α → Bool} {x : α} (h : p x = false) (xs ys : List α) :
    (xs ++ x :: ys).dropWhile p = xs.dropWhile p ++ x :: ys := by
  induction xs with
  | nil => exact List.dropWhile_cons_of_neg (by simp [h])
  | cons y xs ih =>
    rw [List.cons_append, List.dropWhile_cons, List.dropWhile_cons, ih]
    split <;> rfl

/-- A line that is not blank is part of the body, with whatever else stands there. -/
theorem bodyText_of_visible {x : String} (h : State.isBlankLine x = false) (xs ys : List String) :
    ∃ earlier later, State.bodyText (xs ++ x :: ys) = some ("\n".intercalate (earlier ++ x :: later)) := by
  refine ⟨xs.dropWhile State.isBlankLine, (ys.reverse.dropWhile State.isBlankLine).reverse, ?_⟩
  have right : ((xs ++ x :: ys).reverse.dropWhile State.isBlankLine).reverse =
      xs ++ x :: (ys.reverse.dropWhile State.isBlankLine).reverse := by
    rw [List.reverse_append, List.reverse_cons, List.append_assoc, List.singleton_append,
      dropWhile_append_cons h]
    simp
  rw [State.bodyText, right, dropWhile_append_cons h]
  split
  · next none => simp at none
  · rfl

theorem skipLine_current (s : State) : s.skipLine.current = s.current ∧ s.skipLine.requests = s.requests := by
  unfold State.skipLine
  split
  · exact ⟨rfl, rfl⟩
  · split <;> exact ⟨rfl, rfl⟩

/-- Where no request is open none has been begun. -/
theorem requests_of_none {line : Nat} {s s' : State} (h : readLines line s ls = .ok s')
    (start : s.current = none → s.requests = []) : s'.current = none → s'.requests = [] := by
  induction ls generalizing line s with
  | nil =>
    cases h
    exact start
  | cons x xs ih =>
    simp only [readLines] at h
    cases hr : s.readLine line x with rw [hr] at h
    | error e => cases h
    | ok s₁ =>
      apply ih h
      intro none
      cases course_of_readLine hr with
      | script | comment | ignored => exact start none
      | blank =>
        rw [(skipLine_current s).1] at none
        rw [(skipLine_current s).2]
        exact start none
      | effect outside effect =>
        cases effect with
        | defines | directs => exact start none
        | asserts | header => cases none
        | begins kind words current =>
          rw [current] at none
          cases none
        | body kind current =>
          rw [show s.current = Option.none from none] at current
          cases current

theorem begun_length {s : State} (reached : readLines 1 (.start vars) before = .ok s) :
    s.requests.length + s.current.toList.length = (unscripted false before).countP beginsRequest := by
  rw [← (gathered_of_readLines reached).each, State.begun, List.length_map, List.length_append]

theorem current_of_unbegun {s : State} (reached : readLines 1 (.start vars) before = .ok s)
    (count : (unscripted false before).countP beginsRequest = 0) : s.current = none := by
  have total := begun_length reached
  rw [count] at total
  cases current : s.current with
  | none => rfl
  | some r =>
    rw [current] at total
    cases total

/-- The request begun last is open. -/
theorem current_of_begun {s : State} {k : Nat} (reached : readLines 1 (.start vars) before = .ok s)
    (count : (unscripted false before).countP beginsRequest = k + 1) :
    ∃ r, s.current = some r ∧ s.requests.length = k := by
  have total := begun_length reached
  rw [count] at total
  cases current : s.current with
  | none =>
    rw [requests_of_none reached (fun _ => rfl) current, current] at total
    cases total
  | some r =>
    rw [current] at total
    exact ⟨r, rfl, Nat.succ.inj total⟩

theorem bare_spelling : ∀ m ∈ methods, Line.ofText m.toList = .content m.toList ∧
    opensScript m.toList = false ∧ splitFirst ':' m.toList = none ∧ '{' ∉ m.toList := by
  decide +kernel

/-- What is read at a line with a method alone. -/
theorem readLine_bare {s : State} (outside : (opensScript (strip raw) || s.inScript) = false)
    (listed : m ∈ methods) (alone : strip raw = m.toList) (line : Nat) :
    s.readLine line raw = match s.current with
      | none => .error (.malformed line (.strayContent m))
      | some _ => .ok { s with inBody := true, body := s.body ++ [String.ofList (stripRight raw)] } := by
  obtain ⟨kind, -, colon, plain⟩ := bare_spelling m listed
  have unopened : '{' ∉ (String.ofList (stripRight raw)).toList := by
    rw [String.toList_ofList]
    intro brace
    obtain ⟨start, rest, parts, blank, blank'⟩ := exists_strip raw
    have within : '{' ∈ start ++ strip raw ++ rest :=
      parts ▸ (List.rdropWhile_prefix isBlank raw).subset brace
    rw [alone, List.mem_append, List.mem_append] at within
    rcases within with (left | inside) | right
    · exact Bool.false_ne_true (blank _ left)
    · exact plain inside
    · exact Bool.false_ne_true (blank' _ right)
  rw [State.readLine_eq, outside, alone, kind, if_neg Bool.false_ne_true, State.heed, State.addContent,
    State.expand, Placeholder.expand_of_no_brace unopened, String.ofList_toList, colon]
  cases s.current <;> cases s.inBody <;> rfl

theorem isBlankLine_stripRight (h : strip raw ≠ []) :
    State.isBlankLine (String.ofList (stripRight raw)) = false := by
  simpa [State.isBlankLine, String.stripBlank, strip_stripRight] using h

/-- A line with a method and nothing else. Before the first request it is refused, as text outside of a
request; behind the first one it is never refused and stands in the body of the request begun last. -/
theorem bare_method (vars : List Variable) (split : lines text.toList = before ++ raw :: after)
    (outside : ¬ ScriptLine before raw) (listed : m ∈ methods) (alone : strip raw = m.toList) :
    ((unscripted false before).countP beginsRequest = 0 →
      (∃ failed, parse vars text = .error failed) ∧
      ∀ s, readLines 1 (.start vars) before = .ok s →
        parse vars text = .error ⟨.malformed (before.length + 1) (.strayContent m), s.notes⟩) ∧
    ∀ k, (unscripted false before).countP beginsRequest = k + 1 →
      (∀ fault notes, parse vars text ≠ .error ⟨.malformed (before.length + 1) fault, notes⟩) ∧
      ∀ parsed, parse vars text = .ok parsed →
        ∃ r earlier later, parsed.requests[k]? = some r ∧
          r.body = some ("\n".intercalate (earlier ++ String.ofList (stripRight raw) :: later)) := by
  have nonempty : strip raw ≠ [] := by
    rw [alone]
    exact (method_spelling m listed).1.nonempty
  have here {s : State} (reached : readLines 1 (.start vars) before = .ok s) (line : Nat) :
      s.readLine line raw = match s.current with
        | none => .error (.malformed line (.strayContent m))
        | some _ => .ok { s with
          inBody := true, body := s.body ++ [String.ofList (stripRight raw)] } := by
    rw [← readLines_scriptLine reached raw, Bool.not_eq_true] at outside
    exact readLine_bare outside listed alone line
  constructor
  · intro count
    have refused {s : State} (reached : readLines 1 (.start vars) before = .ok s) (line : Nat) :
        s.readLine line raw = .error (.malformed line (.strayContent m)) := by
      rw [here reached, current_of_unbegun reached count]
    constructor
    · cases result : parse vars text with
      | error failed => exact ⟨failed, rfl⟩
      | ok parsed =>
        obtain ⟨last, read, -⟩ := exists_readText result
        rw [split] at read
        obtain ⟨s, s', reached, stopped, -⟩ := readLines_through read
        rw [refused reached] at stopped
        cases stopped
    · intro s reached
      rw [parse_error_iff, readText, split, Nat.add_comm before.length]
      exact readLines_of_error reached (refused reached _) after
  · intro k count
    constructor
    · intro fault notes refused
      obtain ⟨s, reached, stopped⟩ := stopped_of_refused split refused
      obtain ⟨r, current, -⟩ := current_of_begun reached count
      rw [here reached, current] at stopped
      cases stopped
    · intro parsed result
      obtain ⟨last, read, rfl⟩ := exists_readText result
      rw [split] at read
      obtain ⟨s, s', reached, added, rest⟩ := readLines_through read
      obtain ⟨r, current, place⟩ := current_of_begun reached count
      rw [here reached, current] at added
      cases added
      obtain ⟨headers, assertions, body, there⟩ := (kept_of_readLines rest).current r rfl
      obtain ⟨earlier, later, text⟩ := bodyText_of_visible (isBlankLine_stripRight nonempty) s.body body
      rw [List.append_assoc, List.singleton_append, text, place] at there
      exact ⟨_, earlier, later, there, rfl⟩

/-- A bare method at the start of a file, and one behind a request, a separator, a directive and a variable. -/
theorem bare_method_both :
    let rest := ["GET https://a", "", "###", "# @name b", "@v = 1"].map String.toList
    let raw := "  POST\t".toList
    (∃ failed, parse [] "POST\n" = .error failed) ∧
    parse [] "POST\n" = .error ⟨.malformed 1 (.strayContent "POST"), []⟩ ∧
    lines (fileText (rest ++ [raw])).toList = rest ++ raw :: [] ∧
    ∃ parsed r earlier later, parse [] (fileText (rest ++ [raw])) = .ok parsed ∧
      parsed.requests[0]? = some r ∧
      r.body = some ("\n".intercalate (earlier ++ "  POST" :: later)) := by
  intro rest raw
  let get : Request :=
    ⟨"GET", "https://a", none, [], some "  POST", [], [], none, none, none, none, none⟩
  have listed : "POST" ∈ methods := by decide
  have first : strip "POST".toList = "POST".toList := by decide +kernel
  have only : lines "POST\n".toList = [] ++ "POST".toList :: [] := by decide +kernel
  obtain ⟨alone', -⟩ := bare_method [] only (not_scriptLine (by decide +kernel)) listed first
  obtain ⟨fails, refused⟩ := alone' rfl
  have unbroken : ∀ line ∈ rest ++ [raw], Unbroken line := by decide +kernel
  have split : lines (fileText (rest ++ [raw])).toList = rest ++ raw :: [] := lines_fileText unbroken
  have alone : strip raw = "POST".toList := by decide +kernel
  have read : parse [] (fileText (rest ++ [raw])) = .ok ⟨[get], [.directivesIgnored]⟩ := by
    rw [parse, readText, split]
    decide +kernel
  obtain ⟨-, behind⟩ := bare_method [] split (not_scriptLine (by decide +kernel)) listed alone
  obtain ⟨-, kept⟩ := behind 0 (by decide +kernel)
  obtain ⟨r, earlier, later, there, body⟩ := kept _ read
  have line : String.ofList (stripRight raw) = "  POST" := by decide +kernel
  rw [line] at body
  exact ⟨fails, refused _ rfl, split, _, r, earlier, later, read, there, body⟩

/-- A method alone behind a separator is sent as the body of the request above it. -/
theorem bare_method_accepted : ¬ ∀ (vars : List Variable) (text : String)
    (before after between : List (List Char)) (raw : List Char) (m : String),
      lines text.toList = before ++ "###".toList :: between ++ raw :: after →
      ¬ ScriptLine (before ++ "###".toList :: between) raw → m ∈ methods → strip raw = m.toList →
      (∀ x ∈ between, strip x = [] ∨ isComment (strip x) = true ∨ (strip x).head? = some '@') →
      ∃ failed, parse vars text = .error failed := by
  intro claim
  let get : Request :=
    ⟨"GET", "https://a", none, [], some "GET", [], [], none, none, none, none, none⟩
  obtain ⟨failed, refused⟩ := claim [] "GET https://a\n\n###\nGET\n" ["GET https://a".toList, []] [] []
    "GET".toList "GET" (by decide +kernel) (not_scriptLine (by decide +kernel)) (by decide) (by decide +kernel)
    (List.forall_mem_nil _)
  have read : parse [] "GET https://a\n\n###\nGET\n" = .ok ⟨[get], []⟩ := by decide +kernel
  rw [read] at refused
  cases refused

end DotHttp.RequestFile
