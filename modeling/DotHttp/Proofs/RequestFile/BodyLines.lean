import DotHttp.Proofs.RequestFile.BareMethod
import DotHttp.Proofs.RequestFile.RequestLine

/-!
The lines of a body. A text is cut at every line boundary and a body is put together with line feeds, so a
line of it is kept just if it has no boundary of another kind.
-/

namespace DotHttp.RequestFile

open DotHttp.Text

variable {vars : List Variable} {text : String} {r : Request} {s s' : State} {number : Nat}
  {line piece request t : List Char} {ls : List (List Char)}

/-- The beginnings of lines that are no text of a body. -/
def marks : List String := ["#", "//", "@", ">", "EXPECTED_RESPONSE_"]

/-- The words that a request line is told by. -/
def requestWords : List String := "HTTP/" :: methods

theorem compact_requestWords : ∀ word ∈ requestWords, Compact word.toList := by
  decide +kernel

/-- A line that is text of a body, if it is read as one line. -/
structure BodyText (line : List Char) : Prop where
  newline : '\n' ∉ line
  carriage : '\r' ∉ line
  visible : strip line ≠ []
  free : Placeholder.Free line
  starts : ∀ start ∈ marks, ¬ start.toList <+: strip line
  words : ∀ word ∈ requestWords, ¬ word.toList <:+: strip line

/-- What a line of a file is cut into. -/
def pieces (line : List Char) : List (List Char) := lines (line ++ ['\n'])

theorem lines_fileText_flatMap (h : ∀ line ∈ ls, '\r' ∉ line) :
    lines (fileText ls).toList = ls.flatMap pieces := by
  rw [fileText, String.toList_ofList]
  induction ls with
  | nil => exact lines_nil
  | cons line rest ih =>
    obtain ⟨first, rest⟩ := List.forall_mem_cons.1 h
    rw [List.flatMap_cons, List.append_assoc, List.singleton_append, lines_append_break first, ih rest]
    rfl

theorem infix_of_mem_pieces (h : piece ∈ pieces line) : piece <:+: line := by
  obtain ⟨between, blank, cut⟩ := lines_append_newline line []
  rw [pieces, cut, lines_nil, List.append_nil, List.mem_append] at h
  rcases h with among | last
  · exact infix_of_mem_lines among
  · rcases blank with rfl | rfl
    · cases last
    · rw [List.mem_singleton.1 last]
      exact List.nil_infix

/-- In the first request, with lines in its body each of which is a line of a text. -/
structure Lined (s : State) : Prop where
  first : s.requests = []
  current : s.current.isSome
  body : ∀ line ∈ s.body, Unbroken line.toList

theorem not_isRequestLine (h : ∀ word ∈ requestWords, ¬ word.toList <:+: t) : isRequestLine t = false := by
  rw [isRequestLine, Bool.or_eq_false_iff]
  constructor
  · rw [← Bool.not_eq_true, occursIn_iff]
    exact h "HTTP/" List.mem_cons_self
  · rw [List.any_eq_false]
    intro method known start
    have begins := List.isPrefixOf_iff_prefix.1 start
    exact h method (List.mem_cons_of_mem _ known) ((List.prefix_append _ _).trans begins).isInfix

theorem Lined.skipLine (h : Lined s) : Lined s.skipLine := by
  unfold State.skipLine
  split
  · refine ⟨h.first, h.current, ?_⟩
    intro line among
    rcases List.mem_append.1 among with held | blank
    · exact h.body line held
    · rw [List.mem_singleton.1 blank]
      exact List.forall_mem_nil _
  · split
    · exact ⟨h.first, h.current, h.body⟩
    · exact h

/-- A line without placeholders that is no request line leaves lines of a text in the body. -/
theorem Lined.readLine (h : Lined s) (read : s.readLine number piece = .ok s') (unbroken : Unbroken piece)
    (free : Placeholder.Free piece) (words : ∀ word ∈ requestWords, ¬ word.toList <:+: piece) : Lined s' := by
  cases course_of_readLine read with
  | script => exact ⟨h.first, h.current, h.body⟩
  | blank => exact h.skipLine
  | comment => exact h
  | ignored => exact h
  | effect outside effect =>
    cases effect with
    | defines => exact ⟨h.first, h.current, h.body⟩
    | directs => exact ⟨h.first, h.current, h.body⟩
    | asserts => exact ⟨h.first, rfl, h.body⟩
    | begins kind =>
      obtain ⟨rfl, line⟩ := text_of_request kind
      rw [not_isRequestLine fun word known within => words word known (within.trans (strip_inside piece))]
        at line
      cases line
    | header => exact ⟨h.first, rfl, h.body⟩
    | body kind current =>
      refine ⟨h.first, h.current, ?_⟩
      have part : stripRight piece <+: piece := List.rdropWhile_prefix isBlank piece
      have plain : Placeholder.Free (String.ofList (stripRight piece)).toList := by
        rw [String.toList_ofList]
        exact free.of_infix part.isInfix
      intro line among
      rcases List.mem_append.1 among with held | added
      · exact h.body line held
      · rw [List.mem_singleton.1 added, State.expand, Placeholder.expand_of_free plain, String.toList_ofList]
        exact fun c inside => unbroken c (part.subset inside)

theorem Lined.readLines (h : Lined s) (read : readLines number s ls = .ok s')
    (each : ∀ piece ∈ ls, Unbroken piece ∧ Placeholder.Free piece ∧
      ∀ word ∈ requestWords, ¬ word.toList <:+: piece) : Lined s' := by
  induction ls generalizing number s with
  | nil =>
    cases read
    exact h
  | cons piece rest ih =>
    obtain ⟨⟨unbroken, free, words⟩, later⟩ := List.forall_mem_cons.1 each
    simp only [RequestFile.readLines] at read
    cases first : s.readLine number piece with rw [first] at read
    | error e => cases read
    | ok s₁ => exact ih (h.readLine first unbroken free words) read later

/-- The lines of a body are what is left of those that were read. -/
theorem lines_of_bodyText {lines : List String} {written : String} (h : State.bodyText lines = some written) :
    ∃ kept, kept ≠ [] ∧ (∀ line ∈ kept, line ∈ lines) ∧ written = "\n".intercalate kept := by
  unfold State.bodyText at h
  split at h
  · cases h
  · next kept nonempty =>
    cases h
    refine ⟨_, nonempty, ?_, rfl⟩
    intro line among
    have left := (List.dropWhile_suffix _).subset among
    exact (List.rdropWhile_prefix State.isBlankLine lines).subset left

theorem intercalate_injective {xs ys : List String} (hx : xs ≠ []) (hy : ys ≠ [])
    (apart : ∀ line ∈ xs, '\n' ∉ line.toList) (apart' : ∀ line ∈ ys, '\n' ∉ line.toList)
    (same : "\n".intercalate xs = "\n".intercalate ys) : xs = ys := by
  have written (zs : List String) :
      "\n".intercalate zs = String.ofList (joinWith ['\n'] (zs.map String.toList)) := by
    rw [← intercalate_ofList, List.map_map]
    simp
  rw [written, written, String.ofList_inj] at same
  have equal := joinWith_injective (by simpa using hx) (by simpa using hy) (by simpa using apart)
    (by simpa using apart') same
  exact List.map_injective_iff.2 (fun _ _ => String.toList_inj.1) equal

/-- A line without boundaries before the white space at its end is cut there at most. -/
theorem pieces_of_unbroken (visible : strip line ≠ []) (unbroken : Unbroken (stripRight line)) :
    ∃ first more, pieces line = first :: more ∧ stripRight first = stripRight line ∧
      ∀ piece ∈ more, Blank piece := by
  obtain ⟨rest, parts, blank⟩ : ∃ rest, line = stripRight line ++ rest ∧ Blank rest :=
    ⟨_, (List.rdropWhile_append_rtakeWhile ..).symm, fun _ => List.mem_rtakeWhile_imp⟩
  have each : ∀ piece ∈ lines (rest ++ ['\n']), Blank piece := by
    intro piece among c inside
    have within := (infix_of_mem_lines among).subset inside
    rcases List.mem_append.1 within with there | last
    · exact blank c there
    · rw [List.mem_singleton.1 last]
      rfl
  have cut : pieces line = (stripRight line ++ (lines (rest ++ ['\n'])).headD []) ::
      (lines (rest ++ ['\n'])).tail := by
    calc
      pieces line = lines (stripRight line ++ (rest ++ ['\n'])) := by
        rw [pieces, ← List.append_assoc, ← parts]
      _ = _ := lines_append_of_unbroken unbroken (stripRight_ne_nil visible) _
  refine ⟨_, _, cut, ?_, fun piece among => each piece (List.mem_of_mem_tail among)⟩
  have head : Blank ((lines (rest ++ ['\n'])).headD []) := by
    cases split : lines (rest ++ ['\n']) with
    | nil => exact List.forall_mem_nil _
    | cons first more => exact each first (split ▸ List.mem_cons_self)
  rw [stripRight_append_blank head]
  exact List.rdropWhile_idempotent _ _

theorem BodyText.plain (h : BodyText line) (unbroken : Unbroken piece) (same : strip piece = strip line) :
    Plain piece where
  unbroken := unbroken
  visible := same ▸ h.visible
  starts := by
    intro start known
    rw [same]
    rcases List.mem_append.1 known with mark | method
    · have covered : ∀ start ∈ ["#".toList, "//".toList, "@".toList, "> \x7b%".toList],
          ∃ mark ∈ marks, mark.toList <+: start := by
        decide +kernel
      obtain ⟨mark, listed, begins⟩ := covered start mark
      exact fun here => h.starts mark listed (begins.trans here)
    · obtain ⟨m, listed, rfl⟩ := List.mem_map.1 method
      exact fun here => h.words m (List.mem_cons_of_mem _ listed) ((List.prefix_append _ _).trans here).isInfix
  version := same ▸ h.words "HTTP/" List.mem_cons_self
  keywords := by
    have covered : ∀ entry ∈ assertionWords, ∀ lead ∈ leads,
        ∃ mark ∈ marks, mark.toList <+: lead ++ entry.1.toList := by
      decide +kernel
    intro entry word lead known
    obtain ⟨mark, listed, begins⟩ := covered entry word lead known
    rw [same]
    constructor
    · intro alone
      exact h.starts mark listed (alone ▸ begins)
    · intro followed
      exact h.starts mark listed (begins.trans ((List.prefix_append _ _).trans followed))

/-- In the body of the first request, with some lines of it. -/
structure Within (r : Request) (body : List String) (s : State) : Prop where
  outside : s.inScript = false
  first : s.requests = []
  current : s.current = some r
  inBody : s.inBody = true
  body : s.body = body

theorem reads_plain (plain : Plain piece) (free : Placeholder.Free piece) (held : List String) :
    Reads (Within r held) [piece] (Within r (held ++ [String.ofList (stripRight piece)])) := by
  apply Reads.single
  intro s line here
  obtain ⟨script, kind⟩ := plain.kind
  have part : stripRight piece <+: piece := List.rdropWhile_prefix isBlank piece
  have same : Placeholder.Free (String.ofList (stripRight piece)).toList := by
    rw [String.toList_ofList]
    exact free.of_infix part.isInfix
  refine ⟨{ s with inBody := true, body := s.body ++ [String.ofList (stripRight piece)] }, ?_, ?_⟩
  · rw [readLine_of_kind here.outside script kind]
    simp [State.heed, State.addContent, here.current, here.inBody, State.expand,
      Placeholder.expand_of_free same]
  · exact { here with inBody := rfl, body := by rw [here.body] }

theorem reads_blankLine (blank : Blank piece) (held : List String) :
    Reads (Within r held) [piece] (Within r (held ++ [""])) := by
  apply Reads.single
  intro s line here
  have kind : Line.ofText (strip piece) = .blank := by
    rw [strip_of_blank blank]
    rfl
  have script : opensScript (strip piece) = false := by
    rw [strip_of_blank blank]
    rfl
  refine ⟨{ s with body := s.body ++ [""] }, ?_, ?_⟩
  · rw [readLine_of_kind here.outside script kind]
    simp [State.heed, State.skipLine, here.inBody]
  · exact { here with body := by rw [here.body] }

theorem reads_blankLines (blank : ∀ piece ∈ ls, Blank piece) (held : List String) :
    Reads (Within r held) ls (Within r (held ++ ls.map fun _ => "")) := by
  induction ls generalizing held with
  | nil =>
    rw [List.map_nil, List.append_nil]
    exact .nil fun _ here => here
  | cons piece rest ih =>
    obtain ⟨first, later⟩ := List.forall_mem_cons.1 blank
    rw [List.map_cons, List.append_cons]
    exact (reads_blankLine first held).cons (ih later _)

/-- What a line that is cut in its last white space at most adds to a body. -/
def bodyPieces (line : List Char) : List String :=
  String.ofList (stripRight line) :: (pieces line).tail.map fun _ => ""

theorem BodyText.reads (h : BodyText line) (unbroken : Unbroken (stripRight line)) (held : List String) :
    Reads (Within r held) (pieces line) (Within r (held ++ bodyPieces line)) := by
  obtain ⟨first, more, cut, same, blank⟩ := pieces_of_unbroken h.visible unbroken
  have among : first ∈ pieces line := cut ▸ List.mem_cons_self
  have stripped : strip first = strip line := by
    rw [← stripLeft_stripRight, same, stripLeft_stripRight]
  have plain := h.plain (unbroken_of_mem_lines among) stripped
  have begin := reads_plain (r := r) plain (h.free.of_infix (infix_of_mem_pieces among)) held
  rw [bodyPieces, cut, List.append_cons, ← same]
  exact begin.cons (reads_blankLines blank _)

theorem reads_bodyTexts (fit : ∀ line ∈ ls, BodyText line)
    (unbroken : ∀ line ∈ ls, Unbroken (stripRight line))
    (held : List String) :
    Reads (Within r held) (ls.flatMap pieces) (Within r (held ++ ls.flatMap bodyPieces)) := by
  induction ls generalizing held with
  | nil =>
    rw [List.flatMap_nil, List.flatMap_nil, List.append_nil]
    exact .nil fun _ here => here
  | cons line rest ih =>
    obtain ⟨first, fit⟩ := List.forall_mem_cons.1 fit
    obtain ⟨plain, unbroken⟩ := List.forall_mem_cons.1 unbroken
    rw [List.flatMap_cons, List.flatMap_cons, ← List.append_assoc]
    exact (first.reads plain held).append (ih fit unbroken _)

/-- A line that is a request when read alone begins the first request of a file. -/
theorem reads_request (unbroken : Unbroken request)
    (begun : (parse vars (String.ofList request)).map (·.requests) = .ok [r]) :
    Reads (· = State.start vars) [request, []] (Within r []) := by
  have nonempty : request ≠ [] := by
    rintro rfl
    cases begun
  have only : lines (String.ofList request).toList = [request] := by
    have cut := lines_append_of_unbroken unbroken nonempty []
    rw [List.append_nil, lines_nil, List.headD_nil, List.append_nil, List.tail_nil] at cut
    rw [String.toList_ofList, cut]
  rw [parse, readText, only, readLines] at begun
  cases read : (State.start vars).readLine 1 request with rw [read] at begun
  | error e => cases begun
  | ok s =>
    have finished : s.finish.requests = [r] := Except.ok.inj begun
    cases course_of_readLine read with
    | script | blank | comment | ignored => cases finished
    | effect outside effect =>
      cases effect with
      | defines | directs => cases finished
      | asserts kind current | header kind current | body kind current => cases current
      | begins kind =>
        rw [Bool.or_eq_false_iff] at outside
        have heeded (line : Nat) :
            (State.start vars).readLine line request = (State.start vars).beginRequest line _ :=
          readLine_of_kind rfl outside.1 kind line
        rw [heeded] at read
        obtain ⟨method, url, target, same⟩ := beginRequest_eq_ok_iff.1 read
        subst same
        cases finished
        intro s line here
        have again : s.readLine line request =
            .ok ((State.start vars).begins line method ((State.start vars).expand url)) := by
          rw [here, heeded]
          exact beginRequest_eq_ok_iff.2 ⟨method, url, target, rfl⟩
        refine ⟨((State.start vars).begins line method ((State.start vars).expand url)).skipLine, ?_,
          ⟨rfl, rfl, rfl, rfl, rfl⟩⟩
        simp only [readLines, again]
        rw [readLine_nil]
        rfl

theorem BodyText.newline_kept (h : BodyText line) : '\n' ∉ (String.ofList (stripRight line)).toList := by
  rw [String.toList_ofList]
  intro inside
  exact h.newline ((List.rdropWhile_prefix isBlank line).subset inside)

theorem BodyText.newline_pieces (h : BodyText line) : ∀ x ∈ bodyPieces line, '\n' ∉ x.toList := by
  intro x among
  rcases List.mem_cons.1 among with rfl | gap
  · exact h.newline_kept
  · obtain ⟨_, -, rfl⟩ := List.mem_map.1 gap
    exact List.not_mem_nil

/-- Blank lines at the end of a body that begins with a visible line are dropped. -/
theorem bodyText_of_ends {xs blanks : List String} {x : String}
    (first : ∀ y ∈ (xs ++ [x]).head?, State.isBlankLine y = false) (last : State.isBlankLine x = false)
    (blank : ∀ y ∈ blanks, State.isBlankLine y = true) :
    State.bodyText (xs ++ x :: blanks) = some ("\n".intercalate (xs ++ [x])) := by
  have right : ((xs ++ x :: blanks).reverse.dropWhile State.isBlankLine).reverse = xs ++ [x] := by
    have dropped : blanks.reverse.dropWhile State.isBlankLine = [] := by
      rw [List.dropWhile_eq_nil_iff]
      intro y among
      exact blank y (List.mem_reverse.1 among)
    rw [List.reverse_append, List.reverse_cons, List.append_assoc, List.singleton_append,
      dropWhile_append_cons last, dropped]
    simp
  have left : (xs ++ [x]).dropWhile State.isBlankLine = xs ++ [x] := by
    obtain ⟨y, ys, parts⟩ :=
      List.exists_cons_of_ne_nil (List.append_ne_nil_of_right_ne_nil xs (List.cons_ne_nil x []))
    rw [parts] at first ⊢
    exact List.dropWhile_cons_of_neg (Bool.eq_false_iff.1 (first y rfl))
  rw [State.bodyText, right, left]
  split
  · next none => simp at none
  · rfl

theorem tail_pieces_iff (carriage : '\r' ∉ line) : (pieces line).tail = [] ↔ Unbroken line :=
  tail_lines_break_iff carriage

/-- A gap between two lines of a body makes it another body. -/
theorem flatMap_bodyPieces_eq_iff (fit : ∀ line ∈ ls, BodyText line) :
    ls.flatMap bodyPieces = ls.map (fun line => String.ofList (stripRight line)) ↔
      ∀ line ∈ ls, Unbroken line := by
  induction ls with
  | nil => simp
  | cons line rest ih =>
    obtain ⟨first, fit⟩ := List.forall_mem_cons.1 fit
    rw [List.forall_mem_cons, ← ih fit, ← tail_pieces_iff first.carriage, List.flatMap_cons,
      List.map_cons, bodyPieces, List.cons_append, List.cons_eq_cons, and_iff_right rfl]
    cases cut : (pieces line).tail with
    | nil => simp
    | cons gap gaps =>
      refine iff_of_false ?_ (fun both => List.cons_ne_nil gap gaps both.1)
      intro same
      cases rest with
      | nil => cases same
      | cons next rest =>
        rw [List.map_cons, List.cons_append, List.map_cons] at same
        obtain ⟨empty, -⟩ := List.cons.inj same
        have visible := isBlankLine_stripRight (fit next List.mem_cons_self).visible
        rw [← empty] at visible
        cases visible

theorem lines_request (unbroken : Unbroken request) (fit : ∀ line ∈ ls, BodyText line) :
    lines (fileText (request :: [] :: ls)).toList = [request, []] ++ ls.flatMap pieces := by
  have single : ∀ line ∈ request :: [] :: ls, '\r' ∉ line := by
    intro line among
    rcases List.mem_cons.1 among with rfl | among
    · intro carriage
      cases unbroken _ carriage
    · rcases List.mem_cons.1 among with rfl | among
      · exact List.not_mem_nil
      · exact (fit line among).carriage
  have first : pieces request = [request] := by
    rw [pieces, lines_of_plain unbroken, lines_nil]
  rw [lines_fileText_flatMap single, List.flatMap_cons, List.flatMap_cons, first]
  rfl

/-- If no line of the body has a boundary before the white space at its end, the body is what is left of
each line, with an empty line for each boundary there. -/
theorem parse_bodyTexts (unbroken : Unbroken request)
    (begun : (parse vars (String.ofList request)).map (·.requests) = .ok [r])
    (fit : ∀ line ∈ ls, BodyText line) (plain : ∀ line ∈ ls, Unbroken (stripRight line)) :
    (parse vars (fileText (request :: [] :: ls))).map (·.requests) =
      .ok [{ r with body := State.bodyText (ls.flatMap bodyPieces) }] := by
  obtain ⟨s, read, within⟩ :=
    ((reads_request unbroken begun).append (reads_bodyTexts fit plain [])) _ 1 rfl
  have finished : s.finish.requests = [{ r with body := State.bodyText (ls.flatMap bodyPieces) }] := by
    rw [State.finish_requests, within.current, within.first, within.body]
    rfl
  rw [parse, readText, lines_request unbroken fit, read]
  exact congrArg Except.ok finished

/-- A body has no line with a boundary in it, so the lines that it is written in had none either. -/
theorem unbroken_of_kept (unbroken : Unbroken request)
    (begun : (parse vars (String.ofList request)).map (·.requests) = .ok [r])
    (nonempty : ls ≠ []) (fit : ∀ line ∈ ls, BodyText line)
    (kept : (parse vars (fileText (request :: [] :: ls))).map (·.requests) = .ok [{ r with
      body := some ("\n".intercalate (ls.map fun line => String.ofList (stripRight line))) }]) :
    ∀ line ∈ ls, Unbroken (stripRight line) := by
  obtain ⟨s, opened, within⟩ := reads_request unbroken begun _ 1 rfl
  have start : Lined s := by
    refine ⟨within.first, ?_, ?_⟩
    · rw [within.current]
      rfl
    · rw [within.body]
      exact List.forall_mem_nil _
  rw [parse, readText, lines_request unbroken fit, readLines_append, opened] at kept
  dsimp only at kept
  cases read : readLines (1 + [request, []].length) s (ls.flatMap pieces) with rw [read] at kept
  | error e => cases kept
  | ok s' =>
    have finished := Except.ok.inj kept
    have lined : Lined s' := by
      apply start.readLines read
      intro piece among
      obtain ⟨line, there, among⟩ := List.mem_flatMap.1 among
      have within := infix_of_mem_pieces among
      refine ⟨unbroken_of_mem_lines among, (fit line there).free.of_infix within, ?_⟩
      intro word known inside
      exact (fit line there).words word known
        (infix_strip (compact_requestWords word known) (inside.trans within))
    obtain ⟨q, current⟩ := Option.isSome_iff_exists.1 lined.current
    have written : State.bodyText s'.body =
        some ("\n".intercalate (ls.map fun line => String.ofList (stripRight line))) := by
      have one : s'.finish.requests = [{ q with body := State.bodyText s'.body }] := by
        rw [State.finish_requests, current, lined.first]
        rfl
      exact congrArg Request.body (List.cons.inj (one.symm.trans finished)).1
    obtain ⟨found, some, among, same⟩ := lines_of_bodyText written
    have newline {t : List Char} (h : Unbroken t) : '\n' ∉ t := by
      intro inside
      cases h _ inside
    have equal := intercalate_injective (by simpa using nonempty) some
      (List.forall_mem_map.2 fun line there => (fit line there).newline_kept)
      (fun x here => newline (lined.body x (among x here))) same
    intro line there
    have held := lined.body _ (among _ (equal ▸ List.mem_map_of_mem there))
    rwa [String.toList_ofList] at held

variable {init : List (List Char)} {last : List Char}

theorem bodyText_bodyPieces (fit : ∀ line ∈ init ++ [last], BodyText line) :
    State.bodyText ((init ++ [last]).flatMap bodyPieces) = some ("\n".intercalate
      (init.flatMap bodyPieces ++ [String.ofList (stripRight last)])) := by
  have ending := isBlankLine_stripRight (fit last List.mem_concat_self).visible
  rw [List.flatMap_append, List.flatMap_singleton]
  apply bodyText_of_ends
  · intro y first
    cases init with
    | nil =>
      cases first
      exact ending
    | cons line rest =>
      cases first
      exact isBlankLine_stripRight (fit line List.mem_cons_self).visible
  · exact ending
  · intro y among
    obtain ⟨gap, -, rfl⟩ := List.mem_map.1 among
    rfl

theorem joined_bodyPieces_iff (fit : ∀ line ∈ init ++ [last], BodyText line) :
    "\n".intercalate (init.flatMap bodyPieces ++ [String.ofList (stripRight last)]) =
        "\n".intercalate ((init ++ [last]).map fun line => String.ofList (stripRight line)) ↔
      ∀ line ∈ init, Unbroken line := by
  obtain ⟨earlier, ending⟩ := List.forall_mem_append.1 fit
  have closing : ∀ x ∈ [String.ofList (stripRight last)], '\n' ∉ x.toList :=
    List.forall_mem_singleton.2 (List.forall_mem_singleton.1 ending).newline_kept
  rw [← flatMap_bodyPieces_eq_iff earlier, List.map_append, List.map_singleton]
  constructor
  · intro same
    have gaps : ∀ x ∈ init.flatMap bodyPieces, '\n' ∉ x.toList :=
      List.forall_mem_flatMap.2 fun line there => (earlier line there).newline_pieces
    have texts : ∀ x ∈ init.map fun line => String.ofList (stripRight line), '\n' ∉ x.toList :=
      List.forall_mem_map.2 fun line there => (earlier line there).newline_kept
    apply List.append_cancel_right
    apply intercalate_injective _ _ _ _ same
    · exact List.append_ne_nil_of_right_ne_nil _ (List.cons_ne_nil _ _)
    · exact List.append_ne_nil_of_right_ne_nil _ (List.cons_ne_nil _ _)
    · exact List.forall_mem_append.2 ⟨gaps, closing⟩
    · exact List.forall_mem_append.2 ⟨texts, closing⟩
  · intro same
    rw [same]

/-- Behind a request line and an empty one, each line of a body is kept up to the white space at its end just
if none of the lines has a boundary in it, the white space at the end of the last one apart. -/
theorem body_kept_iff (unbroken : Unbroken request)
    (begun : (parse vars (String.ofList request)).map (·.requests) = .ok [r])
    (fit : ∀ line ∈ init ++ [last], BodyText line)
    (ht : text = fileText (request :: [] :: (init ++ [last])) ∨
      text ++ "\n" = fileText (request :: [] :: (init ++ [last]))) :
    (parse vars text).map (·.requests) = .ok [{ r with body := some ("\n".intercalate
        ((init ++ [last]).map fun line => String.ofList (stripRight line))) }] ↔
      (∀ line ∈ init, Unbroken line) ∧ Unbroken (stripRight last) := by
  have whole : (parse vars text).map (·.requests) =
      (parse vars (fileText (request :: [] :: (init ++ [last])))).map (·.requests) := by
    rcases ht with rfl | ht
    · rfl
    · rw [← ht, parse_final_newline]
  rw [whole]
  by_cases plain : ∀ line ∈ init ++ [last], Unbroken (stripRight line)
  · rw [and_iff_left (plain last List.mem_concat_self), ← joined_bodyPieces_iff fit,
      parse_bodyTexts unbroken begun fit plain, bodyText_bodyPieces fit]
    constructor
    · intro same
      exact Option.some.inj (congrArg Request.body (List.cons.inj (Except.ok.inj same)).1)
    · intro same
      rw [same]
  · refine iff_of_false ?_ ?_
    · intro kept
      exact plain (unbroken_of_kept unbroken begun (by simp) fit kept)
    · intro ⟨earlier, ending⟩
      apply plain
      intro line among
      rcases List.mem_append.1 among with there | there
      · have part : stripRight line <+: line := List.rdropWhile_prefix isBlank line
        exact fun c inside => earlier line there c (part.subset inside)
      · rwa [List.mem_singleton.1 there]

/-- Lines of a body with white space at both ends, a colon, and characters of other scripts. -/
theorem body_kept_iff_colon :
    let request := "GET https://a".toList
    let init := ["  é: \u00a0b\t".toList]
    let last := "\u0000 \u2028".toList
    let get : Request :=
      ⟨"GET", "https://a", none, [], some "  é: \u00a0b\n\u0000", [], [], none, none, none, none, none⟩
    Unbroken request ∧ (∀ line ∈ init ++ [last], BodyText line) ∧
      (parse [] (fileText (request :: [] :: (init ++ [last])))).map (·.requests) = .ok [get] := by
  intro request init last get
  have unbroken : Unbroken request := by decide +kernel
  have begun : (parse [] (String.ofList request)).map (·.requests) = .ok [{ get with body := none }] := by
    decide +kernel
  have first : BodyText "  é: \u00a0b\t".toList :=
    ⟨by decide, by decide, by decide +kernel, Placeholder.free_of_no_brace (by decide), by decide +kernel,
      by decide +kernel⟩
  have second : BodyText last :=
    ⟨by decide, by decide, by decide +kernel, Placeholder.free_of_no_brace (by decide), by decide +kernel,
      by decide +kernel⟩
  have fit : ∀ line ∈ init ++ [last], BodyText line :=
    List.forall_mem_cons.2 ⟨first, List.forall_mem_singleton.2 second⟩
  exact ⟨unbroken, fit, (body_kept_iff unbroken begun fit (.inl rfl)).2 (by decide +kernel)⟩

/-- A separator of lines within a line of a body comes back as a line feed. -/
theorem body_separator_replaced : ¬ ∀ (vars : List Variable) (text : String) (request : List Char) (r : Request)
    (init : List (List Char)) (last : List Char),
      Unbroken request → (parse vars (String.ofList request)).map (·.requests) = .ok [r] →
      (∀ line ∈ init ++ [last], BodyText line) →
      text = fileText (request :: [] :: (init ++ [last])) ∨
        text ++ "\n" = fileText (request :: [] :: (init ++ [last])) →
      (parse vars text).map (·.requests) = .ok [{ r with body := some ("\n".intercalate
        ((init ++ [last]).map fun line => String.ofList (stripRight line))) }] := by
  intro claim
  let get : Request := ⟨"GET", "https://a", none, [], none, [], [], none, none, none, none, none⟩
  have fit : BodyText "a\u2028b".toList :=
    ⟨by decide, by decide, by decide +kernel, Placeholder.free_of_no_brace (by decide), by decide +kernel,
      by decide +kernel⟩
  have kept := claim [] "GET https://a\n\na\u2028b\n" "GET https://a".toList get [] "a\u2028b".toList
    (by decide +kernel) (by decide +kernel) (List.forall_mem_singleton.2 fit) (.inl (by decide +kernel))
  revert kept
  decide +kernel

end DotHttp.RequestFile
