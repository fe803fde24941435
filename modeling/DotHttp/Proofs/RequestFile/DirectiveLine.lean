import DotHttp.Proofs.RequestFile.Written

/-!
The texts that are directives: an at sign, by itself or in a comment, one of the words, and a value
that a colon may precede. A text by itself that reads as a definition is one instead.
-/

namespace DotHttp.RequestFile

open DotHttp.Text

/-- What the word of a directive is made of. -/
def inWord (c : Char) : Bool :=
  isWord c || c = '-'

/-- The value that a text behind the word of a directive holds. -/
inductive Holds : List Char → List Char → Prop
  | colon {between behind : List Char} (blank : Blank between) :
      Holds (between ++ ':' :: behind) (strip behind)
  | plain {rest : List Char}
      (none : ∀ between behind, Blank between → rest ≠ between ++ ':' :: behind) :
      Holds rest (strip rest)

/-- The marks of a comment. -/
def Marks (marks : List Char) : Prop :=
  marks = ['/', '/'] ∨ (marks ≠ [] ∧ ∀ c ∈ marks, c = '#')

/-- What stands before the at sign of a directive. -/
inductive Lead (s : List Char) : List Char → Prop
  | bare (undefined : definition? s = none) : Lead s []
  | comment {marks between : List Char} (comment : Marks marks) (blank : Blank between) :
      Lead s (marks ++ between)

/-- A text that is a directive. -/
structure IsDirective (s : List Char) (keyword : Keyword) (word value : String) : Prop where
  known : (word, keyword) ∈ keywords
  written : ∃ lead rest, s = lead ++ '@' :: (word.toList ++ rest) ∧ Lead s lead ∧
    (∀ c ∈ rest.head?, inWord c = false) ∧ Holds rest value.toList

variable {s t word value : List Char} {keyword : Keyword}

theorem stripLeft_append (h : Blank s) (t : List Char) : stripLeft (s ++ t) = stripLeft t :=
  List.dropWhile_append_of_pos h

theorem exists_stripLeft (s : List Char) : ∃ between, Blank between ∧ s = between ++ stripLeft s :=
  ⟨s.takeWhile isBlank, fun _ => List.mem_takeWhile_imp, List.takeWhile_append_dropWhile.symm⟩

/-- A word ends at the first character that no word is made of. -/
theorem span_word {rest : List Char} (inside : word.all inWord = true)
    (apart : ∀ c ∈ rest.head?, inWord c = false) :
    (word ++ rest).takeWhile inWord = word ∧ (word ++ rest).dropWhile inWord = rest := by
  rw [List.all_eq_true] at inside
  rw [List.takeWhile_append_of_pos inside, List.dropWhile_append_of_pos inside]
  cases rest with
  | nil => simp
  | cons c rest => simp [apart c rfl]

theorem strip_stripLeft (s : List Char) : strip (stripLeft s) = strip s := by
  have twice : stripLeft (stripLeft s) = stripLeft s := List.dropWhile_idempotent _ _
  rw [strip, twice, strip]

theorem holds_iff : Holds s value ↔
    strip (match stripLeft s with
      | ':' :: t => t
      | t => t) = value := by
  constructor
  · rintro (@⟨between, behind, blank⟩ | none)
    · have colon : stripLeft (between ++ ':' :: behind) = ':' :: behind := by
        rw [stripLeft_append blank, stripLeft_cons (by decide)]
      simp only [colon]
    · split
      · next t behind =>
        obtain ⟨between, blank, parts⟩ := exists_stripLeft s
        exact (none between t blank (behind ▸ parts)).elim
      · exact strip_stripLeft s
  · rintro rfl
    obtain ⟨between, blank, parts⟩ := exists_stripLeft s
    split
    · next t behind =>
      rw [parts, behind]
      exact .colon blank
    · next colon =>
      rw [strip_stripLeft]
      refine .plain ?_
      rintro between behind blank rfl
      rw [stripLeft_append blank, stripLeft_cons (by decide)] at colon
      exact colon behind rfl

theorem directive?_cons (c : Char) (r : List Char) : directive? ('@' :: c :: r) =
    if isLatin c then
      some (c :: r.takeWhile inWord, strip (match stripLeft (r.dropWhile inWord) with
        | ':' :: t => t
        | t => t))
    else none := rfl

theorem directive?_eq_some_iff (known : (String.ofList word, keyword) ∈ keywords) :
    directive? s = some (word, value) ↔
      ∃ rest, s = '@' :: (word ++ rest) ∧ (∀ c ∈ rest.head?, inWord c = false) ∧
        Holds rest value := by
  obtain ⟨c, r, spelling, latin, inside, -⟩ := keyword_spelling _ known
  rw [String.toList_ofList] at spelling
  subst spelling
  constructor
  · intro read
    unfold directive? at read
    split at read
    · next c' r' =>
      split at read
      · cases read
        refine ⟨r'.dropWhile inWord, ?_, ?_, holds_iff.2 rfl⟩
        · rw [List.cons_append]
          exact congrArg ('@' :: c :: ·) List.takeWhile_append_dropWhile.symm
        · intro d hd
          have stop := List.head?_dropWhile_not inWord r'
          rw [Option.mem_def.1 hd] at stop
          simpa using stop
      · cases read
    · cases read
  · rintro ⟨rest, rfl, apart, holds⟩
    obtain ⟨taken, dropped⟩ := span_word inside apart
    rw [List.cons_append, directive?_cons, if_pos latin, taken, dropped, holds_iff.1 holds]

theorem dropWhile_marks {marks : List Char} (comment : ∀ c ∈ marks, c = '#')
    (h : ∀ c ∈ s.head?, c ≠ '#') : (marks ++ s).dropWhile (· = '#') = s := by
  rw [List.dropWhile_append_of_pos fun c hc => decide_eq_true (comment c hc)]
  cases s with
  | nil => rfl
  | cons c s => exact List.dropWhile_cons_of_neg (by simpa using h c rfl)

theorem commentDirective?_eq_some_iff : commentDirective? s = some t ↔
    ∃ marks between, s = marks ++ between ++ t ∧ Marks marks ∧ Blank between ∧
      t.head? = some '@' := by
  unfold commentDirective?
  rw [Option.bind_eq_some_iff]
  constructor
  · rintro ⟨r, body, signed⟩
    obtain ⟨between, blank, parts⟩ := exists_stripLeft r
    split at signed
    · next t sign =>
      cases signed
      rw [sign] at parts
      split at body
      · next r' =>
        cases body
        refine ⟨'#' :: r'.takeWhile (· = '#'), between, ?_, .inr ⟨by simp, ?_⟩, blank, rfl⟩
        · rw [List.append_assoc, ← parts, List.cons_append, List.takeWhile_append_dropWhile]
        · rintro c (_ | ⟨_, hc⟩)
          · rfl
          · simpa using List.mem_takeWhile_imp hc
      · cases body
        exact ⟨['/', '/'], between, by rw [List.append_assoc, ← parts]; rfl, .inl rfl, blank, rfl⟩
      · cases body
    · cases signed
  · rintro ⟨marks, between, rfl, comment, blank, first⟩
    obtain ⟨t, rfl⟩ := List.head?_eq_some_iff.1 first
    have sign : stripLeft (between ++ '@' :: t) = '@' :: t := by
      rw [stripLeft_append blank, stripLeft_cons (by decide)]
    refine ⟨between ++ '@' :: t, ?_, by simp only [sign]⟩
    rcases comment with rfl | ⟨nonempty, comment⟩
    · rfl
    · obtain ⟨c, marks, rfl⟩ := List.exists_cons_of_ne_nil nonempty
      obtain ⟨rfl, rest⟩ := List.forall_mem_cons.1 comment
      have apart : ∀ c ∈ (between ++ '@' :: t).head?, c ≠ '#' := by
        cases between with
        | nil =>
          rintro c ⟨⟩
          decide
        | cons d between =>
          rintro c ⟨⟩ rfl
          cases blank _ List.mem_cons_self
      rw [List.append_assoc]
      exact congrArg some (dropWhile_marks rest apart)

theorem isComment_of_commentDirective? (h : commentDirective? s = some t) : isComment s = true := by
  obtain ⟨r, body, -⟩ := Option.bind_eq_some_iff.1 h
  split at body
  · rfl
  · rfl
  · cases body

theorem mem_keywords_iff {word : String} :
    (word, keyword) ∈ keywords ↔ Keyword.ofWord? word = some keyword := by
  constructor
  · intro known
    obtain ⟨-, -, -, -, -, found⟩ := keyword_spelling _ known
    exact found
  · intro found
    obtain ⟨before, after, parts, -⟩ := List.lookup_eq_some_iff.1 found
    rw [parts]
    exact List.mem_append_right _ List.mem_cons_self

/-- What is read from the at sign on is a directive if that may stand where it does. -/
theorem isDirective_of_directive? {lead : List Char} (before : Lead s lead) (split : s = lead ++ t)
    (read : directive? t = some (word, value))
    (found : Keyword.ofWord? (String.ofList word) = some keyword) :
    IsDirective s keyword (String.ofList word) (String.ofList value) := by
  have known := mem_keywords_iff.2 found
  obtain ⟨rest, rfl, apart, holds⟩ := (directive?_eq_some_iff known).1 read
  refine ⟨known, lead, rest, ?_, before, apart, ?_⟩
  · rw [String.toList_ofList, split]
  · rwa [String.toList_ofList]

/-- A line is taken for a directive just if its text is one. -/
theorem ofText_eq_directive_iff {word value : String} :
    Line.ofText s = .directive keyword word value ↔ IsDirective s keyword word value := by
  constructor
  · intro kind
    -- Only two branches give a directive: that of comments, and that of an at sign without a
    -- definition behind it.
    unfold Line.ofText at kind
    split at kind
    · cases kind
    split at kind
    · split at kind
      · next w v read =>
        split at kind
        · next k found =>
          cases kind
          obtain ⟨t, signed, worded⟩ := Option.bind_eq_some_iff.1 read
          obtain ⟨marks, between, split, comment, blank, -⟩ := commentDirective?_eq_some_iff.1 signed
          exact isDirective_of_directive? (.comment comment blank) split worded found
        · cases kind
      · cases kind
    split at kind
    · split at kind
      · cases kind
      · next undefined =>
        split at kind
        · cases kind
        · next w v read =>
          split at kind
          · next k found =>
            cases kind
            exact isDirective_of_directive? (.bare undefined) rfl read found
          · cases kind
    · split at kind
      · cases kind
      · split at kind <;> cases kind
  · rintro ⟨known, lead, rest, written, before, apart, holds⟩
    have read : directive? ('@' :: (word.toList ++ rest)) = some (word.toList, value.toList) :=
      (directive?_eq_some_iff (by rwa [String.ofList_toList])).2 ⟨rest, rfl, apart, holds⟩
    have found := mem_keywords_iff.1 known
    cases before with
    | bare undefined =>
      rw [List.nil_append] at written
      subst written
      rw [Line.ofText, if_neg (by simp), if_neg (by simp [isComment]), List.head?_cons,
        if_pos rfl, undefined, read]
      simp only [String.ofList_toList, found]
    | @comment marks between comment blank =>
      have signed : commentDirective? s = some ('@' :: (word.toList ++ rest)) :=
        commentDirective?_eq_some_iff.2 ⟨marks, between, written, comment, blank, rfl⟩
      have marked := isComment_of_commentDirective? signed
      rw [Line.ofText, if_neg (by simp [written]), if_pos marked, signed, Option.bind_some, read]
      simp only [String.ofList_toList, found]

end DotHttp.RequestFile
