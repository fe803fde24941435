import DotHttp.Proofs.RequestFile.RequestLine
import DotHttp.Proofs.RequestFile.SpacedLine

/-!
Files with blanks in their placeholders. Headers, bodies, assertions, conditions and definitions are expanded
before anything is cut from them that a blank could matter to, so they come to the same. A request line is cut
into words first: the blanks are ends of words there, and a URL with a spaced placeholder ends within it.
-/

namespace DotHttp.RequestFile

open DotHttp.Text DotHttp.Placeholder
open Variable (expandChars)

variable {vars known : List Variable} {name raw raw' : List Char}
  {ls ls' before before' after after' : List (List Char)}

/-- The method and the URL of a request line, with the variables known there. -/
def Comes (known : List Variable) (raw : List Char) (method url : String) : Prop :=
  ∃ word, Target (words raw) method word ∧ Variable.expand known word = url

def SameTarget (known : List Variable) (raw raw' : List Char) : Prop :=
  ∀ method url, Comes known raw method url ↔ Comes known raw' method url

/-- A line in which the placeholders of a name are found, and are expanded if the line is a directive. -/
structure Found (name : List Char) (known : List Variable) (raw : List Char) : Prop where
  defined : ∃ value, Variable.lookup known (String.ofList name) = some value
  clear : Clear name raw
  expanded : ∀ keyword word value, Line.ofText (strip raw) = .directive keyword word value →
    ∃ negated, keyword = .condition negated

/-- A line of some lines that reads otherwise in others, with the variables known there. -/
def Altered (vars : List Variable) (ls ls' : List (List Char)) (known : List Variable)
    (raw raw' : List Char) : Prop :=
  raw ≠ raw' ∧ ∃ before after before' after', ls = before ++ raw :: after ∧ ls' = before' ++ raw' :: after' ∧
    before.length = before'.length ∧ known = before.foldl learn vars

/-- Lines that are the same or related with the variables known there. -/
inductive Pairs (P : List Variable → List Char → List Char → Prop) :
    List Variable → List (List Char) → List (List Char) → Prop
  | nil (known : List Variable) : Pairs P known [] []
  | cons {known : List Variable} {raw raw' : List Char} {ls ls' : List (List Char)}
      (step : raw = raw' ∨ P known raw raw') (rest : Pairs P (learn known raw) ls ls') :
      Pairs P known (raw :: ls) (raw' :: ls')

variable {P : List Variable → List Char → List Char → Prop}

theorem not_altered_nil : ¬ Altered vars [] ls' known raw raw' := by
  rintro ⟨-, before, after, -, -, split, -⟩
  simp at split

/-- The line that differs is the first one or stands behind it. -/
theorem altered_cons_iff {x x' : List Char} : Altered vars (x :: ls) (x' :: ls') known raw raw' ↔
    (x ≠ x' ∧ known = vars ∧ raw = x ∧ raw' = x') ∨ Altered (learn vars x) ls ls' known raw raw' := by
  constructor
  · rintro ⟨apart, before, after, before', after', split, split', place, rfl⟩
    cases before with
    | nil =>
      cases before' with
      | nil =>
        cases split
        cases split'
        exact .inl ⟨apart, rfl, rfl, rfl⟩
      | cons => cases place
    | cons y before =>
      cases before' with
      | nil => cases place
      | cons y' before' =>
        cases split
        cases split'
        exact .inr ⟨apart, before, after, before', after', rfl, rfl, Nat.succ.inj place, rfl⟩
  · rintro (⟨apart, rfl, rfl, rfl⟩ | ⟨apart, before, after, before', after', rfl, rfl, place, rfl⟩)
    · exact ⟨apart, [], ls, [], ls', rfl, rfl, rfl, rfl⟩
    · exact ⟨apart, x :: before, after, x' :: before', after', rfl, rfl, congrArg Nat.succ place, rfl⟩

theorem not_altered_self : ¬ Altered vars ls ls known raw raw' := by
  rintro ⟨apart, before, after, before', after', rfl, split, place, -⟩
  obtain ⟨-, same⟩ := List.append_inj split place
  exact apart (List.cons.inj same).1

theorem altered_single (before : List (List Char)) {x x' : List Char}
    (h : Altered vars (before ++ x :: after) (before ++ x' :: after) known raw raw') :
    known = before.foldl learn vars ∧ raw = x ∧ raw' = x' := by
  induction before generalizing vars with
  | nil =>
    rcases altered_cons_iff.1 h with ⟨-, here⟩ | later
    · exact here
    · exact (not_altered_self later).elim
  | cons y before ih =>
    rcases altered_cons_iff.1 h with ⟨apart, -⟩ | later
    · exact (apart rfl).elim
    · exact ih later

theorem pairs_of_altered {R : List Char → List Char → Prop} (all : List.Forall₂ R ls ls')
    (h : ∀ known raw raw', Altered vars ls ls' known raw raw' → R raw raw' → P known raw raw') :
    Pairs P vars ls ls' := by
  induction all generalizing vars with
  | nil => exact .nil vars
  | @cons raw raw' ls ls' first rest ih =>
    refine .cons ?_ (ih ?_)
    · by_cases same : raw = raw'
      · exact .inl same
      · exact .inr (h vars raw raw' (altered_cons_iff.2 (.inl ⟨same, rfl, rfl, rfl⟩)) first)
    · intro known x x' altered
      exact h known x x' (altered_cons_iff.2 (.inr altered))

theorem Pairs.at (h : Pairs P vars (before ++ raw :: after) (before' ++ raw' :: after'))
    (same : before.length = before'.length) :
    Pairs P vars before before' ∧ (raw = raw' ∨ P (before.foldl learn vars) raw raw') := by
  induction before generalizing vars before' with
  | nil =>
    cases before' with
    | nil =>
      cases h with
      | cons step rest => exact ⟨.nil vars, step⟩
    | cons => cases same
  | cons x before ih =>
    cases before' with
    | nil => cases same
    | cons x' before' =>
      cases h with
      | cons step rest =>
        obtain ⟨prior, here⟩ := ih rest (Nat.succ.inj same)
        exact ⟨.cons step prior, here⟩

/-- Texts whose placeholders of a known name are spaced in another way. -/
structure Spacing (name : List Char) (known : List Variable) (raw raw' : List Char) : Prop where
  respaced : Respaced name raw raw'
  found : Found name known raw

theorem expand_respaced {s t : List Char} {value : String} (h : Respaced name s t) (named : Named name)
    (defined : Variable.lookup known (String.ofList name) = some value) :
    Variable.expand known (String.ofList t) = Variable.expand known (String.ofList s) := by
  rw [Variable.expand, Variable.expand, String.toList_ofList, String.toList_ofList,
    h.spaced.expandChars named defined h.clear]

theorem learn_spacing (h : Spacing name known raw raw') (named : Named name) :
    learn known raw' = learn known raw := by
  obtain ⟨value, defined⟩ := h.found.defined
  have kinds := sameKind h.respaced.strip named
  unfold learn
  generalize Line.ofText (strip raw) = kind at kinds ⊢
  generalize Line.ofText (strip raw') = kind' at kinds ⊢
  cases kinds with
  | definition rest => simp only [expand_respaced rest named defined]
  | _ => rfl

theorem beginsRequest_spacing (h : Spacing name known raw raw') (named : Named name) :
    beginsRequest raw' = beginsRequest raw := by
  have kinds := sameKind h.respaced.strip named
  unfold beginsRequest
  generalize Line.ofText (strip raw) = kind at kinds ⊢
  generalize Line.ofText (strip raw') = kind' at kinds ⊢
  cases kinds <;> rfl

theorem Pairs.spacing (h : Pairs (Spacing name) vars ls ls') (named : Named name) :
    ls'.foldl learn vars = ls.foldl learn vars ∧ ls'.countP beginsRequest = ls.countP beginsRequest := by
  induction h with
  | nil => exact ⟨rfl, rfl⟩
  | @cons known raw raw' ls ls' step rest ih =>
    have same : learn known raw' = learn known raw ∧ beginsRequest raw' = beginsRequest raw := by
      rcases step with rfl | spacing
      · exact ⟨rfl, rfl⟩
      · exact ⟨learn_spacing spacing named, beginsRequest_spacing spacing named⟩
    rw [List.foldl_cons, List.foldl_cons, same.1, List.countP_cons, List.countP_cons, same.2, ih.2]
    exact ⟨ih.1, rfl⟩

namespace State

variable {s s' : State} {line : Nat}

/-- A line whose placeholders are spaced in another way does the same to a state, if it is no request line for
another URL. -/
theorem readLine_spacing (h : Spacing name s.definitions raw raw') (named : Named name)
    (target : beginsRequest raw = true → SameTarget s.definitions raw raw') :
    s.readLine line raw' = .ok s' ↔ s.readLine line raw = .ok s' := by
  obtain ⟨value, defined⟩ := h.found.defined
  have expand {u v : List Char} (rest : Respaced name u v) :
      s.expand (String.ofList v) = s.expand (String.ofList u) := expand_respaced rest named defined
  have kinds := sameKind h.respaced.strip named
  have opens := opensScript_eq h.respaced.strip.spaced
  have closes := closesScript_eq h.respaced.strip.spaced named
  rw [readLine_eq, readLine_eq, opens, closes]
  split
  · rfl
  have expanded := h.found.expanded
  unfold beginsRequest at target
  generalize kind_eq : Line.ofText (strip raw) = kind at kinds expanded target ⊢
  generalize kind_eq' : Line.ofText (strip raw') = kind' at kinds ⊢
  have content (text : List Char) : s.addContent line raw' text = s.addContent line raw text := by
    rw [addContent, addContent, expand h.respaced.stripRight]
  cases kinds with
  | fixed =>
    cases kind with
    | content text => rw [heed, heed, content]
    | _ => rfl
  | directive rest =>
    obtain ⟨negated, rfl⟩ := expanded _ _ _ rfl
    simp only [heed, direct, expand rest]
    split <;> simp
  | definition rest => simp only [heed, define, expand rest]
  | assertion rest => simp only [heed, addAssertion, expand rest]
  | request rest =>
    have text := (text_of_request kind_eq).1
    have text' := (text_of_request kind_eq').1
    have same := target rfl
    subst text text'
    rw [heed, heed, beginRequest_eq_ok_iff, beginRequest_eq_ok_iff, words_strip, words_strip]
    constructor
    · rintro ⟨method, word, there, rfl⟩
      obtain ⟨word', there', url⟩ := (same method _).2 ⟨word, there, rfl⟩
      refine ⟨method, word', there', ?_⟩
      rw [State.expand, State.expand, url]
    · rintro ⟨method, word, there, rfl⟩
      obtain ⟨word', there', url⟩ := (same method _).1 ⟨word, there, rfl⟩
      refine ⟨method, word', there', ?_⟩
      rw [State.expand, State.expand, url]
  | @content u v rest =>
    have parts : Option.Rel (fun p q => Respaced name p.1 q.1 ∧ Respaced name p.2 q.2)
        (if s.inBody then none else splitFirst ':' u) (if s.inBody then none else splitFirst ':' v) := by
      split
      · exact .none
      · exact rest.splitFirst_rel named
    rw [heed, heed, content, addContent, addContent]
    generalize (if s.inBody then none else splitFirst ':' u) = o at parts ⊢
    generalize (if s.inBody then none else splitFirst ':' v) = o' at parts ⊢
    cases s.current with
    | none => simp
    | some r =>
      cases parts with
      | none => rfl
      | some both => simp only [expand both.1.strip, expand both.2.strip]

end State

/-- Reading goes on through lines whose placeholders are spaced in another way. -/
theorem readLines_spacing {s last : State} {line : Nat} (named : Named name)
    (all : List.Forall₂ (Spaced name) ls ls')
    (pairs : Pairs (fun known raw raw' => Spacing name known raw raw' ∧
      (beginsRequest raw = true → SameTarget known raw raw')) s.definitions
      (unscripted s.inScript ls) (unscripted s.inScript ls')) :
    readLines line s ls' = .ok last ↔ readLines line s ls = .ok last := by
  induction all generalizing line s with
  | nil => rfl
  | @cons raw raw' ls ls' first rest ih =>
    have opens := opensScript_eq first.strip
    have closes := closesScript_eq first.strip named
    rw [unscripted, unscripted, opens, closes] at pairs
    cases script : opensScript (strip raw) || s.inScript with
    | true =>
      simp only [script, if_true, List.nil_append, Bool.true_and] at pairs
      have here (x : List Char) (hx : opensScript (strip x) = opensScript (strip raw))
          (hx' : closesScript (strip x) = closesScript (strip raw)) :
          s.readLine line x = .ok { s with inScript := !closesScript (strip raw) } := by
        rw [State.readLine_eq, hx, hx', script, if_pos rfl]
      rw [readLines, readLines, here raw rfl rfl, here raw' opens closes]
      exact ih pairs
    | false =>
      simp only [script, Bool.false_eq_true, if_false, Bool.false_and, List.singleton_append] at pairs
      cases pairs with
      | cons step pairs =>
        have step' (s' : State) : s.readLine line raw' = .ok s' ↔ s.readLine line raw = .ok s' := by
          rcases step with rfl | ⟨spacing, target⟩
          · rfl
          · exact State.readLine_spacing spacing named target
        rw [readLines, readLines]
        cases read : s.readLine line raw with
        | error e =>
          cases read' : s.readLine line raw' with
          | error e' => simp
          | ok s' =>
            rw [step', read] at read'
            cases read'
        | ok s₁ =>
          rw [(step' s₁).2 read]
          apply ih
          have inScript := State.readLine_inScript read
          rw [script, Bool.false_and] at inScript
          rw [State.readLine_eq, script, if_neg Bool.false_ne_true] at read
          rw [inScript, (turn_of_heed read).1]
          exact pairs

theorem unscripted_rel (named : Named name) (all : List.Forall₂ (Spaced name) ls ls') (inside : Bool) :
    List.Forall₂ (Spaced name) (unscripted inside ls) (unscripted inside ls') := by
  induction all generalizing inside with
  | nil => exact .nil
  | @cons raw raw' ls ls' first rest ih =>
    rw [unscripted, unscripted, opensScript_eq first.strip, closesScript_eq first.strip named]
    split
    · exact ih _
    · exact .cons first (ih _)

section Words

variable {ws more more' : List (List Char)} {w w' a b : List Char} {method url : String}

/-- The words up to which a request line is read: none, or a method. -/
def Reaches (ws : List (List Char)) : Prop :=
  ws = [] ∨ ∃ first, ws = [first] ∧ String.ofList first ∈ methods

theorem target_of_reaches (h : Reaches ws) (brace : '{' ∈ w) (target : Target (ws ++ w :: more) method url) :
    url = String.ofList w := by
  have other : String.ofList w ∉ methods := by
    have plain : ∀ m ∈ methods, '{' ∉ m.toList := by decide +kernel
    intro listed
    apply plain _ listed
    rwa [String.toList_ofList]
  rcases h with rfl | ⟨first, rfl, listed⟩
  · cases target with
    | method inside => exact (other inside).elim
    | url => rfl
  · cases target with
    | method => rfl
    | url unlisted => exact (unlisted listed).elim

theorem target_before (h : ¬ Reaches ws) :
    Target (ws ++ w :: more) method url → Target (ws ++ w' :: more') method url := by
  intro target
  cases ws with
  | nil => exact (h (.inl rfl)).elim
  | cons first ws =>
    cases ws with
    | nil =>
      cases target with
      | method listed => exact (h (.inr ⟨first, rfl, listed⟩)).elim
      | url unlisted apart => exact .url unlisted apart
    | cons second ws =>
      cases target with
      | method listed apart => exact .method listed apart
      | url unlisted apart => exact .url unlisted apart

end Words

section Url

variable {a b x y w : List Char} {value : String}

/-- A placeholder without blanks is part of one word. -/
theorem takeWhile_written (named : Named name) (b : List Char) :
    (written name ++ b).takeWhile (!isBlank ·) = written name ++ b.takeWhile (!isBlank ·) := by
  apply List.takeWhile_append_of_pos
  have braces : isBlank '{' = false ∧ isBlank '}' = false := by decide
  intro c hc
  simp only [written, List.cons_append, List.mem_cons, List.mem_append, List.not_mem_nil, or_false] at hc
  rcases hc with rfl | rfl | inside | rfl | rfl
  · simp [braces]
  · simp [braces]
  · simp [named.compact.solid c inside]
  · simp [braces]
  · simp [braces]

/-- A placeholder with blanks is cut at the first of them. -/
theorem takeWhile_spaced (named : Named name) (left : Gap x) (right : Gap y) (spaced : x ≠ [] ∨ y ≠ [])
    (b : List Char) : ∃ start, '}' ∉ start ∧
      (written (x ++ name ++ y) ++ b).takeWhile (!isBlank ·) = '{' :: '{' :: start := by
  have stop {z : List Char} (gap : Gap z) (nonempty : z ≠ []) (t : List Char) :
      (z ++ t).takeWhile (!isBlank ·) = [] := by
    obtain ⟨d, z, rfl⟩ := List.exists_cons_of_ne_nil nonempty
    rw [List.cons_append, List.takeWhile_cons_of_neg]
    simp [gap.blank d List.mem_cons_self]
  have braces (t : List Char) : ('{' :: '{' :: t).takeWhile (!isBlank ·) =
      '{' :: '{' :: t.takeWhile (!isBlank ·) := rfl
  rw [written_append, braces]
  by_cases none : x = []
  · subst none
    have solid : ∀ c ∈ name, (!isBlank c) = true := fun c hc => by simp [named.compact.solid c hc]
    refine ⟨name, named.not_mem (by decide), ?_⟩
    rw [List.nil_append, List.append_assoc, List.takeWhile_append_of_pos solid,
      stop right (spaced.resolve_left fun other => other rfl), List.append_nil]
  · refine ⟨[], List.not_mem_nil, ?_⟩
    rw [List.append_assoc, List.append_assoc, stop left none]

/-- With a value in it a word is expanded to something else than cut short before it. -/
theorem expand_cut_ne (closed : ¬ Unclosed (w ++ ['{'])) (named : Named name)
    (defined : Variable.lookup known (String.ofList name) = some value) (nonempty : value ≠ "")
    (plain : '{' ∉ value.toList) {start : List Char} (none : '}' ∉ start) (b : List Char) :
    Variable.expand known (String.ofList (w ++ (written name ++ b))) ≠
      Variable.expand known (String.ofList (w ++ '{' :: '{' :: start)) := by
  intro same
  rw [Variable.expand, Variable.expand, String.ofList_inj, String.toList_ofList, String.toList_ofList] at same
  have own : strip name = name := strip_of_compact named.compact
  obtain ⟨r, open_⟩ : ∃ r, expandChars known (w ++ '{' :: '{' :: start) = expandChars known w ++ '{' :: r :=
    expandChars_open closed none
  rw [expandChars_around closed named.plain_self (by rwa [own]), open_, List.append_cancel_left_eq] at same
  obtain ⟨c, more, text⟩ := List.exists_cons_of_ne_nil (mt String.toList_eq_nil_iff.1 nonempty)
  rw [text, List.cons_append, List.cons.injEq] at same
  rw [text, ← same.1] at plain
  exact plain List.mem_cons_self

end Url

/-- Request lines whose placeholders of a name are spaced in another way come to the same method and URL just
if the blanks are behind these: within the URL they cut it short. -/
theorem sameTarget_iff {value : String} (spacing : Spacing name known raw raw') (named : Named name)
    (defined : Variable.lookup known (String.ofList name) = some value) (nonempty : value ≠ "")
    (plain : '{' ∉ value.toList) : SameTarget known raw raw' ↔
      ∀ method url, Target (words raw) method url ↔ Target (words raw') method url := by
  constructor
  · intro same
    by_cases equal : raw = raw'
    · intro method url
      rw [equal]
    obtain ⟨a, x, y, b, b', hs, ht, left, right, spaced⟩ := spacing.respaced.spaced.exists_first equal
    obtain ⟨ws, w, suffix, cut⟩ := words_append_cons (c := '{') (by decide) a
    have closed : ¬ Unclosed (w ++ ['{']) := by
      intro unclosed
      refine clear_iff.1 spacing.respaced.clear a b hs (unclosed.of_suffix ?_)
      obtain ⟨lead, rfl⟩ := suffix
      rw [List.append_assoc]
      exact List.suffix_append _ _
    have word {inner t z : List Char} (start : (written inner ++ t).takeWhile (!isBlank ·) = '{' :: z) :
        ∃ more, words (a ++ (written inner ++ t)) = ws ++ (w ++ '{' :: z) :: more := by
      rw [written_append] at start ⊢
      have inside := (List.cons.inj start).2
      exact ⟨_, by rw [cut, ← inside]⟩
    -- The whole placeholder is part of the word in one line, and its start in the other.
    obtain ⟨more, whole⟩ := word (takeWhile_written named b)
    obtain ⟨start, none, first⟩ := takeWhile_spaced named left right spaced b'
    obtain ⟨more', short⟩ := word first
    rw [← hs] at whole
    rw [← ht] at short
    have differ := expand_cut_ne closed named defined nonempty plain none (b.takeWhile (!isBlank ·))
    intro method url
    by_cases reaches : Reaches ws
    · have braced (t : List Char) : '{' ∈ w ++ '{' :: t := by simp
      have apart {url url' : String} (target : Target (words raw) method url)
          (target' : Target (words raw') method url') :
          Variable.expand known url ≠ Variable.expand known url' := by
        rw [whole] at target
        rw [short] at target'
        rwa [target_of_reaches reaches (braced _) target, target_of_reaches reaches (braced _) target']
      constructor
      · intro target
        obtain ⟨word, target', comes⟩ := (same method _).1 ⟨url, target, rfl⟩
        exact (apart target target' comes.symm).elim
      · intro target'
        obtain ⟨word, target, comes⟩ := (same method _).2 ⟨url, target', rfl⟩
        exact (apart target target' comes).elim
    · rw [whole, short]
      exact ⟨target_before reaches, target_before reaches⟩
  · intro same method url
    exact exists_congr fun word => and_congr_left fun _ => same method word

theorem comes_iff {method url word : String} (target : Target (words raw) method word)
    (same : url = Variable.expand known word) {method' url' : String} :
    Comes known raw method' url' ↔ method' = method ∧ url' = url := by
  constructor
  · rintro ⟨word', target', rfl⟩
    obtain ⟨rfl, rfl⟩ := target.unique target'
    exact ⟨rfl, same.symm⟩
  · rintro ⟨rfl, rfl⟩
    exact ⟨word, target, same.symm⟩

theorem parse_eq_ok_iff {text : String} {parsed : Parsed} : parse vars text = .ok parsed ↔
    ∃ s, readLines 1 (.start vars) (lines text.toList) = .ok s ∧ s.result = parsed := by
  constructor
  · exact exists_readText
  · rintro ⟨s, read, rfl⟩
    rw [parse, readText, read]
    rfl

/-- Texts that differ in blanks within the braces of placeholders only, each of them found in its line, are read
to the same requests just if every request line among the lines that differ comes to the same method and URL.
It does if the blanks are behind the URL, and never if they are within it, as long as the value is not empty
and has no brace itself. -/
theorem parse_spacing {name : List Char} (named : Named name) {text text' : String}
    (spaced : Spaced name text.toList text'.toList)
    (found : ∀ known raw raw', Altered vars (openLines text) (openLines text') known raw raw' →
      Found name known raw) :
    ((∀ known raw raw', Altered vars (openLines text) (openLines text') known raw raw' →
        beginsRequest raw = true → SameTarget known raw raw') →
      ∀ parsed, parse vars text' = .ok parsed ↔ parse vars text = .ok parsed) ∧
    (∀ parsed parsed', parse vars text = .ok parsed → parse vars text' = .ok parsed' →
      (parsed'.requests = parsed.requests ↔
        ∀ known raw raw', Altered vars (openLines text) (openLines text') known raw raw' →
          beginsRequest raw = true → SameTarget known raw raw')) ∧
    ∀ known raw raw' value, Altered vars (openLines text) (openLines text') known raw raw' →
      Variable.lookup known (String.ofList name) = some value → value ≠ "" → '{' ∉ value.toList →
      (SameTarget known raw raw' ↔
        ∀ method url, Target (words raw) method url ↔ Target (words raw') method url) := by
  have all := spaced.lines_rel named
  have rel : List.Forall₂ (Spaced name) (openLines text) (openLines text') := unscripted_rel named all false
  have spacing {known : List Variable} {raw raw' : List Char} (first : Spaced name raw raw')
      (altered : Altered vars (openLines text) (openLines text') known raw raw') :
      Spacing name known raw raw' :=
    ⟨⟨first, (found known raw raw' altered).clear⟩, found known raw raw' altered⟩
  have pairs : Pairs (Spacing name) vars (openLines text) (openLines text') :=
    pairs_of_altered rel fun known raw raw' altered first => spacing first altered
  have reads : (∀ known raw raw', Altered vars (openLines text) (openLines text') known raw raw' →
      beginsRequest raw = true → SameTarget known raw raw') →
      ∀ parsed, parse vars text' = .ok parsed ↔ parse vars text = .ok parsed := by
    intro same parsed
    rw [parse_eq_ok_iff, parse_eq_ok_iff]
    refine exists_congr fun last => and_congr_left fun _ => readLines_spacing named all ?_
    exact pairs_of_altered rel fun known raw raw' altered first =>
      ⟨spacing first altered, same known raw raw' altered⟩
  refine ⟨reads, ?_, ?_⟩
  · intro parsed parsed' read read'
    constructor
    · rintro requests known raw raw' ⟨apart, before, after, before', after', split, split', place, rfl⟩ begins
      rw [split, split'] at pairs
      obtain ⟨prior, here⟩ := pairs.at place
      obtain ⟨learned, count⟩ := prior.spacing named
      have begins' := beginsRequest_spacing (here.resolve_left apart) named
      obtain ⟨r, word, there, -, target, url⟩ := exists_begun read split begins
      obtain ⟨r', word', there', -, target', url'⟩ := exists_begun read' split' (begins'.trans begins)
      rw [requests, count, there] at there'
      cases there'
      rw [learned] at url'
      intro method url''
      rw [comes_iff target url, comes_iff target' url']
    · intro same
      have read := (reads same parsed).2 read
      rw [read'] at read
      cases read
      rfl
  · rintro known raw raw' value ⟨apart, before, after, before', after', split, split', place, rfl⟩
    intro defined nonempty plain
    rw [split, split'] at pairs
    have spacing := (pairs.at place).2.resolve_left apart
    exact sameTarget_iff spacing named defined nonempty plain

theorem found_of_plain (defined : ∃ value, Variable.lookup known (String.ofList name) = some value)
    (clear : Clear name raw) (plain : givesDirective raw = false) : Found name known raw := by
  refine ⟨defined, clear, ?_⟩
  intro keyword word value kind
  rw [givesDirective, kind] at plain
  cases plain

/-- Blanks in the placeholder of a header, which make no difference, and in that of a URL, which is cut there. -/
theorem parse_spacing_header :
    let text := "@h = a\nGET https://\x7b\x7bh\x7d\x7d\nX: \x7b\x7bh\x7d\x7d!\n"
    let header := "@h = a\nGET https://\x7b\x7bh\x7d\x7d\nX: \x7b\x7b h\t\x7d\x7d!\n"
    let url := "@h = a\nGET https://\x7b\x7b h\x7d\x7d\nX: \x7b\x7bh\x7d\x7d!\n"
    ∃ parsed parsed', parse [] text = .ok parsed ∧ parse [] header = .ok parsed ∧
      parse [] url = .ok parsed' ∧ parsed'.requests ≠ parsed.requests := by
  intro text header url
  let get (url : String) : Request :=
    ⟨"GET", url, none, [⟨"X", "a!"⟩], none, [], [], none, none, none, none, none⟩
  let define := "@h = a".toList
  let line := "GET https://\x7b\x7bh\x7d\x7d".toList
  let field := "X: \x7b\x7bh\x7d\x7d!".toList
  let field' := "X: \x7b\x7b h\t\x7d\x7d!".toList
  let line' := "GET https://\x7b\x7b h\x7d\x7d".toList
  have named : Named ['h'] := by decide +kernel
  have read : parse [] text = .ok ⟨[get "https://a"], []⟩ := by decide +kernel
  have read' : parse [] url = .ok ⟨[get "https://\x7b\x7b"], []⟩ := by decide +kernel
  have defined : Variable.lookup ([define].foldl learn []) "h" = some "a" := by decide +kernel
  have lines : openLines text = [define, line, field] := by decide +kernel
  have headerLines : openLines header = [define, line, field'] := by decide +kernel
  have urlLines : openLines url = [define, line', field] := by decide +kernel
  have spacedHeader : Spaced ['h'] text.toList header.toList :=
    spaced_single (a := "@h = a\nGET https://\x7b\x7bh\x7d\x7d\nX: ".toList) (b := "!\n".toList) (x := [' '])
      (y := ['\t']) (by decide) (by decide) (by decide +kernel) (by decide +kernel)
  have spacedUrl : Spaced ['h'] text.toList url.toList :=
    spaced_single (a := "@h = a\nGET https://".toList) (b := "\nX: \x7b\x7bh\x7d\x7d!\n".toList) (x := [' '])
      (y := []) (by decide) (by decide) (by decide +kernel) (by decide +kernel)
  have inHeader {known : List Variable} {raw raw' : List Char}
      (altered : Altered [] (openLines text) (openLines header) known raw raw') :
      known = [define].foldl learn [] ∧ raw = field := by
    rw [lines, headerLines] at altered
    obtain ⟨rfl, rfl, -⟩ := altered_single [define, line] altered
    exact ⟨by decide +kernel, rfl⟩
  have inUrl {known : List Variable} {raw raw' : List Char}
      (altered : Altered [] (openLines text) (openLines url) known raw raw') :
      known = [define].foldl learn [] ∧ raw = line := by
    rw [lines, urlLines] at altered
    obtain ⟨rfl, rfl, -⟩ := altered_single [define] altered
    exact ⟨rfl, rfl⟩
  obtain ⟨same, -⟩ := parse_spacing named spacedHeader fun known raw raw' altered => by
    obtain ⟨rfl, rfl⟩ := inHeader altered
    exact found_of_plain ⟨"a", defined⟩ (by decide +kernel) (by decide +kernel)
  obtain ⟨-, differ, cut⟩ := parse_spacing named spacedUrl fun known raw raw' altered => by
    obtain ⟨rfl, rfl⟩ := inUrl altered
    exact found_of_plain ⟨"a", defined⟩ (by decide +kernel) (by decide +kernel)
  have altered : Altered [] (openLines text) (openLines url) ([define].foldl learn []) line line' :=
    ⟨by decide, [define], [field], [define], [field], lines, urlLines, rfl, rfl⟩
  refine ⟨_, _, read, (same ?_ _).2 read, read', ?_⟩
  · intro known raw raw' altered begins
    obtain ⟨-, rfl⟩ := inHeader altered
    have plain : beginsRequest field = false := by decide +kernel
    rw [plain] at begins
    cases begins
  · intro requests
    have target := (differ _ _ read read').1 requests _ _ _ altered (by decide +kernel)
    rw [cut _ _ _ "a" altered defined (by decide) (by decide)] at target
    have there : Target (words line') "GET" "https://\x7b\x7bh\x7d\x7d" := (target _ _).1 (by decide +kernel)
    revert there
    decide +kernel

/-- A URL whose placeholder has a blank in it, against the same URL without the blank. -/
theorem spaced_url_cut : ¬ ∀ (name : List Char) (vars : List Variable) (text text' : String)
    (parsed parsed' : Parsed), Named name → Spaced name text.toList text'.toList →
      (∀ known raw raw', Altered vars (openLines text) (openLines text') known raw raw' →
        Found name known raw ∧ ∃ value, Variable.lookup known (String.ofList name) = some value ∧
          ∀ c ∈ value.toList, isBlank c = false ∧ c ≠ '{' ∧ c ≠ '}') →
      parse vars text = .ok parsed → parse vars text' = .ok parsed' → parsed'.requests = parsed.requests := by
  intro claim
  let get (url : String) : Request := ⟨"GET", url, none, [], none, [], [], none, none, none, none, none⟩
  let text := "@h = https://a\nGET \x7b\x7bh\x7d\x7d/x\n"
  let text' := "@h = https://a\nGET \x7b\x7b h \x7d\x7d/x\n"
  let define := "@h = https://a".toList
  have lines : openLines text = [define, "GET \x7b\x7bh\x7d\x7d/x".toList] := by decide +kernel
  have lines' : openLines text' = [define, "GET \x7b\x7b h \x7d\x7d/x".toList] := by decide +kernel
  have spaced : Spaced ['h'] text.toList text'.toList :=
    spaced_single (a := "@h = https://a\nGET ".toList) (b := "/x\n".toList) (x := [' ']) (y := [' '])
      (by decide) (by decide) (by decide +kernel) (by decide +kernel)
  have defined : Variable.lookup ([define].foldl learn []) "h" = some "https://a" := by decide +kernel
  have compact : Compact "https://a".toList := by decide +kernel
  have plain : ∀ c ∈ "https://a".toList, isBlank c = false ∧ c ≠ '{' ∧ c ≠ '}' := fun c hc =>
    ⟨compact.solid c hc, ne_of_mem_of_not_mem hc (by decide), ne_of_mem_of_not_mem hc (by decide)⟩
  have same := claim ['h'] [] text text' ⟨[get "https://a/x"], []⟩ ⟨[get "\x7b\x7b"], []⟩
    (by decide +kernel) spaced (fun known raw raw' altered => by
      rw [lines, lines'] at altered
      obtain ⟨rfl, rfl, -⟩ := altered_single [define] altered
      have found : Found ['h'] ([define].foldl learn []) "GET \x7b\x7bh\x7d\x7d/x".toList :=
        found_of_plain ⟨_, defined⟩ (by decide +kernel) (by decide +kernel)
      exact ⟨found, _, defined, plain⟩) (by decide +kernel) (by decide +kernel)
  revert same
  decide

end DotHttp.RequestFile
