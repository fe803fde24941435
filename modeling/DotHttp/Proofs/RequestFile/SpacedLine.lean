import DotHttp.Proofs.Placeholder.SpacedText
import DotHttp.Proofs.RequestFile.DirectiveLine

/-!
Lines with blanks in their placeholders. Such a line is of the same kind, and what is read from it differs in
these blanks only.
-/

namespace DotHttp.RequestFile

open DotHttp.Text DotHttp.Placeholder

variable {name s t : List Char}

/-- The same word, and values that differ in blanks. -/
def SameWord (name : List Char) (p q : List Char × List Char) : Prop :=
  p.1 = q.1 ∧ Respaced name p.2 q.2

/-- A text that begins with a character other than an opening brace, beside one with the same first character,
or two that do not begin with it. -/
theorem respaced_cases (h : Respaced name s t) {c : Char} (hc : c ≠ '{') :
    (∃ s' t', s = c :: s' ∧ t = c :: t' ∧ Respaced name s' t') ∨ (s.head? ≠ some c ∧ t.head? ≠ some c) := by
  by_cases head : s.head? = some c
  · obtain ⟨s', rfl⟩ := List.head?_eq_some_iff.1 head
    obtain ⟨t', rfl, rest⟩ := h.of_cons hc
    exact .inl ⟨s', t', rfl, rfl, rest⟩
  · exact .inr ⟨head, h.spaced.head?_eq ▸ head⟩

/-- The text behind the colon that it may begin with. -/
def pastColon : List Char → List Char
  | ':' :: r => r
  | r => r

theorem pastColon_of_head (h : s.head? ≠ some ':') : pastColon s = s := by
  unfold pastColon
  split
  · exact (h rfl).elim
  · rfl

theorem pastColon_respaced (h : Respaced name s t) : Respaced name (pastColon s) (pastColon t) := by
  rcases respaced_cases h (c := ':') (by decide) with ⟨s, t, rfl, rfl, rest⟩ | ⟨hs, ht⟩
  · exact rest
  · rw [pastColon_of_head hs, pastColon_of_head ht]
    exact h

/-- A reader of what stands behind an at sign reads the same, if it does from the second character on. -/
theorem rel_of_sign {f : List Char → Option (List Char × List Char)} (h : Respaced name s t)
    (unsigned : ∀ u : List Char, u.head? ≠ some '@' → f u = none) (alone : f ['@'] = none)
    (brace : ∀ u, f ('@' :: '{' :: u) = none)
    (behind : ∀ c u v, Respaced name u v →
      Option.Rel (SameWord name) (f ('@' :: c :: u)) (f ('@' :: c :: v))) :
    Option.Rel (SameWord name) (f s) (f t) := by
  rcases respaced_cases h (c := '@') (by decide) with ⟨s, t, rfl, rfl, rest⟩ | ⟨hs, ht⟩
  · obtain ⟨spaced, clear⟩ := rest
    cases spaced with
    | nil =>
      rw [alone]
      exact .none
    | @char s t c spaced => exact behind c s t ⟨spaced, clear.inside (List.suffix_cons c s).isInfix⟩
    | placeholder =>
      rw [written_append, written_append, brace, brace]
      exact .none
  · rw [unsigned s hs, unsigned t ht]
    exact .none

theorem directive?_of_head (h : s.head? ≠ some '@') : directive? s = none := by
  unfold directive?
  split
  · exact (h rfl).elim
  · rfl

theorem directive?_rel (h : Respaced name s t) :
    Option.Rel (SameWord name) (directive? s) (directive? t) := by
  apply rel_of_sign h
  · exact fun _ => directive?_of_head
  · rfl
  · intro u
    rw [directive?_cons, if_neg (by decide)]
  · intro c u v rest
    have stop : inWord '{' = false := by decide
    rw [directive?_cons, directive?_cons, rest.spaced.takeWhile_eq stop]
    split
    · exact .some ⟨rfl, (pastColon_respaced (rest.dropWhile stop).stripLeft).strip⟩
    · exact .none

theorem definition?_of_head (h : s.head? ≠ some '@') : definition? s = none := by
  unfold definition?
  split
  · exact (h rfl).elim
  · rfl

def inName (c : Char) : Bool :=
  isWord c || c = '.' || c = '-'

theorem definition?_cons (c : Char) (r : List Char) : definition? ('@' :: c :: r) =
    if isLatin c || c = '_' then
      match stripLeft (r.dropWhile inName) with
      | '=' :: value => some (c :: r.takeWhile inName, strip value)
      | _ => none
    else none := rfl

theorem definition?_rel (h : Respaced name s t) :
    Option.Rel (SameWord name) (definition? s) (definition? t) := by
  apply rel_of_sign h
  · exact fun _ => definition?_of_head
  · rfl
  · intro u
    rw [definition?_cons, if_neg (by decide)]
  · intro c u v rest
    have stop : inName '{' = false := by decide
    rw [definition?_cons, definition?_cons, rest.spaced.takeWhile_eq stop]
    split
    · have behind := (rest.dropWhile stop).stripLeft
      rcases respaced_cases behind (c := '=') (by decide) with ⟨s', t', hs, ht, rest⟩ | ⟨hs, ht⟩
      · rw [hs, ht]
        exact .some ⟨rfl, rest.strip⟩
      · split
        · next equals => simp [equals] at hs
        · split
          · next equals => simp [equals] at ht
          · exact .none
    · exact .none

theorem isComment_eq (h : Spaced name s t) : isComment t = isComment s := by
  rw [isComment, isComment, h.isPrefixOf_eq (by decide), h.isPrefixOf_eq (by decide)]

theorem opensScript_eq (h : Spaced name s t) : opensScript t = opensScript s := by
  have first (c : Char) {u v start : List Char} (h : Spaced name u v) (hc : c ≠ '{')
      (later : ∀ {u v}, Spaced name u v → start.isPrefixOf v = start.isPrefixOf u) :
      (c :: start).isPrefixOf v = (c :: start).isPrefixOf u := by
    cases h with
    | nil => rfl
    | char d rest => rw [List.isPrefixOf_cons_cons, List.isPrefixOf_cons_cons, later rest]
    | placeholder =>
      rw [written_append, written_append, List.isPrefixOf_cons_cons, List.isPrefixOf_cons_cons,
        beq_false_of_ne hc, Bool.false_and, Bool.false_and]
  -- Behind the brace of the mark stands another character than in a placeholder.
  have brace {u v : List Char} (h : Spaced name u v) : ['{', '%'].isPrefixOf v = ['{', '%'].isPrefixOf u := by
    cases h with
    | nil => rfl
    | char d rest => rw [List.isPrefixOf_cons_cons, List.isPrefixOf_cons_cons, rest.isPrefixOf_eq (by decide)]
    | placeholder => rfl
  exact first '>' h (by decide) fun h => first ' ' h (by decide) brace

theorem closesScript_eq (h : Spaced name s t) (named : Named name) : closesScript t = closesScript s := by
  rw [closesScript, closesScript, Bool.eq_iff_iff, List.isSuffixOf_iff_suffix, List.isSuffixOf_iff_suffix]
  exact h.suffix_iff named

theorem isRequestLine_eq (h : Spaced name s t) (named : Named name) : isRequestLine t = isRequestLine s := by
  have plain : ∀ m ∈ methods, '{' ∉ m.toList ++ [' '] := by decide +kernel
  have begins : (methods.any fun m => (m.toList ++ [' ']).isPrefixOf t) =
      methods.any fun m => (m.toList ++ [' ']).isPrefixOf s := by
    rw [Bool.eq_iff_iff, List.any_eq_true, List.any_eq_true]
    refine exists_congr fun m => and_congr_right fun hm => ?_
    rw [h.isPrefixOf_eq (plain m hm)]
  rw [isRequestLine, isRequestLine, h.occursIn_eq named (by decide) (by decide), begins]

/-- A text from the at sign on that it begins with. -/
def signed? : List Char → Option (List Char)
  | '@' :: r => some ('@' :: r)
  | _ => none

theorem signed?_of_head (h : s.head? ≠ some '@') : signed? s = none := by
  unfold signed?
  split
  · exact (h rfl).elim
  · rfl

theorem signed?_rel (h : Respaced name s t) : Option.Rel (Respaced name) (signed? s) (signed? t) := by
  rcases respaced_cases h (c := '@') (by decide) with ⟨s, t, rfl, rfl, -⟩ | ⟨hs, ht⟩
  · exact .some h
  · rw [signed?_of_head hs, signed?_of_head ht]
    exact .none

theorem commentDirective?_of_head (h : s.head? ≠ some '#') (h' : ∀ r, s = '/' :: r → r.head? ≠ some '/') :
    commentDirective? s = none := by
  unfold commentDirective?
  split
  · exact (h rfl).elim
  · exact (h' _ rfl rfl).elim
  · rfl

theorem commentDirective?_rel (h : Respaced name s t) :
    Option.Rel (Respaced name) (commentDirective? s) (commentDirective? t) := by
  rcases respaced_cases h (c := '#') (by decide) with ⟨s, t, rfl, rfl, rest⟩ | ⟨hs, ht⟩
  · exact signed?_rel (rest.dropWhile (by decide)).stripLeft
  rcases respaced_cases h (c := '/') (by decide) with ⟨s, t, rfl, rfl, rest⟩ | ⟨hs', ht'⟩
  · rcases respaced_cases rest (c := '/') (by decide) with ⟨s, t, rfl, rfl, behind⟩ | ⟨hs', ht'⟩
    · exact signed?_rel behind.stripLeft
    · rw [commentDirective?_of_head hs, commentDirective?_of_head ht]
      · exact .none
      · rintro r ⟨⟩
        exact ht'
      · rintro r ⟨⟩
        exact hs'
  · rw [commentDirective?_of_head hs, commentDirective?_of_head ht]
    · exact .none
    · rintro r rfl
      exact (ht' rfl).elim
    · rintro r rfl
      exact (hs' rfl).elim

theorem dropEnd?_single (c : Char) (s : List Char) :
    dropEnd? [c] s = if s.getLast? = some c then some s.dropLast else none := by
  split
  · next last =>
    rw [dropEnd?_eq_some_iff, List.dropLast_append_getLast? c last]
  · next other =>
    rw [Option.eq_none_iff_forall_ne_some]
    intro rest cut
    rw [dropEnd?_eq_some_iff] at cut
    apply other
    rw [cut, List.getLast?_append]
    rfl

theorem unquote_of_head (h : s.head? ≠ some '"') : unquote s = s := by
  unfold unquote
  split
  · exact (h rfl).elim
  · rfl

theorem unquote_respaced (h : Respaced name s t) : Respaced name (unquote s) (unquote t) := by
  rcases respaced_cases h (c := '"') (by decide) with ⟨s, t, rfl, rfl, rest⟩ | ⟨hs, ht⟩
  · obtain ⟨last, cut⟩ := rest.spaced.last
    rw [unquote, unquote, dropEnd?_single, dropEnd?_single, last]
    split
    · next quote =>
      refine h.cut (cut ?_) ((List.dropLast_prefix s).isInfix.trans (List.suffix_cons _ s).isInfix)
      rw [quote]
      decide
    · exact h
  · rw [unquote_of_head hs, unquote_of_head ht]
    exact h

/-- What an assertion keyword at the start of a text reads. -/
def assertionAt (body : List Char) (entry : String × Assertion.Kind) :
    Option (Assertion.Kind × String × List Char) :=
  match dropStart? entry.1.toList body with
  | some [] => some (entry.2, entry.1, [])
  | some (' ' :: r) => some (entry.2, entry.1, unquote (strip r))
  | _ => none

theorem assertion?_eq (s : List Char) :
    assertion? s = assertionWords.findSome? (assertionAt ((dropStart? ['>', ' '] s).getD s)) := rfl

/-- The same assertion keyword, and expected texts that differ in blanks. -/
def SameAssertion (name : List Char) (p q : Assertion.Kind × String × List Char) : Prop :=
  p.1 = q.1 ∧ p.2.1 = q.2.1 ∧ Respaced name p.2.2 q.2.2

theorem assertionAt_rel (h : Respaced name s t) {entry : String × Assertion.Kind}
    (plain : '{' ∉ entry.1.toList) :
    Option.Rel (SameAssertion name) (assertionAt s entry) (assertionAt t entry) := by
  have rest := h.dropStart? plain
  unfold assertionAt
  generalize dropStart? entry.1.toList s = o at rest ⊢
  generalize dropStart? entry.1.toList t = o' at rest ⊢
  cases rest with
  | none => exact .none
  | @some r r' rest =>
    rcases respaced_cases rest (c := ' ') (by decide) with ⟨s, t, rfl, rfl, rest⟩ | ⟨hs, ht⟩
    · exact .some ⟨rfl, rfl, unquote_respaced rest.strip⟩
    · cases r with
      | nil =>
        rw [rest.spaced.nil_iff.1 rfl]
        exact .some ⟨rfl, rfl, rest.cut .nil ⟨[], [], rfl⟩⟩
      | cons c r =>
        cases r' with
        | nil =>
          have none := rest.spaced.nil_iff.2 rfl
          cases none
        | cons c' r' =>
          have other : c ≠ ' ' ∧ c' ≠ ' ' :=
            ⟨fun hc => hs (congrArg some hc), fun hc => ht (congrArg some hc)⟩
          simp [other]

theorem findSome?_rel {α β γ : Type} {R : β → γ → Prop} {f : α → Option β} {g : α → Option γ} {l : List α}
    (h : ∀ a ∈ l, Option.Rel R (f a) (g a)) : Option.Rel R (l.findSome? f) (l.findSome? g) := by
  induction l with
  | nil => exact .none
  | cons a l ih =>
    obtain ⟨first, rest⟩ := List.forall_mem_cons.1 h
    rw [List.findSome?_cons, List.findSome?_cons]
    generalize f a = o at first ⊢
    generalize g a = o' at first ⊢
    cases first with
    | none => exact ih rest
    | some both => exact .some both

theorem assertion?_rel (h : Respaced name s t) :
    Option.Rel (SameAssertion name) (assertion? s) (assertion? t) := by
  have plain : ∀ entry ∈ assertionWords, '{' ∉ entry.1.toList := by decide +kernel
  have body : Respaced name ((dropStart? ['>', ' '] s).getD s) ((dropStart? ['>', ' '] t).getD t) := by
    have rest : Option.Rel (Respaced name) (dropStart? ['>', ' '] s) (dropStart? ['>', ' '] t) :=
      h.dropStart? (by decide)
    generalize dropStart? ['>', ' '] s = o at rest ⊢
    generalize dropStart? ['>', ' '] t = o' at rest ⊢
    cases rest with
    | none => exact h
    | some rest => exact rest
  rw [assertion?_eq, assertion?_eq]
  exact findSome?_rel fun entry he => assertionAt_rel body (plain entry he)

/-- The kinds of a line and of one with more blanks in its placeholders. -/
inductive SameKind (name : List Char) : Line → Line → Prop
  | fixed (kind : Line) : SameKind name kind kind
  | directive {keyword : Keyword} {word : String} {s t : List Char} (h : Respaced name s t) :
      SameKind name (.directive keyword word (String.ofList s)) (.directive keyword word (String.ofList t))
  | definition {defined : String} {s t : List Char} (h : Respaced name s t) :
      SameKind name (.definition defined (String.ofList s)) (.definition defined (String.ofList t))
  | assertion {kind : Assertion.Kind} {word : String} {s t : List Char} (h : Respaced name s t) :
      SameKind name (.assertion kind word (String.ofList s)) (.assertion kind word (String.ofList t))
  | request {s t : List Char} (h : Respaced name s t) : SameKind name (.request s) (.request t)
  | content {s t : List Char} (h : Respaced name s t) : SameKind name (.content s) (.content t)

theorem sameKind (h : Respaced name s t) (named : Named name) :
    SameKind name (Line.ofText s) (Line.ofText t) := by
  have empty : t.isEmpty = s.isEmpty := by
    rw [Bool.eq_iff_iff, List.isEmpty_iff, List.isEmpty_iff, h.spaced.nil_iff]
  have comment : Option.Rel (SameWord name) ((commentDirective? s).bind directive?)
      ((commentDirective? t).bind directive?) := by
    have signed := commentDirective?_rel h
    generalize commentDirective? s = o at signed ⊢
    generalize commentDirective? t = o' at signed ⊢
    cases signed with
    | none => exact .none
    | some rest => exact directive?_rel rest
  have definition := definition?_rel h
  have directive := directive?_rel h
  have assertion := assertion?_rel h
  unfold Line.ofText
  rw [empty, isComment_eq h.spaced, h.spaced.head?_eq, isRequestLine_eq h.spaced named]
  generalize (commentDirective? s).bind directive? = o at comment ⊢
  generalize (commentDirective? t).bind directive? = o' at comment ⊢
  generalize definition? s = d at definition ⊢
  generalize definition? t = d' at definition ⊢
  generalize directive? s = w at directive ⊢
  generalize directive? t = w' at directive ⊢
  generalize assertion? s = e at assertion ⊢
  generalize assertion? t = e' at assertion ⊢
  split
  · exact .fixed _
  split
  · cases comment with
    | none => exact .fixed _
    | @some p q same =>
      obtain ⟨word, value⟩ := p
      obtain ⟨_, value'⟩ := q
      obtain ⟨rfl, rest⟩ := same
      simp only
      split
      · exact .directive rest
      · exact .fixed _
  split
  · cases definition with
    | @some p q same =>
      obtain ⟨word, value⟩ := p
      obtain ⟨_, value'⟩ := q
      obtain ⟨rfl, rest⟩ := same
      exact .definition rest
    | none =>
      cases directive with
      | none => exact .fixed _
      | @some p q same =>
        obtain ⟨word, value⟩ := p
        obtain ⟨_, value'⟩ := q
        obtain ⟨rfl, rest⟩ := same
        simp only
        split
        · exact .directive rest
        · exact .fixed _
  · cases assertion with
    | @some p q same =>
      obtain ⟨kind, word, value⟩ := p
      obtain ⟨_, _, value'⟩ := q
      obtain ⟨rfl, rfl, rest⟩ := same
      exact .assertion rest
    | none =>
      simp only
      split
      · exact .request h
      · exact .content h

end DotHttp.RequestFile
