import DotHttp.Proofs.Function.Call
import DotHttp.Proofs.Text.Base64
import DotHttp.Proofs.Text.LetterCase
import DotHttp.Proofs.Text.Utf8

/-!
Calls with a quoted text. A backslash before a quote or a backslash keeps it from ending the text, and is then
taken for a part of the text.
-/

namespace DotHttp.Function

open DotHttp.Text

/-- The characters before which a backslash is put within quotes. -/
def isMarked (c : Char) : Bool := c = '\\' || c = '\x27'

/-- A text as it is written within quotes. -/
def escaped (t : List Char) : List Char :=
  t.flatMap fun c => if isMarked c then ['\\', c] else [c]

/-- What stands behind the name in a call with a quoted text. -/
def quotedTail (t : List Char) : List Char :=
  '\x27' :: (escaped t ++ ['\x27', ')'])

def quotedCall (f : Function) (t : List Char) : List Char :=
  (f.name.toList ++ ['(']) ++ quotedTail t

/-- What a function of a text is to give. -/
inductive Encodes : Function → List Char → List Char → Prop
  | base64 {t v : List Char} (h : IsBase64 (String.ofList t).toUTF8.toList v) : Encodes .base64 t v
  | upper (t : List Char) : Encodes .upper t (Text.upper t)
  | lower (t : List Char) : Encodes .lower t (Text.lower t)

/-- The functions of a quoted text. -/
inductive Quoting : Function → Prop
  | base64 : Quoting .base64
  | upper : Quoting .upper
  | lower : Quoting .lower

variable {f g : Function} {t v rest : List Char} {c : Char} {src : Sources} {next : Nat}

theorem escaped_cons (c : Char) (t : List Char) :
    escaped (c :: t) = if isMarked c then '\\' :: c :: escaped t else c :: escaped t := by
  rw [escaped, List.flatMap_cons, ← escaped]
  split <;> rfl

/-- What is written of a text is read up to the quote behind it. -/
theorem quotedText?_escaped (t rest : List Char) :
    quotedText? (escaped t ++ '\x27' :: rest) = some (escaped t, rest) := by
  induction t with
  | nil => rfl
  | cons c t ih =>
    rw [escaped_cons]
    cases marked : isMarked c with
    | true =>
      have same_line : c ≠ '\n' := by
        rintro rfl
        cases marked
      simp [quotedText?, same_line, ih]
    | false =>
      rw [isMarked, Bool.or_eq_false_iff, decide_eq_false_iff_not, decide_eq_false_iff_not] at marked
      simp [quotedText?, marked, ih]

theorem quotedArgument?_quotedTail (t : List Char) : quotedArgument? (quotedTail t) = some (.quoted (escaped t), []) := by
  have start : stripLeft (quotedTail t) = quotedTail t := rfl
  have close : closed? [')'] = some [] := rfl
  rw [quotedArgument?, start, quotedTail]
  dsimp only
  rw [if_pos rfl, quotedText?_escaped, Option.bind_some, close]
  rfl

theorem call?_quotedCall (takes : Quoting f) (t : List Char) :
    f.call? none (quotedCall f t) = some (.quoted (escaped t), []) := by
  have argument := quotedArgument?_quotedTail t
  cases takes <;> exact argument

theorem paren_of_escaped (h : '(' ∈ escaped t) : '(' ∈ t := by
  obtain ⟨c, among, made⟩ := List.mem_flatMap.1 h
  have same : c = '(' := by
    split at made <;> simpa [eq_comm] using made
  exact same ▸ among

/-- No other function is called there. -/
theorem calls_quotedCall (takes : Quoting f) (other : g ≠ f) (closed : '(' ∉ t) :
    g.calls none (quotedCall f t) = [] := by
  have clear : ∀ g ∈ all, g ≠ f → g.clear none (f.name.toList ++ ['(']) = true := by
    cases takes <;> decide +kernel
  have tail : '(' ∉ quotedTail t := by
    simpa [quotedTail] using fun among => closed (paren_of_escaped among)
  rw [quotedCall, calls_append_of_clear (clear g (mem_all g) other)]
  exact calls_of_no_parenthesis tail

/-- Of the passes over a text with calls of one function only the pass of this one changes it, if it leaves no
parenthesis. -/
theorem replaceAllOf_single {fs : List Function} {s : List Char} {next' : Nat} (among : f ∈ fs)
    (others : ∀ g ∈ fs, g ≠ f → g.calls none s = []) (pass : f.replaceFrom src none next s = .ok (v, next'))
    (closed : '(' ∉ v) : replaceAllOf src fs next s = .ok (v, next') := by
  induction fs with
  | nil => cases among
  | cons g fs ih =>
    rw [replaceAllOf]
    by_cases same : g = f
    · rw [same, pass]
      exact replaceAllOf_of_no_calls (fun _ _ => calls_of_no_parenthesis closed) src next'
    · rw [replaceFrom_of_no_calls (others g List.mem_cons_self same)]
      refine ih ?_ fun g' later => others g' (List.mem_cons_of_mem g later)
      exact (List.mem_cons.1 among).resolve_left (Ne.symm same)

theorem Encodes.closed (h : Encodes f t v) (closed : '(' ∉ t) : '(' ∉ v := by
  cases h with
  | base64 h => exact h.closed
  | upper => exact fun among => closed (paren_of_upper among)
  | lower => exact fun among => closed (paren_of_lowerFrom among)

theorem exists_encodes (takes : Quoting f) (src : Sources) (next : Nat) (t : List Char) :
    ∃ v, f.value src next (.quoted t) = .ok v ∧ Encodes f t v := by
  cases takes with
  | base64 => exact ⟨_, rfl, .base64 (isBase64_base64 _)⟩
  | upper => exact ⟨_, rfl, .upper t⟩
  | lower => exact ⟨_, rfl, .lower t⟩

/-- A call with a quoted text is replaced by what its function gives of the text as it is written. -/
theorem substitute_quotedCall (takes : Quoting f) (closed : '(' ∉ t) (src : Sources) (next : Nat) :
    ∃ v, substitute src next (String.ofList (quotedCall f t)) = .ok (String.ofList v, next) ∧
      Encodes f (escaped t) v := by
  obtain ⟨v, value, encodes⟩ := exists_encodes takes src next (escaped t)
  have fresh : '(' ∉ v := encodes.closed fun among => closed (paren_of_escaped among)
  have pass : f.replaceFrom src none next (quotedCall f t) = .ok (v, next) := by
    have call := call?_quotedCall takes t
    have no_draws : f.draws = 0 := by cases takes <;> rfl
    obtain ⟨c, r, first⟩ : ∃ c r, quotedCall f t = c :: r :=
      List.exists_cons_of_ne_nil (by simp [quotedCall])
    rw [first] at call ⊢
    rw [replaceFrom_of_call call, value, no_draws, replaceFrom]
    simp [Except.map]
  refine ⟨v, ?_, encodes⟩
  rw [substitute, String.toList_ofList,
    replaceAllOf_single (mem_all f) (fun g _ other => calls_quotedCall takes other closed) pass fresh]
  rfl

theorem totalWidth_escaped (width : Char → Nat) (unit : width '\\' = 1) (t : List Char) :
    totalWidth width (escaped t) = totalWidth width t + t.countP isMarked := by
  induction t with
  | nil => rfl
  | cons c t ih =>
    rw [escaped_cons, List.countP_cons]
    split
    · rw [totalWidth, totalWidth, totalWidth, unit, ih]
      omega
    · rw [totalWidth, totalWidth, ih]
      omega

/-- A text with nothing to mark is written as it is. -/
theorem escaped_eq_self (h : ∀ c ∈ t, isMarked c = false) : escaped t = t := by
  induction t with
  | nil => rfl
  | cons c t ih =>
    obtain ⟨here, later⟩ := List.forall_mem_cons.1 h
    rw [escaped_cons, here, ih later]
    rfl

/-- What a function gives of a text as it is written is what it gives of the text only if nothing in it is marked:
base 64 tells the two texts apart, and upper and lower case keep every backslash. -/
theorem Encodes.escaped_iff (h : Encodes f (escaped t) v) : Encodes f t v ↔ ∀ c ∈ t, isMarked c = false := by
  constructor
  · intro plain
    have none : t.countP isMarked = 0 := by
      cases h with
      | base64 h =>
        cases plain with
        | base64 h' =>
          have same := ofList_toUTF8_injective (h.unique h')
          have longer := totalWidth_escaped (fun _ => 1) rfl t
          rw [same] at longer
          omega
      | upper =>
        generalize made : Text.upper (escaped t) = v at plain
        cases plain
        have size := congrArg List.length made
        rw [length_upper, length_upper, totalWidth_escaped (fun c => (upperChar c).length) rfl] at size
        omega
      | lower =>
        generalize made : Text.lower (escaped t) = v at plain
        cases plain
        have size := congrArg List.length made
        rw [Text.lower, Text.lower, length_lowerFrom, length_lowerFrom, totalWidth_escaped lowerWidth rfl] at size
        omega
    simpa using none
  · intro plain
    rwa [escaped_eq_self plain] at h

/-- A call with a quoted text is replaced by what its function gives of the text as it is written there, which is
what it gives of the text itself just if that has no quote and no backslash. -/
theorem substitute_quoted_iff (takes : Quoting f) (closed : '(' ∉ t) (src : Sources) (next : Nat) :
    ∃ v, substitute src next (String.ofList (quotedCall f t)) = .ok (String.ofList v, next) ∧
      Encodes f (escaped t) v ∧ (Encodes f t v ↔ ∀ c ∈ t, isMarked c = false) := by
  obtain ⟨v, made, encodes⟩ := substitute_quotedCall takes closed src next
  exact ⟨v, made, encodes, encodes.escaped_iff⟩

/-- A text without quotes, and one with a quote and a backslash. -/
theorem substitute_quoted_iff_each_way :
    (∃ v, substitute Sources.still 0 "base64_encode('user:pass')" = .ok (String.ofList v, 0) ∧
      Encodes .base64 "user:pass".toList v) ∧
    ∃ v, substitute Sources.still 0 "lower('It\\\x27s \\\\ X')" = .ok (String.ofList v, 0) ∧
      Encodes .lower "It\\\x27s \\\\ X".toList v ∧ ¬ Encodes .lower "It\x27s \\ X".toList v := by
  constructor
  · obtain ⟨v, made, -, plain⟩ := substitute_quoted_iff (t := "user:pass".toList) Quoting.base64 (by decide)
      Sources.still 0
    have unmarked : "user:pass".toList.all (!isMarked ·) = true := by decide
    exact ⟨v, made, plain.2 (by simpa using unmarked)⟩
  · obtain ⟨v, made, written, plain⟩ := substitute_quoted_iff (t := "It\x27s \\ X".toList) Quoting.lower (by decide)
      Sources.still 0
    exact ⟨v, made, written, fun whole => absurd (plain.1 whole '\\' (by decide)) (by decide)⟩

/-- A credential with a quote in it is encoded with the backslash before the quote. -/
theorem marked_text_kept : ¬ ∀ (f : Function) (t : List Char) (src : Sources) (next : Nat), Quoting f → '\n' ∉ t →
    '(' ∉ t → ∃ v, substitute src next (String.ofList (quotedCall f t)) = .ok (String.ofList v, next) ∧ Encodes f t v := by
  intro claimed
  obtain ⟨v, made, encodes⟩ := claimed .base64 "it\x27s".toList Sources.still 0 .base64 (by decide) (by decide)
  obtain ⟨w, made', written⟩ := substitute_quotedCall (t := "it\x27s".toList) Quoting.base64 (by decide) Sources.still 0
  rw [made] at made'
  cases String.ofList_inj.1 (congrArg Prod.fst (Except.ok.inj made'))
  exact absurd (written.escaped_iff.1 encodes '\x27' (by decide)) (by decide)

end DotHttp.Function
