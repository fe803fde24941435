import DotHttp.Proofs.Function.Value
import DotHttp.Proofs.Resolution.Missing
import Mathlib.Data.List.Forall2

/-!
Calls with nothing between the parentheses, where a pass meets them. A pass finds a call only right before an
opening parenthesis, behind a text that is the name of its function up to letter case; so of a call that is
written out only the pass of its own function can find anything, and nothing but the call itself.
-/

namespace DotHttp.Function

open DotHttp.Text

/-- A text that is the name of a function, up to letter case. -/
def Spells (f : Function) (w : List Char) : Prop :=
  List.Forall₂ (fun p c => sameLetter p c = true) f.name.toList w

/-- A call with nothing between the parentheses, in any case of Latin letters. -/
structure Call where
  function : Function
  spelling : List Char
  bare : function.isBare = true
  spelled : spelling.map Char.toLower = function.name.toList

def Call.text (c : Call) : List Char := c.spelling ++ ['(', ')']

variable {f g : Function} {before : Option Char} {s t u w x rest name : List Char} {arg : Argument} {c : Call}
  {src : Sources} {next : Nat}

theorem mem_all (f : Function) : f ∈ all := by
  cases f <;> decide

theorem dropName?_eq_some_iff : dropName? name s = some rest ↔
    ∃ w, s = w ++ rest ∧ List.Forall₂ (fun p c => sameLetter p c = true) name w := by
  induction name generalizing s with
  | nil =>
    rw [dropName?]
    constructor
    · intro h
      cases h
      exact ⟨[], rfl, .nil⟩
    · rintro ⟨w, rfl, spells⟩
      cases spells
      rfl
  | cons p ps ih =>
    cases s with
    | nil => simp [dropName?, List.forall₂_cons_left_iff]
    | cons d s =>
      rw [dropName?]
      by_cases same : sameLetter p d = true
      · rw [if_pos same, ih]
        constructor
        · rintro ⟨w, rfl, spells⟩
          exact ⟨d :: w, rfl, .cons same spells⟩
        · rintro ⟨w, parts, spells⟩
          cases spells with
          | cons _ spells =>
            cases parts
            exact ⟨_, rfl, spells⟩
      · rw [if_neg same]
        refine iff_of_false (by simp) ?_
        rintro ⟨w, parts, spells⟩
        cases spells with
        | cons here _ =>
          cases parts
          exact same here

/-- A call is found right before a parenthesis, behind the name of the function. -/
theorem exists_spells (h : f.call? before s = some (arg, rest)) :
    before.any isWord = false ∧ ∃ w t, s = w ++ '(' :: t ∧ Spells f w := by
  rw [call?] at h
  split at h
  · cases h
  · next edge =>
    obtain ⟨tail, named, read⟩ := Option.bind_eq_some_iff.1 h
    obtain ⟨w, rfl, spells⟩ := dropName?_eq_some_iff.1 named
    refine ⟨Bool.eq_false_iff.2 edge, w, ?_⟩
    unfold argument? at read
    split at read
    · next t => exact ⟨t, rfl, spells⟩
    · cases read

/-- The letters and signs of the names. -/
def nameChars : List Char := "abcdefghijklmnopqrstuvwxyz_0123456789".toList

theorem mem_nameChars : ∀ p ∈ f.name.toList, p ∈ nameChars := by
  have known : f.name.toList.all (nameChars.contains ·) = true := by
    cases f <;> decide +kernel
  simpa using known

theorem exists_letter {d : Char} (h : List.Forall₂ (fun p c => sameLetter p c = true) name w) (among : d ∈ w) :
    ∃ p ∈ name, sameLetter p d = true := by
  induction h with
  | nil => cases among
  | @cons p e name w same _ ih =>
    rcases List.mem_cons.1 among with rfl | later
    · exact ⟨p, List.mem_cons_self, same⟩
    · obtain ⟨q, there, same⟩ := ih later
      exact ⟨q, List.mem_cons_of_mem p there, same⟩

/-- No parenthesis is taken for a letter of a name. -/
theorem Spells.closed (h : Spells f w) : '(' ∉ w ∧ ')' ∉ w := by
  have closing : ∀ p ∈ nameChars, (!sameLetter p '(' && !sameLetter p ')') = true :=
    List.all_eq_true.1 (by decide)
  simp only [Bool.and_eq_true, Bool.not_eq_true'] at closing
  constructor
  · intro among
    obtain ⟨p, there, same⟩ := exists_letter h among
    rw [(closing p (mem_nameChars p there)).1] at same
    cases same
  · intro among
    obtain ⟨p, there, same⟩ := exists_letter h among
    rw [(closing p (mem_nameChars p there)).2] at same
    cases same

theorem name_ne_nil (f : Function) : f.name.toList ≠ [] := by
  cases f <;> decide

theorem Spells.ne_nil (h : Spells f w) : w ≠ [] := by
  intro none
  subst none
  exact name_ne_nil f (List.forall₂_nil_right_iff.1 h)

section Letters

variable {p d : Char}

theorem toLower_of_not_upper (h : d.isUpper = false) : d.toLower = d :=
  dif_neg (of_decide_eq_false h)

theorem toNat_of_upper (h : d.isUpper = true) : 65 ≤ d.toNat ∧ d.toNat ≤ 90 := by
  have range : 'A'.val ≤ d.val ∧ d.val ≤ 'Z'.val := of_decide_eq_true h
  exact ⟨UInt32.le_iff_toNat_le.1 range.1, UInt32.le_iff_toNat_le.1 range.2⟩

theorem toNat_toLower (h : d.isUpper = true) : d.toLower.toNat = d.toNat + 32 := by
  have lowered : d.toLower.val = d.val + ('a'.val - 'A'.val) := congrArg Char.val (dif_pos (of_decide_eq_true h))
  have step : ('a'.val - 'A'.val).toNat = 32 := rfl
  have range : d.val.toNat ≤ 90 := (toNat_of_upper h).2
  have value := congrArg UInt32.toNat lowered
  rw [UInt32.toNat_add, step, Nat.mod_eq_of_lt (by omega)] at value
  exact value

theorem isWord_of_toLower (h : d.toLower ∈ nameChars) : isWord d = true := by
  have word : ∀ c ∈ nameChars, isWord c = true := List.all_eq_true.1 (by decide)
  cases upper : d.isUpper with
  | true =>
    have small : d.toNat < 128 := Nat.lt_of_le_of_lt (toNat_of_upper upper).2 (by decide)
    have alpha : d.isAlpha = true := Bool.or_eq_true_iff.2 (.inl upper)
    simp [isWord, small, Char.isAlphanum, alpha]
  | false => exact word d (toLower_of_not_upper upper ▸ h)

theorem sameLetter_iff (h : d.toLower ∈ nameChars) (known : p ∈ nameChars) :
    sameLetter p d = true ↔ p = d.toLower := by
  have apart : ∀ p ∈ nameChars, ((caseVariants p).all fun d => !nameChars.contains d.toLower) = true :=
    List.all_eq_true.1 (by decide)
  rw [sameLetter, Bool.or_eq_true, decide_eq_true_eq, List.contains_iff_mem, @eq_comm _ p]
  refine or_iff_left fun variant => ?_
  have foreign := List.all_eq_true.1 (apart p known) d variant
  simp [h] at foreign

theorem eq_lowLine (h : sameLetter '_' d = true) : d = '_' := by
  have same : d.toLower = '_' := by simpa [sameLetter, caseVariants] using h
  cases upper : d.isUpper with
  | true =>
    -- The low line is not the small letter of any capital one.
    have lowered := toNat_toLower upper
    have code : '_'.toNat = 95 := rfl
    have range := (toNat_of_upper upper).1
    rw [same, code] at lowered
    omega
  | false => rwa [toLower_of_not_upper upper] at same

end Letters

theorem Call.nameChars (c : Call) : ∀ d ∈ c.spelling, d.toLower ∈ Function.nameChars := by
  intro d among
  apply mem_nameChars (f := c.function)
  rw [← c.spelled]
  exact List.mem_map_of_mem among

theorem Call.spells (c : Call) : Spells c.function c.spelling := by
  unfold Spells
  rw [← c.spelled, List.forall₂_map_left_iff, List.forall₂_same]
  intro d _
  simp [sameLetter]

/-- A function is told by the spelling of its name. -/
theorem name_of_spells (h : List.Forall₂ (fun p d => sameLetter p d = true) name c.spelling)
    (known : ∀ p ∈ name, p ∈ nameChars) : name = c.function.name.toList := by
  have letters := c.nameChars
  rw [← c.spelled]
  generalize c.spelling = w at h letters
  induction h with
  | nil => rfl
  | cons same _ ih =>
    obtain ⟨first, rest⟩ := List.forall_mem_cons.1 known
    obtain ⟨letter, letters⟩ := List.forall_mem_cons.1 letters
    rw [List.map_cons, (sameLetter_iff letter first).1 same, ih rest letters]

/-- A name that ends in another one has a low line before it. -/
theorem name_end : ∀ f ∈ all, ∀ g ∈ all, g.name.toList <:+ f.name.toList → f = g ∨
    (f.name.toList.take (f.name.toList.length - g.name.toList.length)).getLast? = some '_' := by
  decide +kernel

theorem lowLine_of_last (h : List.Forall₂ (fun p c => sameLetter p c = true) name w)
    (last : name.getLast? = some '_') : w.getLast? = some '_' := by
  rw [← List.forall₂_reverse_iff] at h
  rw [← List.head?_reverse] at last ⊢
  generalize name.reverse = name' at h last
  generalize w.reverse = w' at h
  cases h with
  | nil => cases last
  | cons same _ =>
    cases last
    rw [List.head?_cons, eq_lowLine same]

/-- What a function finds that ends in a call is the call alone, unless a low line stands before it. -/
theorem Spells.of_append (h : Spells f (x ++ c.spelling)) :
    (x = [] ∧ f = c.function) ∨ x.getLast? = some '_' := by
  have letters : ∀ p ∈ f.name.toList, p ∈ Function.nameChars := mem_nameChars
  have start : List.Forall₂ _ (f.name.toList.take x.length) x := List.forall₂_take_append _ _ _ h
  have rest : List.Forall₂ _ (f.name.toList.drop x.length) c.spelling := List.forall₂_drop_append _ _ _ h
  have ending : f.name.toList.drop x.length = c.function.name.toList :=
    name_of_spells rest fun p among => letters p (List.mem_of_mem_drop among)
  have size : f.name.toList.length - c.function.name.toList.length = x.length := by
    have whole := h.length_eq
    have half := rest.length_eq
    rw [List.length_append] at whole
    rw [← ending, half]
    omega
  rcases name_end f (mem_all f) c.function (mem_all _) (ending ▸ List.drop_suffix _ _) with same | low
  · left
    rw [same, Nat.sub_self] at size
    exact ⟨List.eq_nil_of_length_eq_zero size.symm, same⟩
  · right
    rw [size] at low
    exact lowLine_of_last start low

/-- The last character before a place, where some text has been passed. -/
def edge (before : Option Char) (u : List Char) : Option Char := u.getLast?.or before

@[simp] theorem edge_nil (before : Option Char) : edge before [] = before := rfl

@[simp] theorem edge_cons (before : Option Char) (d : Char) (u : List Char) :
    edge before (d :: u) = edge (some d) u := by
  rw [edge, edge, List.getLast?_cons]
  cases u.getLast? <;> rfl

/-- A text in which no call starts is passed as it is. -/
theorem replaceFrom_append
    (h : ∀ x y, u = x ++ y → y ≠ [] → f.call? (edge before x) (y ++ t) = none) :
    f.replaceFrom src before next (u ++ t) =
      (f.replaceFrom src (edge before u) next t).map fun (t, next) => (u ++ t, next) := by
  induction u generalizing before with
  | nil =>
    rw [List.nil_append, edge_nil]
    cases f.replaceFrom src before next t <;> rfl
  | cons d u ih =>
    have later : ∀ x y, u = x ++ y → y ≠ [] → f.call? (edge (some d) x) (y ++ t) = none := by
      intro x y parts more
      rw [← edge_cons before]
      exact h (d :: x) y (by rw [parts, List.cons_append]) more
    have here : f.call? before (d :: (u ++ t)) = none := h [] (d :: u) rfl (List.cons_ne_nil d u)
    rw [List.cons_append, replaceFrom_of_no_call here, ih later, edge_cons]
    cases f.replaceFrom src (edge (some d) u) next t <;> rfl

/-- A call that starts in a text with no parenthesis, right before another call, is that other call, unless the
text ends in a low line. -/
theorem starts_at (closed : '(' ∉ u) (h : f.call? before (u ++ (c.text ++ t)) = some (arg, rest)) :
    before.any isWord = false ∧ ((u = [] ∧ f = c.function) ∨ u.getLast? = some '_') := by
  obtain ⟨free, w, t', parts, spells⟩ := exists_spells h
  have whole : '(' ∉ u ++ c.spelling := by
    rw [List.mem_append]
    exact not_or_intro closed c.spells.closed.1
  have first : (u ++ c.spelling) ++ '(' :: (')' :: t) = w ++ '(' :: t' := by
    rw [← parts, Call.text]
    simp
  have same := congrArg (splitFirst '(') first
  rw [splitFirst_append whole, splitFirst_append spells.closed.1] at same
  cases same
  exact ⟨free, spells.of_append⟩

theorem isWord_of_inside (h : x <:+: c.spelling) (start : x ≠ []) : (edge before x).any isWord = true := by
  have among : x.getLast start ∈ c.spelling := h.subset (List.getLast_mem start)
  rw [edge, List.getLast?_eq_some_getLast start]
  exact isWord_of_toLower (c.nameChars _ among)

/-- No call starts within a call. -/
theorem no_call_within {y : List Char} (parts : c.text = x ++ y) (start : x ≠ []) (more : y ≠ []) :
    f.call? (edge before x) (y ++ t) = none := by
  rw [Option.eq_none_iff_forall_ne_some]
  rintro ⟨arg, rest⟩ h
  obtain ⟨free, w, t', split, spells⟩ := exists_spells h
  have inside : ¬ x <:+: c.spelling := by
    intro inside
    rw [isWord_of_inside inside start] at free
    cases free
  rcases List.append_eq_append_iff.1 parts with ⟨z, rfl, ending⟩ | ⟨z, whole, -⟩
  · cases z with
    | nil =>
      rw [List.append_nil] at inside
      exact inside List.infix_rfl
    | cons d z =>
      obtain ⟨-, closing⟩ := List.cons.inj ending
      cases z with
      | nil =>
        -- Behind the opening parenthesis the closing one would have to begin a name.
        obtain ⟨e, w', rfl⟩ := List.exists_cons_of_ne_nil spells.ne_nil
        cases closing
        cases split
        exact spells.closed.2 List.mem_cons_self
      | cons e z =>
        obtain ⟨-, none⟩ := List.cons.inj closing
        exact more (List.append_eq_nil_iff.1 none.symm).2
  · exact inside (whole ▸ (List.prefix_append x z).isInfix)

@[simp] theorem edge_text (before : Option Char) (c : Call) : edge before c.text = some ')' := by
  rw [edge, Call.text, List.getLast?_append]
  rfl

/-- The text before a call is passed as it is. -/
theorem replaceFrom_before (closed : '(' ∉ u) (low : u.getLast? ≠ some '_') :
    f.replaceFrom src before next (u ++ (c.text ++ t)) =
      (f.replaceFrom src (edge before u) next (c.text ++ t)).map fun (t, next) => (u ++ t, next) := by
  apply replaceFrom_append
  intro x y parts more
  rw [Option.eq_none_iff_forall_ne_some]
  rintro ⟨arg, rest⟩ h
  have fresh : '(' ∉ y := fun among => closed (parts ▸ List.mem_append_right x among)
  rcases (starts_at fresh h).2 with ⟨none, -⟩ | last
  · exact more none
  · exact low (by rw [parts, List.getLast?_append, last, Option.some_or])

/-- A call of another function is passed as it is, and so is one that is not at the edge of a word. -/
theorem replaceFrom_past (other : c.function ≠ f ∨ before.any isWord = true) :
    f.replaceFrom src before next (c.text ++ t) =
      (f.replaceFrom src (some ')') next t).map fun (t, next) => (c.text ++ t, next) := by
  rw [← edge_text before c]
  apply replaceFrom_append
  intro x y parts more
  cases x with
  | nil =>
    rw [Option.eq_none_iff_forall_ne_some]
    rintro ⟨arg, rest⟩ h
    rw [List.nil_append] at parts
    rw [← parts, ← List.nil_append (c.text ++ t)] at h
    obtain ⟨free, ⟨-, same⟩ | low⟩ := starts_at List.not_mem_nil h
    · rcases other with apart | word
      · exact apart same.symm
      · rw [edge_nil, word] at free
        cases free
    · cases low
  | cons d x => exact no_call_within parts (List.cons_ne_nil d x) more

theorem argument?_bare (bare : f.isBare = true) (t : List Char) :
    argument? f ('(' :: ')' :: t) = some (f.bareArgument, t) := by
  have none : isDecimal ')' = false := by decide
  cases f with
  | base64 | upper | lower => cases bare
  | loremIpsum => simp [argument?, countArgument?, bareArgument, stripLeft, isBlank, none, closed?]
  | _ => rfl

/-- A call at the edge of a word is found by the pass of its function. -/
theorem call?_text (c : Call) (free : before.any isWord = false) (t : List Char) :
    c.function.call? before (c.text ++ t) = some (c.function.bareArgument, t) := by
  have named : dropName? c.function.name.toList (c.text ++ t) = some ('(' :: ')' :: t) := by
    apply dropName?_eq_some_iff.2
    exact ⟨c.spelling, by simp [Call.text], c.spells⟩
  rw [call?, free, if_neg Bool.false_ne_true, named]
  exact argument?_bare c.bare t

theorem replaceFrom_text {v : List Char} (free : before.any isWord = false)
    (value : c.function.value src next c.function.bareArgument = .ok v) :
    c.function.replaceFrom src before next (c.text ++ t) =
      (c.function.replaceFrom src (some ')') (next + c.function.draws) t).map fun (t, next) => (v ++ t, next) := by
  have found := call?_text c free t
  obtain ⟨d, r, text⟩ : ∃ d r, c.text ++ t = d :: r :=
    List.exists_cons_of_ne_nil (by simp [Call.text])
  rw [text] at found ⊢
  rw [replaceFrom_of_call found, value]

end DotHttp.Function
