import DotHttp.Proofs.Placeholder.Scan
import DotHttp.Proofs.Text.Blank

/-!
Texts that have been expanded. As long as no value has an opening brace, a second scan finds just the
placeholders that the first one left, so expanding again changes nothing. What can be left of the
placeholder of a known name is the end of an unknown one that has swallowed it.
-/

namespace DotHttp

namespace Placeholder

variable {vars : List Variable} {c : Char} {s t inner rest : List Char}

open Variable (expandChars fill)

theorem expandChars_of_opening (h : opening? s = some (inner, rest)) :
    expandChars vars s = fill vars (.placeholder inner) ++ expandChars vars rest := by
  rw [expandChars, segments_of_opening h, List.flatMap_cons, expandChars]

theorem expandChars_of_no_opening (h : opening? (c :: s) = none) :
    expandChars vars (c :: s) = c :: expandChars vars s := by
  rw [expandChars, segments_of_no_opening h, List.flatMap_cons, expandChars]
  rfl

theorem expandChars_nil : expandChars vars [] = [] := by
  rw [expandChars, segments, List.flatMap_nil]

theorem expand_of_free {text : String} (h : Free text.toList) : Variable.expand vars text = text := by
  apply Variable.expand_of_silent
  intro part among
  cases part with
  | char c => trivial
  | placeholder inner => exact (h inner among).elim

theorem expand_of_no_brace {text : String} (h : '{' ∉ text.toList) : Variable.expand vars text = text :=
  expand_of_free (free_of_no_brace h)

theorem opening?_of_untilClose (h : untilClose s = none) : opening? s = none := by
  rw [Option.eq_none_iff_forall_ne_some]
  rintro ⟨inner, rest⟩ found
  obtain ⟨inner', rest', closed⟩ := exists_untilClose_of_opening? found
  rw [h] at closed
  cases closed

/-- Expanding a text puts no closing braces on a line that has none. -/
theorem untilClose_expandChars (h : untilClose s = none) :
    untilClose (expandChars vars s) = none := by
  induction s with
  | nil =>
    rw [expandChars_nil]
    exact h
  | cons c s ih =>
    rw [expandChars_of_no_opening (opening?_of_untilClose h)]
    by_cases hc : c = '\n'
    · subst hc
      rfl
    have later := untilClose_of_cons hc h
    -- The text after the character begins as it did.
    have apart : ∀ r, c = '}' → expandChars vars s = '}' :: r → False := by
      intro r hb hr
      cases s with
      | nil =>
        rw [expandChars_nil] at hr
        cases hr
      | cons d s =>
        rw [expandChars_of_no_opening (opening?_of_untilClose later)] at hr
        cases hr
        subst hb
        cases h
    rw [untilClose.eq_3 _ _ apart, if_neg hc, ih later]
    rfl

/-- Expanding what is behind a character does not make it start a placeholder. -/
theorem opening?_expandChars (h : opening? (c :: s) = none) :
    opening? (c :: expandChars vars s) = none := by
  rw [Option.eq_none_iff_forall_ne_some]
  rintro ⟨inner, rest⟩ found
  obtain ⟨d, inner', r, text, hd, closed, -⟩ := opening?_eq_some_iff.1 found
  rw [List.cons.injEq] at text
  obtain ⟨rfl, text⟩ := text
  -- Neither the first brace nor the one behind it stands before a placeholder.
  cases s with
  | nil =>
    rw [expandChars_nil] at text
    cases text
  | cons a s =>
    have second := opening?_of_brace h
    rw [expandChars_of_no_opening second, List.cons.injEq] at text
    obtain ⟨rfl, text⟩ := text
    cases s with
    | nil =>
      rw [expandChars_nil] at text
      cases text
    | cons b s =>
      rw [expandChars_of_no_opening (opening?_of_brace second), List.cons.injEq] at text
      obtain ⟨rfl, rfl⟩ := text
      have unclosed : untilClose s = none := by
        rw [opening?, if_neg hd, Option.map_eq_none_iff] at h
        exact h
      rw [untilClose_expandChars unclosed] at closed
      cases closed

end Placeholder

/-- The parts that a scan finds in the place of a part that has been filled. -/
def Segment.left (vars : List Variable) : Segment → List Segment
  | .char c => [.char c]
  | .placeholder inner =>
    match Variable.lookup vars (String.ofList (Text.strip inner)) with
    | some value => value.toList.map .char
    | none => [.placeholder inner]

namespace Variable

variable {vars : List Variable} {s name : List Char}

theorem flatMap_fill_left (part : Segment) : (part.left vars).flatMap (fill vars) = fill vars part := by
  cases part with
  | char c => rfl
  | placeholder inner =>
    cases known : lookup vars (String.ofList (Text.strip inner)) with
    | none => simp [Segment.left, known]
    | some value => simp [Segment.left, fill, known, List.flatMap_map]

section

variable (unopened : ∀ v ∈ vars, '{' ∉ v.value.toList)
include unopened

/-- A second scan finds what the first one left. -/
theorem segments_expandChars (s : List Char) :
    Placeholder.segments (expandChars vars s) =
      (Placeholder.segments s).flatMap (Segment.left vars) := by
  fun_induction Placeholder.segments s with
  | case1 => rw [Placeholder.expandChars_nil, Placeholder.segments, List.flatMap_nil]
  | case2 c r inner rest found ih =>
    rw [Placeholder.expandChars_of_opening found, List.flatMap_cons, ← ih]
    cases known : lookup vars (String.ofList (Text.strip inner)) with
    | none =>
      simp only [fill, Segment.left, known]
      exact Placeholder.segments_of_opening (Placeholder.opening?_append found _)
    | some value =>
      obtain ⟨before, v, after, among, -, -, rfl⟩ := lookup_eq_some_iff.1 known
      have plain : '{' ∉ v.value.toList := unopened v (by simp [among])
      simp only [fill, Segment.left, known]
      exact Placeholder.segments_append_of_no_brace plain _
  | case3 c r none ih =>
    rw [Placeholder.expandChars_of_no_opening none, List.flatMap_cons, ← ih]
    exact Placeholder.segments_of_no_opening (Placeholder.opening?_expandChars none)

theorem expandChars_expandChars (s : List Char) :
    expandChars vars (expandChars vars s) = expandChars vars s := by
  rw [expandChars, segments_expandChars unopened, List.flatMap_assoc]
  simp only [flatMap_fill_left]
  rfl

end

/-- Expanding a text a second time changes nothing. -/
theorem expand_idempotent (unopened : ∀ v ∈ vars, '{' ∉ v.value.toList) (text : String) :
    expand vars (expand vars text) = expand vars text := by
  rw [expand, expand, String.toList_ofList, expandChars_expandChars unopened]

/-- Braces that are in the way of each other, an open line, and a value that is a line end. -/
theorem expand_idempotent_among_braces :
    let vars : List Variable := [⟨"a", "\x7d"⟩, ⟨"b", "\n"⟩, ⟨"c", ""⟩]
    let text := "\x7b\x7b\x7ba\x7d\x7d \x7b\x7bb\x7d\x7d\x7d\x7b\x7b\n" ++
      "\x7b\x7b\x7d\x7d \x7b\x7bc\x7d\x7d\x7b\x7b a \x7d\x7d\x7d"
    (∀ v ∈ vars, '{' ∉ v.value.toList) ∧ expand vars (expand vars text) = expand vars text ∧
      expand vars text =
        "\x7b\x7b\x7ba\x7d\x7d \n\x7d\x7b\x7b\n\x7b\x7b\x7d\x7d \x7b\x7bc\x7d\x7d\x7d\x7d" := by
  refine ⟨by decide, expand_idempotent (by decide) _, by decide +kernel⟩

end Variable

namespace Placeholder

variable {s t name inner rest : List Char}

theorem written_append (inner t : List Char) :
    written inner ++ t = '{' :: '{' :: (inner ++ '}' :: '}' :: t) := by
  simp [written]

/-- A placeholder that closing braces are looked for before is passed by, or they are its own. -/
theorem untilClose_past (clean : ∀ c ∈ name, c ≠ '}' ∧ c ≠ '\n')
    (h : untilClose (s ++ (written name ++ t)) = some (inner, rest)) :
    inner = s ++ '{' :: '{' :: name ∨ ∃ s', rest = s' ++ (written name ++ t) := by
  induction s generalizing inner with
  | nil =>
    have braced : ∀ c ∈ '{' :: '{' :: name, c ≠ '}' ∧ c ≠ '\n' := by
      rw [List.forall_mem_cons, List.forall_mem_cons]
      exact ⟨by decide, by decide, clean⟩
    have closes := untilClose_of_clean braced t
    rw [List.nil_append, written_append, ← List.cons_append, ← List.cons_append, closes] at h
    cases h
    exact .inl rfl
  | cons c s ih =>
    by_cases closing : c = '}' ∧ ∃ s', s = '}' :: s'
    · obtain ⟨rfl, s', rfl⟩ := closing
      cases h
      exact .inr ⟨s', rfl⟩
    have apart : ∀ r, c = '}' → s ++ (written name ++ t) = '}' :: r → False := by
      intro r hb hr
      cases s with
      | nil => cases hr
      | cons d s =>
        cases hr
        exact closing ⟨hb, s, rfl⟩
    rw [List.cons_append, untilClose.eq_3 _ _ apart] at h
    split at h
    · cases h
    · simp only [Option.map_eq_some_iff, Prod.exists, Prod.mk.injEq] at h
      obtain ⟨inner', left, found, rfl, rfl⟩ := h
      exact (ih found).imp_left (congrArg (c :: ·))

theorem written_suffix {v : List Char} (h : '{' :: '{' :: inner = v ++ '{' :: '{' :: name) :
    written name <:+ written inner := by
  refine ⟨v, ?_⟩
  rw [written, written, ← List.append_assoc, ← h]

/-- Wherever a placeholder stands in a text, a scan finds one that ends with it. -/
theorem exists_segment_of_written (plain : Plain name) :
    ∃ inner, .placeholder inner ∈ segments (s ++ (written name ++ t)) ∧
      written name <:+ written inner := by
  have clean : ∀ c ∈ name, c ≠ '}' ∧ c ≠ '\n' := fun c hc => (plain.clean c hc).2
  generalize text : s ++ (written name ++ t) = whole
  fun_induction segments whole generalizing s with
  | case1 => simp [written] at text
  | case2 c r inner rest found ih =>
    obtain ⟨d, inner', r', split, -, closed, rfl⟩ := opening?_eq_some_iff.1 found
    rw [split] at text found
    -- The placeholder of the name starts with the one that is found, one or two braces later, or past
    -- its first character.
    cases s with
    | nil =>
      rw [List.nil_append] at text
      rw [← text, plain.opening?] at found
      cases found
      exact ⟨_, List.mem_cons_self, List.suffix_refl _⟩
    | cons a s =>
      cases s with
      | nil =>
        simp only [written_append, List.cons_append, List.nil_append, List.cons.injEq,
          true_and] at text
        obtain ⟨rfl, rfl, rfl⟩ := text
        rw [untilClose_of_clean clean] at closed
        cases closed
        exact ⟨_, List.mem_cons_self, written_suffix (v := ['{']) rfl⟩
      | cons b s =>
        cases s with
        | nil =>
          simp only [written_append, List.cons_append, List.nil_append, List.cons.injEq] at text
          obtain ⟨rfl, rfl, rfl, rfl⟩ := text
          have braced : ∀ c ∈ '{' :: name, c ≠ '}' ∧ c ≠ '\n' := by
            rw [List.forall_mem_cons]
            exact ⟨by decide, clean⟩
          rw [← List.cons_append, untilClose_of_clean braced] at closed
          cases closed
          exact ⟨_, List.mem_cons_self, written_suffix (v := ['{', '{']) rfl⟩
        | cons e s =>
          simp only [List.cons_append, List.cons.injEq] at text
          obtain ⟨rfl, rfl, rfl, rfl⟩ := text
          rcases untilClose_past clean closed with rfl | ⟨s', rfl⟩
          · exact ⟨_, List.mem_cons_self, written_suffix (v := '{' :: '{' :: e :: s) rfl⟩
          · obtain ⟨inner, later, ends⟩ := ih rfl
            exact ⟨inner, List.mem_cons_of_mem _ later, ends⟩
  | case3 c r none ih =>
    cases s with
    | nil =>
      rw [List.nil_append] at text
      rw [← text, plain.opening?] at none
      cases none
    | cons d s =>
      rw [List.cons_append, List.cons.injEq] at text
      obtain ⟨inner, found, ends⟩ := ih text.2
      exact ⟨inner, List.mem_cons_of_mem _ found, ends⟩

theorem plain_of_word {name : String} (nonempty : name ≠ "")
    (word : ∀ c ∈ name.toList, Text.isWord c = true) : Plain name.toList := by
  constructor
  · rwa [Ne, String.toList_eq_nil_iff]
  · intro c hc
    have letter := word c hc
    refine ⟨?_, ?_, ?_⟩
    · rintro rfl
      cases letter
    · rintro rfl
      cases letter
    · rintro rfl
      cases letter

end Placeholder

namespace Variable

open DotHttp.Placeholder

/-- A longer placeholder, which has no value, ends with the placeholder of a name. -/
def Swallows (vars : List Variable) (text name : String) : Prop :=
  ∃ inner, .placeholder inner ∈ segments text.toList ∧ (Segment.placeholder inner).Silent vars ∧
    inner ≠ name.toList ∧ written name.toList <:+ written inner

variable {vars : List Variable} {inner : List Char} {part : Segment}

theorem placeholder_mem_left (h : .placeholder inner ∈ part.left vars) :
    part = .placeholder inner ∧ part.Silent vars := by
  cases part with
  | char c => simp [Segment.left] at h
  | placeholder inner' =>
    cases known : lookup vars (String.ofList (Text.strip inner')) with
    | none =>
      simp only [Segment.left, known, List.mem_singleton, Segment.placeholder.injEq] at h
      subst h
      exact ⟨rfl, known⟩
    | some value => simp [Segment.left, known] at h

theorem fill_infix_expandChars {s : List Char} (h : part ∈ segments s) :
    fill vars part <:+: expandChars vars s := by
  obtain ⟨before, after, split⟩ := List.append_of_mem h
  rw [expandChars, split, List.flatMap_append, List.flatMap_cons, ← List.append_assoc]
  exact List.infix_append _ _ _

theorem not_silent_of_known {name : String} (known : ∃ v ∈ vars, v.name = name)
    (nonempty : name ≠ "") (word : ∀ c ∈ name.toList, Text.isWord c = true) :
    ¬ (Segment.placeholder name.toList).Silent vars := by
  intro silent
  obtain ⟨v, among, named⟩ := known
  have compact : Text.Compact name.toList := by
    constructor
    · rwa [Ne, String.toList_eq_nil_iff]
    · intro c hc
      exact Text.isBlank_of_isWord (word c hc)
  rw [Segment.Silent, Text.strip_of_compact compact, String.ofList_toList] at silent
  exact lookup_eq_none_iff.1 silent v among named

/-- The placeholder of a known name stays in a text only where a longer one that has no value has
swallowed it. -/
theorem occurs_expand_iff (unopened : ∀ v ∈ vars, '{' ∉ v.value.toList) {name : String}
    (known : ∃ v ∈ vars, v.name = name) (nonempty : name ≠ "")
    (word : ∀ c ∈ name.toList, Text.isWord c = true) (text : String) :
    written name.toList <:+: (expand vars text).toList ↔ Swallows vars text name := by
  rw [expand, String.toList_ofList]
  constructor
  · rintro ⟨s, t, occurs⟩
    obtain ⟨inner, found, ends⟩ :=
      exists_segment_of_written (s := s) (t := t) (plain_of_word nonempty word)
    rw [← List.append_assoc, occurs, segments_expandChars unopened, List.mem_flatMap] at found
    obtain ⟨part, among, left⟩ := found
    obtain ⟨rfl, silent⟩ := placeholder_mem_left left
    refine ⟨inner, among, silent, ?_, ends⟩
    rintro rfl
    exact not_silent_of_known known nonempty word silent
  · rintro ⟨inner, among, silent, -, ends⟩
    have stays : fill vars (.placeholder inner) = written inner := by
      simp only [fill, show lookup vars (String.ofList (Text.strip inner)) = none from silent]
    have whole : fill vars (.placeholder inner) <:+: expandChars vars text.toList :=
      fill_infix_expandChars among
    rw [stays] at whole
    exact ends.isInfix.trans whole

/-- Behind the opening brace of an object, behind braces that nothing closes, and on their own. -/
def bracedTexts : List String :=
  ["\x7b\"id\": \x7b\x7b\x7bv\x7d\x7d\x7d", "\x7b\x7b a \x7b\x7bv\x7d\x7d",
    "\x7b\x7b\n\x7b\x7bv\x7d\x7d\x7d"]

theorem occurs_expand_iff_braced :
    let vars : List Variable := [⟨"v", "1"⟩]
    let occurs := fun text => written "v".toList <:+: (expand vars text).toList
    (∀ v ∈ vars, '{' ∉ v.value.toList) ∧ (∃ v ∈ vars, v.name = "v") ∧ "v" ≠ "" ∧
      (∀ c ∈ "v".toList, Text.isWord c = true) ∧
      (∀ text ∈ bracedTexts, occurs text ↔ Swallows vars text "v") ∧
      bracedTexts.map (fun text => Text.occursIn (written "v".toList) (expand vars text).toList) =
        [true, true, false] := by
  intro vars occurs
  have unopened : ∀ v ∈ vars, '{' ∉ v.value.toList := by decide
  have known : ∃ v ∈ vars, v.name = "v" := by decide
  have word : ∀ c ∈ "v".toList, Text.isWord c = true := List.all_eq_true.1 (by decide)
  refine ⟨unopened, known, by decide, word, ?_, by decide +kernel⟩
  intro text _
  exact occurs_expand_iff unopened known (by decide) word text

/-- Three braces in a row keep the placeholder of a known name from being filled. -/
theorem known_name_stays : ¬ ∀ (vars : List Variable) (name text : String),
    (∀ v ∈ vars, '{' ∉ v.value.toList ∧ '}' ∉ v.value.toList) → (∃ v ∈ vars, v.name = name) →
      name ≠ "" → (∀ c ∈ name.toList, Text.isWord c = true) →
        ¬ written name.toList <:+: (expand vars text).toList := by
  intro gone
  apply gone [⟨"v", "1"⟩] "v" "\x7b\x7b\x7bv\x7d\x7d\x7d"
  · decide
  · decide
  · decide
  · exact List.all_eq_true.1 (by decide)
  · decide +kernel

end Variable

end DotHttp
